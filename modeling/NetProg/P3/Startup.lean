import NetProg.P3.ThreadPool
import NetProg.Shared.Threads
import NetProg.Shared.Transition

set_option autoImplicit false

namespace NetProg.P3

open Threads Transition

inductive ThreadState where
  -- `malloc` or `pthread_create` has failed in `threadInit`
  | null
  | unstarted
  -- a running thread, before and after `numActiveThreads++`
  | created
  | active
deriving DecidableEq, Repr

inductive InitPc where
  | called
  | allocated
  | queueReady
  | creating
  | counted
  | returned (pool : Bool)
  | exited
  | crashed
deriving DecidableEq, Repr

structure Startup where
  pc : InitPc
  numActiveThreads : Int
  numWorkingThreads : Int
  taskQ : TaskQueue
  taskCheck : BSem
  -- the entries of `threads` that have been filled, by id
  threads : List ThreadState
  signalThread : Bool

inductive StartupEvent where
  -- main goes on; what `malloc` and `pthread_create` answer
  | main (allocates creates : Bool)
  | worker (id : Nat)

def StartupEvent.succeeds : StartupEvent → Bool
  | .main allocates creates => allocates && creates
  | .worker _ => true

def threadInit (allocates creates : Bool) : ThreadState :=
  if allocates = false then .null else if creates then .created else .unstarted

section Startup

variable (numThreads : Int) (s : Startup)

def Startup.main (allocates creates : Bool) : Option Startup :=
  match s.pc with
  | .called =>
    if numThreads ≤ 0 then some { s with pc := .exited }
    else if allocates then some { s with pc := .allocated, numActiveThreads := 0, numWorkingThreads := 0 }
    else some { s with pc := .returned false }
  | .allocated =>
    -- `initTaskQueue` compares `taskQ`, not `taskQ->taskCheck`, with NULL
    if allocates then some { s with pc := .queueReady, taskQ := initTaskQueue, taskCheck := bSemInit 0 }
    else some { s with pc := .crashed }
  | .queueReady => some { s with pc := if allocates then .creating else .returned false }
  | .creating =>
    if s.threads.length < numThreads then some { s with threads := s.threads ++ [threadInit allocates creates] }
    -- `none` while main spins
    else if s.numActiveThreads = numThreads then some { s with pc := .counted } else none
  | .counted => some { s with pc := .returned true, signalThread := creates }
  | .returned _ => none
  | .exited => none
  | .crashed => none

def Startup.worker (id : Nat) : Option Startup :=
  if s.threads[id]? = some .created then
    some { s with threads := s.threads.set id .active, numActiveThreads := s.numActiveThreads + 1 }
  else none

def Startup.step : StartupEvent → Option Startup
  | .main allocates creates => s.main numThreads allocates creates
  | .worker id => s.worker id

def startup : System Startup StartupEvent where
  -- what else is in the block that becomes the pool is not known
  init s := s.pc = .called ∧ s.threads = []
  step s := s.step numThreads

def Startup.pool : Option PoolState :=
  if ∀ k : Fin thrNum, s.threads[k.val]? = some .active then some {
    heap := fun _ => none
    taskQ := s.taskQ
    taskCheck := s.taskCheck
    numWorkingThreads := s.numWorkingThreads
    main := .idle
    workers := fun _ => .waiting
    fault := false
    history := { enqueued := 0, dequeued := [], executed := [], finished := [] } }
  else none

end Startup

def InitPc.stage : InitPc → Nat
  | .called | .returned false | .exited | .crashed => 0
  | .allocated => 1
  | .queueReady => 2
  | .creating => 3
  | .counted => 4
  | .returned true => 5

def ThreadState.isActive (t : ThreadState) : Nat := if t = .active then 1 else 0

structure Startup.Sound (numThreads : Int) (s : Startup) : Prop where
  positive : 1 ≤ s.pc.stage → 0 < numThreads
  counts : 1 ≤ s.pc.stage → s.numActiveThreads = (s.threads.map ThreadState.isActive).sum ∧ s.numWorkingThreads = 0
  queue : 2 ≤ s.pc.stage → s.taskQ = initTaskQueue ∧ s.taskCheck = bSemInit 0
  early : s.pc.stage < 3 → s.threads = []
  room : 3 ≤ s.pc.stage → s.threads.length ≤ numThreads
  all : 4 ≤ s.pc.stage → s.threads.length = numThreads ∧ s.numActiveThreads = numThreads

def InitPc.gaveUp : InitPc → Bool
  | .returned false | .exited | .crashed => true
  | _ => false

def ThreadState.missing : ThreadState → Bool
  | .null | .unstarted => true
  | _ => false

-- What `threadPoolInit` gives up for, or does not notice.
def Startup.Failed (numThreads : Int) (s : Startup) : Prop :=
  numThreads ≤ 0 ∨ s.pc.gaveUp = true ∨ ∃ t ∈ s.threads, t.missing = true

section Sound

variable {numThreads : Int} {s s' : Startup}

theorem active_le (threads : List ThreadState) : (threads.map ThreadState.isActive).sum ≤ threads.length := by
  induction threads with
  | nil => rfl
  | cons t rest ih =>
    simp only [List.map_cons, List.sum_cons, List.length_cons, ThreadState.isActive]
    split_ifs <;> omega

theorem active_of_sum {threads : List ThreadState} (all : threads.length ≤ (threads.map ThreadState.isActive).sum) :
    ∀ t ∈ threads, t = .active := by
  induction threads with
  | nil => simp
  | cons t rest ih =>
    have bound := active_le rest
    simp only [List.map_cons, List.sum_cons, List.length_cons, ThreadState.isActive] at all
    split_ifs at all with active
    · intro t' member
      rcases List.mem_cons.mp member with rfl | later
      · exact active
      · exact ih (by omega) t' later
    · omega

theorem worker_step {id : Nat} (stepped : s.worker id = some s') : s.threads[id]? = some .created ∧
    s' = { s with threads := s.threads.set id .active, numActiveThreads := s.numActiveThreads + 1 } := by
  simp only [Startup.worker] at stepped
  split_ifs at stepped with created
  exact ⟨created, (Option.some.inj stepped).symm⟩

theorem worker_sound (sound : s.Sound numThreads) {id : Nat} (stepped : s.worker id = some s') :
    s'.Sound numThreads := by
  obtain ⟨created, rfl⟩ := worker_step stepped
  have late : ¬ s.pc.stage < 3 := by
    intro early
    simp [sound.early early] at created
  have sums : ((s.threads.set id .active).map ThreadState.isActive).sum + 0 =
      (s.threads.map ThreadState.isActive).sum + 1 := sum_set ThreadState.isActive created
  have bound := active_le (s.threads.set id .active)
  rw [List.length_set] at bound
  constructor
  case positive => exact sound.positive
  case counts =>
    intro stage
    obtain ⟨counts, working⟩ := sound.counts stage
    exact ⟨by simp only [counts]; omega, working⟩
  case queue => exact sound.queue
  case early => exact fun early => absurd early late
  case room => simpa using sound.room
  case all =>
    intro stage
    have stage : 4 ≤ s.pc.stage := stage
    obtain ⟨counts, -⟩ := sound.counts (by omega)
    obtain ⟨length, active⟩ := sound.all stage
    omega

-- Before there is a pool, and after `threadPoolInit` has given up.
theorem poolless_sound (stage : s.pc.stage = 0) (empty : s.threads = []) : s.Sound numThreads := by
  constructor <;> simp [stage, empty]

theorem main_sound (sound : s.Sound numThreads) {allocates creates : Bool}
    (stepped : s.main numThreads allocates creates = some s') : s'.Sound numThreads := by
  obtain ⟨positive, counts, queue, early, room, all⟩ := sound
  simp only [Startup.main] at stepped
  split at stepped
  next pc =>
    rw [pc] at early
    have empty := early (by decide)
    split_ifs at stepped with invalid allocated <;> obtain rfl := Option.some.inj stepped
    · exact poolless_sound rfl empty
    · exact ⟨fun _ => by omega, fun _ => by simp [empty], by simp [InitPc.stage], fun _ => empty,
        by simp [InitPc.stage], by simp [InitPc.stage]⟩
    · exact poolless_sound rfl empty
  next pc =>
    rw [pc] at early positive counts
    have empty := early (by decide)
    split_ifs at stepped <;> obtain rfl := Option.some.inj stepped
    · exact ⟨fun _ => positive (by decide), fun _ => counts (by decide), fun _ => ⟨rfl, rfl⟩, fun _ => empty,
        by simp [InitPc.stage], by simp [InitPc.stage]⟩
    · exact poolless_sound rfl empty
  next pc =>
    rw [pc] at early positive counts queue
    have empty := early (by decide)
    obtain rfl := Option.some.inj stepped
    cases allocates with
    | false => exact poolless_sound rfl empty
    | true =>
      have valid := positive (by decide)
      exact ⟨fun _ => valid, fun _ => counts (by decide), fun _ => queue (by decide), fun _ => empty,
        fun _ => by simpa [empty] using valid.le, by simp [InitPc.stage]⟩
  next pc =>
    rw [pc] at positive counts queue room
    obtain ⟨sum, working⟩ := counts (by decide)
    split_ifs at stepped with more active <;> obtain rfl := Option.some.inj stepped
    · have inactive : (threadInit allocates creates).isActive = 0 := by cases allocates <;> cases creates <;> rfl
      refine ⟨fun _ => positive (by decide), fun _ => ⟨?_, working⟩, fun _ => queue (by decide), ?_, fun _ => ?_, ?_⟩
      · simpa [inactive] using sum
      · simp [pc, InitPc.stage]
      · simp only [List.length_append, List.length_singleton]
        omega
      · simp [pc, InitPc.stage]
    · have length := room (by decide)
      exact ⟨fun _ => positive (by decide), fun _ => ⟨sum, working⟩, fun _ => queue (by decide), by simp [InitPc.stage],
        fun _ => length, fun _ => ⟨le_antisymm length (not_lt.mp more), active⟩⟩
  next pc =>
    rw [pc] at positive counts queue room all
    obtain rfl := Option.some.inj stepped
    exact ⟨fun _ => positive (by decide), fun _ => counts (by decide), fun _ => queue (by decide),
      by simp [InitPc.stage], fun _ => room (by decide), fun _ => all (by decide)⟩
  all_goals cases stepped

theorem reachable_sound (reached : (startup numThreads).Reachable s) : s.Sound numThreads := by
  refine reached.invariant (P := Startup.Sound numThreads) ?_ ?_
  · rintro s ⟨pc, empty⟩
    exact poolless_sound (by rw [pc]; rfl) empty
  · rintro s (⟨allocates, creates⟩ | id) s' _ sound _ stepped
    · exact main_sound sound stepped
    · exact worker_sound sound stepped

theorem all_active (sound : s.Sound numThreads) (stage : 4 ≤ s.pc.stage) : ∀ t ∈ s.threads, t = .active := by
  obtain ⟨length, active⟩ := sound.all stage
  obtain ⟨counts, -⟩ := sound.counts (by omega)
  exact active_of_sum (by omega)

theorem not_failed : ¬ s.Failed numThreads ↔
    0 < numThreads ∧ s.pc.gaveUp = false ∧ ∀ t ∈ s.threads, t.missing = false := by
  simp [Startup.Failed]

theorem main_threads {allocates creates : Bool} (stepped : s.main numThreads allocates creates = some s') :
    s.pc.gaveUp = false ∧ s.threads ⊆ s'.threads := by
  simp only [Startup.main] at stepped
  split at stepped
  next pc =>
    split_ifs at stepped <;> obtain rfl := Option.some.inj stepped
    all_goals exact ⟨by rw [pc]; rfl, List.Subset.refl _⟩
  next pc =>
    split_ifs at stepped <;> obtain rfl := Option.some.inj stepped
    all_goals exact ⟨by rw [pc]; rfl, List.Subset.refl _⟩
  next pc =>
    obtain rfl := Option.some.inj stepped
    exact ⟨by rw [pc]; rfl, List.Subset.refl _⟩
  next pc =>
    split_ifs at stepped <;> obtain rfl := Option.some.inj stepped
    · exact ⟨by rw [pc]; rfl, List.subset_append_left _ _⟩
    · exact ⟨by rw [pc]; rfl, List.Subset.refl _⟩
  next pc =>
    obtain rfl := Option.some.inj stepped
    exact ⟨by rw [pc]; rfl, List.Subset.refl _⟩
  all_goals cases stepped

theorem step_failed (failed : s.Failed numThreads) {e : StartupEvent} (stepped : s.step numThreads e = some s') :
    s'.Failed numThreads := by
  cases e with
  | main allocates creates =>
    obtain ⟨goesOn, kept⟩ := main_threads stepped
    rcases failed with invalid | stopped | ⟨t, member, missing⟩
    · exact .inl invalid
    · simp [goesOn] at stopped
    · exact .inr (.inr ⟨t, kept member, missing⟩)
  | worker id =>
    obtain ⟨created, rfl⟩ := worker_step stepped
    refine failed.imp_right (Or.imp_right ?_)
    rintro ⟨t, member, missing⟩
    obtain ⟨i, here⟩ := List.mem_iff_getElem?.mp member
    have other : id ≠ i := by
      rintro rfl
      obtain rfl := Option.some.inj (here.symm.trans created)
      cases missing
    exact ⟨t, List.mem_of_getElem? ((List.getElem?_set_ne other).trans here), missing⟩

theorem failed_unreturned (sound : s.Sound numThreads) (failed : s.Failed numThreads) : s.pc ≠ .returned true := by
  intro pc
  rcases failed with invalid | stopped | ⟨t, member, missing⟩
  · exact absurd (sound.positive (by rw [pc]; decide)) (by omega)
  · rw [pc] at stopped
    cases stopped
  · rw [all_active sound (by rw [pc]; decide) t member] at missing
    cases missing

def ThreadState.isCreated (t : ThreadState) : Nat := if t = .created then 1 else 0

def Startup.distance (numThreads : Int) (s : Startup) : Nat :=
  (5 - s.pc.stage) + 2 * (numThreads.toNat - s.threads.length) + (s.threads.map ThreadState.isCreated).sum

theorem step_nearer (fine : ¬ s.Failed numThreads) {e : StartupEvent}
    (succeeds : e.succeeds = true) (stepped : s.step numThreads e = some s') :
    ¬ s'.Failed numThreads ∧ s'.distance numThreads < s.distance numThreads := by
  obtain ⟨valid, goesOn, present⟩ := not_failed.mp fine
  cases e with
  | worker id =>
    obtain ⟨created, rfl⟩ := worker_step stepped
    constructor
    · refine not_failed.mpr ⟨valid, goesOn, fun t member => ?_⟩
      rcases List.mem_or_eq_of_mem_set member with old | rfl
      · exact present t old
      · rfl
    · have sums : ((s.threads.set id .active).map ThreadState.isCreated).sum + 1 =
          (s.threads.map ThreadState.isCreated).sum + 0 := sum_set ThreadState.isCreated created
      simp only [Startup.distance, List.length_set]
      omega
  | main allocates creates =>
    obtain ⟨rfl, rfl⟩ : allocates = true ∧ creates = true := by simpa [StartupEvent.succeeds] using succeeds
    simp only [Startup.step, Startup.main, if_true] at stepped
    split at stepped
    next pc =>
      split_ifs at stepped with invalid
      · omega
      · obtain rfl := Option.some.inj stepped
        exact ⟨not_failed.mpr ⟨valid, rfl, present⟩, by simp [Startup.distance, pc, InitPc.stage]⟩
    next pc =>
      obtain rfl := Option.some.inj stepped
      exact ⟨not_failed.mpr ⟨valid, rfl, present⟩, by simp [Startup.distance, pc, InitPc.stage]⟩
    next pc =>
      obtain rfl := Option.some.inj stepped
      exact ⟨not_failed.mpr ⟨valid, rfl, present⟩, by simp [Startup.distance, pc, InitPc.stage]⟩
    next pc =>
      split_ifs at stepped with more active <;> obtain rfl := Option.some.inj stepped
      · refine ⟨not_failed.mpr ⟨valid, goesOn, fun t member => ?_⟩, ?_⟩
        · rcases List.mem_append.mp member with old | new
          · exact present t old
          · rw [List.mem_singleton.mp new]
            rfl
        · have created : (threadInit true true).isCreated = 1 := rfl
          simp only [Startup.distance, List.length_append, List.length_singleton, List.map_append, List.map_cons,
            List.map_nil, List.sum_append, List.sum_cons, List.sum_nil, created]
          omega
      · exact ⟨not_failed.mpr ⟨valid, rfl, present⟩, by simp [Startup.distance, pc, InitPc.stage]⟩
    next pc =>
      obtain rfl := Option.some.inj stepped
      exact ⟨not_failed.mpr ⟨valid, rfl, present⟩, by simp [Startup.distance, pc, InitPc.stage]⟩
    all_goals cases stepped

theorem sum_of_active {threads : List ThreadState} (all : ∀ t ∈ threads, t = .active) :
    (threads.map ThreadState.isActive).sum = threads.length := by
  rw [List.eq_replicate_of_mem all]
  simp [ThreadState.isActive]

theorem goes_on (sound : s.Sound numThreads) (fine : ¬ s.Failed numThreads) (unreturned : s.pc ≠ .returned true) :
    ∃ e : StartupEvent, e.succeeds = true ∧ s.step numThreads e ≠ none := by
  obtain ⟨valid, goesOn, present⟩ := not_failed.mp fine
  cases pc : s.pc with
  | called | allocated | queueReady | counted =>
    refine ⟨.main true true, rfl, ?_⟩
    simp [Startup.step, Startup.main, pc, not_le.mpr valid]
  | creating =>
    by_cases more : s.threads.length < numThreads
    · exact ⟨.main true true, rfl, by simp [Startup.step, Startup.main, pc, more]⟩
    · by_cases all : ∀ t ∈ s.threads, t = .active
      · have counts := (sound.counts (by rw [pc]; decide)).1
        have room := sound.room (by rw [pc]; decide)
        rw [sum_of_active all] at counts
        have active : s.numActiveThreads = numThreads := by omega
        exact ⟨.main true true, rfl, by simp [Startup.step, Startup.main, pc, more, active]⟩
      · -- Somebody has still to count itself.
        simp only [not_forall] at all
        obtain ⟨t, member, inactive⟩ := all
        obtain ⟨id, here⟩ := List.mem_iff_getElem?.mp member
        have created : t = .created := by
          have there := present t member
          cases t <;> simp_all [ThreadState.missing]
        exact ⟨.worker id, rfl, by simp [Startup.step, Startup.worker, here, created]⟩
  | returned pool =>
    cases pool with
    | true => exact absurd pc unreturned
    | false => simp [pc, InitPc.gaveUp] at goesOn
  | exited | crashed => simp [pc, InitPc.gaveUp] at goesOn

end Sound

theorem threadPoolInit_returns {numThreads : Int} {s : Startup} (reached : (startup numThreads).Reachable s) :
    (s.Failed numThreads → ∀ events s', (startup numThreads).exec s events = some s' → s'.pc ≠ .returned true) ∧
      (¬ s.Failed numThreads →
        (∀ events s', (∀ e ∈ events, StartupEvent.succeeds e = true) → (startup numThreads).exec s events = some s' →
          events.length + s'.distance numThreads ≤ s.distance numThreads) ∧
          ((∀ e, StartupEvent.succeeds e = true → (startup numThreads).step s e = none) → s.pc = .returned true)) ∧
      (s.pc = .returned true → s.threads = List.replicate numThreads.toNat .active ∧
        (numThreads = thrNum → s.pool = some threadPoolInit)) := by
  have sound := reachable_sound reached
  refine ⟨fun failed events s' ran => ?_, fun fine => ⟨fun events s' succeed ran => ?_, fun stuck => ?_⟩, fun pc => ?_⟩
  · have still : s'.Sound numThreads ∧ s'.Failed numThreads := by
      have preserved (s : Startup) (e : StartupEvent) (s' : Startup) (failed : s.Failed numThreads)
          (stepped : (startup numThreads).step s e = some s') : s'.Failed numThreads := step_failed failed stepped
      exact ⟨reachable_sound (System.exec_reachable reached ran), System.exec_invariant preserved failed ran⟩
    exact failed_unreturned still.1 still.2
  · exact System.exec_length (Startup.distance numThreads)
      (fun s e s' fine succeeds stepped => step_nearer fine succeeds stepped) fine succeed ran
  · by_contra unreturned
    obtain ⟨e, succeeds, moves⟩ := goes_on sound fine unreturned
    exact moves (stuck e succeeds)
  · have active := all_active sound (by rw [pc]; decide)
    obtain ⟨length, -⟩ := sound.all (by rw [pc]; decide)
    obtain ⟨-, working⟩ := sound.counts (by rw [pc]; decide)
    obtain ⟨taskQ, taskCheck⟩ := sound.queue (by rw [pc]; decide)
    refine ⟨List.eq_replicate_iff.mpr ⟨by omega, active⟩, fun ten => ?_⟩
    have each (k : Fin thrNum) : s.threads[k.val]? = some .active := by
      have inside : k.val < s.threads.length := by omega
      rw [List.getElem?_eq_getElem inside]
      exact congrArg some (active _ (List.getElem_mem inside))
    rw [Startup.pool, if_pos each, taskQ, taskCheck, working]
    rfl

-- The block of the pool holds what was there before.
def unwrittenPool : Startup where
  pc := .called
  numActiveThreads := 99
  numWorkingThreads := -1
  taskQ := { len := 5, head := some 1, tail := none }
  taskCheck := fun _ => 1
  threads := []
  signalThread := false

-- The second of two threads cannot be created, and main spins for ever.
theorem second_thread_missing : ∃ s, (startup 2).exec unwrittenPool [.main true true, .main true true, .main true true,
    .main true true, .main true false, .worker 0] = some s ∧ s.threads = [.active, .unstarted] ∧
      ∀ events s', (startup 2).exec s events = some s' → s'.pc ≠ .returned true := by
  obtain ⟨s, ran, threads⟩ : ∃ s, (startup 2).exec unwrittenPool [.main true true, .main true true, .main true true,
      .main true true, .main true false, .worker 0] = some s ∧ s.threads = [.active, .unstarted] := ⟨_, rfl, rfl⟩
  have start : (startup 2).Reachable unwrittenPool := .initial unwrittenPool ⟨rfl, rfl⟩
  have missing : s.Failed 2 := .inr (.inr ⟨.unstarted, by simp [threads], rfl⟩)
  exact ⟨s, ran, threads, (threadPoolInit_returns (System.exec_reachable start ran)).1 missing⟩

end NetProg.P3
