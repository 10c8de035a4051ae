import NetProg.P3.Conservation

set_option autoImplicit false

namespace NetProg.P3

open Linked Transition

def assignedTo (h : Heap) (a : Addr) : Option Nat :=
  (argOf h a).bind fun c => (h.info (some c)).map ClientInfo.assignedThrId

theorem headAssigned_eq {h : Heap} {taskQ : TaskQueue} {a : Addr} (first : taskQ.head = some a) {c : Addr}
    (arg : argOf h a = some c) : headAssigned h taskQ = assignedTo h a := by
  obtain ⟨t, found, targ⟩ := argOf_some arg
  simp [headAssigned, assignedTo, first, found, arg, targ]

def PoolState.OwnTasks (s : PoolState) : Prop :=
  ∀ k t, s.workers k = .dequeued (some t) → assignedTo s.heap t = some k.val

def WorkerPc.awake : WorkerPc → Bool
  | .woken => true
  | .counted => true
  | _ => false

def PoolState.NextFor (s : PoolState) (k : Fin thrNum) : Prop :=
  -- The queue gives worker `k` nothing, or a task assigned to `k`.
  s.taskQ.len = 0 ∨ headAssigned s.heap s.taskQ = some k.val

instance (s : PoolState) (k : Fin thrNum) : Decidable (s.NextFor k) :=
  inferInstanceAs (Decidable (_ ∨ _))

-- A post wakes its worker while the task that it was for is at the head, or the queue is empty; and no worker that
-- woke to an empty queue is still about to dequeue when a task for another one arrives.
def FreshPost (s : PoolState) (e : PoolEvent) (s' : PoolState) : Prop :=
  Counted s e s' ∧ match e with
    | .worker k => s.workers k = .waiting → s.NextFor k
    | .enqueue => ∀ k, (s.workers k).awake = true → s'.NextFor k
    | _ => True

instance (s : PoolState) (e : PoolEvent) (s' : PoolState) : Decidable (FreshPost s e s') := by
  cases e <;> exact inferInstanceAs (Decidable (_ ∧ _))

structure PoolState.Assigned (s : PoolState) : Prop where
  awake : ∀ k, (s.workers k).awake = true → s.NextFor k
  own : s.OwnTasks

theorem assignedTo_eq (h : Heap) (a : Addr) : assignedTo h a = (infoOf h a).map ClientInfo.assignedThrId := by
  rw [assignedTo, infoOf, Option.map_bind]
  rfl

theorem assignedTo_congr {h h' : Heap} {a : Addr} (same : infoOf h' a = infoOf h a) :
    assignedTo h' a = assignedTo h a := by
  rw [assignedTo_eq, assignedTo_eq, same]

theorem PoolState.Sound.next_iff {s : PoolState} (sound : s.Sound) (k : Fin thrNum) :
    s.NextFor k ↔ ∀ a rest, queued s.heap s.taskQ = a :: rest → assignedTo s.heap a = some k.val := by
  cases line : queued s.heap s.taskQ with
  | nil => simp [PoolState.NextFor, sound.rep.len, line]
  | cons a rest =>
    have first : s.taskQ.head = some a := (line ▸ sound.rep.chain).head
    obtain ⟨c, info, arg, -⟩ := sound.arg .queue a (by simp [PoolState.Holds, line]) rfl
    simp [PoolState.NextFor, sound.rep.len, line, headAssigned_eq first arg]

theorem PoolState.Assigned.keep {s s' : PoolState} (assigned : s.Assigned) (sound : s.Sound) (sound' : s'.Sound)
    (line : queued s'.heap s'.taskQ = queued s.heap s.taskQ)
    (queuedSame : ∀ a ∈ queued s.heap s.taskQ, assignedTo s'.heap a = assignedTo s.heap a)
    (awake : ∀ k, (s'.workers k).awake = true → (s.workers k).awake = true)
    (dequeued : ∀ k t, s'.workers k = .dequeued (some t) →
      s.workers k = .dequeued (some t) ∧ assignedTo s'.heap t = assignedTo s.heap t) : s'.Assigned where
  awake := by
    intro k here
    rw [sound'.next_iff]
    intro a rest front
    rw [line] at front
    rw [queuedSame a (by simp [front])]
    exact (sound.next_iff k).mp (assigned.awake k (awake k here)) a rest front
  own := by
    intro k t pc
    obtain ⟨before, same⟩ := dequeued k t pc
    exact same.trans (assigned.own k t before)

theorem allocate_keep {s s' : PoolState} {a : Addr} {o : Object} (assigned : s.Assigned) (sound : s.Sound)
    (sound' : s'.Sound) (free : s.heap a = none) (heap : s'.heap = Function.update s.heap a (some o))
    (taskQ : s'.taskQ = s.taskQ) (workers : s'.workers = s.workers) : s'.Assigned := by
  refine assigned.keep sound sound' ?_ ?_ ?_ ?_
  · rw [heap, taskQ]
    exact (sound.rep_allocate free _).queued_eq
  · intro b member
    rw [heap]
    exact assignedTo_congr (infoOf_allocate sound free _ (o := .queue) member rfl)
  · intro k here
    rwa [workers] at here
  · intro k t pc
    rw [workers] at pc
    have held : s.Holds (.worker k) t := by simp [PoolState.Holds, pc, WorkerPc.task]
    have kept : s.argGone (.worker k) = false := by simp [PoolState.argGone, pc, WorkerPc.argGone]
    rw [heap]
    exact ⟨pc, assignedTo_congr (infoOf_allocate sound free _ held kept)⟩

theorem enqueue_assigned {s s' : PoolState} (assigned : s.Assigned) (sound : s.Sound)
    (room : (queued s.heap s.taskQ).length + 1 < uintSize) (stepped : enqueue s = some s')
    (arrives : ∀ k, (s.workers k).awake = true → s'.NextFor k) : s'.Assigned := by
  obtain ⟨newTask, -, -, workers, -, -, -, same, -⟩ := enqueue_cases sound room stepped
  constructor
  case awake =>
    intro k here
    rw [workers] at here
    exact arrives k here
  case own =>
    intro k t pc
    rw [workers] at pc
    rw [assignedTo_congr (infoOf_sameButLinks same t)]
    exact assigned.own k t pc

theorem counted_assigned {s s' : PoolState} {k : Fin thrNum} (assigned : s.Assigned) (sound : s.Sound)
    (sound' : s'.Sound) (pc : s.workers k = .counted) (stepped : threadFunc s k = some s') : s'.Assigned := by
  obtain ⟨taskPtr, workers, heap, -, -, -, -, line, empty, -⟩ := counted_cases sound pc stepped
  have mine := (sound.next_iff k).mp (assigned.awake k (by simp [pc, WorkerPc.awake]))
  constructor
  case awake =>
    intro j here
    have other : j ≠ k := by
      rintro rfl
      simp [workers, WorkerPc.awake] at here
    have theirs := (sound.next_iff j).mp (assigned.awake j (by simpa [workers, other] using here))
    rw [sound'.next_iff]
    cases taskPtr with
    | none => simp [← show queued s.heap s.taskQ = queued s'.heap s'.taskQ from line, empty rfl]
    | some a =>
      -- Two workers cannot both be awake for the same head.
      have both := (mine a _ line).symm.trans (theirs a _ line)
      exact absurd (Fin.ext (Option.some.inj both).symm) other
  case own =>
    intro j t dequeued
    rw [heap]
    by_cases here : j = k
    · subst here
      obtain rfl : taskPtr = some t := by simpa [workers] using dequeued
      exact mine t _ line
    · exact assigned.own j t (by simpa [workers, here] using dequeued)

theorem threadFunc_assigned {s s' : PoolState} {k : Fin thrNum} (assigned : s.Assigned) (sound : s.Sound)
    (sound' : s'.Sound) (stepped : threadFunc s k = some s')
    (fresh : s.workers k = .waiting → s.NextFor k) : s'.Assigned := by
  by_cases dequeues : s.workers k = .counted
  · exact counted_assigned assigned sound sound' dequeues stepped
  obtain ⟨pc, moved⟩ := threadFunc_step sound stepped
  have line := moved.line sound dequeues
  have keep : ∀ o a, s.Holds o a → s.argGone o = false → o ≠ .worker k → assignedTo s'.heap a = assignedTo s.heap a :=
    fun o a held kept other => assignedTo_congr (moved.infos sound held kept other)
  have queuedSame : ∀ a ∈ queued s.heap s.taskQ, assignedTo s'.heap a = assignedTo s.heap a :=
    fun a member => keep .queue a member rfl (by simp)
  constructor
  case awake =>
    intro j here
    have next : s.NextFor j := by
      by_cases own : j = k
      · subst own
        have follows := moved.follows
        simp only [moved.workers, Function.update_self] at here
        cases before : s.workers j with
        | waiting => exact fresh before
        | woken => exact assigned.awake j (by simp [before, WorkerPc.awake])
        | _ => rw [before] at follows; cases follows <;> simp [WorkerPc.awake] at here
      · exact assigned.awake j (by simpa [moved.workers, own] using here)
    rw [sound'.next_iff, line]
    intro a rest front
    rw [queuedSame a (by simp [front])]
    exact (sound.next_iff j).mp next a rest front
  case own =>
    intro j t dequeued
    have other : j ≠ k := by
      rintro rfl
      have follows := moved.follows
      simp only [moved.workers, Function.update_self] at dequeued
      rw [dequeued] at follows
      cases before : s.workers j <;> rw [before] at follows <;> cases follows
      exact dequeues before
    have before : s.workers j = .dequeued (some t) := by simpa [moved.workers, other] using dequeued
    rw [keep (.worker j) t (by simp [PoolState.Holds, before, WorkerPc.task])
      (by simp [PoolState.argGone, before, WorkerPc.argGone]) (by simpa using other)]
    exact assigned.own j t before

theorem signal_assigned {s : PoolState} (assigned : s.Assigned) (sound : s.Sound) :
    (signalThreadFunc s).Assigned := by
  rcases signalThreadFunc_cases sound with ⟨-, same⟩ | ⟨_, _, _, _, -, -, -, shape⟩
  · rwa [same]
  · rw [shape]
    exact { assigned with }

theorem poolStep_assigned {s s' : PoolState} {e : PoolEvent} (tracked : s.Tracked) (assigned : s.Assigned)
    (fresh : FreshPost s e s') (stepped : poolStep s e = some s') : s'.Assigned := by
  have sound := tracked.sound
  have sound' := (poolStep_tracked tracked fresh.1 stepped).sound
  have room := tracked.room fresh.1 stepped
  simp only [poolStep, sound.safe, Bool.false_eq_true, if_false] at stepped
  cases e with
  | mallocInfo a clntInfo =>
    obtain ⟨free, -, rfl⟩ := mallocInfo_cases stepped
    exact allocate_keep assigned sound sound' free rfl rfl rfl
  | mallocTask a stale funcPtr =>
    obtain ⟨free, clntInfo, -, rfl⟩ := mallocTask_cases stepped
    exact allocate_keep assigned sound sound' free rfl rfl rfl
  | mallocFails =>
    obtain rfl := mallocFails_cases stepped
    exact { assigned with }
  | enqueue => exact enqueue_assigned assigned sound (room rfl) stepped fresh.2
  | signal => exact Option.some.inj stepped ▸ signal_assigned assigned sound
  | worker k => exact threadFunc_assigned assigned sound sound' stepped fresh.2

theorem threadPoolInit_assigned : threadPoolInit.Assigned where
  awake := fun k here => by simp [threadPoolInit, WorkerPc.awake] at here
  own := fun k t pc => by simp [threadPoolInit] at pc

theorem fresh_posts_own_tasks {s : PoolState} (reached : pool.ReachableWhile FreshPost s) : s.OwnTasks := by
  have both : s.Tracked ∧ s.Assigned := by
    apply reached.invariant (P := fun s => s.Tracked ∧ s.Assigned)
    · intro s start
      exact (show s = threadPoolInit from start) ▸ ⟨threadPoolInit_tracked, threadPoolInit_assigned⟩
    · intro s e s' _ known fresh stepped
      exact ⟨poolStep_tracked known.1 fresh.1 stepped, poolStep_assigned known.1 known.2 fresh stepped⟩
  exact both.2.own

theorem fresh_post_own_task : ∃ s : PoolState, s.workers 0 = .dequeued (some 1) ∧ s.OwnTasks := by
  obtain ⟨s, ran, pc⟩ : ∃ s : PoolState, pool.execWhile FreshPost threadPoolInit
      [.mallocInfo 0 someClient, .mallocTask 1 none 0, .enqueue, .signal, .worker 0, .worker 0, .worker 0] = some s ∧
      s.workers 0 = .dequeued (some 1) := ⟨_, rfl, rfl⟩
  exact ⟨s, pc, fresh_posts_own_tasks (System.execWhile_reachable (.initial _ rfl) ran)⟩

-- Worker 0 is posted twice for its task, and the second post wakes it for the task of worker 1.
theorem leftover_post_runs_other_task : ¬ ∀ s, pool.Reachable s → s.OwnTasks := by
  intro claimed
  obtain ⟨s, ran, pc, assigned⟩ : ∃ s : PoolState, pool.exec threadPoolInit
      [.mallocInfo 0 someClient, .mallocTask 1 none 0, .enqueue, .signal, .worker 0, .signal, .worker 0, .worker 0,
        .worker 0, .worker 0, .worker 0, .worker 0, .worker 0, .worker 0, .worker 0,
        .mallocInfo 2 { someClient with assignedThrId := 1 }, .mallocTask 3 none 0, .enqueue,
        .worker 0, .worker 0, .worker 0] = some s ∧
      s.workers 0 = .dequeued (some 3) ∧ assignedTo s.heap 3 = some 1 := ⟨_, rfl, rfl, rfl⟩
  have own := claimed s (System.exec_reachable (.initial _ rfl) ran) 0 3 pc
  simp [assigned] at own

end NetProg.P3
