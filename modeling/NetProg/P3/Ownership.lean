import NetProg.P3.Conservation

set_option autoImplicit false

namespace NetProg.P3

open Linked Transition

def MainPc.uses (h : Heap) : MainPc → Addr → Prop
  | .idle, _ => False
  | .infoReady clntInfo, b => b = clntInfo
  | .taskReady newTask, b => b = newTask ∨ argOf h newTask = some b

def PoolState.Uses (s : PoolState) : Holder → Addr → Prop
  | .main, b => s.main.uses s.heap b
  | o, b => s.Holds o b ∨ ∃ a, s.Owns o a b

structure PoolState.Accounted (s : PoolState) (lost : List Addr) : Prop where
  live : ∀ b, s.heap b ≠ none → (∃ o, s.Uses o b) ∨ b ∈ lost
  unused : ∀ b ∈ lost, (∃ info, s.heap.info (some b) = some info) ∧ ∀ o, ¬ s.Uses o b
  distinct : lost.Nodup

def PoolEvent.fails : PoolEvent → Bool
  | .mallocFails => true
  | _ => false

section Users

variable {s : PoolState}

theorem taskReady_holds {newTask : Addr} (ready : s.main = .taskReady newTask) : s.Holds .main newTask := by
  simp [PoolState.Holds, ready, MainPc.task]

theorem main_uses {b : Addr} (uses : s.Uses .main b) :
    s.main = .infoReady b ∨ s.Holds .main b ∨ ∃ a, s.Owns .main a b := by
  cases main : s.main with
  | idle => simp [PoolState.Uses, main, MainPc.uses] at uses
  | infoReady clntInfo =>
    simp only [PoolState.Uses, main, MainPc.uses] at uses
    exact .inl (uses ▸ rfl)
  | taskReady newTask =>
    simp only [PoolState.Uses, main, MainPc.uses] at uses
    rcases uses with rfl | arg
    · exact .inr (.inl (taskReady_holds main))
    · exact .inr (.inr ⟨newTask, taskReady_holds main, rfl, arg⟩)

theorem uses_cases {o : Holder} {b : Addr} (uses : s.Uses o b) :
    o = .main ∧ s.main = .infoReady b ∨ s.Holds o b ∨ ∃ a, s.Owns o a b := by
  cases o with
  | queue => exact .inr uses
  | worker k => exact .inr uses
  | main => exact (main_uses uses).imp_left fun ready => ⟨rfl, ready⟩

theorem PoolState.Sound.owned_info (sound : s.Sound) {o : Holder} {a c : Addr} (owned : s.Owns o a c) :
    ∃ info, s.heap.info (some c) = some info := by
  obtain ⟨held, here, arg⟩ := owned
  obtain ⟨c', info, arg', found, -⟩ := sound.arg o a held here
  obtain rfl : c' = c := Option.some.inj (arg'.symm.trans arg)
  exact ⟨info, found⟩

theorem task_not_info {h : Heap} {a : Addr} {t : Task} {info : ClientInfo} (task : h.task (some a) = some t)
    (found : h.info (some a) = some info) : False := by
  rw [info_some, task_some.mp task] at found
  cases found

theorem PoolState.Sound.one_user (sound : s.Sound) {o o' : Holder} {b : Addr} (uses : s.Uses o b)
    (uses' : s.Uses o' b) : o = o' := by
  have prepared : ∀ {o : Holder}, s.main = .infoReady b → ¬ (s.Holds o b ∨ ∃ a, s.Owns o a b) := by
    rintro o ready (held | ⟨a, owned⟩)
    · obtain ⟨t, task⟩ := sound.task o b held
      obtain ⟨info, found, -⟩ := (sound.prepared b ready).1
      exact task_not_info task found
    · exact (sound.prepared b ready).2 o a owned
  have mixed : ∀ {o o' : Holder}, s.Holds o b → ∀ a, ¬ s.Owns o' a b := by
    intro o o' held a owned
    obtain ⟨t, task⟩ := sound.task o b held
    obtain ⟨info, found⟩ := sound.owned_info owned
    exact task_not_info task found
  rcases uses_cases uses with ⟨rfl, ready⟩ | other <;> rcases uses_cases uses' with ⟨rfl, ready'⟩ | other'
  · rfl
  · exact absurd other' (prepared ready)
  · exact absurd other (prepared ready')
  · rcases other with held | ⟨a, owned⟩ <;> rcases other' with held' | ⟨a', owned'⟩
    · exact sound.once o o' b held held'
    · exact absurd owned' (mixed held a')
    · exact absurd owned (mixed held' a)
    · obtain rfl := sound.argOnce o o' a a' b owned owned'
      exact sound.once o o' a owned.1 owned'.1

theorem PoolState.Sound.used_live (sound : s.Sound) {o : Holder} {b : Addr} (uses : s.Uses o b) : s.heap b ≠ none := by
  rcases uses_cases uses with ⟨-, ready⟩ | held | ⟨a, owned⟩
  · obtain ⟨info, found, -⟩ := (sound.prepared b ready).1
    simp [info_some.mp found]
  · obtain ⟨t, task⟩ := sound.task o b held
    simp [task_some.mp task]
  · obtain ⟨info, found⟩ := sound.owned_info owned
    simp [info_some.mp found]

end Users

section Steps

variable {s s' : PoolState} {lost : List Addr}

theorem PoolState.Accounted.keep (accounted : s.Accounted lost)
    (live : ∀ b, s'.heap b ≠ none → s.heap b ≠ none ∨ ∃ o, s'.Uses o b)
    (kept : ∀ b o, s.Uses o b → s'.heap b ≠ none → ∃ o, s'.Uses o b)
    (before : ∀ b o, s'.Uses o b → (∃ o, s.Uses o b) ∨ s.heap b = none)
    (infos : ∀ b info, (∀ o, ¬ s.Uses o b) → s.heap.info (some b) = some info → s'.heap.info (some b) = some info) :
    s'.Accounted lost := by
  constructor
  case live =>
    intro b here
    rcases live b here with old | now
    · rcases accounted.live b old with ⟨o, uses⟩ | gone
      · exact .inl (kept b o uses here)
      · exact .inr gone
    · exact .inl now
  case unused =>
    intro b member
    obtain ⟨⟨info, found⟩, unused⟩ := accounted.unused b member
    refine ⟨⟨info, infos b info unused found⟩, fun o uses => ?_⟩
    rcases before b o uses with ⟨o', earlier⟩ | free
    · exact unused o' earlier
    · rw [info_some, free] at found
      cases found
  case distinct => exact accounted.distinct

theorem allocate_uses (sound : s.Sound) {a : Addr} (free : s.heap a = none) {new : Option Object}
    (heap : s'.heap = Function.update s.heap a new) (taskQ : s'.taskQ = s.taskQ) (workers : s'.workers = s.workers)
    {o : Holder} (other : o ≠ .main) (b : Addr) : s'.Uses o b ↔ s.Uses o b := by
  have holds : ∀ c, s'.Holds o c ↔ s.Holds o c := by
    intro c
    cases o with
    | queue =>
      have line := (sound.rep_allocate free new).queued_eq
      simp [PoolState.Holds, heap, taskQ, line]
    | worker k => simp [PoolState.Holds, workers]
    | main => exact absurd rfl other
  have gone : s'.argGone o = s.argGone o := by
    cases o with
    | worker k => simp [PoolState.argGone, workers]
    | queue | main => rfl
  have owns : ∀ c, s'.Owns o c b ↔ s.Owns o c b := by
    intro c
    simp only [PoolState.Owns, holds, gone]
    refine and_congr_right fun held => ?_
    rw [heap, argOf_update_other (sound.not_held free held)]
  cases o with
  | queue => simp only [PoolState.Uses, holds, owns]
  | worker k => simp only [PoolState.Uses, holds, owns]
  | main => exact absurd rfl other

theorem mallocInfo_accounted {a : Addr} {clntInfo : ClientInfo} (sound : s.Sound) (accounted : s.Accounted lost)
    (idle : s.main = .idle) (stepped : mallocInfo s a clntInfo = some s') : s'.Accounted lost := by
  obtain ⟨free, -, rfl⟩ := mallocInfo_cases stepped
  have heap : PoolState.heap { s with heap := Function.update s.heap a (some (.info clntInfo)), main := .infoReady a } =
      Function.update s.heap a (some (.info clntInfo)) := rfl
  have same {o : Holder} (other : o ≠ .main) := allocate_uses sound free heap rfl rfl other
  refine accounted.keep ?_ ?_ ?_ ?_
  · intro b here
    by_cases new : b = a
    · exact .inr ⟨.main, new⟩
    · exact .inl (by simpa [new] using here)
  · intro b o uses _
    by_cases other : o = .main
    · simp [other, PoolState.Uses, idle, MainPc.uses] at uses
    · exact ⟨o, (same other b).mpr uses⟩
  · intro b o uses
    by_cases other : o = .main
    · subst other
      obtain rfl : b = a := uses
      exact .inr free
    · exact .inl ⟨o, (same other b).mp uses⟩
  · intro b info _ found
    rw [info_update_other (info_not_free free found), found]

theorem mallocTask_accounted {a : Addr} {stale : Option Addr} {funcPtr : Nat} (sound : s.Sound)
    (accounted : s.Accounted lost) (stepped : mallocTask s a stale funcPtr = some s') : s'.Accounted lost := by
  obtain ⟨free, clntInfo, ready, shape⟩ := mallocTask_cases stepped
  have heap : s'.heap = Function.update s.heap a (some (.task
      { prev := stale, function := funcPtr, arg := some clntInfo, serial := s.history.enqueued })) := by rw [shape]
  have same := fun {o : Holder} (other : o ≠ .main) (b : Addr) =>
    allocate_uses sound free heap (by rw [shape]) (by rw [shape]) other b
  have main : ∀ b, s'.Uses .main b ↔ b = a ∨ b = clntInfo := by
    intro b
    simp [PoolState.Uses, shape, MainPc.uses, argOf, task_update_here, eq_comm]
  refine accounted.keep ?_ ?_ ?_ ?_
  · intro b here
    by_cases new : b = a
    · exact .inr ⟨.main, (main b).mpr (.inl new)⟩
    · exact .inl (by simpa [heap, new] using here)
  · intro b o uses _
    by_cases other : o = .main
    · subst other
      have before : b = clntInfo := by simpa [PoolState.Uses, ready, MainPc.uses] using uses
      exact ⟨.main, (main b).mpr (.inr before)⟩
    · exact ⟨o, (same other b).mpr uses⟩
  · intro b o uses
    by_cases other : o = .main
    · subst other
      rcases (main b).mp uses with rfl | rfl
      · exact .inr free
      · exact .inl ⟨.main, by simp [PoolState.Uses, ready, MainPc.uses]⟩
    · exact .inl ⟨o, (same other b).mp uses⟩
  · intro b info _ found
    rw [heap, info_update_other (info_not_free free found), found]

theorem mallocFails_accounted (sound : s.Sound) (accounted : s.Accounted lost) {clntInfo : Addr}
    (ready : s.main = .infoReady clntInfo) (stepped : mallocFails s = some s') : s'.Accounted (clntInfo :: lost) := by
  obtain rfl := mallocFails_cases stepped
  obtain ⟨⟨info, found, -⟩, -⟩ := sound.prepared clntInfo ready
  have own : s.Uses .main clntInfo := by simp [PoolState.Uses, ready, MainPc.uses]
  have same : ∀ o b, { s with main := .idle }.Uses o b ↔ s.Uses o b ∧ o ≠ .main := by
    intro o b
    cases o with
    | queue => simp [PoolState.Uses, PoolState.Holds, PoolState.Owns, PoolState.argGone]
    | worker k => simp [PoolState.Uses, PoolState.Holds, PoolState.Owns, PoolState.argGone]
    | main => simp [PoolState.Uses, MainPc.uses]
  constructor
  case live =>
    intro b here
    rcases accounted.live b here with ⟨o, uses⟩ | gone
    · by_cases other : o = .main
      · subst other
        have last : b = clntInfo := by simpa [PoolState.Uses, ready, MainPc.uses] using uses
        exact .inr (last ▸ List.mem_cons_self)
      · exact .inl ⟨o, (same o b).mpr ⟨uses, other⟩⟩
    · exact .inr (List.mem_cons_of_mem _ gone)
  case unused =>
    intro b member
    rcases List.mem_cons.mp member with rfl | earlier
    · exact ⟨⟨info, found⟩, fun o uses => ((same o b).mp uses).2 (sound.one_user ((same o b).mp uses).1 own)⟩
    · obtain ⟨filed, unused⟩ := accounted.unused b earlier
      exact ⟨filed, fun o uses => unused o ((same o b).mp uses).1⟩
  case distinct =>
    exact List.nodup_cons.mpr ⟨fun member => (accounted.unused clntInfo member).2 .main own, accounted.distinct⟩

theorem enqueue_accounted (sound : s.Sound) (accounted : s.Accounted lost)
    (room : (queued s.heap s.taskQ).length + 1 < uintSize) (stepped : enqueue s = some s') : s'.Accounted lost := by
  obtain ⟨newTask, ready, idle, workers, -, -, -, same, rep⟩ := enqueue_cases sound room stepped
  have live : ∀ b, s'.heap b ≠ none ↔ s.heap b ≠ none := by
    intro b
    have here := same b
    cases old : s.heap b <;> cases new : s'.heap b <;> simp_all
  have queue : ∀ b, s'.Uses .queue b ↔ s.Uses .queue b ∨ s.Uses .main b := by
    intro b
    simp only [PoolState.Uses, PoolState.Owns, PoolState.Holds, rep.queued_eq, List.mem_append, List.mem_singleton,
      argOf_sameButLinks same, PoolState.argGone, ready, MainPc.uses, true_and]
    constructor
    · rintro ((member | rfl) | ⟨a, member | rfl, arg⟩)
      · exact .inl (.inl member)
      · exact .inr (.inl rfl)
      · exact .inl (.inr ⟨a, member, arg⟩)
      · exact .inr (.inr arg)
    · rintro ((member | ⟨a, member, arg⟩) | rfl | arg)
      · exact .inl (.inl member)
      · exact .inr ⟨a, .inl member, arg⟩
      · exact .inl (.inr rfl)
      · exact .inr ⟨newTask, .inr rfl, arg⟩
  have worker : ∀ k b, s'.Uses (.worker k) b ↔ s.Uses (.worker k) b := by
    intro k b
    simp only [PoolState.Uses, PoolState.Owns, PoolState.Holds, PoolState.argGone, workers, argOf_sameButLinks same]
  refine accounted.keep (fun b here => .inl ((live b).mp here)) ?_ ?_ ?_
  · rintro b (_ | k | _) uses _
    · exact ⟨.queue, (queue b).mpr (.inl uses)⟩
    · exact ⟨.worker k, (worker k b).mpr uses⟩
    · exact ⟨.queue, (queue b).mpr (.inr uses)⟩
  · rintro b (_ | k | _) uses
    · rcases (queue b).mp uses with old | old
      · exact .inl ⟨.queue, old⟩
      · exact .inl ⟨.main, old⟩
    · exact .inl ⟨.worker k, (worker k b).mp uses⟩
    · simp [PoolState.Uses, idle, MainPc.uses] at uses
  · intro b info _ found
    rw [same.info, found]

theorem WorkerPc.Follows.same {pc pc' : WorkerPc} (follows : pc.Follows pc') (quiet : pc ≠ .counted)
    (keeps : ∀ t, pc ≠ .executed t ∧ pc ≠ .argFreed t) : pc'.task = pc.task ∧ pc'.argGone = pc.argGone := by
  cases follows with
  | dequeue => exact absurd rfl quiet
  | freeArg t => exact absurd rfl (keeps t).1
  | freeTask t => exact absurd rfl (keeps t).2
  | wait | count | skip | fetch | log | call | callDone | again => exact ⟨rfl, rfl⟩

theorem WorkerStep.uses {k : Fin thrNum} {pc : WorkerPc} (moved : WorkerStep s k s' pc) (sound : s.Sound)
    (quiet : s.workers k ≠ .counted) {o : Holder} (other : o ≠ .worker k) (b : Addr) :
    s'.Uses o b ↔ s.Uses o b := by
  have args : ∀ a, s.Holds o a → argOf s'.heap a = argOf s.heap a := by
    intro a held
    rcases moved.heap with same | ⟨freed, frees, heap⟩
    · rw [same]
    · rw [heap]
      exact argOf_update_other (sound.free_not_held frees held other) none
  cases o with
  | queue =>
    have line := moved.line sound quiet
    simp only [PoolState.Uses, PoolState.Owns, PoolState.Holds, PoolState.argGone, line, true_and]
    exact or_congr_right (exists_congr fun a => and_congr_right fun member => by rw [args a member])
  | worker j =>
    have here : j ≠ k := fun same => other (same ▸ rfl)
    simp only [PoolState.Uses, PoolState.Owns, PoolState.Holds, PoolState.argGone, moved.workers,
      Function.update_of_ne here]
    exact or_congr_right (exists_congr fun a => and_congr_right fun held => by rw [args a held])
  | main =>
    simp only [PoolState.Uses, moved.main]
    cases main : s.main with
    | idle => rfl
    | infoReady clntInfo => rfl
    | taskReady newTask => simp only [MainPc.uses, args newTask (taskReady_holds main)]

theorem worker_uses {k : Fin thrNum} {b : Addr} : s.Uses (.worker k) b ↔
    (s.workers k).task = some b ∨
      ∃ a, (s.workers k).task = some a ∧ (s.workers k).argGone = false ∧ argOf s.heap a = some b := Iff.rfl

theorem goto_uses {k : Fin thrNum} {pc : WorkerPc} (moved : WorkerStep s k s' pc) (sound : s.Sound)
    (quiet : s.workers k ≠ .counted) (heap : s'.heap = s.heap)
    (same : pc.task = (s.workers k).task ∧ pc.argGone = (s.workers k).argGone) (o : Holder) (b : Addr) :
    s'.Uses o b ↔ s.Uses o b := by
  by_cases other : o = .worker k
  · subst other
    simp only [worker_uses, moved.workers, Function.update_self, same, heap]
  · exact moved.uses sound quiet other b

theorem counted_uses {k : Fin thrNum} (sound : s.Sound) (pc : s.workers k = .counted)
    (stepped : threadFunc s k = some s') (b : Addr) : (∃ o, s'.Uses o b) ↔ ∃ o, s.Uses o b := by
  obtain ⟨taskPtr, workers, heap, main, -, -, -, line, -, -⟩ := counted_cases sound pc stepped
  have split : s.Uses .queue b ↔ s'.Uses .queue b ∨ s'.Uses (.worker k) b := by
    simp only [PoolState.Uses, PoolState.Owns, PoolState.Holds, PoolState.argGone, workers, Function.update_self, heap,
      WorkerPc.task, WorkerPc.argGone, line, List.mem_append, Option.mem_toList, true_and, or_and_right, exists_or]
    rw [or_or_or_comm, or_comm]
  have nothing : ¬ s.Uses (.worker k) b := by simp [worker_uses, pc, WorkerPc.task]
  have elsewhere : ∀ j, j ≠ k → (s'.Uses (.worker j) b ↔ s.Uses (.worker j) b) := by
    intro j other
    simp only [worker_uses, workers, Function.update_of_ne other, heap]
  have mainSame : s'.Uses .main b ↔ s.Uses .main b := by simp only [PoolState.Uses, main, heap]
  constructor
  · rintro ⟨_ | j | _, uses⟩
    · exact ⟨.queue, split.mpr (.inl uses)⟩
    · by_cases own : j = k
      · exact ⟨.queue, split.mpr (.inr (own ▸ uses))⟩
      · exact ⟨.worker j, (elsewhere j own).mp uses⟩
    · exact ⟨.main, mainSame.mp uses⟩
  · rintro ⟨_ | j | _, uses⟩
    · rcases split.mp uses with still | taken
      · exact ⟨.queue, still⟩
      · exact ⟨.worker k, taken⟩
    · by_cases own : j = k
      · exact absurd (own ▸ uses) nothing
      · exact ⟨.worker j, (elsewhere j own).mpr uses⟩
    · exact ⟨.main, mainSame.mpr uses⟩

theorem free_accounted {k : Fin thrNum} {pc : WorkerPc} (sound : s.Sound) (accounted : s.Accounted lost)
    (moved : WorkerStep s k s' pc) (quiet : s.workers k ≠ .counted) {freed : Addr} (own : s.Uses (.worker k) freed)
    (heap : s'.heap = s.heap.free freed)
    (kept : ∀ b, b ≠ freed → (s'.Uses (.worker k) b ↔ s.Uses (.worker k) b))
    (gone : ¬ s'.Uses (.worker k) freed) : s'.Accounted lost := by
  have others : ∀ b, b ≠ freed → s'.heap b = s.heap b := fun b other => by simp [heap, Heap.free, other]
  have uses : ∀ b, b ≠ freed → ∀ o, s'.Uses o b ↔ s.Uses o b := by
    intro b other o
    by_cases here : o = .worker k
    · exact here ▸ kept b other
    · exact moved.uses sound quiet here b
  have unused : ∀ o, ¬ s'.Uses o freed := by
    intro o now
    by_cases here : o = .worker k
    · exact gone (here ▸ now)
    · exact here (sound.one_user ((moved.uses sound quiet here freed).mp now) own)
  refine accounted.keep ?_ ?_ ?_ ?_
  · intro b here
    have other : b ≠ freed := by
      rintro rfl
      simp [heap, Heap.free] at here
    exact .inl (others b other ▸ here)
  · intro b o was here
    have other : b ≠ freed := by
      rintro rfl
      simp [heap, Heap.free] at here
    exact ⟨o, (uses b other o).mpr was⟩
  · intro b o now
    have other : b ≠ freed := by
      rintro rfl
      exact unused o now
    exact .inl ⟨o, (uses b other o).mp now⟩
  · intro b info never found
    have other : b ≠ freed := by
      rintro rfl
      exact never _ own
    rw [heap, Heap.free, info_update_other other, found]

theorem executed_accounted {k : Fin thrNum} {taskPtr : Addr} (sound : s.Sound) (accounted : s.Accounted lost)
    (pc : s.workers k = .executed taskPtr) (stepped : threadFunc s k = some s') : s'.Accounted lost := by
  obtain ⟨next, moved⟩ := threadFunc_step sound stepped
  obtain ⟨c, owned, ⟨info, found⟩, shape⟩ := executed_cases sound pc stepped
  have arg : argOf s.heap taskPtr = some c := owned.2.2
  have after : s'.workers k = .argFreed taskPtr := by simp [shape, PoolState.goto]
  obtain ⟨t, task⟩ := sound.task _ _ owned.1
  have apart : taskPtr ≠ c := by
    rintro rfl
    exact task_not_info task found
  refine free_accounted sound accounted moved (by simp [pc]) (.inr ⟨taskPtr, owned⟩) (by rw [shape]) ?_ ?_
  · intro b other
    simp [worker_uses, after, pc, WorkerPc.task, WorkerPc.argGone, arg, Ne.symm other]
  · simp [worker_uses, after, WorkerPc.task, WorkerPc.argGone, apart]

theorem argFreed_accounted {k : Fin thrNum} {taskPtr : Addr} (sound : s.Sound) (accounted : s.Accounted lost)
    (pc : s.workers k = .argFreed taskPtr) (stepped : threadFunc s k = some s') : s'.Accounted lost := by
  obtain ⟨next, moved⟩ := threadFunc_step sound stepped
  have shape := argFreed_cases sound pc stepped
  have after : s'.workers k = .leaving := by simp [shape, PoolState.goto]
  have own : s.Uses (.worker k) taskPtr := .inl (by simp [PoolState.Holds, pc, WorkerPc.task])
  refine free_accounted sound accounted moved (by simp [pc]) own (by rw [shape]) ?_ ?_
  · intro b other
    simp [worker_uses, after, pc, WorkerPc.task, WorkerPc.argGone, Ne.symm other]
  · simp [worker_uses, after, WorkerPc.task]

theorem threadFunc_accounted {k : Fin thrNum} (sound : s.Sound) (accounted : s.Accounted lost)
    (stepped : threadFunc s k = some s') : s'.Accounted lost := by
  have unchanged : s'.heap = s.heap → (∀ b, (∃ o, s'.Uses o b) ↔ ∃ o, s.Uses o b) → s'.Accounted lost := by
    intro heap uses
    refine accounted.keep (fun b here => .inl (heap ▸ here)) (fun b o was _ => (uses b).mpr ⟨o, was⟩)
      (fun b o now => .inl ((uses b).mp ⟨o, now⟩)) (fun b info _ found => heap ▸ found)
  by_cases dequeues : s.workers k = .counted
  · obtain ⟨_, -, heap, -⟩ := counted_cases sound dequeues stepped
    exact unchanged heap (counted_uses sound dequeues stepped)
  by_cases frees : ∃ t, s.workers k = .executed t ∨ s.workers k = .argFreed t
  · obtain ⟨t, pc | pc⟩ := frees
    · exact executed_accounted sound accounted pc stepped
    · exact argFreed_accounted sound accounted pc stepped
  rcases threadFunc_follows stepped with rfl | ⟨pc, moved⟩
  · cases (threadFunc_sound sound stepped).safe
  have heap : s'.heap = s.heap := by
    rcases moved.heap with same | ⟨t, before⟩ | ⟨t, before⟩
    · exact same
    · exact absurd ⟨t, .inl before⟩ frees
    · exact absurd ⟨t, .inr before⟩ frees
  have same := moved.follows.same dequeues fun t => ⟨fun pc => frees ⟨t, .inl pc⟩, fun pc => frees ⟨t, .inr pc⟩⟩
  have step : WorkerStep s k s' pc := ⟨moved.workers, moved.follows, moved.main, moved.enqueued, moved.taskQ, .inl heap⟩
  exact unchanged heap fun b => exists_congr fun o => goto_uses step sound dequeues heap same o b

theorem mallocInfo_idle {a : Addr} {clntInfo : ClientInfo} (stepped : mallocInfo s a clntInfo = some s') :
    s.main = .idle := by
  simp only [mallocInfo] at stepped
  split at stepped
  next idle => exact idle
  next => cases stepped

theorem mallocFails_ready (stepped : mallocFails s = some s') : ∃ clntInfo, s.main = .infoReady clntInfo := by
  simp only [mallocFails] at stepped
  split at stepped
  next clntInfo ready => exact ⟨clntInfo, ready⟩
  next => cases stepped

theorem poolStep_accounted {e : PoolEvent} (sound : s.Sound) (accounted : s.Accounted lost)
    (room : e = .enqueue → (queued s.heap s.taskQ).length + 1 < uintSize) (stepped : poolStep s e = some s') :
    ∃ more, s'.Accounted (more ++ lost) ∧ more.length = if e.fails then 1 else 0 := by
  simp only [poolStep, sound.safe, Bool.false_eq_true, if_false] at stepped
  cases e with
  | mallocInfo a clntInfo => exact ⟨[], mallocInfo_accounted sound accounted (mallocInfo_idle stepped) stepped, rfl⟩
  | mallocTask a stale funcPtr => exact ⟨[], mallocTask_accounted sound accounted stepped, rfl⟩
  | mallocFails =>
    obtain ⟨clntInfo, ready⟩ := mallocFails_ready stepped
    exact ⟨[clntInfo], mallocFails_accounted sound accounted ready stepped, rfl⟩
  | enqueue => exact ⟨[], enqueue_accounted sound accounted (room rfl) stepped, rfl⟩
  | signal =>
    obtain rfl := Option.some.inj stepped
    refine ⟨[], ?_, rfl⟩
    obtain ⟨taskCheck, fault, shape⟩ := signalThreadFunc_shape s
    have same : ∀ o b, (signalThreadFunc s).Uses o b ↔ s.Uses o b := by
      rintro (_ | k | _) b <;> rw [shape] <;> rfl
    have heap : (signalThreadFunc s).heap = s.heap := by rw [shape]
    exact accounted.keep (fun b here => .inl (heap ▸ here)) (fun b o was _ => ⟨o, (same o b).mpr was⟩)
      (fun b o now => .inl ⟨o, (same o b).mp now⟩) (fun b info _ found => heap ▸ found)
  | worker k => exact ⟨[], threadFunc_accounted sound accounted stepped, rfl⟩

end Steps

theorem threadPoolInit_accounted : threadPoolInit.Accounted [] where
  live := fun b here => absurd rfl here
  unused := by simp
  distinct := List.nodup_nil

theorem run_accounted {events : List PoolEvent} {s s' : PoolState} {lost : List Addr} (tracked : s.Tracked)
    (accounted : s.Accounted lost) (ran : pool.execWhile Counted s events = some s') :
    s'.Tracked ∧ ∃ more, s'.Accounted (more ++ lost) ∧ more.length = events.countP PoolEvent.fails := by
  induction events generalizing s lost with
  | nil =>
    obtain rfl : s = s' := Option.some.inj ran
    exact ⟨tracked, [], accounted, rfl⟩
  | cons e rest ih =>
    obtain ⟨mid, stepped, counted, later⟩ := System.execWhile_cons.mp ran
    obtain ⟨first, next, one⟩ := poolStep_accounted tracked.sound accounted (tracked.room counted stepped) stepped
    obtain ⟨tracked', more, last, count⟩ := ih (poolStep_tracked tracked counted stepped) next later
    refine ⟨tracked', more ++ first, by rwa [List.append_assoc], ?_⟩
    rw [List.length_append, count, one, List.countP_cons]

theorem blocks_have_users {events : List PoolEvent} {s : PoolState}
    (ran : pool.execWhile Counted threadPoolInit events = some s) :
    ∃ lost : List Addr, lost.length = events.countP PoolEvent.fails ∧ lost.Nodup ∧
      (∀ b, s.heap b ≠ none ↔ b ∈ lost ∨ ∃ o, s.Uses o b) ∧
      (∀ o o' b, s.Uses o b → s.Uses o' b → o = o') ∧ ∀ b ∈ lost, ∀ o, ¬ s.Uses o b := by
  obtain ⟨tracked, lost, accounted, count⟩ := run_accounted threadPoolInit_tracked threadPoolInit_accounted ran
  rw [List.append_nil] at accounted
  refine ⟨lost, count, accounted.distinct, fun b => ⟨fun here => (accounted.live b here).symm, ?_⟩,
    fun o o' b => tracked.sound.one_user, fun b member => (accounted.unused b member).2⟩
  rintro (gone | ⟨o, uses⟩)
  · obtain ⟨⟨info, found⟩, -⟩ := accounted.unused b gone
    simp [info_some.mp found]
  · exact tracked.sound.used_live uses

def secondRequest : List PoolEvent :=
  -- The first request is given up, and the second is queued.
  [.mallocInfo 1 someClient, .mallocFails, .mallocInfo 2 someClient, .mallocTask 3 none 0, .enqueue]

theorem first_info_lost : ∃ s, ∃ lost : List Addr, pool.execWhile Counted threadPoolInit secondRequest = some s ∧
    lost.length = 1 ∧ ∀ b, s.heap b ≠ none ↔ b ∈ lost ∨ ∃ o, s.Uses o b := by
  obtain ⟨s, ran⟩ : ∃ s, pool.execWhile Counted threadPoolInit secondRequest = some s := ⟨_, rfl⟩
  obtain ⟨lost, count, -, blocks, -⟩ := blocks_have_users ran
  exact ⟨s, lost, ran, count, blocks⟩

end NetProg.P3
