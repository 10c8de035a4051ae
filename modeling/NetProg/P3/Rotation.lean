import NetProg.P3.Locks
import NetProg.P3.Requests

set_option autoImplicit false

namespace NetProg.P3

open Linked Transition

-- No post is left over, and a request is for the thread whose turn it is.
def InRotation (s : PoolState) (e : PoolEvent) (s' : PoolState) : Prop :=
  FreshPost s e s' ∧ match e with
    | .mallocInfo _ clntInfo => clntInfo.assignedThrId = s.history.enqueued % thrNum
    | _ => True

def threadOf (n : Nat) : Fin thrNum := ⟨n % thrNum, Nat.mod_lt _ (by decide)⟩

structure PoolState.Rotates (s : PoolState) : Prop where
  line : ∀ a ∈ queued s.heap s.taskQ, assignedTo s.heap a = some (serialOf s.heap a % thrNum)
  ready : ∀ a, s.main = .taskReady a → assignedTo s.heap a = some (s.history.enqueued % thrNum)
  prepared : ∀ c info, s.main = .infoReady c → s.heap.info (some c) = some info →
    info.assignedThrId = s.history.enqueued % thrNum
  hands : ∀ k a, (s.workers k).task = some a → threadOf (serialOf s.heap a) = k
  executed : ∀ n k, (n, k) ∈ s.history.executed → threadOf n = k

section Rotation

variable {s s' : PoolState}

theorem threadPoolInit_rotates : threadPoolInit.Rotates := by
  constructor
  case line => simp [threadPoolInit_queued]
  case ready => exact fun a ready => by cases ready
  case prepared => exact fun c info ready => by cases ready
  case hands => exact fun k a held => by cases held
  case executed => exact fun n k member => by cases member

theorem handOf_job {h : Heap} {pc : WorkerPc} {n : Nat} (job : (handOf h pc).job = some n) :
    ∃ a, pc.task = some a ∧ serialOf h a = n := by
  cases pc with
  | dequeued taskPtr =>
    cases taskPtr with
    | none => cases job
    | some a => exact ⟨a, rfl, Option.some.inj job⟩
  | fetched a | logged a | executing a | executed a | argFreed a => exact ⟨a, rfl, Option.some.inj job⟩
  | waiting | woken | counted | leaving => cases job

theorem allocate_rotates {a : Addr} {o : Object} (rotates : s.Rotates) (sound : s.Sound) (free : s.heap a = none)
    (heap : s'.heap = Function.update s.heap a (some o)) (taskQ : s'.taskQ = s.taskQ)
    (workers : s'.workers = s.workers) (history : s'.history = s.history)
    (ready : ∀ a, s'.main = .taskReady a → assignedTo s'.heap a = some (s.history.enqueued % thrNum))
    (prepared : ∀ c info, s'.main = .infoReady c → s'.heap.info (some c) = some info →
      info.assignedThrId = s.history.enqueued % thrNum) : s'.Rotates := by
  have kept := QueueKept.of_allocate sound free heap taskQ
  constructor
  case line =>
    intro b member
    rw [kept.line] at member
    rw [assignedTo_congr (kept.infos b member), heap,
      serialOf_update_other (sound.not_held free (o := .queue) member)]
    exact rotates.line b member
  case ready => rwa [history]
  case prepared => rwa [history]
  case hands =>
    intro k b held
    rw [workers] at held
    rw [heap, serialOf_update_other (sound.not_held free (o := .worker k) held)]
    exact rotates.hands k b held
  case executed =>
    rw [history]
    exact rotates.executed

theorem mallocInfo_rotates {a : Addr} {clntInfo : ClientInfo} (rotates : s.Rotates) (sound : s.Sound)
    (turn : clntInfo.assignedThrId = s.history.enqueued % thrNum) (stepped : mallocInfo s a clntInfo = some s') :
    s'.Rotates := by
  obtain ⟨free, -, rfl⟩ := mallocInfo_cases stepped
  refine allocate_rotates rotates sound free rfl rfl rfl rfl (fun b ready => by cases ready) ?_
  intro c info ready found
  obtain rfl := MainPc.infoReady.inj ready
  obtain rfl : clntInfo = info := by simpa [Heap.info] using found
  exact turn

theorem mallocTask_rotates {a : Addr} {stale : Option Addr} {funcPtr : Nat} (rotates : s.Rotates) (sound : s.Sound)
    (stepped : mallocTask s a stale funcPtr = some s') : s'.Rotates := by
  obtain ⟨free, clntInfo, before, rfl⟩ := mallocTask_cases stepped
  refine allocate_rotates rotates sound free rfl rfl rfl rfl ?_ fun c info ready => by cases ready
  intro b ready
  obtain rfl := MainPc.taskReady.inj ready
  obtain ⟨⟨info, found, -⟩, -⟩ := sound.prepared clntInfo before
  have arg : argOf (Function.update s.heap a (some (.task
      { prev := stale, function := funcPtr, arg := some clntInfo, serial := s.history.enqueued }))) a =
      some clntInfo := by simp [argOf, task_update_here]
  rw [assignedTo, arg, Option.bind_some, info_update_other (info_not_free free found), found, Option.map_some,
    rotates.prepared clntInfo info before found]

theorem enqueue_rotates (rotates : s.Rotates) (tracked : s.Tracked)
    (room : (queued s.heap s.taskQ).length + 1 < uintSize) (stepped : enqueue s = some s') : s'.Rotates := by
  have sound := tracked.sound
  obtain ⟨newTask, ready, idle, workers, -, -, history, same, rep⟩ := enqueue_cases sound room stepped
  have serials : ∀ o a, s.Holds o a → serialOf s'.heap a = serialOf s.heap a := by
    intro o a held
    obtain ⟨t, found⟩ := sound.task o a held
    exact serialOf_sameButLinks same found
  have assigned : ∀ a, assignedTo s'.heap a = assignedTo s.heap a :=
    fun a => assignedTo_congr (infoOf_sameButLinks same a)
  constructor
  case line =>
    intro a member
    rw [rep.queued_eq] at member
    rw [assigned]
    rcases List.mem_append.mp member with old | new
    · rw [serials .queue a old]
      exact rotates.line a old
    · obtain rfl := List.mem_singleton.mp new
      rw [serials .main a (by simp [PoolState.Holds, ready, MainPc.task]), tracked.numbered a ready]
      exact rotates.ready a ready
  case ready => exact fun a again => by simp [idle] at again
  case prepared => exact fun c info again => by simp [idle] at again
  case hands =>
    intro k a held
    rw [workers] at held
    rw [serials (.worker k) a held]
    exact rotates.hands k a held
  case executed =>
    rw [history]
    exact rotates.executed

theorem signal_rotates (rotates : s.Rotates) (sound : s.Sound) : (signalThreadFunc s).Rotates := by
  rcases signalThreadFunc_cases sound with ⟨-, same⟩ | ⟨_, _, _, _, -, -, -, shape⟩
  · rwa [same]
  · rw [shape]
    exact { rotates with }

theorem WorkerPc.Follows.same_task {pc pc' : WorkerPc} (follows : pc.Follows pc') (quiet : pc ≠ .counted) {a : Addr}
    (task : pc'.task = some a) : pc.task = some a := by
  cases follows with
  | dequeue => exact absurd rfl quiet
  | fetch | log | call | callDone | freeArg => exact task
  | wait | count | skip | freeTask | again => cases task

theorem threadFunc_executed {k : Fin thrNum} (stepped : threadFunc s k = some s') :
    s'.history.executed = s.history.executed ∨ ∃ t f c, s.workers k = .logged t f c ∧
      s'.history.executed = s.history.executed ++ [(serialOf s.heap t, k)] := by
  cases pc : s.workers k with
  | waiting =>
    simp only [threadFunc, pc, Option.map_eq_some_iff] at stepped
    obtain ⟨taskCheck, -, rfl⟩ := stepped
    exact .inl rfl
  | woken | leaving | executing =>
    simp only [threadFunc, pc, Option.some.injEq] at stepped
    subst stepped
    exact .inl rfl
  | counted | fetched | argFreed =>
    simp only [threadFunc, pc] at stepped
    split at stepped <;> obtain rfl := Option.some.inj stepped <;> exact .inl rfl
  | dequeued taskPtr =>
    cases taskPtr with
    | none =>
      simp only [threadFunc, pc, Option.some.injEq] at stepped
      subst stepped
      exact .inl rfl
    | some t =>
      simp only [threadFunc, pc] at stepped
      split at stepped <;> obtain rfl := Option.some.inj stepped <;> exact .inl rfl
  | logged t f c =>
    simp only [threadFunc, pc] at stepped
    split at stepped
    next =>
      obtain rfl := Option.some.inj stepped
      exact .inl rfl
    next =>
      obtain rfl := Option.some.inj stepped
      exact .inr ⟨t, f, c, rfl, rfl⟩
  | executed t =>
    simp only [threadFunc, pc] at stepped
    split at stepped
    next =>
      obtain rfl := Option.some.inj stepped
      exact .inl rfl
    next t _ =>
      cases freed : freeArg s.heap t.arg <;> rw [freed] at stepped <;> obtain rfl := Option.some.inj stepped <;>
        exact .inl rfl

theorem counted_rotates {k : Fin thrNum} (rotates : s.Rotates) (sound : s.Sound) (assigned' : s'.Assigned)
    (pc : s.workers k = .counted) (stepped : threadFunc s k = some s') : s'.Rotates := by
  obtain ⟨taskPtr, workers, heap, main, -, -, history, line, -⟩ := counted_cases sound pc stepped
  have enqueued : s'.history.enqueued = s.history.enqueued := by rw [history]
  constructor
  case line =>
    intro a member
    rw [heap]
    exact rotates.line a (by simp [line, member])
  case ready =>
    intro a ready
    rw [heap, enqueued]
    exact rotates.ready a (main ▸ ready)
  case prepared =>
    intro c info ready found
    rw [enqueued]
    exact rotates.prepared c info (main ▸ ready) (heap ▸ found)
  case hands =>
    intro j a held
    by_cases own : j = k
    · subst own
      obtain rfl : taskPtr = some a := by simpa [workers, WorkerPc.task] using held
      have mine := assigned'.own j a (by simp [workers])
      have turn := rotates.line a (by simp [line])
      rw [heap] at mine ⊢
      exact Fin.ext (Option.some.inj (turn.symm.trans mine))
    · rw [heap]
      exact rotates.hands j a (by simpa [workers, own] using held)
  case executed =>
    rw [history]
    exact rotates.executed

theorem runs_rotates {k : Fin thrNum} (rotates : s.Rotates) (sound : s.Sound) (sound' : s'.Sound)
    (quiet : s.workers k ≠ .counted) (stepped : threadFunc s k = some s') : s'.Rotates := by
  obtain ⟨pc, moved⟩ := threadFunc_step sound stepped
  have kept := moved.kept sound quiet
  constructor
  case line =>
    intro a member
    rw [kept.line] at member
    rw [assignedTo_congr (kept.infos a member), moved.serials sound (o := .queue) member (by simp)]
    exact rotates.line a member
  case ready =>
    intro a ready
    rw [moved.main] at ready
    have held : s.Holds .main a := by simp [PoolState.Holds, ready, MainPc.task]
    rw [assignedTo_congr (moved.infos sound held rfl (by simp)), moved.enqueued]
    exact rotates.ready a ready
  case prepared =>
    intro c info ready found
    rw [moved.main] at ready
    rw [moved.enqueued]
    refine rotates.prepared c info ready ?_
    rcases moved.heap with same | ⟨b, -, freed⟩
    · exact same ▸ found
    · exact info_some.mpr (free_some (info_some.mp (freed ▸ found)))
  case hands =>
    intro j a held
    by_cases own : j = k
    · subst own
      have before : (s.workers j).task = some a :=
        moved.follows.same_task quiet (by simpa [moved.workers] using held)
      have same : serialOf s'.heap a = serialOf s.heap a := by
        rcases moved.heap with same | ⟨b, -, freed⟩
        · rw [same]
        · -- The task is still there, so it is not the block that has been freed.
          obtain ⟨t, found⟩ := sound'.task (.worker j) a held
          have apart : a ≠ b := by
            rintro rfl
            simp [freed, Heap.free, Heap.task] at found
          rw [freed]
          exact serialOf_update_other apart none
      rw [same]
      exact rotates.hands j a before
    · have before : (s.workers j).task = some a := by simpa [moved.workers, own] using held
      rw [moved.serials sound (o := .worker j) before (by simpa using own)]
      exact rotates.hands j a before
  case executed =>
    intro n j member
    rcases threadFunc_executed stepped with same | ⟨t, f, c, logged, longer⟩
    · exact rotates.executed n j (same ▸ member)
    · rw [longer] at member
      rcases List.mem_append.mp member with old | new
      · exact rotates.executed n j old
      · obtain ⟨rfl, rfl⟩ := Prod.mk.inj (List.mem_singleton.mp new)
        exact rotates.hands j t (by simp [logged, WorkerPc.task])

theorem poolStep_rotates {e : PoolEvent} (tracked : s.Tracked) (assigned : s.Assigned) (rotates : s.Rotates)
    (rotation : InRotation s e s') (stepped : poolStep s e = some s') : s'.Rotates := by
  have sound := tracked.sound
  have assigned' := poolStep_assigned tracked assigned rotation.1 stepped
  have sound' := (poolStep_tracked tracked rotation.1.1 stepped).sound
  have room := tracked.room rotation.1.1 stepped
  simp only [poolStep, sound.safe, Bool.false_eq_true, if_false] at stepped
  cases e with
  | mallocInfo a clntInfo => exact mallocInfo_rotates rotates sound rotation.2 stepped
  | mallocTask a stale funcPtr => exact mallocTask_rotates rotates sound stepped
  | mallocFails =>
    obtain rfl := mallocFails_cases stepped
    exact ⟨rotates.line, fun a ready => (by cases ready), fun c info ready => (by cases ready), rotates.hands,
      rotates.executed⟩
  | enqueue => exact enqueue_rotates rotates tracked (room rfl) stepped
  | signal => exact Option.some.inj stepped ▸ signal_rotates rotates sound
  | worker k =>
    by_cases dequeues : s.workers k = .counted
    · exact counted_rotates rotates sound assigned' dequeues stepped
    · exact runs_rotates rotates sound sound' dequeues stepped

structure PoolState.Dealt (s : PoolState) : Prop where
  tracked : s.Tracked
  assigned : s.Assigned
  rotates : s.Rotates
  board : Dispatch.system.ReachableWhile (Dispatch.TakesOwn threadOf) (board s)

theorem poolStep_dealt {e : PoolEvent} (dealt : s.Dealt) (rotation : InRotation s e s')
    (stepped : poolStep s e = some s') : s'.Dealt := by
  have tracked := dealt.tracked
  have room := tracked.room rotation.1.1 stepped
  have rotates' := poolStep_rotates tracked dealt.assigned dealt.rotates rotation stepped
  refine ⟨poolStep_tracked tracked rotation.1.1 stepped, poolStep_assigned tracked dealt.assigned rotation.1 stepped,
    rotates', ?_⟩
  rcases poolStep_board tracked.sound tracked.numbered room stepped with same | ⟨move, moved⟩
  · exact same ▸ dealt.board
  · refine .next _ move _ dealt.board ?_ moved
    rintro k n rest rfl line
    -- Worker `k` has the job after the step.
    have held : ((board s').hands k).job = some n := by
      simp only [Dispatch.step, line] at moved
      split at moved
      next n' rest' _ front =>
        obtain ⟨rfl, rfl⟩ := List.cons.inj front
        rw [← Option.some.inj moved]
        simp [Dispatch.Hand.job]
      next => cases moved
    obtain ⟨a, task, serial⟩ := handOf_job held
    rw [← serial]
    exact rotates'.hands k a task

theorem rotation_dealt (reached : pool.ReachableWhile InRotation s) : s.Dealt := by
  refine reached.invariant (fun s start => ?_) fun s e s' _ dealt rotation stepped =>
    poolStep_dealt dealt rotation stepped
  obtain rfl : s = threadPoolInit := start
  refine ⟨threadPoolInit_tracked, threadPoolInit_assigned, threadPoolInit_rotates, .initial _ ?_⟩
  exact board_ext rfl (by simp [board, threadPoolInit_queued, Dispatch.initial]) rfl rfl rfl rfl

end Rotation

end NetProg.P3
