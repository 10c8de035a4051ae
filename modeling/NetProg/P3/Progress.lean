import Mathlib.Algebra.Order.BigOperators.Group.Finset
import NetProg.P3.Wrapped

set_option autoImplicit false

namespace NetProg.P3

open Linked Threads Transition

def LockEvent.Own : LockEvent → Prop
  -- Steps of the three kinds of threads; a request and a spurious wake-up come from outside.
  | .main => True
  | .signal => True
  | .worker _ => True
  | _ => False

def MainAt.held : MainAt → Nat
  | .outside => 0
  | .inside => 2
  | .unlocking => 1

def SignalAt.held : SignalAt → Nat
  | .locking => 0
  | .checking => 6
  | .posting _ => 5
  | .storing _ => 4
  | .broadcasting _ => 3
  | .unlockingSem => 2
  | .unlocking => 1

def WorkerAt.held : WorkerAt → Nat
  | .inside _ => 2
  | .unlocking _ => 1
  | _ => 0

-- Steps until no thread has a mutex.
def LockedPool.held (s : LockedPool) : Nat := s.mainAt.held + s.signalAt.held + ∑ k, (s.workerAt k).held

def WorkerPc.sections : WorkerPc → Nat
  -- Steps of `threadFunc` until the next dequeue.
  | .counted => 0
  | .woken => 1
  | .waiting => 2
  | .leaving => 3
  | .argFreed _ => 4
  | .executed _ => 5
  | .executing _ _ _ => 6
  | .logged _ _ _ => 7
  | .fetched _ _ _ => 8
  | .dequeued _ => 9

def SignalAt.toWake : SignalAt → Nat
  | .broadcasting _ => 1
  | .storing _ => 2
  | .posting _ => 3
  | .checking => 4
  | .locking => 5
  | .unlocking => 6
  | .unlockingSem => 7

def WorkerAt.toAct (posted : Bool) (toWake : Nat) : WorkerAt → Nat
  -- A worker without a post goes to sleep once more before the next broadcast.
  | .inside _ => if posted then 0 else 10
  | .outside => if posted then 1 else 11
  | .wakened => if posted then 1 else 11
  | .blocked => 2 + toWake
  | .unlocking _ => 12

def LockedPool.turns (s : LockedPool) (k : Fin thrNum) : Nat :=
  13 * (s.pool.workers k).sections +
    (s.workerAt k).toAct (s.pool.taskCheck k == 1) s.signalAt.toWake

theorem WorkerAt.toAct_le (point : WorkerAt) (posted : Bool) (signalAt : SignalAt) :
    point.toAct posted signalAt.toWake ≤ 12 := by
  cases point <;> cases posted <;> cases signalAt <;> simp [WorkerAt.toAct, SignalAt.toWake]

theorem WorkerAt.toAct_mono (point : WorkerAt) (posted : Bool) {wake wake' : Nat} (sooner : wake' ≤ wake) :
    point.toAct posted wake' ≤ point.toAct posted wake := by
  cases point <;> simp [WorkerAt.toAct, sooner]

theorem WorkerAt.toAct_posted (point : WorkerAt) (posted : Bool) (wake : Nat) :
    point.toAct true wake ≤ point.toAct posted wake := by
  cases point <;> cases posted <;> simp [WorkerAt.toAct]

theorem WorkerAt.toAct_awake {point : WorkerAt} (awake : point ≠ .blocked) (posted : Bool) (wake wake' : Nat) :
    point.toAct posted wake = point.toAct posted wake' := by
  cases point with
  | blocked => exact absurd rfl awake
  | _ => rfl

theorem WorkerPc.Follows.sections {pc pc' : WorkerPc} (follows : pc.Follows pc') (quiet : pc ≠ .counted) :
    pc'.sections < pc.sections := by
  cases follows with
  | dequeue => exact absurd rfl quiet
  | _ => simp [WorkerPc.sections]

theorem held_put (s : LockedPool) (k : Fin thrNum) (point : WorkerAt) :
    (s.workerAt k).held + (s.put k point).held = point.held + s.held := by
  have moved := sum_update WorkerAt.held s.workerAt k point
  simp only [LockedPool.held, LockedPool.put]
  omega

theorem SignalAt.held_le (point : SignalAt) : point.held ≤ 6 := by
  cases point <;> simp [SignalAt.held]

theorem held_small (s : LockedPool) : s.held < 100 := by
  have main : s.mainAt.held ≤ 2 := by cases s.mainAt <;> simp [MainAt.held]
  have workers : ∑ k, (s.workerAt k).held ≤ ∑ _k : Fin thrNum, 2 :=
    Finset.sum_le_sum fun k _ => by cases s.workerAt k <;> simp [WorkerAt.held]
  have ten : ∑ _k : Fin thrNum, 2 = 20 := by simp [thrNum]
  have signal := s.signalAt.held_le
  simp only [LockedPool.held]
  omega

-- `a` is at the head of the queue, for worker `k`, and `taken` tasks have been dequeued before it.
structure PoolState.Heads (s : PoolState) (a : Addr) (k : Fin thrNum) (taken : Nat) : Prop where
  line : ∃ rest, queued s.heap s.taskQ = a :: rest
  mine : assignedTo s.heap a = some k.val
  taken : s.history.dequeued.length = taken

structure LockedPool.Takes (s : LockedPool) (a : Addr) (taken load : Nat) : Prop where
  worker : ∃ k, s.pool.workers k = .dequeued (some a)
  taken : s.pool.history.dequeued.length = taken + 1
  load : s.load < load

section Heads

variable {s s' : PoolState} {a : Addr} {k : Fin thrNum} {taken : Nat}

theorem PoolState.Heads.some_queued (heads : s.Heads a k taken) (sound : s.Sound) : s.taskQ.len ≠ 0 := by
  obtain ⟨rest, line⟩ := heads.line
  simp [sound.rep.len, line]

theorem PoolState.Heads.next (heads : s.Heads a k taken) (sound : s.Sound) {id : Fin thrNum}
    (next : s.NextFor id) : id = k := by
  obtain ⟨rest, line⟩ := heads.line
  have assigned := (sound.next_iff id).mp next a rest line
  exact Fin.ext (Option.some.inj (assigned.symm.trans heads.mine))

theorem PoolState.Heads.kept (heads : s.Heads a k taken) (tracked : s.Tracked) (tracked' : s'.Tracked)
    (kept : QueueKept s s') (enqueued : s'.history.enqueued = s.history.enqueued) : s'.Heads a k taken := by
  obtain ⟨rest, line⟩ := heads.line
  refine ⟨⟨rest, kept.line.trans line⟩, ?_, ?_⟩
  · rw [assignedTo_congr (kept.infos a (by simp [line]))]
    exact heads.mine
  · have before := tracked.counts
    have after := tracked'.counts
    have taken := heads.taken
    rw [kept.line] at after
    omega

theorem PoolState.Heads.enqueue (heads : s.Heads a k taken) (sound : s.Sound)
    (room : (queued s.heap s.taskQ).length + 1 < uintSize) (stepped : enqueue s = some s') : s'.Heads a k taken := by
  obtain ⟨newTask, -, -, -, -, -, history, same, rep⟩ := enqueue_cases sound room stepped
  obtain ⟨rest, line⟩ := heads.line
  refine ⟨⟨rest ++ [newTask], ?_⟩, ?_, ?_⟩
  · simp [rep.queued_eq, line]
  · rw [assignedTo_congr (infoOf_sameButLinks same a)]
    exact heads.mine
  · rw [history]
    exact heads.taken

theorem PoolState.Tracked.heads (tracked : s.Tracked) (nonempty : s.backlog ≠ 0) :
    ∃ a k, s.Heads a k s.history.dequeued.length := by
  rw [tracked.backlog] at nonempty
  cases line : queued s.heap s.taskQ with
  | nil => simp [line] at nonempty
  | cons a rest =>
    obtain ⟨c, info, arg, found, inside⟩ := tracked.sound.arg .queue a (by simp [PoolState.Holds, line]) rfl
    exact ⟨a, ⟨info.assignedThrId, inside⟩, ⟨rest, line⟩, by simp [assignedTo, arg, found], rfl⟩

theorem threadFunc_enabled (can : s.workers k = .waiting → s.taskCheck k = 1) : ∃ s', threadFunc s k = some s' := by
  cases pc : s.workers k with
  | waiting => simp [threadFunc, pc, bSemWait, can pc]
  | dequeued taskPtr =>
    cases taskPtr with
    | none => simp [threadFunc, pc]
    | some t =>
      simp only [threadFunc, pc]
      split <;> exact ⟨_, rfl⟩
  | counted | fetched | logged | argFreed =>
    simp only [threadFunc, pc]
    split <;> exact ⟨_, rfl⟩
  | executed t =>
    simp only [threadFunc, pc]
    split
    next => exact ⟨_, rfl⟩
    next t _ => cases freed : freeArg s.heap t.arg <;> exact ⟨_, rfl⟩
  | woken | executing | leaving => simp [threadFunc, pc]

theorem runs_heads (tracked : s.Tracked) (tracked' : s'.Tracked) {j : Fin thrNum} (quiet : s.workers j ≠ .counted)
    (stepped : threadFunc s j = some s') :
    s'.backlog = s.backlog ∧ ∀ a k taken, s.Heads a k taken → s'.Heads a k taken := by
  obtain ⟨pc, moved⟩ := threadFunc_step tracked.sound stepped
  have kept := moved.kept tracked.sound quiet
  refine ⟨?_, fun a k taken heads => heads.kept tracked tracked' kept moved.enqueued⟩
  rw [tracked'.backlog, tracked.backlog, kept.line]

theorem takes_head (tracked : s.Tracked) (tracked' : s'.Tracked) {j : Fin thrNum} (pc : s.workers j = .counted)
    (stepped : threadFunc s j = some s') :
    s'.backlog ≤ s.backlog ∧ ∀ a k taken, s.Heads a k taken →
      s'.workers j = .dequeued (some a) ∧ s'.history.dequeued.length = taken + 1 ∧ s'.backlog < s.backlog := by
  obtain ⟨taskPtr, workers, -, -, -, -, history, line, empty, -⟩ := counted_cases tracked.sound pc stepped
  rw [tracked'.backlog, tracked.backlog, line]
  refine ⟨by simp, fun a k taken heads => ?_⟩
  obtain ⟨rest, front⟩ := heads.line
  cases taskPtr with
  | none => simp [empty rfl] at front
  | some b =>
    obtain rfl : b = a := by
      rw [line] at front
      exact (List.cons.inj front).1
    exact ⟨by simp [workers], by simp [history, heads.taken], by simp⟩

end Heads

structure LockedPool.LetsGo (s s' : LockedPool) : Prop where
  held : s'.held < s.held
  load : s'.load ≤ s.load
  head : ∀ a k taken, s.pool.Heads a k taken →
    s'.Takes a taken s.load ∨ s'.pool.Heads a k taken ∧ s'.turns k ≤ s.turns k

section Steps

variable {s s' : LockedPool}

theorem LockedPool.Tracked.sound (tracked : s.Tracked) : s.pool.Sound := (reachable_tracked tracked.pool).sound

theorem LockedPool.Tracked.lighter (tracked : s.Tracked) {e : LockEvent} (stepped : s.step e = some s')
    (load : s'.load ≤ s.load) : s'.Tracked :=
  tracked.step (lt_of_le_of_lt load tracked.room) stepped

theorem mutex_free (locked : s.Locked) {m : Mutex} (main : ¬ s.mainAt.Has m) (signal : ¬ s.signalAt.Has m)
    (idle : ∀ k, (s.workerAt k).held = 0) : s.owner m = none := by
  apply locked.owned.free
  intro t has
  cases t with
  | main => exact main has
  | signal => exact signal has
  | worker k =>
    have nothing := idle k
    cases point : s.workerAt k <;> simp [LockedPool.Has, point, WorkerAt.Has, WorkerAt.held] at has nothing

theorem load_backlog (main : s'.mainAt = s.mainAt) : s'.load + s.pool.backlog = s.load + s'.pool.backlog := by
  simp only [LockedPool.load, main]
  split <;> omega

theorem turns_put {j : Fin thrNum} {point : WorkerAt} (owner : Mutex → Option Thread)
    (closer : point.toAct (s.pool.taskCheck j == 1) s.signalAt.toWake ≤
      (s.workerAt j).toAct (s.pool.taskCheck j == 1) s.signalAt.toWake) (k : Fin thrNum) :
    ({ s.put j point with owner } : LockedPool).turns k ≤ s.turns k := by
  by_cases own : k = j
  · subst own
    simpa [LockedPool.turns, LockedPool.put] using closer
  · simp [LockedPool.turns, LockedPool.put, own]

theorem turns_runs (sound : s.pool.Sound) {j : Fin thrNum} (quiet : s.pool.workers j ≠ .counted) {pool : PoolState}
    (stepped : threadFunc s.pool j = some pool) (point : WorkerAt) (k : Fin thrNum) :
    ({ s.put j point with pool } : LockedPool).turns k ≤ s.turns k ∧
      (k = j → ({ s.put j point with pool } : LockedPool).turns k < s.turns k) := by
  obtain ⟨pc, moved⟩ := threadFunc_step sound stepped
  by_cases own : k = j
  · subst own
    have fewer := moved.follows.sections quiet
    have bound := point.toAct_le (pool.taskCheck k == 1) s.signalAt
    simp only [LockedPool.turns, LockedPool.put, moved.workers, Function.update_self]
    omega
  · have taskCheck : pool.taskCheck k = s.pool.taskCheck k := by
      rw [threadFunc_taskCheck sound stepped]
      split_ifs
      · simp [own]
      · rfl
    simp [LockedPool.turns, LockedPool.put, moved.workers, taskCheck, own]

theorem worker_lets_go (tracked : s.Tracked) {j : Fin thrNum} (busy : (s.workerAt j).held ≠ 0) :
    ∃ s', s.step (.worker j) = some s' ∧ s.LetsGo s' := by
  have known := reachable_tracked tracked.pool
  have sound := known.sound
  cases point : s.workerAt j with
  | outside | blocked | wakened => simp [point, WorkerAt.held] at busy
  | unlocking m =>
    have stepped : s.step (.worker j) = some ((s.unlock m).put j .outside) := by
      simp [LockedPool.step, sound.safe, workerStep, point]
    have held := held_put (s.unlock m) j .outside
    have same : (s.unlock m).held = s.held := rfl
    refine ⟨_, stepped, ?_, le_rfl, fun a k taken heads => .inr ⟨heads, ?_⟩⟩
    · simp only [LockedPool.unlock, point, WorkerAt.held] at held same ⊢
      omega
    · apply turns_put (s := s)
      cases posted : s.pool.taskCheck j == 1 <;> simp [point, WorkerAt.toAct]
  | inside m =>
    have need := tracked.locked.inside j m point
    by_cases waits : s.pool.workers j = .waiting ∧ s.pool.taskCheck j ≠ 1
    · have stepped : s.step (.worker j) = some ((s.unlock m).put j .blocked) := by
        simp [LockedPool.step, sound.safe, workerStep, point, waits]
      have held := held_put (s.unlock m) j .blocked
      have same : (s.unlock m).held = s.held := rfl
      refine ⟨_, stepped, ?_, le_rfl, fun a k taken heads => .inr ⟨heads, ?_⟩⟩
      · simp only [LockedPool.unlock, point, WorkerAt.held] at held same ⊢
        omega
      · apply turns_put (s := s)
        cases signalAt : s.signalAt <;> simp [point, waits.2, WorkerAt.toAct, SignalAt.toWake]
    · obtain ⟨pool, ran⟩ := threadFunc_enabled fun pc => by_contra fun other => waits ⟨pc, other⟩
      have stepped : s.step (.worker j) = some { s.put j (.unlocking m) with pool } := by
        simp [LockedPool.step, sound.safe, workerStep, point, waits, ran]
      have tracked' : pool.Tracked :=
        known.next (e := .worker j) (by simp) (by simpa [poolStep, sound.safe] using ran)
      have held : ({ s.put j (.unlocking m) with pool } : LockedPool).held < s.held := by
        have moved := held_put s j (.unlocking m)
        have same : ({ s.put j (.unlocking m) with pool } : LockedPool).held = (s.put j (.unlocking m)).held := rfl
        simp only [point, WorkerAt.held] at moved
        omega
      have load : ({ s.put j (.unlocking m) with pool } : LockedPool).load + s.pool.backlog = s.load + pool.backlog :=
        load_backlog rfl
      refine ⟨_, stepped, ?_⟩
      by_cases pc : s.pool.workers j = .counted
      · obtain ⟨fewer, takes⟩ := takes_head known tracked' pc ran
        have lighter : ({ s.put j (.unlocking m) with pool } : LockedPool).load ≤ s.load := by omega
        refine ⟨held, lighter, fun a k taken heads => .inl ?_⟩
        obtain ⟨worker, count, less⟩ := takes a k taken heads
        exact ⟨⟨j, worker⟩, count, by omega⟩
      · obtain ⟨same, keeps⟩ := runs_heads known tracked' pc ran
        have lighter : ({ s.put j (.unlocking m) with pool } : LockedPool).load ≤ s.load := by omega
        exact ⟨held, lighter, fun a k taken heads =>
          .inr ⟨keeps a k taken heads, (turns_runs sound pc ran (.unlocking m) k).1⟩⟩

theorem main_lets_go (tracked : s.Tracked) (busy : s.mainAt ≠ .outside) :
    ∃ s', s.step .main = some s' ∧ s.LetsGo s' := by
  have known := reachable_tracked tracked.pool
  have sound := known.sound
  cases point : s.mainAt with
  | outside => exact absurd point busy
  | unlocking =>
    have stepped : s.step .main = some { s.unlock .queue with mainAt := .outside } := by
      simp [LockedPool.step, sound.safe, mainStep, point]
    refine ⟨_, stepped, ?_, ?_, fun a k taken heads => .inr ⟨heads, le_rfl⟩⟩
    · simp [LockedPool.held, LockedPool.unlock, point, MainAt.held]
    · simp [LockedPool.load, LockedPool.unlock, point]
  | inside =>
    obtain ⟨newTask, ready⟩ := tracked.locked.enqueueing point
    obtain ⟨pool, ran⟩ : ∃ pool, enqueue s.pool = some pool := by
      simp only [enqueue, ready]
      split <;> exact ⟨_, rfl⟩
    have stepped : s.step .main = some { s with pool, mainAt := .unlocking } := by
      simp [LockedPool.step, sound.safe, mainStep, point, ran]
    have room : (queued s.pool.heap s.pool.taskQ).length + 1 < uintSize := by
      rw [← known.backlog]
      simpa [LockedPool.load, point] using tracked.room
    obtain ⟨-, -, -, workers, -, taskCheck, history, -⟩ := enqueue_cases sound room ran
    refine ⟨_, stepped, ?_, ?_, fun a k taken heads => .inr ⟨heads.enqueue sound room ran, ?_⟩⟩
    · simp [LockedPool.held, point, MainAt.held]
    · simp only [LockedPool.load, point, PoolState.backlog, history]
      omega
    · simp [LockedPool.turns, workers, taskCheck]

theorem signal_moves_on (sound : s.pool.Sound) (owner : Mutex → Option Thread) {point : SignalAt}
    (less : point.held < s.signalAt.held) (sooner : s.pool.taskQ.len ≠ 0 → point.toWake ≤ s.signalAt.toWake) :
    s.LetsGo { s with owner, signalAt := point } := by
  refine ⟨?_, le_rfl, fun a k taken heads => .inr ⟨heads, ?_⟩⟩
  · simp only [LockedPool.held]
    omega
  · have mono := (s.workerAt k).toAct_mono (s.pool.taskCheck k == 1) (sooner (heads.some_queued sound))
    simp only [LockedPool.turns]
    omega

theorem post_lets_go (tracked : s.Tracked) {id : Fin thrNum} (point : s.signalAt = .storing id) :
    s.LetsGo { s with pool := { s.pool with taskCheck := bSemPost id }, signalAt := .broadcasting id } := by
  refine ⟨?_, le_rfl, fun a k taken heads => .inr ⟨⟨heads.line, heads.mine, heads.taken⟩, ?_⟩⟩
  · simp [LockedPool.held, point, SignalAt.held]
  · obtain ⟨-, next⟩ := tracked.locked.posts id (by rw [point]; rfl)
    obtain rfl := heads.next tracked.sound next
    have posted : (bSemPost id id == 1) = true := by simp [bSemPost]
    have sooner := (s.workerAt id).toAct_mono true (show 1 ≤ 2 by omega)
    have better := (s.workerAt id).toAct_posted (s.pool.taskCheck id == 1) 2
    simp only [LockedPool.turns, posted, point, SignalAt.toWake]
    omega

theorem broadcast_lets_go (tracked : s.Tracked) {id : Fin thrNum} (point : s.signalAt = .broadcasting id) :
    s.LetsGo { s with
      workerAt := fun k => if s.workerAt k = .blocked then .wakened else s.workerAt k
      signalAt := .unlockingSem } := by
  refine ⟨?_, le_rfl, fun a k taken heads => .inr ⟨heads, ?_⟩⟩
  · have same : ∀ k, (if s.workerAt k = .blocked then WorkerAt.wakened else s.workerAt k).held = (s.workerAt k).held := by
      intro k
      split_ifs with waits
      · simp [waits, WorkerAt.held]
      · rfl
    simp [LockedPool.held, point, SignalAt.held, same]
  · obtain ⟨-, next⟩ := tracked.locked.posts id (by rw [point]; rfl)
    obtain rfl := heads.next tracked.sound next
    have posted := tracked.locked.posted id point
    by_cases waits : s.workerAt id = .blocked
    · simp [LockedPool.turns, waits, posted, point, WorkerAt.toAct, SignalAt.toWake]
    · have same := WorkerAt.toAct_awake waits (s.pool.taskCheck id == 1) SignalAt.unlockingSem.toWake s.signalAt.toWake
      simp only [LockedPool.turns, waits, if_false, same, le_refl]

theorem signal_lets_go (tracked : s.Tracked) (busy : s.signalAt ≠ .locking) (idle : ∀ k, (s.workerAt k).held = 0) :
    ∃ s', s.step .signal = some s' ∧ s.LetsGo s' := by
  have sound := tracked.sound
  cases point : s.signalAt with
  | locking => exact absurd point busy
  | checking =>
    by_cases empty : s.pool.taskQ.len = 0
    · have stepped : s.step .signal = some { s with signalAt := .unlocking } := by
        simp [LockedPool.step, sound.safe, signalStep, point, empty]
      exact ⟨_, stepped, signal_moves_on sound s.owner (by simp [point, SignalAt.held]) (absurd empty)⟩
    · rcases signalThreadFunc_cases sound with ⟨line, -⟩ | ⟨a, rest, info, inside, -, -, head, -⟩
      · exact absurd (by simp [sound.rep.len, line]) empty
      · have stepped : s.step .signal = some { s with signalAt := .posting ⟨info.assignedThrId, inside⟩ } := by
          simp [LockedPool.step, sound.safe, signalStep, point, empty, head, inside]
        exact ⟨_, stepped, signal_moves_on sound s.owner (by simp [point, SignalAt.held])
          (by simp [point, SignalAt.toWake])⟩
  | posting id =>
    have free : s.owner .sem = none := by
      apply mutex_free tracked.locked _ _ idle
      · cases main : s.mainAt <;> simp [MainAt.Has]
      · simp [point, SignalAt.Has]
    have stepped : s.step .signal =
        some { s with owner := Function.update s.owner .sem (some .signal), signalAt := .storing id } := by
      simp [LockedPool.step, sound.safe, signalStep, point, LockedPool.lock, free]
    exact ⟨_, stepped, signal_moves_on sound _ (by simp [point, SignalAt.held]) (by simp [point, SignalAt.toWake])⟩
  | storing id =>
    have stepped : s.step .signal =
        some { s with pool := { s.pool with taskCheck := bSemPost id }, signalAt := .broadcasting id } := by
      simp [LockedPool.step, sound.safe, signalStep, point]
    exact ⟨_, stepped, post_lets_go tracked point⟩
  | broadcasting id =>
    have stepped : s.step .signal = some { s with
        workerAt := fun k => if s.workerAt k = .blocked then .wakened else s.workerAt k
        signalAt := .unlockingSem } := by
      simp [LockedPool.step, sound.safe, signalStep, point]
    exact ⟨_, stepped, broadcast_lets_go tracked point⟩
  | unlockingSem =>
    have stepped : s.step .signal = some { s.unlock .sem with signalAt := .unlocking } := by
      simp [LockedPool.step, sound.safe, signalStep, point]
    exact ⟨_, stepped, signal_moves_on sound _ (by simp [point, SignalAt.held]) (by simp [point, SignalAt.toWake])⟩
  | unlocking =>
    have stepped : s.step .signal = some { s.unlock .queue with signalAt := .locking } := by
      simp [LockedPool.step, sound.safe, signalStep, point]
    exact ⟨_, stepped, signal_moves_on sound _ (by simp [point, SignalAt.held]) (by simp [point, SignalAt.toWake])⟩

theorem idle_of_held (free : s.held = 0) :
    s.mainAt = .outside ∧ s.signalAt = .locking ∧ ∀ k, (s.workerAt k).held = 0 := by
  simp only [LockedPool.held, Nat.add_eq_zero_iff, Finset.sum_eq_zero_iff, Finset.mem_univ, true_imp_iff] at free
  obtain ⟨⟨main, signal⟩, workers⟩ := free
  refine ⟨?_, ?_, workers⟩
  · cases point : s.mainAt <;> simp [point, MainAt.held] at main ⊢
  · cases point : s.signalAt <;> simp [point, SignalAt.held] at signal ⊢

theorem nobody_has (tracked : s.Tracked) (free : s.held = 0) (m : Mutex) : s.owner m = none := by
  obtain ⟨main, signal, workers⟩ := idle_of_held free
  exact mutex_free tracked.locked (by simp [main, MainAt.Has]) (by simp [signal, SignalAt.Has]) workers

theorem lets_go (tracked : s.Tracked) (busy : s.held ≠ 0) :
    ∃ e s', e.Own ∧ s.step e = some s' ∧ s.LetsGo s' := by
  by_cases worker : ∃ j, (s.workerAt j).held ≠ 0
  · obtain ⟨j, here⟩ := worker
    obtain ⟨s', stepped, goes⟩ := worker_lets_go tracked here
    exact ⟨.worker j, s', trivial, stepped, goes⟩
  have idle : ∀ j, (s.workerAt j).held = 0 := by simpa using worker
  by_cases main : s.mainAt = .outside
  · have signal : s.signalAt ≠ .locking := by
      intro signal
      simp [LockedPool.held, main, signal, idle, MainAt.held, SignalAt.held] at busy
    obtain ⟨s', stepped, goes⟩ := signal_lets_go tracked signal idle
    exact ⟨.signal, s', trivial, stepped, goes⟩
  · obtain ⟨s', stepped, goes⟩ := main_lets_go tracked main
    exact ⟨.main, s', trivial, stepped, goes⟩

theorem signal_locks (tracked : s.Tracked) (free : s.held = 0) : s.step .signal =
    some { s with owner := Function.update s.owner .queue (some .signal), signalAt := .checking } := by
  have signal := (idle_of_held free).2.1
  simp [LockedPool.step, tracked.sound.safe, signalStep, signal, LockedPool.lock, nobody_has tracked free]

theorem head_nearer (tracked : s.Tracked) (free : s.held = 0) {a : Addr} {k : Fin thrNum} {taken : Nat}
    (heads : s.pool.Heads a k taken) :
    ∃ e s', e.Own ∧ s.step e = some s' ∧ s'.load ≤ s.load ∧ s'.pool.Heads a k taken ∧ s'.turns k < s.turns k := by
  have known := reachable_tracked tracked.pool
  have sound := known.sound
  have signal := (idle_of_held free).2.1
  have locks : ∀ m, s.workerAt k = .outside ∨ s.workerAt k = .wakened →
      LockedPool.turns { s.put k (.inside m) with owner := Function.update s.owner m (some (.worker k)) } k < s.turns k := by
    intro m point
    simp only [LockedPool.turns, LockedPool.put, Function.update_self]
    rcases point with point | point <;> cases posted : s.pool.taskCheck k == 1 <;> simp [point, WorkerAt.toAct]
  cases point : s.workerAt k with
  | inside m | unlocking m =>
    have nothing := (idle_of_held free).2.2 k
    simp [point, WorkerAt.held] at nothing
  | blocked =>
    refine ⟨.signal, _, trivial, signal_locks tracked free, le_rfl, heads, ?_⟩
    simp [LockedPool.turns, point, signal, WorkerAt.toAct, SignalAt.toWake]
  | wakened =>
    refine ⟨.worker k, _, trivial, ?_, ?_, ?_, locks .sem (.inr point)⟩
    · simp [LockedPool.step, sound.safe, workerStep, point, LockedPool.lock, nobody_has tracked free, LockedPool.put]
    · exact le_rfl
    · exact heads
  | outside =>
    cases need : mutexOf (s.pool.workers k) with
    | some m =>
      refine ⟨.worker k, _, trivial, ?_, ?_, ?_, locks m (.inl point)⟩
      · simp [LockedPool.step, sound.safe, workerStep, point, need, LockedPool.lock, nobody_has tracked free,
          LockedPool.put]
      · exact le_rfl
      · exact heads
    | none =>
      have quiet : s.pool.workers k ≠ .counted := by
        intro counted
        simp [counted, mutexOf] at need
      obtain ⟨pool, ran⟩ := threadFunc_enabled (s := s.pool) (k := k) fun waiting => by simp [waiting, mutexOf] at need
      have tracked' : pool.Tracked :=
        known.next (e := .worker k) (by simp) (by simpa [poolStep, sound.safe] using ran)
      obtain ⟨same, keeps⟩ := runs_heads known tracked' quiet ran
      have load : ({ s with pool } : LockedPool).load + s.pool.backlog = s.load + pool.backlog := load_backlog rfl
      have put : s.put k .outside = s := by simp [LockedPool.put, ← point]
      have nearer := (turns_runs sound quiet ran .outside k).2 rfl
      rw [put] at nearer
      refine ⟨.worker k, { s with pool }, trivial, ?_, ?_, keeps a k taken heads, nearer⟩
      · simp [LockedPool.step, sound.safe, workerStep, point, need, ran]
      · omega

end Steps

section Runs

variable {s : LockedPool}

theorem mutexes_released (tracked : s.Tracked) : ∃ events s', (∀ e ∈ events, LockEvent.Own e) ∧
    lockedPool.exec s events = some s' ∧ ∀ m, s'.owner m = none := by
  by_cases free : s.held = 0
  · exact ⟨[], s, by simp, rfl, nobody_has tracked free⟩
  have progress : ∀ s : LockedPool, s.Tracked ∧ s.held ≠ 0 → ∃ e s', e.Own ∧ lockedPool.step s e = some s' ∧
      ((∀ m, s'.owner m = none) ∨ (s'.Tracked ∧ s'.held ≠ 0) ∧ s'.held < s.held) := by
    rintro s ⟨tracked, busy⟩
    obtain ⟨e, s', own, stepped, goes⟩ := lets_go tracked busy
    have tracked' := tracked.lighter stepped goes.load
    refine ⟨e, s', own, stepped, ?_⟩
    by_cases free : s'.held = 0
    · exact .inl (nobody_has tracked' free)
    · exact .inr ⟨⟨tracked', free⟩, goes.held⟩
  exact System.exec_to LockedPool.held progress ⟨tracked, free⟩

theorem head_dequeued (tracked : s.Tracked) {a : Addr} {k : Fin thrNum} {taken : Nat} (heads : s.pool.Heads a k taken) :
    ∃ events s', (∀ e ∈ events, LockEvent.Own e) ∧ lockedPool.exec s events = some s' ∧
      s'.Tracked ∧ s'.Takes a taken s.load := by
  have progress : ∀ now : LockedPool, now.Tracked ∧ now.pool.Heads a k taken ∧ now.load ≤ s.load →
      ∃ e next, e.Own ∧ lockedPool.step now e = some next ∧
        ((next.Tracked ∧ next.Takes a taken s.load) ∨
          (next.Tracked ∧ next.pool.Heads a k taken ∧ next.load ≤ s.load) ∧
            100 * next.turns k + next.held < 100 * now.turns k + now.held) := by
    rintro now ⟨tracked, heads, load⟩
    by_cases free : now.held = 0
    · obtain ⟨e, next, own, stepped, lighter, heads', nearer⟩ := head_nearer tracked free heads
      have small := held_small next
      exact ⟨e, next, own, stepped, .inr ⟨⟨tracked.lighter stepped lighter, heads', lighter.trans load⟩, by omega⟩⟩
    · obtain ⟨e, next, own, stepped, goes⟩ := lets_go tracked free
      have tracked' := tracked.lighter stepped goes.load
      have lessHeld := goes.held
      refine ⟨e, next, own, stepped, ?_⟩
      rcases goes.head a k taken heads with takes | ⟨heads', nearer⟩
      · exact .inl ⟨tracked', takes.worker, takes.taken, takes.load.trans_le load⟩
      · exact .inr ⟨⟨tracked', heads', goes.load.trans load⟩, by omega⟩
  exact System.exec_to (fun now => 100 * now.turns k + now.held) progress ⟨tracked, heads, le_rfl⟩

theorem queue_drained (tracked : s.Tracked) : ∃ events s', (∀ e ∈ events, LockEvent.Own e) ∧
    lockedPool.exec s events = some s' ∧ s'.pool.backlog = 0 := by
  induction load : s.load using Nat.strongRecOn generalizing s with
  | ind n ih =>
    by_cases empty : s.pool.backlog = 0
    · exact ⟨[], s, by simp, rfl, empty⟩
    obtain ⟨a, k, heads⟩ := (reachable_tracked tracked.pool).heads empty
    obtain ⟨first, mid, own, ran, tracked', takes⟩ := head_dequeued tracked heads
    obtain ⟨rest, last, own', ran', drained⟩ := ih mid.load (load ▸ takes.load) tracked' rfl
    refine ⟨first ++ rest, last, ?_, by rw [System.exec_append ran, ran'], drained⟩
    intro e member
    rcases List.mem_append.mp member with early | late
    · exact own e early
    · exact own' e late

end Runs

theorem pool_never_stuck {s : LockedPool} (reached : lockedPool.ReachableWhile Roomy s) :
    (∃ e s', e.Own ∧ lockedPool.step s e = some s') ∧
    (∃ events s', (∀ e ∈ events, LockEvent.Own e) ∧ lockedPool.exec s events = some s' ∧ ∀ m, s'.owner m = none) ∧
    (s.pool.backlog ≠ 0 → ∃ events s' a k, (∀ e ∈ events, LockEvent.Own e) ∧ lockedPool.exec s events = some s' ∧
      s.pool.taskQ.head = some a ∧ s'.pool.workers k = .dequeued (some a) ∧
      s'.pool.history.dequeued = s.pool.history.dequeued ++ [s.pool.history.dequeued.length]) ∧
    ∃ events s', (∀ e ∈ events, LockEvent.Own e) ∧ lockedPool.exec s events = some s' ∧ s'.pool.backlog = 0 := by
  have tracked := locked_tracked reached
  have known := reachable_tracked tracked.pool
  refine ⟨?_, mutexes_released tracked, fun nonempty => ?_, queue_drained tracked⟩
  · by_cases free : s.held = 0
    · exact ⟨.signal, _, trivial, signal_locks tracked free⟩
    · obtain ⟨e, s', own, stepped, -⟩ := lets_go tracked free
      exact ⟨e, s', own, stepped⟩
  · obtain ⟨a, k, heads⟩ := known.heads nonempty
    obtain ⟨events, s', own, ran, tracked', ⟨j, pc⟩, taken, -⟩ := head_dequeued tracked heads
    obtain ⟨rest, line⟩ := heads.line
    have first : s.pool.taskQ.head = some a := (line ▸ known.sound.rep.chain).head
    refine ⟨events, s', a, j, own, ran, first, pc, ?_⟩
    rw [(reachable_tracked tracked'.pool).dequeued, known.dequeued, taken, List.range_succ, List.length_range]

def lockedInit : LockedPool := threadPoolInit.unlocked

def oneTaskQueued : List LockEvent :=
  [.mallocInfo 0 someClient, .mallocTask 1 none 0, .main, .main, .main, .signal, .signal]

theorem one_task_dequeued : ∃ (s s' : LockedPool) (events : List LockEvent) (k : Fin thrNum),
    s.pool.backlog = 1 ∧ lockedPool.exec s events = some s' ∧ s'.pool.workers k = .dequeued (some 1) ∧
      s'.pool.history.dequeued = [0] := by
  obtain ⟨s, ran, nonempty, head, before⟩ : ∃ s : LockedPool,
      lockedPool.execWhile Roomy lockedInit oneTaskQueued = some s ∧ s.pool.backlog = 1 ∧
        s.pool.taskQ.head = some 1 ∧ s.pool.history.dequeued = [] := ⟨_, rfl, rfl, rfl, rfl⟩
  have start : LockedPool.Starts lockedInit := ⟨rfl, rfl, rfl, .inl ⟨rfl, rfl⟩⟩
  have reached := System.execWhile_reachable (.initial _ start) ran
  obtain ⟨events, s', a, k, -, ran', first, pc, dequeued⟩ := (pool_never_stuck reached).2.2.1 (by simp [nonempty])
  obtain rfl : 1 = a := Option.some.inj (head.symm.trans first)
  exact ⟨s, s', events, k, nonempty, ran', pc, by simpa [before] using dequeued⟩

def LockedPool.Lost (s : LockedPool) : Prop :=
  s.pool.Unseen ∧ s.signalAt.posts = none ∨ s.pool.Replaced ∨ s.pool.TakenLate

theorem LockedPool.Effect.lost {s s' : LockedPool} (effect : s.Effect s') (lost : s.Lost) : s'.Lost := by
  rcases lost with ⟨unseen, unposted⟩ | replaced | taken
  · cases effect with
    | same pool posts => exact .inl ⟨pool ▸ unseen, posts unseen.empty unposted⟩
    | steps e signalAt stepped =>
      rcases poolStep_unseen unseen stepped with unseen' | replaced
      · exact .inl ⟨unseen', by rw [signalAt, unposted]⟩
      · exact .inr (.inl replaced)
    | posts id here pool =>
      rw [unposted] at here
      cases here
  · cases effect with
    | same pool posts => exact .inr (.inl (pool ▸ replaced))
    | steps e signalAt stepped => exact .inr (poolStep_replaced replaced stepped)
    | posts id here pool => exact .inr (.inl (pool ▸ replaced.posted (bSemPost id) s.pool.fault))
  · refine .inr (.inr ?_)
    cases effect with
    | same pool posts => exact pool ▸ taken
    | steps e signalAt stepped => exact taken.later (poolStep_dequeued stepped)
    | posts id here pool => exact taken.later (by rw [pool])

theorem exec_lost {s s' : LockedPool} {events : List LockEvent} (lost : s.Lost)
    (ran : lockedPool.exec s events = some s') : s'.Lost := by
  apply System.exec_invariant (P := LockedPool.Lost) _ lost ran
  intro s e s' lost stepped
  exact (LockedPool.step_moves stepped).effect.lost lost

-- With 2 ^ 32 tasks queued `taskQ.len` is 0: nobody is posted, and no run dequeues the first task.
theorem full_queue_stuck :
    ¬ ∀ s : LockedPool, lockedPool.Reachable s → s.pool.backlog ≠ 0 →
      ∃ events s' a k, lockedPool.exec s events = some s' ∧ s'.pool.workers k = .dequeued (some a) ∧
        s'.pool.history.dequeued = s.pool.history.dequeued ++ [s.pool.history.dequeued.length] := by
  intro claimed
  obtain ⟨p, reached, safe, idle, waiting, quiet, history, -, len, -⟩ := enqueue_run uintSize
  have unseen : p.Unseen := by
    refine ⟨⟨by rw [history], by rw [history], by simp [waiting], by simp [idle]⟩, ?_, quiet, waiting⟩
    rw [len, Nat.mod_self]
  have nonempty : p.backlog ≠ 0 := by simp [PoolState.backlog, history, uintSize]
  obtain ⟨events, s', a, k, ran, -, dequeued⟩ := claimed p.unlocked (unlocked_reachable reached safe) nonempty
  have first : s'.pool.history.dequeued = [0] := by simpa [PoolState.unlocked, history] using dequeued
  rcases exec_lost (.inl ⟨unseen, rfl⟩) ran with ⟨unseen', -⟩ | replaced | ⟨n, rest, taken, late⟩
  · rw [unseen'.dequeued] at first
    cases first
  · rw [replaced.dequeued] at first
    cases first
  · obtain ⟨rfl, -⟩ := List.cons.inj (taken.symm.trans first)
    simp [uintSize] at late

end NetProg.P3
