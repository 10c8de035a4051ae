import NetProg.P3.Conservation
import NetProg.Shared.Threads

set_option autoImplicit false

namespace NetProg.P3

open Linked Threads Transition

inductive WaiterPc where
  -- A thread that calls `threadPoolWait`; `before` is a ghost: the number of tasks that had been enqueued when it did.
  | outside
  | locking (before : Nat)
  | checking (before : Nat)
  | lenRead (before : Nat)
  | blocked (before : Nat)
  | unlocking (before : Nat)
  | returned (before : Nat)
deriving DecidableEq, Repr

structure WaitingPool (n : Nat) where
  pool : PoolState
  waiters : Fin n → WaiterPc
  -- the waiter that has `mutexThreadCnt`; the sections of the workers are single steps
  mutexThreadCnt : Option (Fin n)

inductive WaitEvent (n : Nat) where
  -- `signalled` is the waiter that `pthread_cond_signal` wakes.
  | pool (e : PoolEvent) (signalled : Option (Fin n))
  | call (w : Fin n)
  | waiter (w : Fin n)
  | spurious (w : Fin n)

section Waiters

variable {n : Nat}

def WaitingPool.goto (s : WaitingPool n) (w : Fin n) (pc : WaiterPc) : WaitingPool n :=
  { s with waiters := Function.update s.waiters w pc }

def WaiterPc.isBlocked : WaiterPc → Bool
  | .blocked _ => true
  | _ => false

def wakeUp (s : WaitingPool n) (w : Fin n) : Option (WaitingPool n) :=
  match s.waiters w with
  | .blocked before => some (s.goto w (.locking before))
  | _ => none

def signalIdle (s : WaitingPool n) : Option (Fin n) → Option (WaitingPool n)
  -- `pthread_cond_signal(&thrPool->allThreadsIdle)` wakes a waiter when one is blocked.
  | none => if ∀ w, (s.waiters w).isBlocked = false then some s else none
  | some w => wakeUp s w

def callWait (s : WaitingPool n) (w : Fin n) : Option (WaitingPool n) :=
  match s.waiters w with
  | .outside => some (s.goto w (.locking s.pool.history.enqueued))
  | .returned _ => some (s.goto w (.locking s.pool.history.enqueued))
  | _ => none

def threadPoolWait (s : WaitingPool n) (w : Fin n) : Option (WaitingPool n) :=
  match s.waiters w with
  | .locking before =>
    if s.mutexThreadCnt = none then some { s.goto w (.checking before) with mutexThreadCnt := some w } else none
  | .checking before =>
    if s.pool.taskQ.len ≠ 0 then some { s.goto w (.blocked before) with mutexThreadCnt := none }
    else some (s.goto w (.lenRead before))
  | .lenRead before =>
    if s.pool.numWorkingThreads ≠ 0 then some { s.goto w (.blocked before) with mutexThreadCnt := none }
    else some (s.goto w (.unlocking before))
  | .unlocking before => some { s.goto w (.returned before) with mutexThreadCnt := none }
  | _ => none

def WorkerPc.counts : WorkerPc → Bool
  | .woken => true
  | .leaving => true
  | _ => false

def poolSteps (s : WaitingPool n) (e : PoolEvent) (signalled : Option (Fin n)) : Option (WaitingPool n) :=
  match pool.step s.pool e with
  | none => none
  | some after => match e with
    | .worker k =>
      if (s.pool.workers k).counts = true ∧ s.mutexThreadCnt ≠ none then none
      else if s.pool.workers k = .leaving ∧ after.numWorkingThreads = 0 then
        signalIdle { s with pool := after } signalled
      else some { s with pool := after }
    | _ => some { s with pool := after }

def WaitingPool.step (s : WaitingPool n) (e : WaitEvent n) : Option (WaitingPool n) :=
  if s.pool.fault then none
  else match e with
    | .pool e signalled => poolSteps s e signalled
    | .call w => callWait s w
    | .waiter w => threadPoolWait s w
    | .spurious w => wakeUp s w

def waitingInit (n : Nat) : WaitingPool n :=
  { pool := threadPoolInit, waiters := fun _ => .outside, mutexThreadCnt := none }

def waitingPool (n : Nat) : System (WaitingPool n) (WaitEvent n) where
  init s := s = waitingInit n
  step := WaitingPool.step

def LenCounts (_ : WaitingPool n) (_ : WaitEvent n) (s' : WaitingPool n) : Prop := s'.pool.backlog < uintSize

instance (s : WaitingPool n) (e : WaitEvent n) (s' : WaitingPool n) : Decidable (LenCounts s e s') :=
  inferInstanceAs (Decidable (s'.pool.backlog < uintSize))

inductive WaitingPool.Moves (s : WaitingPool n) : WaitingPool n → Prop where
  | pool (e : PoolEvent) (after : PoolState) (stepped : NetProg.P3.pool.step s.pool e = some after) :
      s.Moves { s with pool := after }
  | signals (e : PoolEvent) (after : PoolState) (stepped : NetProg.P3.pool.step s.pool e = some after) (w : Fin n)
      (before : Nat) (pc : s.waiters w = .blocked before) :
      s.Moves { s.goto w (.locking before) with pool := after }
  | calls (w : Fin n) : s.Moves (s.goto w (.locking s.pool.history.enqueued))
  | wakes (w : Fin n) (before : Nat) (pc : s.waiters w = .blocked before) : s.Moves (s.goto w (.locking before))
  | locks (w : Fin n) (before : Nat) (pc : s.waiters w = .locking before) :
      s.Moves { s.goto w (.checking before) with mutexThreadCnt := some w }
  | blocks (w : Fin n) (before : Nat) (pc : s.waiters w = .checking before ∨ s.waiters w = .lenRead before) :
      s.Moves { s.goto w (.blocked before) with mutexThreadCnt := none }
  | readsLen (w : Fin n) (before : Nat) (pc : s.waiters w = .checking before) (empty : s.pool.taskQ.len = 0) :
      s.Moves (s.goto w (.lenRead before))
  | readsWorking (w : Fin n) (before : Nat) (pc : s.waiters w = .lenRead before)
      (idle : s.pool.numWorkingThreads = 0) : s.Moves (s.goto w (.unlocking before))
  | returns (w : Fin n) (before : Nat) (pc : s.waiters w = .unlocking before) :
      s.Moves { s.goto w (.returned before) with mutexThreadCnt := none }

theorem wakeUp_blocked {s s' : WaitingPool n} {w : Fin n} (woke : wakeUp s w = some s') :
    ∃ before, s.waiters w = .blocked before ∧ s' = s.goto w (.locking before) := by
  simp only [wakeUp] at woke
  split at woke
  next before pc => exact ⟨before, pc, (Option.some.inj woke).symm⟩
  next => cases woke

theorem poolSteps_moves {s s' : WaitingPool n} {e : PoolEvent} {signalled : Option (Fin n)}
    (stepped : poolSteps s e signalled = some s') : s.Moves s' := by
  simp only [poolSteps] at stepped
  split at stepped
  next => cases stepped
  next after moved =>
    split at stepped
    next k =>
      split_ifs at stepped with held last
      · cases signalled with
        | none =>
          simp only [signalIdle] at stepped
          split_ifs at stepped
          obtain rfl := Option.some.inj stepped
          exact .pool _ after moved
        | some w =>
          obtain ⟨before, pc, rfl⟩ := wakeUp_blocked stepped
          exact .signals _ after moved w before pc
      · obtain rfl := Option.some.inj stepped
        exact .pool _ after moved
    next =>
      obtain rfl := Option.some.inj stepped
      exact .pool _ after moved

theorem threadPoolWait_moves {s s' : WaitingPool n} {w : Fin n} (stepped : threadPoolWait s w = some s') :
    s.Moves s' := by
  simp only [threadPoolWait] at stepped
  split at stepped
  next before pc =>
    split_ifs at stepped
    obtain rfl := Option.some.inj stepped
    exact .locks w before pc
  next before pc =>
    split_ifs at stepped with busy
    · obtain rfl := Option.some.inj stepped
      exact .blocks w before (.inl pc)
    · obtain rfl := Option.some.inj stepped
      exact .readsLen w before pc (not_not.mp busy)
  next before pc =>
    split_ifs at stepped with busy
    · obtain rfl := Option.some.inj stepped
      exact .blocks w before (.inr pc)
    · obtain rfl := Option.some.inj stepped
      exact .readsWorking w before pc (not_not.mp busy)
  next before pc =>
    obtain rfl := Option.some.inj stepped
    exact .returns w before pc
  next => cases stepped

theorem WaitingPool.step_moves {s s' : WaitingPool n} {e : WaitEvent n} (stepped : s.step e = some s') : s.Moves s' := by
  simp only [WaitingPool.step] at stepped
  split_ifs at stepped
  cases e with
  | pool e signalled => exact poolSteps_moves stepped
  | call w =>
    simp only [callWait] at stepped
    split at stepped
    next =>
      obtain rfl := Option.some.inj stepped
      exact .calls w
    next =>
      obtain rfl := Option.some.inj stepped
      exact .calls w
    next => cases stepped
  | waiter w => exact threadPoolWait_moves stepped
  | spurious w =>
    obtain ⟨before, pc, rfl⟩ := wakeUp_blocked stepped
    exact .wakes w before pc

end Waiters

def WorkerPc.working : WorkerPc → Bool
  -- Between `numWorkingThreads++` and `numWorkingThreads--`.
  | .waiting => false
  | .woken => false
  | _ => true

def working (workers : Fin thrNum → WorkerPc) : Finset (Fin thrNum) :=
  Finset.univ.filter fun k => (workers k).working = true

def WorkerPc.share (pc : WorkerPc) : Int := if pc.working then 1 else 0

theorem card_working (workers : Fin thrNum → WorkerPc) : ((working workers).card : Int) = ∑ k, (workers k).share := by
  simp [working, WorkerPc.share]

def PoolState.CountsWorkers (s : PoolState) : Prop := s.numWorkingThreads = (working s.workers).card

theorem WorkerPc.Follows.share {pc pc' : WorkerPc} (follows : pc.Follows pc') : pc'.share = pc.share + pc.counting := by
  cases follows <;> rfl

theorem quiet_counts {s s' : PoolState} {e : PoolEvent} (stepped : poolStep s e = some s')
    (other : ∀ k, e ≠ .worker k) : s'.workers = s.workers ∧ s'.numWorkingThreads = s.numWorkingThreads := by
  simp only [poolStep] at stepped
  split_ifs at stepped
  cases e with
  | mallocInfo a clntInfo =>
    obtain ⟨-, -, rfl⟩ := mallocInfo_cases stepped
    exact ⟨rfl, rfl⟩
  | mallocTask a stale funcPtr =>
    obtain ⟨-, clntInfo, -, rfl⟩ := mallocTask_cases stepped
    exact ⟨rfl, rfl⟩
  | mallocFails =>
    obtain rfl := mallocFails_cases stepped
    exact ⟨rfl, rfl⟩
  | enqueue =>
    rcases enqueue_shape stepped with rfl | ⟨newTask, heap, taskQ, -, -, rfl⟩
    · exact ⟨rfl, rfl⟩
    · exact ⟨rfl, rfl⟩
  | signal =>
    obtain rfl := Option.some.inj stepped
    obtain ⟨taskCheck, fault, shape⟩ := signalThreadFunc_shape s
    rw [shape]
    exact ⟨rfl, rfl⟩
  | worker k => exact absurd rfl (other k)

theorem poolStep_counts {s s' : PoolState} {e : PoolEvent} (counts : s.CountsWorkers)
    (stepped : poolStep s e = some s') : s'.CountsWorkers := by
  simp only [PoolState.CountsWorkers, card_working] at counts ⊢
  by_cases worker : ∃ k, e = .worker k
  · obtain ⟨k, rfl⟩ := worker
    simp only [poolStep] at stepped
    split_ifs at stepped
    rcases threadFunc_follows stepped with rfl | ⟨pc, moved⟩
    · exact counts
    · have shares := sum_update WorkerPc.share s.workers k pc
      rw [moved.number, moved.workers, counts]
      rw [moved.follows.share] at shares
      omega
  · obtain ⟨workers, number⟩ := quiet_counts stepped fun k same => worker ⟨k, same⟩
    rw [workers, number, counts]

theorem counts_reachable {s : PoolState} (reached : pool.Reachable s) : s.CountsWorkers := by
  apply reached.invariant
  · intro s start
    obtain rfl : s = threadPoolInit := start
    rfl
  · exact fun _ _ _ _ counts _ stepped => poolStep_counts counts stepped

structure Grows (s s' : PoolState) : Prop where
  enqueued : s.history.enqueued ≤ s'.history.enqueued
  dequeued : s.history.dequeued.length ≤ s'.history.dequeued.length
  finished : s.history.finished ⊆ s'.history.finished

theorem Grows.refl (s : PoolState) : Grows s s := ⟨le_rfl, le_rfl, List.Subset.refl _⟩

theorem poolStep_grows {s s' : PoolState} {e : PoolEvent} (tracked : s.Tracked) (counted : Counted s e s')
    (stepped : poolStep s e = some s') : Grows s s' := by
  rcases poolStep_board tracked.sound tracked.numbered (tracked.room counted stepped) stepped with same | ⟨move, moved⟩
  · have enqueued : s'.history.enqueued = s.history.enqueued := congrArg Dispatch.Board.submitted same
    have dequeued : s'.history.dequeued = s.history.dequeued := congrArg Dispatch.Board.taken same
    have finished : s'.history.finished = s.history.finished := congrArg Dispatch.Board.done same
    exact ⟨enqueued.ge, by rw [dequeued], by rw [finished]; exact List.Subset.refl _⟩
  · obtain ⟨enqueued, dequeued, finished⟩ := Dispatch.step_grows moved
    exact ⟨enqueued, dequeued, finished⟩

def PoolState.Done (s : PoolState) (before : Nat) : Prop := ∀ task < before, task ∈ s.history.finished

def PoolState.Known (s : PoolState) : WaiterPc → Prop
  | .outside => True
  | .locking before => before ≤ s.history.enqueued
  | .checking before => before ≤ s.history.enqueued
  | .blocked before => before ≤ s.history.enqueued
  | .lenRead before => before ≤ s.history.dequeued.length
  | .unlocking before => s.Done before
  | .returned before => s.Done before

theorem PoolState.Known.grows {s s' : PoolState} {pc : WaiterPc} (known : s.Known pc) (grows : Grows s s') :
    s'.Known pc := by
  cases pc with
  | outside => trivial
  | locking | checking | blocked => exact le_trans known grows.enqueued
  | lenRead => exact le_trans known grows.dequeued
  | unlocking | returned => exact fun task early => grows.finished (known task early)

theorem PoolState.Tracked.all_dequeued {s : PoolState} (tracked : s.Tracked) (empty : s.taskQ.len = 0) :
    s.history.dequeued.length = s.history.enqueued := by
  have line : queued s.heap s.taskQ = [] := by
    apply List.eq_nil_of_length_eq_zero
    rw [← tracked.sound.rep.len, empty]
  simpa [line] using tracked.counts

theorem PoolState.Tracked.all_done {s : PoolState} (tracked : s.Tracked) (counts : s.CountsWorkers)
    (idle : s.numWorkingThreads = 0) : s.Done s.history.dequeued.length := by
  have nobody : ∀ k, (s.workers k).working = false := by
    have none_working : working s.workers = ∅ := by
      apply Finset.card_eq_zero.mp
      have number : s.numWorkingThreads = (working s.workers).card := counts
      omega
    intro k
    simpa [working] using Finset.filter_eq_empty_iff.mp none_working (Finset.mem_univ k)
  have hands : ∀ k, ((board s).hands k).job = none := by
    intro k
    have here := nobody k
    cases pc : s.workers k with
    | waiting => simp [board, pc, handOf, Dispatch.Hand.job]
    | woken => simp [board, pc, handOf, Dispatch.Hand.job]
    | _ => simp [pc, WorkerPc.working] at here
  exact fun task early => (Dispatch.reachable_valid tracked.dispatch).done_of_hands hands early

section Waiters

variable {n : Nat} {s s' : WaitingPool n} {e : WaitEvent n}

structure WaitingPool.Follows (s : WaitingPool n) : Prop where
  tracked : s.pool.Tracked
  counts : s.pool.CountsWorkers
  known : ∀ w, s.pool.Known (s.waiters w)

theorem WaitingPool.Follows.goto (follows : s.Follows) {w : Fin n} {pc : WaiterPc} (known : s.pool.Known pc) :
    (s.goto w pc).Follows := by
  refine ⟨follows.tracked, follows.counts, fun j => ?_⟩
  by_cases own : j = w
  · subst own
    simpa [WaitingPool.goto] using known
  · simpa [WaitingPool.goto, own] using follows.known j

theorem WaitingPool.Follows.pool (follows : s.Follows) {e : PoolEvent} {after : PoolState}
    (counted : after.backlog < uintSize) (stepped : NetProg.P3.pool.step s.pool e = some after) :
    WaitingPool.Follows { s with pool := after } := by
  have grows := poolStep_grows follows.tracked counted stepped
  exact ⟨poolStep_tracked follows.tracked counted stepped, poolStep_counts follows.counts stepped,
    fun w => (follows.known w).grows grows⟩

theorem WaitingPool.Moves.follows (follows : s.Follows) (counted : s'.pool.backlog < uintSize) (moves : s.Moves s') :
    s'.Follows := by
  cases moves with
  | pool e after stepped => exact follows.pool counted stepped
  | signals e after stepped w before pc =>
    have known := follows.known w
    rw [pc] at known
    have later := follows.pool counted stepped
    have grows := poolStep_grows follows.tracked counted stepped
    exact WaitingPool.Follows.goto later (le_trans known grows.enqueued)
  | calls w => exact follows.goto le_rfl
  | wakes w before pc =>
    have known := follows.known w
    rw [pc] at known
    exact follows.goto known
  | locks w before pc =>
    have known := follows.known w
    rw [pc] at known
    have later : (s.goto w (.checking before)).Follows := follows.goto known
    exact ⟨later.tracked, later.counts, later.known⟩
  | blocks w before pc =>
    have known : before ≤ s.pool.history.enqueued := by
      have here := follows.known w
      rcases pc with pc | pc
      · rwa [pc] at here
      · rw [pc] at here
        have counts := follows.tracked.counts
        exact le_trans here (by omega)
    have later : (s.goto w (.blocked before)).Follows := follows.goto known
    exact ⟨later.tracked, later.counts, later.known⟩
  | readsLen w before pc empty =>
    have known := follows.known w
    rw [pc] at known
    exact follows.goto (le_trans known (follows.tracked.all_dequeued empty).ge)
  | readsWorking w before pc idle =>
    have known := follows.known w
    rw [pc] at known
    exact follows.goto fun task early => follows.tracked.all_done follows.counts idle task (early.trans_le known)
  | returns w before pc =>
    have known := follows.known w
    rw [pc] at known
    have later : (s.goto w (.returned before)).Follows := follows.goto known
    exact ⟨later.tracked, later.counts, later.known⟩

theorem follows_reachable (reached : (waitingPool n).ReachableWhile LenCounts s) : s.Follows := by
  apply reached.invariant
  · intro s start
    obtain rfl : s = waitingInit n := start
    exact ⟨threadPoolInit_tracked, counts_reachable (.initial _ rfl), fun _ => trivial⟩
  · exact fun s e s' _ follows counted stepped => (WaitingPool.step_moves stepped).follows follows counted

theorem pool_reachable (reached : (waitingPool n).Reachable s) : NetProg.P3.pool.Reachable s.pool := by
  apply System.ReachableWhile.invariant _ _ reached
  · intro s start
    obtain rfl : s = waitingInit n := start
    exact .initial _ rfl
  · intro s e s' _ before _ stepped
    cases WaitingPool.step_moves stepped with
    | pool e after moved => exact .next _ e _ before trivial moved
    | signals e after moved w _ _ => exact .next _ e _ before trivial moved
    | _ => exact before

theorem wait_returns_when_done (n : Nat) :
    (∀ s : WaitingPool n, (waitingPool n).ReachableWhile LenCounts s →
      ∀ w before, s.waiters w = .returned before → ∀ task < before, task ∈ s.pool.history.finished) ∧
    ∀ s : WaitingPool n, (waitingPool n).Reachable s →
      s.pool.numWorkingThreads = (working s.pool.workers).card ∧
      0 ≤ s.pool.numWorkingThreads ∧ s.pool.numWorkingThreads ≤ thrNum := by
  constructor
  · intro s reached w before pc
    have known := (follows_reachable reached).known w
    rwa [pc] at known
  · intro s reached
    have counts : s.pool.numWorkingThreads = (working s.pool.workers).card :=
      counts_reachable (pool_reachable reached)
    have few : (working s.pool.workers).card ≤ thrNum := by
      simpa using Finset.card_le_univ (working s.pool.workers)
    exact ⟨counts, by omega, by omega⟩

end Waiters

def oneTaskAwaited : List (WaitEvent 1) :=
  let worker : WaitEvent 1 := .pool (.worker 0) none
  [.pool (.mallocInfo 0 someClient) none, .pool (.mallocTask 1 none 0) none, .pool .enqueue none,
    .call 0, .waiter 0, .waiter 0, .pool .signal none] ++ List.replicate 9 worker ++
    [.pool (.worker 0) (some 0), .waiter 0, .waiter 0, .waiter 0, .waiter 0]

theorem one_task_awaited : ∃ s : WaitingPool 1, s.waiters 0 = .returned 1 ∧ s.pool.history.finished = [0] ∧
    ∀ task < 1, task ∈ s.pool.history.finished := by
  obtain ⟨s, ran, pc, finished⟩ : ∃ s, (waitingPool 1).execWhile LenCounts (waitingInit 1) oneTaskAwaited = some s ∧
      s.waiters 0 = .returned 1 ∧ s.pool.history.finished = [0] := ⟨_, rfl, rfl, rfl⟩
  have reached := System.execWhile_reachable (.initial _ rfl) ran
  exact ⟨s, pc, finished, (wait_returns_when_done 1).1 s reached 0 1 pc⟩

theorem pool_lifts {p : PoolState} (reached : pool.Reachable p) (n : Nat) :
    (waitingPool n).Reachable { pool := p, waiters := fun _ => .outside, mutexThreadCnt := none } := by
  induction reached with
  | initial p start =>
    obtain rfl : p = threadPoolInit := start
    exact .initial _ rfl
  | next p e p' _ _ stepped ih =>
    refine .next _ (.pool e none) _ ih trivial ?_
    have safe : p.fault = false := poolStep_safe stepped
    simp only [waitingPool, WaitingPool.step, poolSteps, stepped, safe]
    cases e <;> simp [signalIdle, WaiterPc.isBlocked]

-- With 2 ^ 32 tasks queued `taskQ.len` is 0, and `threadPoolWait` returns at once.
theorem full_queue_not_awaited :
    ¬ ∀ (n : Nat) (s : WaitingPool n), (waitingPool n).Reachable s →
      (∀ w before, s.waiters w = .returned before → ∀ task < before, task ∈ s.pool.history.finished) ∧
      s.pool.numWorkingThreads = (working s.pool.workers).card ∧
      0 ≤ s.pool.numWorkingThreads ∧ s.pool.numWorkingThreads ≤ thrNum := by
  intro claimed
  obtain ⟨p, reached, safe, -, waiting, -, history, -, len, -⟩ := enqueue_run uintSize
  have empty : p.taskQ.len = 0 := len
  have idle : p.numWorkingThreads = 0 := by
    have counts : p.numWorkingThreads = (working p.workers).card := counts_reachable reached
    rw [counts, waiting]
    rfl
  have start := pool_lifts reached 1
  obtain ⟨s, ran, pc, finished⟩ : ∃ s : WaitingPool 1, (waitingPool 1).exec
      { pool := p, waiters := fun _ => .outside, mutexThreadCnt := none }
      [.call 0, .waiter 0, .waiter 0, .waiter 0, .waiter 0] = some s ∧
      s.waiters 0 = .returned uintSize ∧ s.pool.history.finished = [] := by
    simp [System.exec, waitingPool, WaitingPool.step, safe, callWait, threadPoolWait, WaitingPool.goto, empty, idle,
      history]
  have done := (claimed 1 s (System.exec_reachable start ran)).1 0 uintSize pc 0 (by decide)
  rw [finished] at done
  cases done

end NetProg.P3
