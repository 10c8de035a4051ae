import NetProg.P3.Waiting

set_option autoImplicit false

namespace NetProg.P3

open Transition

structure PoolState.Idle (s : PoolState) : Prop where
  empty : s.taskQ.len = 0
  nobody : s.numWorkingThreads = 0
  waiting : ∀ k, s.workers k = .waiting
  unposted : ∀ k, s.taskCheck k = 0

-- The pool in front of the decrement that leaves it idle.
structure PoolState.LastLeaves (s : PoolState) (k : Fin thrNum) : Prop where
  leaving : s.workers k = .leaving
  others : ∀ j, j ≠ k → s.workers j = .waiting
  empty : s.taskQ.len = 0
  unposted : ∀ j, s.taskCheck j = 0

section Pool

variable {s s' : PoolState} {e : PoolEvent} {k : Fin thrNum}

theorem leaving_cases (leaving : s.workers k = .leaving) (stepped : threadFunc s k = some s') :
    s' = { s.goto k .waiting with numWorkingThreads := s.numWorkingThreads - 1 } := by
  simp only [threadFunc, leaving] at stepped
  exact (Option.some.inj stepped).symm

theorem follows_waiting {pc : WorkerPc} (follows : pc.Follows .waiting) : pc = .leaving := by
  cases follows
  rfl

theorem poolStep_idle (tracked : s.Tracked) (counted : s'.backlog < uintSize) (stepped : poolStep s e = some s')
    (idle : s'.Idle) : s.Idle ∨ ∃ k, e = .worker k ∧ s.LastLeaves k := by
  have later := poolStep_tracked tracked counted stepped
  have crashed (same : s' = s.crash) : s.Idle := by
    subst same
    exact ⟨idle.empty, idle.nobody, idle.waiting, idle.unposted⟩
  simp only [poolStep, tracked.sound.safe, Bool.false_eq_true, if_false] at stepped
  cases e with
  | mallocInfo a clntInfo =>
    obtain ⟨-, -, rfl⟩ := mallocInfo_cases stepped
    exact .inl ⟨idle.empty, idle.nobody, idle.waiting, idle.unposted⟩
  | mallocTask a stale funcPtr =>
    obtain ⟨-, clntInfo, -, rfl⟩ := mallocTask_cases stepped
    exact .inl ⟨idle.empty, idle.nobody, idle.waiting, idle.unposted⟩
  | mallocFails =>
    obtain rfl := mallocFails_cases stepped
    exact .inl ⟨idle.empty, idle.nobody, idle.waiting, idle.unposted⟩
  | enqueue =>
    rcases enqueue_shape stepped with same | ⟨newTask, heap, taskQ, -, -, rfl⟩
    · exact .inl (crashed same)
    · have all := later.all_dequeued idle.empty
      have before := tracked.counts
      simp only at all
      omega
  | signal =>
    obtain rfl := Option.some.inj stepped
    by_cases empty : s.taskQ.len = 0
    · rw [signalThreadFunc, if_pos empty] at idle
      exact .inl idle
    · obtain ⟨taskCheck, fault, shape⟩ := signalThreadFunc_shape s
      rw [shape] at idle
      exact absurd idle.empty empty
  | worker k =>
    rcases threadFunc_follows stepped with same | ⟨pc, moved⟩
    · exact .inl (crashed same)
    · have workers := moved.workers
      have here : pc = .waiting := by
        rw [← idle.waiting k, workers, Function.update_self]
      have leaving := follows_waiting (here ▸ moved.follows)
      obtain rfl := leaving_cases leaving stepped
      refine .inr ⟨k, rfl, leaving, fun j other => ?_, idle.empty, idle.unposted⟩
      have there := idle.waiting j
      rwa [workers, Function.update_of_ne other] at there

theorem PoolState.LastLeaves.idle (last : s.LastLeaves k) (counts : s.CountsWorkers) (stepped : poolStep s (.worker k) = some s') :
    s'.Idle := by
  have later := poolStep_counts counts stepped
  simp only [poolStep] at stepped
  split_ifs at stepped
  obtain rfl := leaving_cases last.leaving stepped
  have waiting : ∀ j, (s.goto k .waiting).workers j = .waiting := by
    intro j
    by_cases own : j = k
    · subst own
      exact Function.update_self _ _ _
    · simpa [PoolState.goto, own] using last.others j own
  refine ⟨last.empty, ?_, waiting, last.unposted⟩
  have number : s.numWorkingThreads - 1 = (working (s.goto k .waiting).workers).card := later
  have nobody : working (s.goto k .waiting).workers = ∅ := by
    apply Finset.filter_eq_empty_iff.mpr
    intro j _
    rw [waiting j]
    decide
  rw [nobody, Finset.card_empty] at number
  exact number

end Pool

section Waiters

variable {n : Nat} {s s' : WaitingPool n} {e : WaitEvent n}

def WaitingPool.Blocked (s : WaitingPool n) (w : Fin n) : Prop := (s.waiters w).isBlocked = true

-- A waiter that has been signalled is not blocked any more: it waits for the mutex.
def WaitingPool.NobodyLeft (s : WaitingPool n) : Prop := s.pool.Idle → ∀ w, ¬ s.Blocked w

-- When the pool becomes idle no more waiters are blocked than the signal wakes.
def OneToWake (s : WaitingPool n) (e : WaitEvent n) : Prop :=
  ∀ k signalled, e = .pool (.worker k) signalled → s.pool.LastLeaves k → ∀ w w', s.Blocked w → s.Blocked w' → w = w'

def SignalSuffices (s : WaitingPool n) (e : WaitEvent n) (s' : WaitingPool n) : Prop :=
  LenCounts s e s' ∧ OneToWake s e

theorem blocked_goto {w j : Fin n} {pc : WaiterPc} (free : pc.isBlocked = false) (blocked : (s.goto w pc).Blocked j) :
    j ≠ w ∧ s.Blocked j := by
  by_cases own : j = w
  · subst own
    simp [WaitingPool.Blocked, WaitingPool.goto, free] at blocked
  · refine ⟨own, ?_⟩
    simpa [WaitingPool.Blocked, WaitingPool.goto, own] using blocked

theorem wakeUp_wakes {w : Fin n} (woke : wakeUp s w = some s') :
    s'.pool = s.pool ∧ s.Blocked w ∧ ∀ j, s'.Blocked j ↔ j ≠ w ∧ s.Blocked j := by
  obtain ⟨before, pc, rfl⟩ := wakeUp_blocked woke
  refine ⟨rfl, by simp [WaitingPool.Blocked, pc, WaiterPc.isBlocked], fun j => ?_⟩
  constructor
  · exact blocked_goto rfl
  · rintro ⟨other, blocked⟩
    simpa [WaitingPool.Blocked, WaitingPool.goto, other] using blocked

theorem threadPoolWait_idle {w : Fin n} (idle : s.pool.Idle) (stepped : threadPoolWait s w = some s') :
    ∀ j, s'.Blocked j → s.Blocked j := by
  intro j blocked
  simp only [threadPoolWait] at stepped
  split at stepped
  next before pc =>
    split_ifs at stepped
    obtain rfl := Option.some.inj stepped
    exact (blocked_goto (show (WaiterPc.checking before).isBlocked = false from rfl) blocked).2
  next before pc =>
    rw [if_neg (not_not.mpr idle.empty)] at stepped
    obtain rfl := Option.some.inj stepped
    exact (blocked_goto rfl blocked).2
  next before pc =>
    rw [if_neg (not_not.mpr idle.nobody)] at stepped
    obtain rfl := Option.some.inj stepped
    exact (blocked_goto rfl blocked).2
  next before pc =>
    obtain rfl := Option.some.inj stepped
    exact (blocked_goto (show (WaiterPc.returned before).isBlocked = false from rfl) blocked).2
  next => cases stepped

theorem threadPoolWait_pool {w : Fin n} (stepped : threadPoolWait s w = some s') : s'.pool = s.pool := by
  simp only [threadPoolWait] at stepped
  split at stepped
  next =>
    split_ifs at stepped
    exact Option.some.inj stepped ▸ rfl
  next =>
    split_ifs at stepped
    · exact Option.some.inj stepped ▸ rfl
    · exact Option.some.inj stepped ▸ rfl
  next =>
    split_ifs at stepped
    · exact Option.some.inj stepped ▸ rfl
    · exact Option.some.inj stepped ▸ rfl
  next => exact Option.some.inj stepped ▸ rfl
  next => cases stepped

theorem signalIdle_wakes {signalled : Option (Fin n)} (woke : signalIdle s signalled = some s') :
    s'.pool = s.pool ∧ (∀ j, s'.Blocked j ↔ s.Blocked j ∧ signalled ≠ some j) ∧
      (∀ w, s.Blocked w → ∃ w', signalled = some w' ∧ s.Blocked w') := by
  cases signalled with
  | none =>
    simp only [signalIdle] at woke
    split_ifs at woke with nobody
    obtain rfl := Option.some.inj woke
    refine ⟨rfl, fun j => by simp, fun w blocked => ?_⟩
    simp [WaitingPool.Blocked, nobody w] at blocked
  | some w' =>
    obtain ⟨same, blocked, others⟩ := wakeUp_wakes woke
    refine ⟨same, fun j => ?_, fun w _ => ⟨w', rfl, blocked⟩⟩
    rw [others, and_comm, ne_comm, ne_eq, ne_eq, Option.some.injEq]

-- One signal is enough exactly for one waiter.
theorem signal_leaves_iff {signalled : Option (Fin n)} (idle : s'.pool.Idle)
    (blocked : ∀ j, s'.Blocked j ↔ s.Blocked j ∧ signalled ≠ some j)
    (woken : ∀ w, s.Blocked w → ∃ w', signalled = some w' ∧ s.Blocked w') :
    s'.NobodyLeft ↔ ∀ w w', s.Blocked w → s.Blocked w' → w = w' := by
  constructor
  · intro nobody w w' first second
    have here (j : Fin n) (there : s.Blocked j) : signalled = some j := by
      by_contra missed
      exact nobody idle j ((blocked j).mpr ⟨there, missed⟩)
    exact Option.some.inj ((here w first).symm.trans (here w' second))
  · intro one _ w still
    obtain ⟨there, missed⟩ := (blocked w).mp still
    obtain ⟨w', rfl, woke⟩ := woken w there
    exact missed (congrArg some (one w' w woke there))

theorem callWait_blocked {w : Fin n} (called : callWait s w = some s') :
    s'.pool = s.pool ∧ ∀ j, s'.Blocked j → s.Blocked j := by
  simp only [callWait] at called
  split at called
  next =>
    obtain rfl := Option.some.inj called
    exact ⟨rfl, fun j blocked => (blocked_goto rfl blocked).2⟩
  next =>
    obtain rfl := Option.some.inj called
    exact ⟨rfl, fun j blocked => (blocked_goto rfl blocked).2⟩
  next => cases called

theorem step_leaves_iff (follows : s.Follows) (left : s.NobodyLeft) (counted : s'.pool.backlog < uintSize)
    (stepped : s.step e = some s') : s'.NobodyLeft ↔ OneToWake s e := by
  simp only [WaitingPool.step] at stepped
  split_ifs at stepped with fault
  have waits (same : s'.pool = s.pool) (fewer : s.pool.Idle → ∀ j, s'.Blocked j → s.Blocked j)
      (other : ∀ k signalled, e ≠ .pool (.worker k) signalled) : s'.NobodyLeft ↔ OneToWake s e := by
    refine iff_of_true (fun idle w blocked => ?_) fun k signalled worker => absurd worker (other k signalled)
    rw [same] at idle
    exact left idle w (fewer idle w blocked)
  cases e with
  | call w =>
    obtain ⟨same, fewer⟩ := callWait_blocked stepped
    exact waits same (fun _ => fewer) (by simp)
  | waiter w => exact waits (threadPoolWait_pool stepped) (fun idle => threadPoolWait_idle idle stepped) (by simp)
  | spurious w =>
    obtain ⟨same, -, blocked⟩ := wakeUp_wakes stepped
    exact waits same (fun _ j there => ((blocked j).mp there).2) (by simp)
  | pool e signalled =>
    simp only [poolSteps] at stepped
    split at stepped
    next => cases stepped
    next after moved =>
      have idles (counts : after.backlog < uintSize) := poolStep_idle follows.tracked counts moved
      -- Unless the pool becomes idle, nobody is left who was not.
      have keeps (same : s'.pool = after) (fewer : ∀ j, s'.Blocked j → s.Blocked j)
          (notLast : ∀ k, e = .worker k → ¬ s.pool.LastLeaves k) :
          s'.NobodyLeft ↔ OneToWake s (.pool e signalled) := by
        refine iff_of_true (fun idle w blocked => ?_) fun k signalled' worker last => ?_
        · rw [same] at idle counted
          rcases idles counted idle with before | ⟨k, worker, last⟩
          · exact left before w (fewer w blocked)
          · exact notLast k worker last
        · exact absurd last (notLast k (WaitEvent.pool.inj worker).1)
      split at stepped
      next k =>
        split_ifs at stepped with held zero
        · obtain ⟨same, blocked, woken⟩ := signalIdle_wakes stepped
          by_cases last : s.pool.LastLeaves k
          · have idle : s'.pool.Idle := same ▸ last.idle follows.counts moved
            rw [signal_leaves_iff idle blocked woken]
            exact ⟨fun one _ _ _ _ => one, fun one => one k _ rfl last⟩
          · refine keeps same (fun j still => ((blocked j).mp still).1) fun k' worker => ?_
            rwa [← PoolEvent.worker.inj worker]
        · obtain rfl := Option.some.inj stepped
          refine keeps rfl (fun _ blocked => blocked) fun k' worker last => ?_
          obtain rfl := PoolEvent.worker.inj worker
          exact zero ⟨last.leaving, (last.idle follows.counts moved).nobody⟩
      next other =>
        obtain rfl := Option.some.inj stepped
        exact keeps rfl (fun _ blocked => blocked) fun k worker => absurd worker (other k)

theorem no_waiter_left_behind (n : Nat) (s : WaitingPool n) (reached : (waitingPool n).ReachableWhile SignalSuffices s) :
    s.NobodyLeft ∧ ∀ e s', (waitingPool n).step s e = some s' → LenCounts s e s' → (s'.NobodyLeft ↔ OneToWake s e) := by
  have follows (s : WaitingPool n) (reached : (waitingPool n).ReachableWhile SignalSuffices s) : s.Follows :=
    follows_reachable (reached.weaken fun _ _ _ ok => ok.1)
  have left : s.NobodyLeft := by
    apply reached.invariant
    · intro s start _ w blocked
      obtain rfl : s = waitingInit n := start
      simp [WaitingPool.Blocked, waitingInit, WaiterPc.isBlocked] at blocked
    · exact fun s e s' before left ok stepped => (step_leaves_iff (follows s before) left ok.1 stepped).mpr ok.2
  exact ⟨left, fun e s' stepped counted => step_leaves_iff (follows s reached) left counted stepped⟩

end Waiters

theorem one_waiter_not_left : ∃ s : WaitingPool 1, s.pool.Idle ∧ s.waiters 0 = .locking 1 ∧ s.NobodyLeft := by
  obtain ⟨s, ran, idle, pc⟩ : ∃ s, (waitingPool 1).execWhile LenCounts (waitingInit 1) (oneTaskAwaited.take 17) = some s ∧
      s.pool.Idle ∧ s.waiters 0 = .locking 1 := ⟨_, rfl, ⟨rfl, rfl, by decide, by decide⟩, rfl⟩
  have reached := System.execWhile_reachable (.initial _ rfl) ran
  have enough : (waitingPool 1).ReachableWhile SignalSuffices s :=
    reached.weaken fun s e s' counted => ⟨counted, fun _ _ _ _ w w' _ _ => Subsingleton.elim w w'⟩
  exact ⟨s, idle, pc, (no_waiter_left_behind 1 s enough).1⟩

def twoWaiters (k : Fin thrNum) (w w' : Fin 2) : List (WaitEvent 2) :=
  [.pool (.mallocInfo 0 someClient) none, .pool (.mallocTask 1 none 0) none, .pool .enqueue none,
    .call w, .waiter w, .waiter w, .call w', .waiter w', .waiter w', .pool .signal none] ++
    List.replicate 9 (.pool (.worker k) none) ++ [.pool (.worker k) (some w)]

-- Two threads wait for one task, and the last worker signals once.
theorem second_waiter_left_behind :
    ¬ ∀ (n : Nat) (s : WaitingPool n), (waitingPool n).Reachable s → s.NobodyLeft := by
  intro claimed
  obtain ⟨s, ran, idle, pc⟩ : ∃ s, (waitingPool 2).exec (waitingInit 2) (twoWaiters 0 0 1) = some s ∧
      s.pool.Idle ∧ s.waiters 1 = .blocked 1 := ⟨_, rfl, ⟨rfl, rfl, by decide, by decide⟩, rfl⟩
  have left := claimed 2 s (System.exec_reachable (.initial _ rfl) ran) idle 1
  simp [WaitingPool.Blocked, pc, WaiterPc.isBlocked] at left

end NetProg.P3
