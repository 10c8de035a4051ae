import NetProg.P3.Progress

set_option autoImplicit false

namespace NetProg.P3

open Linked Transition

-- The head of the queue is for worker `w`, and no other worker has a post or is about to dequeue.
structure PoolState.Reserved (s : PoolState) (a : Addr) (w : Fin thrNum) (taken : Nat) : Prop where
  heads : s.Heads a w taken
  asleep : ∀ k, k ≠ w → (s.workers k).awake = false
  unposted : ∀ k, k ≠ w → s.taskCheck k ≠ 1

section Reserved

variable {s s' : PoolState} {a : Addr} {w : Fin thrNum} {taken : Nat}

theorem prepares_history {e : PoolEvent} (kind : e.Prepares) (stepped : poolStep s e = some s') :
    s'.history = s.history := by
  have safe := poolStep_safe stepped
  simp only [poolStep, safe, Bool.false_eq_true, if_false] at stepped
  cases e with
  | mallocInfo a clntInfo =>
    obtain ⟨-, -, rfl⟩ := mallocInfo_cases stepped
    rfl
  | mallocTask a stale funcPtr =>
    obtain ⟨-, clntInfo, -, rfl⟩ := mallocTask_cases stepped
    rfl
  | mallocFails =>
    obtain rfl := mallocFails_cases stepped
    rfl
  | enqueue | signal | worker => cases kind

theorem PoolState.Reserved.prepares (reserved : s.Reserved a w taken) (tracked : s.Tracked) (tracked' : s'.Tracked)
    {e : PoolEvent} (kind : e.Prepares) (stepped : poolStep s e = some s') :
    s'.Reserved a w taken ∧ queued s.heap s.taskQ <+: queued s'.heap s'.taskQ := by
  obtain ⟨kept, workers, taskCheck⟩ := prepares_kept tracked.sound kind stepped
  have history := prepares_history kind stepped
  refine ⟨⟨reserved.heads.kept tracked tracked' kept (by rw [history]), ?_, ?_⟩, kept.line ▸ List.prefix_rfl⟩
  · rw [workers]
    exact reserved.asleep
  · rw [taskCheck]
    exact reserved.unposted

theorem PoolState.Reserved.enqueue (reserved : s.Reserved a w taken) (sound : s.Sound)
    (room : (queued s.heap s.taskQ).length + 1 < uintSize) (stepped : enqueue s = some s') :
    s'.Reserved a w taken ∧ queued s.heap s.taskQ <+: queued s'.heap s'.taskQ := by
  obtain ⟨newTask, -, -, workers, -, taskCheck, -, -, rep⟩ := enqueue_cases sound room stepped
  refine ⟨⟨reserved.heads.enqueue sound room stepped, ?_, ?_⟩, ?_⟩
  · rw [workers]
    exact reserved.asleep
  · rw [taskCheck]
    exact reserved.unposted
  · rw [rep.queued_eq]
    exact List.prefix_append _ _

theorem PoolState.Reserved.signal (reserved : s.Reserved a w taken) (sound : s.Sound) :
    (signalThreadFunc s).Reserved a w taken ∧
      queued s.heap s.taskQ <+: queued (signalThreadFunc s).heap (signalThreadFunc s).taskQ := by
  rcases signalThreadFunc_cases sound with ⟨-, same⟩ | ⟨_, _, info, inside, -, -, assigned, shape⟩
  · rw [same]
    exact ⟨reserved, List.prefix_rfl⟩
  · -- The post is for `w`, and it takes away every other one.
    have own : (⟨info.assignedThrId, inside⟩ : Fin thrNum) = w :=
      reserved.heads.next sound (.inr assigned)
    rw [shape, own]
    refine ⟨⟨⟨reserved.heads.line, reserved.heads.mine, reserved.heads.taken⟩, reserved.asleep, ?_⟩, List.prefix_rfl⟩
    intro k other
    simp [bSemPost, other]

theorem PoolState.Reserved.runs (reserved : s.Reserved a w taken) (tracked : s.Tracked) (tracked' : s'.Tracked)
    {k : Fin thrNum} (quiet : s.workers k ≠ .counted) (stepped : threadFunc s k = some s') :
    s'.Reserved a w taken ∧ queued s.heap s.taskQ <+: queued s'.heap s'.taskQ := by
  have sound := tracked.sound
  obtain ⟨pc, moved⟩ := threadFunc_step sound stepped
  have kept := moved.kept sound quiet
  have taskCheck := threadFunc_taskCheck sound stepped
  refine ⟨⟨reserved.heads.kept tracked tracked' kept moved.enqueued, ?_, ?_⟩, kept.line ▸ List.prefix_rfl⟩
  · intro j other
    by_cases own : j = k
    · subst own
      have before := reserved.asleep j other
      have follows := moved.follows
      rw [moved.workers, Function.update_self]
      cases point : s.workers j with
      | waiting =>
        -- Without a post it does not return from `bSemWait`.
        have posted := reserved.unposted j other
        simp [threadFunc, point, bSemWait, posted] at stepped
      | woken | counted => simp [point, WorkerPc.awake] at before
      | _ => rw [point] at follows; cases follows <;> rfl
    · rw [moved.workers, Function.update_of_ne own]
      exact reserved.asleep j other
  · intro j other
    rw [taskCheck]
    split_ifs
    · by_cases own : j = k
      · simp [own]
      · simpa [own] using reserved.unposted j other
    · exact reserved.unposted j other

theorem step_reserved {e : PoolEvent} (tracked : s.Tracked) (counted : Counted s e s')
    (reserved : s.Reserved a w taken) (stepped : poolStep s e = some s') :
    s'.Reserved a w taken ∧ queued s.heap s.taskQ <+: queued s'.heap s'.taskQ ∨
      e = .worker w ∧ s.workers w = .counted ∧ s'.workers w = .dequeued (some a) := by
  have tracked' := poolStep_tracked tracked counted stepped
  have room := tracked.room counted stepped
  have safe := tracked.sound.safe
  cases e with
  | mallocInfo a clntInfo =>
    exact .inl (reserved.prepares tracked tracked' (e := .mallocInfo a clntInfo) trivial stepped)
  | mallocTask a stale funcPtr =>
    exact .inl (reserved.prepares tracked tracked' (e := .mallocTask a stale funcPtr) trivial stepped)
  | mallocFails => exact .inl (reserved.prepares tracked tracked' (e := .mallocFails) trivial stepped)
  | enqueue =>
    simp only [poolStep, safe, Bool.false_eq_true, if_false] at stepped
    exact .inl (reserved.enqueue tracked.sound (room rfl) stepped)
  | signal =>
    simp only [poolStep, safe, Bool.false_eq_true, if_false] at stepped
    exact .inl (Option.some.inj stepped ▸ reserved.signal tracked.sound)
  | worker k =>
    have ran := poolStep_worker safe stepped
    by_cases dequeues : s.workers k = .counted
    · obtain rfl : k = w := by
        by_contra other
        have before := reserved.asleep k other
        simp [dequeues, WorkerPc.awake] at before
      exact .inr ⟨rfl, dequeues, ((takes_head tracked tracked' dequeues ran).2 a k taken reserved.heads).1⟩
    · exact .inl (reserved.runs tracked tracked' dequeues ran)

theorem exec_reserved {events : List PoolEvent} (tracked : s.Tracked) (reserved : s.Reserved a w taken)
    (ran : pool.execWhile Counted s events = some s') :
    s'.Tracked ∧ s'.Reserved a w taken ∧ queued s.heap s.taskQ <+: queued s'.heap s'.taskQ ∨
      ∃ before after mid next, events = before ++ .worker w :: after ∧ pool.execWhile Counted s before = some mid ∧
        mid.Tracked ∧ mid.Reserved a w taken ∧ pool.step mid (.worker w) = some next ∧
        next.workers w = .dequeued (some a) := by
  induction events generalizing s with
  | nil =>
    obtain rfl : s = s' := Option.some.inj ran
    exact .inl ⟨tracked, reserved, List.prefix_rfl⟩
  | cons e rest ih =>
    obtain ⟨mid, stepped, counted, later⟩ := System.execWhile_cons.mp ran
    rcases step_reserved tracked counted reserved stepped with ⟨still, longer⟩ | ⟨rfl, -, taken⟩
    · rcases ih (poolStep_tracked tracked counted stepped) still later with ⟨tracked', kept, more⟩ | found
      · exact .inl ⟨tracked', kept, longer.trans more⟩
      · obtain ⟨before, after, last, next, rfl, reaches, known, kept, taking, has⟩ := found
        refine .inr ⟨e :: before, after, last, next, rfl, ?_, known, kept, taking, has⟩
        exact System.execWhile_cons.mpr ⟨mid, stepped, counted, reaches⟩
    · exact .inr ⟨[], rest, s, mid, rfl, rfl, tracked, reserved, stepped, taken⟩

theorem PoolState.Reserved.dequeued (reserved : s.Reserved a w taken) (tracked : s.Tracked) :
    s.history.dequeued = List.range taken := by
  rw [tracked.dequeued, reserved.heads.taken]

theorem PoolState.Reserved.executed (reserved : s.Reserved a w taken) (tracked : s.Tracked) {n : Nat}
    {k : Fin thrNum} (executed : (n, k) ∈ s.history.executed) : n < taken := by
  have valid := Dispatch.reachable_valid tracked.dispatch
  have started : n ∈ (board s).started := List.mem_map_of_mem executed
  have member : n ∈ s.history.dequeued := valid.startedTaken n started
  rw [reserved.dequeued tracked] at member
  exact List.mem_range.mp member

end Reserved

theorem head_waits_for_worker {s s' : PoolState} (reached : pool.ReachableWhile Counted s) {a : Addr}
    {w : Fin thrNum} {taken : Nat} (reserved : s.Reserved a w taken) {events : List PoolEvent}
    (ran : pool.execWhile Counted s events = some s') :
    (s'.history.dequeued = s.history.dequeued ∧ queued s.heap s.taskQ <+: queued s'.heap s'.taskQ ∧
      ∀ n k, (n, k) ∈ s'.history.executed → n < taken) ∨
      ∃ before after mid next, events = before ++ .worker w :: after ∧ pool.execWhile Counted s before = some mid ∧
        mid.history.dequeued = s.history.dequeued ∧ pool.step mid (.worker w) = some next ∧
        next.workers w = .dequeued (some a) := by
  have tracked := reachable_tracked reached
  rcases exec_reserved tracked reserved ran with ⟨tracked', kept, longer⟩ | found
  · refine .inl ⟨?_, longer, fun n k executed => kept.executed tracked' executed⟩
    rw [kept.dequeued tracked', reserved.dequeued tracked]
  · obtain ⟨before, after, mid, next, shape, reaches, known, kept, taking, has⟩ := found
    refine .inr ⟨before, after, mid, next, shape, reaches, ?_, taking, has⟩
    rw [kept.dequeued known, reserved.dequeued tracked]

def twoForFirst : List PoolEvent :=
  -- Worker 0 is in `httpResponse`, and the next task is for worker 0 too.
  [.mallocInfo 0 someClient, .mallocTask 1 none 0, .enqueue, .signal, .worker 0, .worker 0, .worker 0, .worker 0,
    .worker 0, .worker 0, .mallocInfo 2 someClient, .mallocTask 3 none 0, .enqueue]

def oneForSecond : List PoolEvent :=
  [.signal, .mallocInfo 4 { someClient with assignedThrId := 1 }, .mallocTask 5 none 0, .enqueue, .signal]

theorem idle_worker_waits : ∃ s s' : PoolState, s.Reserved 3 0 1 ∧ pool.execWhile Counted s oneForSecond = some s' ∧
    s'.workers 1 = .waiting ∧ assignedTo s'.heap 5 = some 1 ∧ s'.history.dequeued = s.history.dequeued := by
  obtain ⟨s, s', ran, later, line, mine, taken, idle, waits, queued⟩ : ∃ s s' : PoolState,
      pool.execWhile Counted threadPoolInit twoForFirst = some s ∧
      pool.execWhile Counted s oneForSecond = some s' ∧ queued s.heap s.taskQ = [3] ∧
      assignedTo s.heap 3 = some 0 ∧ s.history.dequeued.length = 1 ∧
      (∀ k, k ≠ 0 → (s.workers k).awake = false ∧ s.taskCheck k ≠ 1) ∧ s'.workers 1 = .waiting ∧
      assignedTo s'.heap 5 = some 1 := ⟨_, _, rfl, rfl, rfl, rfl, rfl, by decide, rfl, rfl⟩
  have reached := System.execWhile_reachable (.initial threadPoolInit rfl) ran
  have reserved : s.Reserved 3 0 1 :=
    ⟨⟨⟨[], line⟩, mine, taken⟩, fun k other => (idle k other).1, fun k other => (idle k other).2⟩
  refine ⟨s, s', reserved, later, waits, queued, ?_⟩
  rcases head_waits_for_worker reached reserved later with ⟨same, -⟩ | ⟨before, after, mid, next, shape, -⟩
  · exact same
  · have member : PoolEvent.worker 0 ∈ oneForSecond := by simp [shape]
    simp [oneForSecond] at member

end NetProg.P3
