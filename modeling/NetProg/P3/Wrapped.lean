import NetProg.P3.Locks

set_option autoImplicit false

namespace NetProg.P3

open Linked Transition

-- The task at `a` is none of the first 2 ^ 32.
def Late (h : Heap) (a : Addr) : Prop := ∃ t, h.task (some a) = some t ∧ uintSize ≤ t.serial

structure PoolState.Skipped (s : PoolState) : Prop where
  dequeued : s.history.dequeued = []
  enqueued : uintSize ≤ s.history.enqueued
  early : ∀ k, s.workers k = .waiting ∨ s.workers k = .woken ∨ s.workers k = .counted
  ready : ∀ a, s.main = .taskReady a → Late s.heap a

structure PoolState.Unseen (s : PoolState) : Prop extends s.Skipped where
  -- The counter is 0, so nobody is posted.
  empty : s.taskQ.len = 0
  quiet : s.taskCheck = fun _ => 0
  waiting : s.workers = fun _ => .waiting

structure PoolState.Replaced (s : PoolState) : Prop extends s.Skipped where
  head : ∃ a, s.taskQ.head = some a ∧ Late s.heap a

def PoolState.TakenLate (s : PoolState) : Prop := ∃ n rest, s.history.dequeued = n :: rest ∧ uintSize ≤ n

theorem Late.allocate {h : Heap} {a b : Addr} (late : Late h a) (free : h b = none) (o : Object) :
    Late (Function.update h b (some o)) a := by
  obtain ⟨t, found, number⟩ := late
  have apart : a ≠ b := by
    rintro rfl
    rw [task_some, free] at found
    cases found
  exact ⟨t, by rw [task_update_other apart, found], number⟩

theorem Late.sameButLinks {h h' : Heap} {a : Addr} (late : Late h a) (same : SameButLinks h h') : Late h' a := by
  obtain ⟨t, found, number⟩ := late
  obtain ⟨prev, found'⟩ := same.task found
  exact ⟨_, found', number⟩

theorem enqueueTask_head {h h' : Heap} {taskQ taskQ' : TaskQueue} {newTask : Addr}
    (ran : enqueueTask h taskQ newTask = some (h', taskQ')) :
    SameButLinks h h' ∧ (taskQ'.head = some newTask ∨ taskQ.len ≠ 0 ∧ taskQ'.head = taskQ.head) := by
  simp only [enqueueTask, Option.bind_eq_some_iff] at ran
  obtain ⟨cleared, clears, ran⟩ := ran
  have same := setPrev_same clears
  split at ran
  next =>
    obtain ⟨rfl, rfl⟩ := Prod.mk.inj (Option.some.inj ran)
    exact ⟨same, .inl rfl⟩
  next len count =>
    obtain ⟨linked, links, ran⟩ := Option.map_eq_some_iff.mp ran
    obtain ⟨rfl, rfl⟩ := Prod.mk.inj ran
    exact ⟨same.trans (setPrev_same links), .inr ⟨by simp [count], rfl⟩⟩

theorem dequeueTask_head {h : Heap} {taskQ taskQ' : TaskQueue} {taskPtr : Option Addr}
    (ran : dequeueTask h taskQ = some (taskQ', taskPtr)) : taskPtr = taskQ.head := by
  simp only [dequeueTask] at ran
  split at ran
  next => exact (Prod.mk.inj (Option.some.inj ran)).2.symm
  next => exact (Prod.mk.inj (Option.some.inj ran)).2.symm
  next =>
    obtain ⟨t, -, ran⟩ := Option.map_eq_some_iff.mp ran
    exact (Prod.mk.inj ran).2.symm

section Skipped

variable {s s' : PoolState}

theorem PoolState.Skipped.crash (skipped : s.Skipped) : s.crash.Skipped :=
  ⟨skipped.dequeued, skipped.enqueued, skipped.early, skipped.ready⟩

theorem PoolState.Replaced.posted (replaced : s.Replaced) (taskCheck : BSem) (fault : Bool) :
    PoolState.Replaced { s with taskCheck, fault } :=
  ⟨⟨replaced.dequeued, replaced.enqueued, replaced.early, replaced.ready⟩, replaced.head⟩

theorem PoolState.Skipped.prepares (skipped : s.Skipped) {e : PoolEvent} (kind : e.Prepares) (safe : s.fault = false)
    (stepped : poolStep s e = some s') :
    s'.Skipped ∧ s'.taskQ = s.taskQ ∧ s'.taskCheck = s.taskCheck ∧ s'.workers = s.workers ∧
      ∀ a, Late s.heap a → Late s'.heap a := by
  simp only [poolStep, safe, Bool.false_eq_true, if_false] at stepped
  cases e with
  | mallocInfo a clntInfo =>
    obtain ⟨free, -, rfl⟩ := mallocInfo_cases stepped
    exact ⟨⟨skipped.dequeued, skipped.enqueued, skipped.early, by simp⟩, rfl, rfl, rfl,
      fun a late => late.allocate free _⟩
  | mallocTask a stale funcPtr =>
    obtain ⟨free, clntInfo, -, rfl⟩ := mallocTask_cases stepped
    refine ⟨⟨skipped.dequeued, skipped.enqueued, skipped.early, fun b ready => ?_⟩, rfl, rfl, rfl,
      fun a late => late.allocate free _⟩
    obtain rfl := MainPc.taskReady.inj ready
    exact ⟨_, task_update_here _ _ _, skipped.enqueued⟩
  | mallocFails =>
    obtain rfl := mallocFails_cases stepped
    exact ⟨⟨skipped.dequeued, skipped.enqueued, skipped.early, by simp⟩, rfl, rfl, rfl, fun a late => late⟩
  | enqueue | signal | worker => cases kind

theorem PoolState.Skipped.enqueue (skipped : s.Skipped) (head : s.taskQ.len ≠ 0 → s.Replaced)
    (stepped : enqueue s = some s') : s' = s.crash ∨ s'.Replaced := by
  rcases enqueue_shape stepped with rfl | ⟨newTask, heap, taskQ, ready, ran, rfl⟩
  · exact .inl rfl
  have late := skipped.ready newTask ready
  obtain ⟨same, first⟩ := enqueueTask_head ran
  refine .inr ⟨⟨skipped.dequeued, Nat.le_succ_of_le skipped.enqueued, skipped.early, by simp⟩, ?_⟩
  rcases first with first | ⟨nonempty, first⟩
  · exact ⟨newTask, first, late.sameButLinks same⟩
  · obtain ⟨a, before, late⟩ := (head nonempty).head
    exact ⟨a, first.trans before, late.sameButLinks same⟩

theorem PoolState.Skipped.goto (skipped : s.Skipped) {k : Fin thrNum} {pc : WorkerPc}
    (early : pc = .woken ∨ pc = .counted) : (s.goto k pc).Skipped := by
  refine ⟨skipped.dequeued, skipped.enqueued, fun j => ?_, skipped.ready⟩
  by_cases own : j = k
  · subst own
    simpa [PoolState.goto] using .inr early
  · simpa [PoolState.goto, own] using skipped.early j

theorem PoolState.Replaced.worker (replaced : s.Replaced) {k : Fin thrNum} (stepped : threadFunc s k = some s') :
    s'.Replaced ∨ s'.TakenLate := by
  have skipped := replaced.toSkipped
  rcases skipped.early k with pc | pc | pc
  · simp only [threadFunc, pc, Option.map_eq_some_iff] at stepped
    obtain ⟨taskCheck, -, rfl⟩ := stepped
    have moved : (s.goto k .woken).Skipped := skipped.goto (.inl rfl)
    exact .inl ⟨⟨moved.dequeued, moved.enqueued, moved.early, moved.ready⟩, replaced.head⟩
  · simp only [threadFunc, pc, Option.some.injEq] at stepped
    subst stepped
    have moved : (s.goto k .counted).Skipped := skipped.goto (.inr rfl)
    exact .inl ⟨⟨moved.dequeued, moved.enqueued, moved.early, moved.ready⟩, replaced.head⟩
  · obtain ⟨a, head, t, found, late⟩ := replaced.head
    simp only [threadFunc, pc] at stepped
    split at stepped
    next =>
      obtain rfl := Option.some.inj stepped
      exact .inl (replaced.posted s.taskCheck true)
    next taskQ taskPtr ran =>
      obtain rfl := Option.some.inj stepped
      refine .inr ⟨t.serial, [], ?_, late⟩
      simp [skipped.dequeued, dequeueTask_head ran, head, serialOf, found]

theorem poolStep_unseen {e : PoolEvent} (unseen : s.Unseen) (stepped : poolStep s e = some s') :
    s'.Unseen ∨ s'.Replaced := by
  have skipped := unseen.toSkipped
  have safe := poolStep_safe stepped
  have keeps (kind : e.Prepares) : s'.Unseen := by
    obtain ⟨skipped', taskQ, taskCheck, workers, -⟩ := skipped.prepares kind safe stepped
    exact ⟨skipped', by rw [taskQ, unseen.empty], by rw [taskCheck, unseen.quiet], by rw [workers, unseen.waiting]⟩
  cases e with
  | mallocInfo | mallocTask | mallocFails => exact .inl (keeps trivial)
  | enqueue =>
    simp only [poolStep, safe, Bool.false_eq_true, if_false] at stepped
    rcases skipped.enqueue (absurd unseen.empty) stepped with rfl | replaced
    · exact .inl ⟨skipped.crash, unseen.empty, unseen.quiet, unseen.waiting⟩
    · exact .inr replaced
  | signal =>
    simp only [poolStep, safe, Bool.false_eq_true, if_false, signalThreadFunc, unseen.empty, if_true,
      Option.some.injEq] at stepped
    exact .inl (stepped ▸ unseen)
  | worker k => simp [poolStep, safe, threadFunc, unseen.waiting, unseen.quiet, bSemWait] at stepped

theorem poolStep_replaced {e : PoolEvent} (replaced : s.Replaced) (stepped : poolStep s e = some s') :
    s'.Replaced ∨ s'.TakenLate := by
  have skipped := replaced.toSkipped
  have safe := poolStep_safe stepped
  have keeps (kind : e.Prepares) : s'.Replaced := by
    obtain ⟨skipped', taskQ, -, -, late⟩ := skipped.prepares kind safe stepped
    obtain ⟨a, head, number⟩ := replaced.head
    exact ⟨skipped', a, by rw [taskQ, head], late a number⟩
  cases e with
  | mallocInfo | mallocTask | mallocFails => exact .inl (keeps trivial)
  | enqueue =>
    simp only [poolStep, safe, Bool.false_eq_true, if_false] at stepped
    rcases skipped.enqueue (fun _ => replaced) stepped with rfl | replaced'
    · exact .inl (replaced.posted s.taskCheck true)
    · exact .inl replaced'
  | signal =>
    simp only [poolStep, safe, Bool.false_eq_true, if_false, Option.some.injEq] at stepped
    obtain ⟨taskCheck, fault, shape⟩ := signalThreadFunc_shape s
    exact .inl (stepped ▸ shape ▸ replaced.posted taskCheck fault)
  | worker k =>
    simp only [poolStep, safe, Bool.false_eq_true, if_false] at stepped
    exact replaced.worker stepped

theorem poolStep_dequeued {e : PoolEvent} (stepped : poolStep s e = some s') :
    s.history.dequeued <+: s'.history.dequeued := by
  have safe := poolStep_safe stepped
  simp only [poolStep, safe, Bool.false_eq_true, if_false] at stepped
  cases e with
  | mallocInfo a clntInfo =>
    obtain ⟨-, -, rfl⟩ := mallocInfo_cases stepped
    exact List.prefix_rfl
  | mallocTask a stale funcPtr =>
    obtain ⟨-, clntInfo, -, rfl⟩ := mallocTask_cases stepped
    exact List.prefix_rfl
  | mallocFails =>
    obtain rfl := mallocFails_cases stepped
    exact List.prefix_rfl
  | enqueue => rcases enqueue_shape stepped with rfl | ⟨newTask, heap, taskQ, -, -, rfl⟩ <;> exact List.prefix_rfl
  | signal =>
    obtain ⟨taskCheck, fault, shape⟩ := signalThreadFunc_shape s
    obtain rfl := Option.some.inj stepped
    rw [shape]
  | worker k =>
    rcases threadFunc_follows stepped with rfl | ⟨pc, moved⟩
    · exact List.prefix_rfl
    · exact moved.dequeued

theorem PoolState.TakenLate.later (taken : s.TakenLate) (more : s.history.dequeued <+: s'.history.dequeued) :
    s'.TakenLate := by
  obtain ⟨n, rest, dequeued, late⟩ := taken
  obtain ⟨further, longer⟩ := more
  exact ⟨n, rest ++ further, by rw [← longer, dequeued, List.cons_append], late⟩

end Skipped

end NetProg.P3
