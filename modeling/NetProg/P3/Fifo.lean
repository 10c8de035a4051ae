import NetProg.P3.TaskQueue
import NetProg.Shared.Transition

set_option autoImplicit false

namespace NetProg.P3

open Linked Transition

inductive QueueOp where
  -- The caller has filled in the node; `prev` is whatever the block held.
  | enqueue (newTask : Addr) (t : Task)
  | dequeue

-- What the queue is for: the line after a call, and what the call returns.
def QueueOp.fifo (line : List Addr) : QueueOp → List Addr × Option Addr
  | .enqueue newTask _ => (line ++ [newTask], none)
  | .dequeue => (line.tail, line.head?)

def QueueOp.Permitted (line : List Addr) : QueueOp → Prop
  | .enqueue newTask _ => newTask ∉ line
  | .dequeue => True

instance (line : List Addr) (op : QueueOp) : Decidable (op.Permitted line) :=
  match op with
  | .enqueue newTask _ => inferInstanceAs (Decidable (newTask ∉ line))
  | .dequeue => inferInstanceAs (Decidable True)

structure QueueState where
  heap : Heap
  taskQ : TaskQueue
  -- a ghost: the tasks that have been enqueued and not yet dequeued
  line : List Addr

def QueueOp.run (heap : Heap) (taskQ : TaskQueue) : QueueOp → Option (Heap × TaskQueue × Option Addr)
  | .enqueue newTask t => (enqueueTask (Function.update heap newTask (some (.task t))) taskQ newTask).map
      fun (heap, taskQ) => (heap, taskQ, none)
  | .dequeue => (dequeueTask heap taskQ).map fun (taskQ, taskPtr) => (heap, taskQ, taskPtr)

def QueueState.step (s : QueueState) (op : QueueOp) : Option QueueState :=
  if op.Permitted s.line then
    (op.run s.heap s.taskQ).map fun (heap, taskQ, _) => { heap, taskQ, line := (op.fifo s.line).1 }
  else none

def taskQueue : System QueueState QueueOp where
  init s := s.taskQ = initTaskQueue ∧ s.line = []
  step := QueueState.step

def InLen (_ : QueueState) (_ : QueueOp) (s' : QueueState) : Prop := s'.line.length < uintSize

instance (s : QueueState) (op : QueueOp) (s' : QueueState) : Decidable (InLen s op s') :=
  inferInstanceAs (Decidable (s'.line.length < uintSize))

structure QueueState.IsLine (s : QueueState) : Prop where
  -- The `prev` pointers from `head`, `len` nodes far.
  nodes : queued s.heap s.taskQ = s.line
  once : s.line.Nodup
  len : s.taskQ.len = s.line.length
  head : s.taskQ.head = s.line.head?
  tail : s.taskQ.tail = s.line.getLast?
  empty : s.taskQ.len = 0 → s.taskQ.head = none ∧ s.taskQ.tail = none

structure QueueState.Sound (s : QueueState) : Prop where
  rep : Represents s.heap s.taskQ s.line
  once : s.line.Nodup

theorem Represents.head {h : Heap} {taskQ : TaskQueue} {nodes : List Addr} (rep : Represents h taskQ nodes) :
    taskQ.head = nodes.head? := by
  cases nodes with
  | nil => exact rep.chain
  | cons a rest => exact rep.chain.head

theorem QueueState.Sound.isLine {s : QueueState} (sound : s.Sound) : s.IsLine where
  nodes := sound.rep.queued_eq
  once := sound.once
  len := sound.rep.len
  head := sound.rep.head
  tail := sound.rep.tail
  empty := by
    intro zero
    have noTasks : s.line = [] := List.eq_nil_of_length_eq_zero (by rw [← sound.rep.len, zero])
    have first := sound.rep.head
    have last := sound.rep.tail
    rw [noTasks] at first last
    exact ⟨first, last⟩

theorem run_fifo {s : QueueState} (sound : s.Sound) {op : QueueOp} (permitted : op.Permitted s.line)
    (room : (op.fifo s.line).1.length < uintSize) :
    ∃ heap taskQ, op.run s.heap s.taskQ = some (heap, taskQ, (op.fifo s.line).2) ∧
      QueueState.Sound { heap, taskQ, line := (op.fifo s.line).1 } := by
  cases op with
  | enqueue newTask t =>
    have filled : Represents (Function.update s.heap newTask (some (.task t))) s.taskQ s.line :=
      sound.rep.frame fun a member => task_update_other (fun same : a = newTask => permitted (same ▸ member)) _
    obtain ⟨heap, taskQ, ran, rep, -⟩ := enqueueTask_represents filled sound.once permitted (task_update_here _ _ _)
      (by simpa [QueueOp.fifo] using room)
    refine ⟨heap, taskQ, by simp only [QueueOp.run, ran]; rfl, rep, ?_⟩
    rw [QueueOp.fifo, List.nodup_append]
    refine ⟨sound.once, List.nodup_singleton _, ?_⟩
    rintro a member b own rfl
    obtain rfl := List.mem_singleton.mp own
    exact permitted member
  | dequeue =>
    obtain ⟨heap, taskQ, line⟩ := s
    cases line with
    | nil => exact ⟨heap, taskQ, by simp only [QueueOp.run, dequeueTask_empty sound.rep]; rfl, sound.rep, sound.once⟩
    | cons a rest =>
      obtain ⟨taskQ', ran, rep⟩ := dequeueTask_represents sound.rep
      exact ⟨heap, taskQ', by simp only [QueueOp.run, ran]; rfl, rep, (List.nodup_cons.mp sound.once).2⟩

theorem taskQueue_sound {s : QueueState} (reached : taskQueue.ReachableWhile InLen s) : s.Sound := by
  apply reached.invariant
  · rintro ⟨heap, taskQ, line⟩ ⟨queue, noTasks⟩
    obtain rfl : taskQ = initTaskQueue := queue
    obtain rfl : line = [] := noTasks
    exact ⟨initTaskQueue_represents heap, List.nodup_nil⟩
  · intro s op s' _ sound counted stepped
    simp only [taskQueue, QueueState.step] at stepped
    split_ifs at stepped with permitted
    obtain ⟨⟨heap, taskQ, answer⟩, ran, rfl⟩ := Option.map_eq_some_iff.mp stepped
    obtain ⟨heap', taskQ', fine, next⟩ := run_fifo sound permitted counted
    obtain ⟨rfl, rfl, -⟩ : heap = heap' ∧ taskQ = taskQ' ∧ answer = (op.fifo s.line).2 := by
      simpa using ran.symm.trans fine
    exact next

theorem task_queue_is_fifo (s : QueueState) (reached : taskQueue.ReachableWhile InLen s) :
    s.IsLine ∧ ∀ op : QueueOp, op.Permitted s.line → (op.fifo s.line).1.length < uintSize →
      ∃ heap taskQ, op.run s.heap s.taskQ = some (heap, taskQ, (op.fifo s.line).2) ∧
        QueueState.IsLine { heap, taskQ, line := (op.fifo s.line).1 } ∧
        (op = .dequeue → heap = s.heap ∧ (s.line = [] → taskQ = s.taskQ)) := by
  have sound := taskQueue_sound reached
  refine ⟨sound.isLine, fun op permitted room => ?_⟩
  obtain ⟨heap, taskQ, ran, next⟩ := run_fifo sound permitted room
  refine ⟨heap, taskQ, ran, next.isLine, ?_⟩
  rintro rfl
  obtain ⟨⟨taskQ', taskPtr⟩, dequeued, same⟩ := Option.map_eq_some_iff.mp ran
  obtain ⟨rfl, rfl, -⟩ : s.heap = heap ∧ taskQ' = taskQ ∧ taskPtr = _ := by simpa using same
  refine ⟨rfl, fun noTasks => ?_⟩
  have rep := sound.rep
  rw [noTasks] at rep
  rw [dequeueTask_empty rep] at dequeued
  exact (Prod.mk.inj (Option.some.inj dequeued)).1.symm

def someTask : Task := { prev := some 7, function := 0, arg := none, serial := 0 }

-- The first node comes back behind the second.
theorem reused_node_in_line : ∃ s : QueueState, s.line = [2, 1] ∧ s.IsLine := by
  obtain ⟨s, ran, line⟩ : ∃ s, taskQueue.execWhile InLen { heap := fun _ => none, taskQ := initTaskQueue, line := [] }
      [.enqueue 1 someTask, .enqueue 2 someTask, .dequeue, .enqueue 1 someTask] = some s ∧ s.line = [2, 1] :=
    ⟨_, rfl, rfl⟩
  exact ⟨s, line, (task_queue_is_fifo s (System.execWhile_reachable (.initial _ ⟨rfl, rfl⟩) ran)).1⟩

theorem enqueue_range (n : Nat) : ∃ s : QueueState, taskQueue.Reachable s ∧ s.line = List.range n ∧
    s.taskQ.len = n % uintSize ∧ (n ≠ 0 → ∃ t, s.taskQ.tail = some (n - 1) ∧ s.heap.task (some (n - 1)) = some t) := by
  induction n with
  | zero =>
    exact ⟨{ heap := fun _ => none, taskQ := initTaskQueue, line := [] }, .initial _ ⟨rfl, rfl⟩, rfl, rfl, by simp⟩
  | succ n ih =>
    obtain ⟨s, reached, line, len, last⟩ := ih
    have found := task_update_here s.heap n someTask
    have follows : s.taskQ.len ≠ 0 → ∃ a ta, s.taskQ.tail = some a ∧ a ≠ n ∧
        Heap.task (Function.update s.heap n (some (.task someTask))) (some a) = some ta := by
      intro nonempty
      have positive : n ≠ 0 := by
        rintro rfl
        exact nonempty len
      obtain ⟨t, tail, there⟩ := last positive
      have before : n - 1 ≠ n := by omega
      exact ⟨n - 1, t, tail, before, (task_update_other before _).trans there⟩
    obtain ⟨heap, taskQ, ran, -, len', tail, node, -⟩ := enqueueTask_runs found follows
    refine ⟨{ heap, taskQ, line := List.range (n + 1) }, ?_, rfl, ?_, fun _ => ⟨_, tail, node⟩⟩
    · refine .next s (.enqueue n someTask) _ reached trivial ?_
      have permitted : QueueOp.Permitted s.line (.enqueue n someTask) := by simp [QueueOp.Permitted, line]
      simp only [taskQueue, QueueState.step, if_pos permitted]
      simp only [QueueOp.run, ran, Option.map_some, QueueOp.fifo, line, List.range_succ]
    · rw [len', len]
      exact (Nat.mod_add_mod n uintSize 1)

-- With 2 ^ 32 tasks in the line `taskQ.len` is 0.
theorem counter_wrap_breaks_line : ¬ ∀ s : QueueState, taskQueue.Reachable s → s.IsLine := by
  intro claimed
  obtain ⟨s, reached, line, len, -⟩ := enqueue_range uintSize
  have same := (claimed s reached).len
  rw [len, line, List.length_range, Nat.mod_self] at same
  exact absurd same (by decide)

end NetProg.P3
