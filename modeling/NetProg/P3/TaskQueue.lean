import Mathlib.Algebra.GroupWithZero.Nat
import Mathlib.Data.List.Range
import NetProg.Net.Socket
import NetProg.Shared.Linked

set_option autoImplicit false

-- `task_queue.c` over an explicit heap. An operation answers `none` when it follows a pointer that is NULL or has
-- been freed.

namespace NetProg.P3

open Linked

abbrev thrNum : Nat := 10

instance : NeZero thrNum := ⟨by decide⟩

abbrev uintSize : Nat := 4294967296

abbrev Addr := Nat

structure ClientInfo where
  clientSock : Int
  clientAddr : SockAddrIn
  assignedThrId : Nat
deriving DecidableEq, Repr

-- `serial` is a ghost: the number of tasks enqueued before this one. No code reads it.
structure Task where
  prev : Option Addr
  function : Nat
  arg : Option Addr
  serial : Nat
deriving DecidableEq, Repr

inductive Object where
  | task (t : Task)
  | info (c : ClientInfo)
deriving DecidableEq, Repr

abbrev Heap := Addr → Option Object

def Heap.task (h : Heap) (p : Option Addr) : Option Task :=
  match p.bind h with
  | some (.task t) => some t
  | _ => none

def Heap.info (h : Heap) (p : Option Addr) : Option ClientInfo :=
  match p.bind h with
  | some (.info c) => some c
  | _ => none

def Heap.free (h : Heap) (a : Addr) : Heap := Function.update h a none

structure TaskQueue where
  len : Nat
  head : Option Addr
  tail : Option Addr
deriving DecidableEq, Repr

def initTaskQueue : TaskQueue := { len := 0, head := none, tail := none }

def setPrev (h : Heap) (p : Option Addr) (prev : Option Addr) : Option Heap :=
  match p, h.task p with
  | some a, some t => some (Function.update h a (some (.task { t with prev })))
  | _, _ => none

def enqueueTask (h : Heap) (taskQ : TaskQueue) (newTask : Addr) : Option (Heap × TaskQueue) :=
  (setPrev h (some newTask) none).bind fun cleared =>
    let len := (taskQ.len + 1) % uintSize
    match taskQ.len with
    | 0 => some (cleared, { len, head := some newTask, tail := some newTask })
    | _ + 1 => (setPrev cleared taskQ.tail (some newTask)).map fun linked =>
        (linked, { taskQ with len, tail := some newTask })

def dequeueTask (h : Heap) (taskQ : TaskQueue) : Option (TaskQueue × Option Addr) :=
  match taskQ.len with
  | 0 => some (taskQ, taskQ.head)
  | 1 => some ({ len := 0, head := none, tail := none }, taskQ.head)
  | len + 2 => (h.task taskQ.head).map fun t =>
      ({ taskQ with len := len + 1, head := t.prev }, taskQ.head)

abbrev BSem := Fin thrNum → Int

def bSemInit (value : Int) : BSem :=
  let checked := if value < 0 ∨ value > 1 then 0 else value
  fun _ => checked

def bSemPost (assignedThrId : Fin thrNum) : BSem := Function.update (fun _ => 0) assignedThrId 1

def bSemWait (val : BSem) (thrId : Fin thrNum) : Option BSem :=
  -- `none` while the caller stays in `pthread_cond_wait`.
  if val thrId = 1 then some (Function.update val thrId 0) else none

def Object.unlinked : Object → Object
  | .task t => .task { t with prev := none }
  | .info c => .info c

def SameButLinks (h h' : Heap) : Prop := ∀ a, (h' a).map Object.unlinked = (h a).map Object.unlinked

theorem SameButLinks.refl (h : Heap) : SameButLinks h h := fun _ => rfl

theorem SameButLinks.trans {h h' h'' : Heap} (first : SameButLinks h h') (second : SameButLinks h' h'') :
    SameButLinks h h'' := fun a => (second a).trans (first a)

theorem task_some {h : Heap} {a : Addr} {t : Task} : h.task (some a) = some t ↔ h a = some (.task t) := by
  simp only [Heap.task, Option.bind_some]
  cases found : h a with
  | none => simp
  | some o => cases o <;> simp

theorem info_some {h : Heap} {a : Addr} {c : ClientInfo} : h.info (some a) = some c ↔ h a = some (.info c) := by
  simp only [Heap.info, Option.bind_some]
  cases found : h a with
  | none => simp
  | some o => cases o <;> simp

@[simp] theorem task_null (h : Heap) : h.task none = none := rfl

@[simp] theorem info_null (h : Heap) : h.info none = none := rfl

theorem SameButLinks.info {h h' : Heap} (same : SameButLinks h h') (p : Option Addr) : h'.info p = h.info p := by
  cases p with
  | none => rfl
  | some a =>
    have here := same a
    simp only [Heap.info, Option.bind_some]
    cases old : h a with
    | none => simp_all
    | some o =>
      cases new : h' a with
      | none => simp_all
      | some o' => cases o <;> cases o' <;> simp_all [Object.unlinked]

theorem SameButLinks.task {h h' : Heap} (same : SameButLinks h h') {p : Option Addr} {t : Task}
    (found : h.task p = some t) : ∃ prev, h'.task p = some { t with prev } := by
  cases p with
  | none => simp at found
  | some a =>
    have here := same a
    rw [task_some] at found
    rw [found] at here
    cases new : h' a with
    | none => simp [new] at here
    | some o =>
      cases o with
      | info c => simp [new, Object.unlinked] at here
      | task t' =>
        simp only [new, Option.map_some, Object.unlinked, Option.some.injEq, Object.task.injEq, Task.mk.injEq,
          true_and] at here
        refine ⟨t'.prev, task_some.mpr ?_⟩
        rw [new]
        cases t
        cases t'
        simp_all

theorem SameButLinks.fresh {h h' : Heap} (same : SameButLinks h h') (a : Addr) : h' a = none ↔ h a = none := by
  have here := same a
  cases old : h a <;> cases new : h' a <;> simp_all

theorem setPrev_some {h : Heap} {a : Addr} {t : Task} (found : h.task (some a) = some t) (prev : Option Addr) :
    setPrev h (some a) prev = some (Function.update h a (some (.task { t with prev }))) := by
  simp [setPrev, found]

theorem update_sameButLinks {h : Heap} {a : Addr} {t : Task} (found : h.task (some a) = some t)
    (prev : Option Addr) : SameButLinks h (Function.update h a (some (.task { t with prev }))) := by
  intro b
  by_cases here : b = a
  · subst here
    simp [task_some.mp found, Object.unlinked]
  · simp [here]

theorem setPrev_same {h h' : Heap} {p prev : Option Addr} (ran : setPrev h p prev = some h') : SameButLinks h h' := by
  cases p with
  | none => simp [setPrev] at ran
  | some a =>
    cases found : h.task (some a) with
    | none => simp [setPrev, found] at ran
    | some t =>
      rw [setPrev_some found, Option.some.injEq] at ran
      exact ran ▸ update_sameButLinks found prev

theorem task_update_other {h : Heap} {a b : Addr} (different : b ≠ a) (o : Option Object) :
    Heap.task (Function.update h a o) (some b) = h.task (some b) := by
  simp [Heap.task, different]

theorem info_update_other {h : Heap} {a b : Addr} (different : b ≠ a) (o : Option Object) :
    Heap.info (Function.update h a o) (some b) = h.info (some b) := by
  simp [Heap.info, different]

theorem task_update_here (h : Heap) (a : Addr) (t : Task) :
    Heap.task (Function.update h a (some (.task t))) (some a) = some t := by
  simp [Heap.task]

def link (h : Heap) (a : Addr) : Option (Option Addr) := (h.task (some a)).map Task.prev

def queued (h : Heap) (taskQ : TaskQueue) : List Addr := walk (link h) taskQ.head taskQ.len

structure Represents (h : Heap) (taskQ : TaskQueue) (nodes : List Addr) : Prop where
  chain : Segment (link h) taskQ.head nodes none
  tail : taskQ.tail = nodes.getLast?
  len : taskQ.len = nodes.length
  bound : nodes.length < uintSize

theorem initTaskQueue_represents (h : Heap) : Represents h initTaskQueue [] where
  chain := rfl
  tail := rfl
  len := rfl
  bound := by decide

theorem Represents.queued_eq {h : Heap} {taskQ : TaskQueue} {nodes : List Addr}
    (rep : Represents h taskQ nodes) : queued h taskQ = nodes := by
  rw [queued, rep.len]
  exact rep.chain.walk_eq

theorem Represents.task {h : Heap} {taskQ : TaskQueue} {nodes : List Addr}
    (rep : Represents h taskQ nodes) {a : Addr} (member : a ∈ nodes) : ∃ t, h.task (some a) = some t := by
  have allocated := rep.chain.allocated a member
  simpa [link, Option.isSome_iff_exists] using allocated

theorem Represents.frame {h h' : Heap} {taskQ : TaskQueue} {nodes : List Addr}
    (rep : Represents h taskQ nodes) (same : ∀ a ∈ nodes, h'.task (some a) = h.task (some a)) :
    Represents h' taskQ nodes where
  chain := rep.chain.congr fun a member => by simp [link, same a member]
  tail := rep.tail
  len := rep.len
  bound := rep.bound

theorem enqueueTask_represents {h : Heap} {taskQ : TaskQueue} {nodes : List Addr} {newTask : Addr} {t : Task}
    (rep : Represents h taskQ nodes) (distinct : nodes.Nodup) (unused : newTask ∉ nodes)
    (found : h.task (some newTask) = some t) (room : nodes.length + 1 < uintSize) :
    ∃ h' taskQ', enqueueTask h taskQ newTask = some (h', taskQ') ∧
      Represents h' taskQ' (nodes ++ [newTask]) ∧ SameButLinks h h' := by
  have cleared := setPrev_some found none
  have keep := update_sameButLinks found none
  rcases List.eq_nil_or_concat nodes with rfl | ⟨front, final, rfl⟩
  · have empty : taskQ.len = 0 := rep.len
    refine ⟨_, _, by simp only [enqueueTask, cleared, Option.bind_some, empty]; rfl, ?_, keep⟩
    constructor
    · exact ⟨rfl, none, by simp [link, task_update_here], rfl⟩
    · rfl
    · rfl
    · exact room
  · rw [List.concat_eq_append] at *
    have count : taskQ.len = front.length + 1 := by simpa using rep.len
    have last : taskQ.tail = some final := by simpa using rep.tail
    have apart : final ≠ newTask := by
      rintro rfl
      simp at unused
    obtain ⟨tf, finalTask⟩ := rep.task (show final ∈ front ++ [final] by simp)
    have finalTask' : Heap.task (Function.update h newTask (some (.task { t with prev := none }))) (some final) = some tf :=
      (task_update_other apart _).trans finalTask
    have linked := setPrev_some finalTask' (some newTask)
    refine ⟨_, _, by simp only [enqueueTask, cleared, Option.bind_some, count, last, linked, Option.map_some]; rfl,
      ?_, keep.trans (update_sameButLinks finalTask' (some newTask))⟩
    constructor
    · refine rep.chain.extend distinct unused ?_ ?_ ?_
      · intro a offFinal offNew
        simp only [link, task_update_other offFinal, task_update_other offNew]
      · simp only [link, task_update_here, Option.map_some]
      · simp only [link, task_update_other apart.symm, task_update_here, Option.map_some]
    · simp
    · simp only [List.length_append, List.length_cons, List.length_nil] at room ⊢
      exact Nat.mod_eq_of_lt room
    · simpa using room

theorem enqueueTask_runs {h : Heap} {taskQ : TaskQueue} {newTask : Addr} {t : Task}
    (found : h.task (some newTask) = some t)
    (last : taskQ.len ≠ 0 → ∃ a ta, taskQ.tail = some a ∧ a ≠ newTask ∧ h.task (some a) = some ta) :
    ∃ h' taskQ', enqueueTask h taskQ newTask = some (h', taskQ') ∧ SameButLinks h h' ∧
      taskQ'.len = (taskQ.len + 1) % uintSize ∧ taskQ'.tail = some newTask ∧
      h'.task (some newTask) = some { t with prev := none } ∧
      (taskQ.len = 0 → taskQ'.head = some newTask) := by
  have cleared := setPrev_some found none
  have keep := update_sameButLinks found none
  cases count : taskQ.len with
  | zero =>
    refine ⟨_, _, by simp only [enqueueTask, cleared, Option.bind_some, count]; rfl, keep, rfl, rfl, ?_, fun _ => rfl⟩
    exact task_update_here _ _ _
  | succ n =>
    obtain ⟨a, ta, tail, apart, there⟩ := last (by simp [count])
    have there' : Heap.task (Function.update h newTask (some (.task { t with prev := none }))) (some a) = some ta :=
      (task_update_other apart _).trans there
    have linked := setPrev_some there' (some newTask)
    refine ⟨_, _, by simp only [enqueueTask, cleared, Option.bind_some, count, tail, linked, Option.map_some]; rfl,
      keep.trans (update_sameButLinks there' (some newTask)), rfl, rfl, ?_, by simp⟩
    rw [task_update_other apart.symm, task_update_here]

theorem dequeueTask_empty {h : Heap} {taskQ : TaskQueue} (rep : Represents h taskQ []) :
    dequeueTask h taskQ = some (taskQ, none) := by
  have empty : taskQ.len = 0 := rep.len
  have nothing : taskQ.head = none := rep.chain
  simp [dequeueTask, empty, nothing]

theorem dequeueTask_represents {h : Heap} {taskQ : TaskQueue} {a : Addr} {rest : List Addr}
    (rep : Represents h taskQ (a :: rest)) :
    ∃ taskQ', dequeueTask h taskQ = some (taskQ', some a) ∧ Represents h taskQ' rest := by
  obtain ⟨first, after, stored, tail⟩ := rep.chain
  obtain ⟨t, found⟩ := rep.task (show a ∈ a :: rest by simp)
  cases rest with
  | nil =>
    have one : taskQ.len = 1 := rep.len
    refine ⟨_, by simp only [dequeueTask, one, first]; rfl, ?_⟩
    exact initTaskQueue_represents h
  | cons b rest =>
    have many : taskQ.len = rest.length + 2 := rep.len
    have next : t.prev = after := by simpa [link, found] using stored
    refine ⟨_, by simp only [dequeueTask, many, first, found, Option.map_some]; rfl, ?_⟩
    constructor
    · simpa [next] using tail
    · simpa using rep.tail
    · rfl
    · exact Nat.lt_of_succ_lt rep.bound

end NetProg.P3
