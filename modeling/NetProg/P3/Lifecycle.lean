import NetProg.P3.ThreadPool

set_option autoImplicit false

namespace NetProg.P3

open Linked Transition

def WorkerPc.task : WorkerPc → Option Addr
  | .dequeued p => p
  | .fetched t _ _ => some t
  | .logged t _ _ => some t
  | .executing t _ _ => some t
  | .executed t => some t
  | .argFreed t => some t
  | _ => none

def WorkerPc.argGone : WorkerPc → Bool
  | .argFreed _ => true
  | _ => false

def MainPc.task : MainPc → Option Addr
  | .taskReady t => some t
  | _ => none

inductive Holder where
  | queue
  | worker (k : Fin thrNum)
  | main
deriving DecidableEq

def PoolState.Holds (s : PoolState) : Holder → Addr → Prop
  | .queue, a => a ∈ queued s.heap s.taskQ
  | .worker k, a => (s.workers k).task = some a
  | .main, a => s.main.task = some a

def PoolState.argGone (s : PoolState) : Holder → Bool
  | .worker k => (s.workers k).argGone
  | _ => false

def argOf (h : Heap) (a : Addr) : Option Addr := (h.task (some a)).bind Task.arg

def PoolState.Owns (s : PoolState) (o : Holder) (a c : Addr) : Prop :=
  -- Holder `o` has the task at `a` and through it the client info at `c`.
  s.Holds o a ∧ s.argGone o = false ∧ argOf s.heap a = some c

structure PoolState.Sound (s : PoolState) : Prop where
  safe : s.fault = false
  rep : Represents s.heap s.taskQ (queued s.heap s.taskQ)
  distinct : (queued s.heap s.taskQ).Nodup
  task : ∀ o a, s.Holds o a → ∃ t, s.heap.task (some a) = some t
  arg : ∀ o a, s.Holds o a → s.argGone o = false → ∃ c info, argOf s.heap a = some c ∧
    s.heap.info (some c) = some info ∧ info.assignedThrId < thrNum
  once : ∀ o o' a, s.Holds o a → s.Holds o' a → o = o'
  argOnce : ∀ o o' a a' c, s.Owns o a c → s.Owns o' a' c → a = a'
  read : ∀ k t f c, s.workers k = .fetched t f c ∨ s.workers k = .logged t f c → argOf s.heap t = c
  prepared : ∀ c, s.main = .infoReady c →
    (∃ info, s.heap.info (some c) = some info ∧ info.assignedThrId < thrNum) ∧ ∀ o a, ¬ s.Owns o a c

theorem argOf_sameButLinks {h h' : Heap} (same : SameButLinks h h') (a : Addr) : argOf h' a = argOf h a := by
  have flip : SameButLinks h' h := fun b => (same b).symm
  unfold argOf
  cases found : h.task (some a) with
  | some t =>
    obtain ⟨prev, found'⟩ := same.task found
    simp [found']
  | none =>
    cases found' : h'.task (some a) with
    | none => rfl
    | some t' =>
      obtain ⟨prev, back⟩ := flip.task found'
      simp [found] at back

theorem serialOf_sameButLinks {h h' : Heap} (same : SameButLinks h h') {a : Addr} {t : Task}
    (found : h.task (some a) = some t) : serialOf h' a = serialOf h a := by
  obtain ⟨prev, found'⟩ := same.task found
  simp [serialOf, found, found']

theorem argOf_update_other {h : Heap} {a b : Addr} (different : b ≠ a) (o : Option Object) :
    argOf (Function.update h a o) b = argOf h b := by
  simp [argOf, task_update_other different]

theorem serialOf_update_other {h : Heap} {a b : Addr} (different : b ≠ a) (o : Option Object) :
    serialOf (Function.update h a o) b = serialOf h b := by
  simp [serialOf, task_update_other different]

theorem argOf_some {h : Heap} {a c : Addr} (found : argOf h a = some c) :
    ∃ t, h.task (some a) = some t ∧ t.arg = some c := by
  simpa [argOf, Option.bind_eq_some_iff] using found

def infoOf (h : Heap) (a : Addr) : Option ClientInfo := (argOf h a).bind fun c => h.info (some c)

theorem infoOf_sameButLinks {h h' : Heap} (same : SameButLinks h h') (a : Addr) : infoOf h' a = infoOf h a := by
  simp [infoOf, argOf_sameButLinks same, same.info]

theorem threadPoolInit_queued : queued threadPoolInit.heap threadPoolInit.taskQ = [] := rfl

theorem threadPoolInit_sound : threadPoolInit.Sound := by
  have none_held : ∀ o a, ¬ threadPoolInit.Holds o a := by
    rintro (_ | k | _) a held
    · simp [PoolState.Holds, threadPoolInit_queued] at held
    · cases held
    · cases held
  constructor
  case safe => rfl
  case rep => exact initTaskQueue_represents _
  case distinct => simp [threadPoolInit_queued]
  case task => exact fun o a held => absurd held (none_held o a)
  case arg => exact fun o a held => absurd held (none_held o a)
  case once => exact fun o _ a held => absurd held (none_held o a)
  case argOnce => exact fun o _ a _ _ owned => absurd owned.1 (none_held o a)
  case read => exact fun k t f c pc => by rcases pc with pc | pc <;> cases pc
  case prepared => exact fun c pc => by cases pc

theorem PoolState.Sound.regroup {s s' : PoolState} (sound : s.Sound) (source : Holder → Addr → Holder)
    (safe : s'.fault = false) (rep : Represents s'.heap s'.taskQ (queued s'.heap s'.taskQ))
    (distinct : (queued s'.heap s'.taskQ).Nodup)
    (before : ∀ o a, s'.Holds o a → s.Holds (source o a) a)
    (apart : ∀ o o' a, s'.Holds o a → s'.Holds o' a → source o a = source o' a → o = o')
    (kept : ∀ o a, s'.Holds o a → s'.argGone o = false → s.argGone (source o a) = false)
    (task : ∀ o a, s'.Holds o a → ∃ t, s'.heap.task (some a) = some t)
    (args : ∀ o a, s'.Holds o a → argOf s'.heap a = argOf s.heap a)
    (infos : ∀ o a c info, s'.Owns o a c → s.heap.info (some c) = some info → s'.heap.info (some c) = some info)
    (read : ∀ k t f c, s'.workers k = .fetched t f c ∨ s'.workers k = .logged t f c → argOf s.heap t = c)
    (prepared : ∀ c, s'.main = .infoReady c →
      (∃ info, s'.heap.info (some c) = some info ∧ info.assignedThrId < thrNum) ∧
        ∀ o a, s'.Holds o a → ¬ s.Owns (source o a) a c) : s'.Sound := by
  have owns : ∀ o a c, s'.Owns o a c → s.Owns (source o a) a c := by
    rintro o a c ⟨held, here, arg⟩
    exact ⟨before o a held, kept o a held here, (args o a held).symm.trans arg⟩
  constructor
  case safe => exact safe
  case rep => exact rep
  case distinct => exact distinct
  case task => exact task
  case arg =>
    intro o a held here
    obtain ⟨c, info, arg, found, bound⟩ := sound.arg _ a (before o a held) (kept o a held here)
    have arg' : argOf s'.heap a = some c := (args o a held).trans arg
    exact ⟨c, info, arg', infos o a c info ⟨held, here, arg'⟩ found, bound⟩
  case once =>
    intro o o' a held held'
    exact apart o o' a held held' (sound.once _ _ a (before o a held) (before o' a held'))
  case argOnce => exact fun o o' a a' c owned owned' => sound.argOnce _ _ a a' c (owns o a c owned) (owns o' a' c owned')
  case read =>
    intro k t f c pc
    have held : s'.Holds (.worker k) t := by rcases pc with pc | pc <;> simp [PoolState.Holds, WorkerPc.task, pc]
    exact (args _ t held).trans (read k t f c pc)
  case prepared =>
    intro c ready
    exact ⟨(prepared c ready).1, fun o a owned => (prepared c ready).2 o a owned.1 (owns o a c owned)⟩

theorem PoolState.Sound.goto {s s' : PoolState} (sound : s.Sound) {k : Fin thrNum} {pc : WorkerPc}
    (workers : s'.workers = Function.update s.workers k pc) (heap : s'.heap = s.heap)
    (taskQ : s'.taskQ = s.taskQ) (main : s'.main = s.main) (fault : s'.fault = s.fault)
    (task : pc.task = (s.workers k).task) (gone : pc.argGone = (s.workers k).argGone)
    (read : ∀ t f c, pc = .fetched t f c ∨ pc = .logged t f c → argOf s.heap t = c) : s'.Sound := by
  have tasks : ∀ j, (s'.workers j).task = (s.workers j).task := by
    intro j
    by_cases here : j = k
    · subst here; simp [workers, task]
    · simp [workers, here]
  have goneSame : ∀ j, (s'.workers j).argGone = (s.workers j).argGone := by
    intro j
    by_cases here : j = k
    · subst here; simp [workers, gone]
    · simp [workers, here]
  have holds : ∀ o a, s'.Holds o a ↔ s.Holds o a := by
    rintro (_ | j | _) a
    · simp [PoolState.Holds, heap, taskQ]
    · simp [PoolState.Holds, tasks]
    · simp [PoolState.Holds, main]
  refine sound.regroup (fun o _ => o) (fault.trans sound.safe) ?_ ?_ ?_ ?_ ?_ ?_ ?_ ?_ ?_ ?_
  · simpa [heap, taskQ] using sound.rep
  · simpa [heap, taskQ] using sound.distinct
  · exact fun o a held => (holds o a).mp held
  · exact fun o o' a _ _ same => same
  · rintro (_ | j | _) a _ here
    · rfl
    · exact (goneSame j).symm.trans here
    · rfl
  · intro o a held
    rw [heap]
    exact sound.task o a ((holds o a).mp held)
  · intro o a _
    rw [heap]
  · intro o a c info _ found
    rw [heap]
    exact found
  · intro j t f c pcs
    by_cases here : j = k
    · subst here
      exact read t f c (by simpa [workers] using pcs)
    · exact sound.read j t f c (by simpa [workers, here] using pcs)
  · intro c ready
    rw [main] at ready
    rw [heap]
    exact ⟨(sound.prepared c ready).1, fun o a _ => (sound.prepared c ready).2 o a⟩

theorem PoolState.Sound.not_held {s : PoolState} (sound : s.Sound) {a : Addr} (free : s.heap a = none)
    {o : Holder} {b : Addr} (held : s.Holds o b) : b ≠ a := by
  rintro rfl
  obtain ⟨t, found⟩ := sound.task o b held
  rw [task_some, free] at found
  cases found

theorem info_not_free {h : Heap} {a c : Addr} {info : ClientInfo} (free : h a = none)
    (found : h.info (some c) = some info) : c ≠ a := by
  rintro rfl
  rw [info_some, free] at found
  cases found

theorem PoolState.Sound.not_owned {s : PoolState} (sound : s.Sound) {a : Addr} (free : s.heap a = none)
    {o : Holder} {b c : Addr} (owned : s.Owns o b c) : c ≠ a := by
  obtain ⟨held, here, arg⟩ := owned
  obtain ⟨c', info, arg', found, -⟩ := sound.arg o b held here
  obtain rfl : c' = c := Option.some.inj (arg'.symm.trans arg)
  exact info_not_free free found

theorem PoolState.Sound.rep_allocate {s : PoolState} (sound : s.Sound) {a : Addr} (free : s.heap a = none)
    (o : Option Object) : Represents (Function.update s.heap a o) s.taskQ (queued s.heap s.taskQ) :=
  sound.rep.frame fun _ member => task_update_other (sound.not_held free (o := .queue) member) o

theorem infoOf_allocate {s : PoolState} (sound : s.Sound) {a : Addr} (free : s.heap a = none) (new : Option Object)
    {o : Holder} {b : Addr} (held : s.Holds o b) (kept : s.argGone o = false) :
    infoOf (Function.update s.heap a new) b = infoOf s.heap b := by
  obtain ⟨c, info, arg, found, -⟩ := sound.arg o b held kept
  simp [infoOf, argOf_update_other (sound.not_held free held), arg, info_update_other (info_not_free free found)]

theorem poolStep_safe {s s' : PoolState} {e : PoolEvent} (stepped : poolStep s e = some s') : s.fault = false := by
  by_contra fault
  simp [poolStep, fault] at stepped

theorem mallocInfo_cases {s s' : PoolState} {a : Addr} {clntInfo : ClientInfo}
    (stepped : mallocInfo s a clntInfo = some s') : s.heap a = none ∧ clntInfo.assignedThrId < thrNum ∧
      s' = { s with heap := Function.update s.heap a (some (.info clntInfo)), main := .infoReady a } := by
  simp only [mallocInfo] at stepped
  split at stepped
  next =>
    split_ifs at stepped with guard
    exact ⟨guard.1, guard.2, (Option.some.inj stepped).symm⟩
  next => cases stepped

theorem mallocTask_cases {s s' : PoolState} {a : Addr} {stale : Option Addr} {funcPtr : Nat}
    (stepped : mallocTask s a stale funcPtr = some s') :
    s.heap a = none ∧ ∃ clntInfo, s.main = .infoReady clntInfo ∧ s' = { s with
      heap := Function.update s.heap a (some (.task
        { prev := stale, function := funcPtr, arg := some clntInfo, serial := s.history.enqueued }))
      main := .taskReady a } := by
  simp only [mallocTask] at stepped
  split at stepped
  next clntInfo ready =>
    split_ifs at stepped with free
    exact ⟨free, clntInfo, ready, (Option.some.inj stepped).symm⟩
  next => cases stepped

theorem mallocFails_cases {s s' : PoolState} (stepped : mallocFails s = some s') :
    s' = { s with main := .idle } := by
  simp only [mallocFails] at stepped
  split at stepped
  next => exact (Option.some.inj stepped).symm
  next => cases stepped

theorem enqueue_shape {s s' : PoolState} (stepped : enqueue s = some s') :
    s' = s.crash ∨ ∃ newTask heap taskQ, s.main = .taskReady newTask ∧
      enqueueTask s.heap s.taskQ newTask = some (heap, taskQ) ∧
      s' = { s with heap, taskQ, main := .idle, history := { s.history with enqueued := s.history.enqueued + 1 } } := by
  simp only [enqueue] at stepped
  split at stepped
  next newTask ready =>
    split at stepped
    next => exact .inl (Option.some.inj stepped).symm
    next heap taskQ ran => exact .inr ⟨newTask, heap, taskQ, ready, ran, (Option.some.inj stepped).symm⟩
  next => cases stepped

theorem signalThreadFunc_shape (s : PoolState) :
    ∃ taskCheck fault, signalThreadFunc s = { s with taskCheck, fault } := by
  simp only [signalThreadFunc]
  split_ifs
  · exact ⟨s.taskCheck, s.fault, rfl⟩
  split
  next => exact ⟨s.taskCheck, true, rfl⟩
  next id _ =>
    split_ifs with inside
    · exact ⟨bSemPost ⟨id, inside⟩, s.fault, rfl⟩
    · exact ⟨s.taskCheck, true, rfl⟩

theorem mallocInfo_sound {s s' : PoolState} {a : Addr} {clntInfo : ClientInfo} (sound : s.Sound)
    (stepped : mallocInfo s a clntInfo = some s') : s'.Sound := by
  obtain ⟨free, inside, shape⟩ := mallocInfo_cases stepped
  have heap : s'.heap = Function.update s.heap a (some (.info clntInfo)) := by rw [shape]
  have taskQ : s'.taskQ = s.taskQ := by rw [shape]
  have workers : s'.workers = s.workers := by rw [shape]
  have main : s'.main = .infoReady a := by rw [shape]
  have rep : Represents s'.heap s'.taskQ (queued s.heap s.taskQ) := by
    rw [heap, taskQ]
    exact sound.rep_allocate free _
  have before : ∀ o b, s'.Holds o b → s.Holds o b := by
    rintro (_ | k | _) b held
    · simpa [PoolState.Holds, rep.queued_eq] using held
    · simpa [PoolState.Holds, workers] using held
    · simp [PoolState.Holds, main, MainPc.task] at held
  have different : ∀ o b, s'.Holds o b → b ≠ a := fun o b held => sound.not_held free (before o b held)
  refine sound.regroup (fun o _ => o) (by rw [shape]; exact sound.safe) (rep.queued_eq ▸ rep)
    (rep.queued_eq ▸ sound.distinct) before (fun _ _ _ _ _ same => same) ?_ ?_ ?_ ?_ ?_ ?_
  · rintro (_ | k | _) b _ here
    · rfl
    · simpa [PoolState.argGone, workers] using here
    · rfl
  · intro o b held
    obtain ⟨t, found⟩ := sound.task o b (before o b held)
    exact ⟨t, by rw [heap, task_update_other (different o b held), found]⟩
  · intro o b held
    rw [heap, argOf_update_other (different o b held)]
  · intro o b c info _ found
    rw [heap, info_update_other (info_not_free free found), found]
  · intro k t f c pc
    exact sound.read k t f c (by simpa [workers] using pc)
  · intro c ready
    obtain rfl : a = c := by simpa [main] using ready
    exact ⟨⟨clntInfo, by simp [heap, Heap.info], inside⟩, fun o b _ owned => sound.not_owned free owned rfl⟩

theorem mallocTask_sound {s s' : PoolState} {a : Addr} {stale : Option Addr} {funcPtr : Nat} (sound : s.Sound)
    (stepped : mallocTask s a stale funcPtr = some s') : s'.Sound := by
  obtain ⟨free, clntInfo, ready, shape⟩ := mallocTask_cases stepped
  obtain ⟨⟨info, found, inside⟩, unowned⟩ := sound.prepared clntInfo ready
  have heap : s'.heap = Function.update s.heap a (some (.task
      { prev := stale, function := funcPtr, arg := some clntInfo, serial := s.history.enqueued })) := by rw [shape]
  have taskQ : s'.taskQ = s.taskQ := by rw [shape]
  have workers : s'.workers = s.workers := by rw [shape]
  have main : s'.main = .taskReady a := by rw [shape]
  have rep : Represents s'.heap s'.taskQ (queued s.heap s.taskQ) := by
    rw [heap, taskQ]
    exact sound.rep_allocate free _
  have held_iff : ∀ o b, s'.Holds o b ↔ (o = .main ∧ b = a) ∨ (o ≠ .main ∧ s.Holds o b) := by
    rintro (_ | k | _) b
    · simp [PoolState.Holds, rep.queued_eq]
    · simp [PoolState.Holds, workers]
    · simp [PoolState.Holds, main, MainPc.task, eq_comm]
  have kept : ∀ o b, s.Holds o b → o ≠ .main → s'.argGone o = s.argGone o := by
    rintro (_ | k | _) b _ other
    · rfl
    · simp [PoolState.argGone, workers]
    · exact absurd rfl other
  have newArg : argOf s'.heap a = some clntInfo := by simp [argOf, heap, task_update_here]
  have oldArg : ∀ o b, s.Holds o b → argOf s'.heap b = argOf s.heap b := by
    intro o b held
    rw [heap, argOf_update_other (sound.not_held free held)]
  have infos : ∀ c info, s.heap.info (some c) = some info → s'.heap.info (some c) = some info := by
    intro c info here
    rw [heap, info_update_other (info_not_free free here), here]
  have owns : ∀ o b c, s'.Owns o b c → (o = .main ∧ b = a ∧ c = clntInfo) ∨ (o ≠ .main ∧ s.Owns o b c) := by
    rintro o b c ⟨held, here, arg⟩
    rcases (held_iff o b).mp held with ⟨rfl, rfl⟩ | ⟨other, old⟩
    · exact .inl ⟨rfl, rfl, Option.some.inj (arg.symm.trans newArg)⟩
    · exact .inr ⟨other, old, (kept o b old other) ▸ here, (oldArg o b old) ▸ arg⟩
  constructor
  case safe => rw [shape]; exact sound.safe
  case rep => exact rep.queued_eq ▸ rep
  case distinct => exact rep.queued_eq ▸ sound.distinct
  case task =>
    intro o b held
    rcases (held_iff o b).mp held with ⟨rfl, rfl⟩ | ⟨-, old⟩
    · exact ⟨_, by rw [heap, task_update_here]⟩
    · obtain ⟨t, here⟩ := sound.task o b old
      exact ⟨t, by rw [heap, task_update_other (sound.not_held free old), here]⟩
  case arg =>
    intro o b held here
    rcases (held_iff o b).mp held with ⟨rfl, rfl⟩ | ⟨other, old⟩
    · exact ⟨clntInfo, info, newArg, infos _ _ found, inside⟩
    · obtain ⟨c, info, arg, at_c, bound⟩ := sound.arg o b old ((kept o b old other) ▸ here)
      exact ⟨c, info, (oldArg o b old).trans arg, infos c info at_c, bound⟩
  case once =>
    intro o o' b held held'
    rcases (held_iff o b).mp held with ⟨rfl, rfl⟩ | ⟨-, old⟩ <;>
      rcases (held_iff o' _).mp held' with ⟨rfl, same⟩ | ⟨-, old'⟩
    · rfl
    · exact absurd rfl (sound.not_held free old')
    · exact absurd same (sound.not_held free old)
    · exact sound.once o o' b old old'
  case argOnce =>
    intro o o' b b' c owned owned'
    rcases owns o b c owned with ⟨-, rfl, rfl⟩ | ⟨-, old⟩ <;>
      rcases owns o' b' _ owned' with ⟨-, rfl, same⟩ | ⟨-, old'⟩
    · rfl
    · exact absurd old' (unowned o' b')
    · exact absurd (same ▸ old) (unowned o b)
    · exact sound.argOnce o o' b b' c old old'
  case read =>
    intro k t f c pc
    rw [workers] at pc
    have held : s.Holds (.worker k) t := by rcases pc with pc | pc <;> simp [PoolState.Holds, WorkerPc.task, pc]
    exact (oldArg _ t held).trans (sound.read k t f c pc)
  case prepared =>
    intro c readyAgain
    simp [main] at readyAgain

theorem mallocFails_sound {s s' : PoolState} (sound : s.Sound) (stepped : mallocFails s = some s') : s'.Sound := by
  have shape := mallocFails_cases stepped
  have holds : ∀ o a, s'.Holds o a → s.Holds o a := by
    rintro (_ | k | _) a held
    · simpa [PoolState.Holds, shape] using held
    · simpa [PoolState.Holds, shape] using held
    · simp [PoolState.Holds, shape, MainPc.task] at held
  have heap : s'.heap = s.heap := by rw [shape]
  refine sound.regroup (fun o _ => o) (by rw [shape]; exact sound.safe) (by rw [shape]; exact sound.rep)
    (by rw [shape]; exact sound.distinct) holds (fun _ _ _ _ _ same => same) ?_ ?_ ?_ ?_ ?_ ?_
  · rintro (_ | k | _) a _ here
    · rfl
    · simpa [PoolState.argGone, shape] using here
    · rfl
  · intro o a held
    rw [heap]
    exact sound.task o a (holds o a held)
  · intro o a _
    rw [heap]
  · intro o a c info _ found
    rw [heap, found]
  · intro k t f c pc
    exact sound.read k t f c (by simpa [shape] using pc)
  · intro c readyAgain
    simp [shape] at readyAgain

theorem enqueue_cases {s s' : PoolState} (sound : s.Sound)
    (room : (queued s.heap s.taskQ).length + 1 < uintSize) (stepped : enqueue s = some s') :
    ∃ newTask, s.main = .taskReady newTask ∧ s'.main = .idle ∧ s'.workers = s.workers ∧ s'.fault = s.fault ∧
      s'.taskCheck = s.taskCheck ∧
      s'.history = { s.history with enqueued := s.history.enqueued + 1 } ∧ SameButLinks s.heap s'.heap ∧
      Represents s'.heap s'.taskQ (queued s.heap s.taskQ ++ [newTask]) := by
  simp only [enqueue] at stepped
  split at stepped
  next newTask ready =>
    have held : s.Holds .main newTask := by simp [PoolState.Holds, ready, MainPc.task]
    have unused : newTask ∉ queued s.heap s.taskQ := fun member => by
      cases sound.once .queue .main newTask member held
    obtain ⟨t, found⟩ := sound.task _ _ held
    obtain ⟨h', taskQ', ran, rep, same⟩ := enqueueTask_represents sound.rep sound.distinct unused found room
    simp only [ran, Option.some.injEq] at stepped
    subst stepped
    exact ⟨newTask, ready, rfl, rfl, rfl, rfl, rfl, same, rep⟩
  next => cases stepped

theorem enqueue_sound {s s' : PoolState} (sound : s.Sound)
    (room : (queued s.heap s.taskQ).length + 1 < uintSize) (stepped : enqueue s = some s') : s'.Sound := by
  obtain ⟨newTask, ready, idle, workers, fault, -, -, same, rep⟩ := enqueue_cases sound room stepped
  have held : s.Holds .main newTask := by simp [PoolState.Holds, ready, MainPc.task]
  have unused : newTask ∉ queued s.heap s.taskQ := fun member => by
    cases sound.once .queue .main newTask member held
  let source (o : Holder) (a : Addr) : Holder := if o = .queue ∧ a = newTask then .main else o
  have before : ∀ o a, s'.Holds o a → s.Holds (source o a) a := by
    rintro (_ | k | _) a here
    · have member : a ∈ queued s.heap s.taskQ ++ [newTask] := by simpa [PoolState.Holds, rep.queued_eq] using here
      by_cases new : a = newTask
      · simpa [source, new] using held
      · simpa [source, new, PoolState.Holds] using member
    · simpa [source, PoolState.Holds, workers] using here
    · simp [PoolState.Holds, idle, MainPc.task] at here
  refine sound.regroup source (fault.trans sound.safe) (rep.queued_eq ▸ rep) ?_ before ?_ ?_ ?_ ?_ ?_ ?_ ?_
  · rw [rep.queued_eq]
    exact List.nodup_append.mpr ⟨sound.distinct, by simp, by
      intro a member b last same
      rw [same, List.mem_singleton.mp last] at member
      exact unused member⟩
  · intro o o' a here here' agree
    by_cases first : o = .queue ∧ a = newTask <;> by_cases second : o' = .queue ∧ a = newTask
    · rw [first.1, second.1]
    · simp only [source, if_pos first, if_neg second] at agree
      subst agree
      simp [PoolState.Holds, idle, MainPc.task] at here'
    · simp only [source, if_neg first, if_pos second] at agree
      subst agree
      simp [PoolState.Holds, idle, MainPc.task] at here
    · simpa only [source, if_neg first, if_neg second] using agree
  · rintro (_ | k | _) a _ here
    · by_cases new : a = newTask <;> simp [source, new, PoolState.argGone]
    · simpa [source, PoolState.argGone, workers] using here
    · rfl
  · intro o a here
    obtain ⟨t, found⟩ := sound.task _ a (before o a here)
    obtain ⟨prev, found'⟩ := same.task found
    exact ⟨_, found'⟩
  · exact fun o a _ => argOf_sameButLinks same a
  · intro o a c info _ found
    rw [same.info, found]
  · intro k t f c pc
    exact sound.read k t f c (by simpa [workers] using pc)
  · intro c readyAgain
    simp [idle] at readyAgain

theorem counted_cases {s s' : PoolState} {k : Fin thrNum} (sound : s.Sound) (pc : s.workers k = .counted)
    (stepped : threadFunc s k = some s') :
    ∃ taskPtr, s'.workers = Function.update s.workers k (.dequeued taskPtr) ∧ s'.heap = s.heap ∧
      s'.main = s.main ∧ s'.fault = s.fault ∧ s'.taskCheck = s.taskCheck ∧
      s'.history = { s.history with dequeued := s.history.dequeued ++ taskPtr.toList.map (serialOf s.heap) } ∧
      queued s.heap s.taskQ = taskPtr.toList ++ queued s'.heap s'.taskQ ∧
      (taskPtr = none → queued s.heap s.taskQ = []) ∧
      Represents s'.heap s'.taskQ (queued s'.heap s'.taskQ) := by
  simp only [threadFunc, pc] at stepped
  cases line : queued s.heap s.taskQ with
  | nil =>
    have ran := dequeueTask_empty (line ▸ sound.rep)
    simp only [ran, Option.some.injEq] at stepped
    subst stepped
    exact ⟨none, rfl, rfl, rfl, rfl, rfl, rfl, line.symm, fun _ => rfl, sound.rep⟩
  | cons a rest =>
    obtain ⟨taskQ', ran, rep⟩ := dequeueTask_represents (line ▸ sound.rep)
    simp only [ran, Option.some.injEq] at stepped
    subst stepped
    exact ⟨some a, rfl, rfl, rfl, rfl, rfl, rfl, (congrArg (a :: ·) rep.queued_eq).symm, by simp,
      rep.queued_eq ▸ rep⟩

theorem counted_sound {s s' : PoolState} {k : Fin thrNum} (sound : s.Sound) (pc : s.workers k = .counted)
    (stepped : threadFunc s k = some s') : s'.Sound := by
  obtain ⟨taskPtr, workers, heap, main, fault, -, -, line, -, rep⟩ := counted_cases sound pc stepped
  have distinct := sound.distinct
  rw [line] at distinct
  let source (o : Holder) (_ : Addr) : Holder := if o = .worker k then .queue else o
  have before : ∀ o a, s'.Holds o a → s.Holds (source o a) a := by
    rintro (_ | j | _) a here
    · simp only [source, PoolState.Holds, reduceCtorEq, if_false, line] at here ⊢
      exact List.mem_append_right _ here
    · by_cases own : j = k
      · subst own
        have taken : taskPtr = some a := by simpa [PoolState.Holds, workers, WorkerPc.task] using here
        simp [source, PoolState.Holds, line, taken]
      · simpa [source, PoolState.Holds, workers, own] using here
    · simpa [source, PoolState.Holds, main] using here
  refine sound.regroup source (fault.trans sound.safe) rep (List.nodup_append.mp distinct).2.1 before ?_ ?_ ?_ ?_
    ?_ ?_ ?_
  · -- The head is not in the rest of the queue.
    have apart : ∀ a, s'.Holds .queue a → ¬ s'.Holds (.worker k) a := by
      intro a here there
      have taken : taskPtr = some a := by simpa [PoolState.Holds, workers, WorkerPc.task] using there
      exact (List.nodup_append.mp distinct).2.2 a (by simp [taken]) a here rfl
    intro o o' a here here' agree
    by_cases first : o = .worker k <;> by_cases second : o' = .worker k
    · rw [first, second]
    · simp only [source, if_pos first, if_neg second] at agree
      exact absurd (first ▸ here) (apart a (agree.symm ▸ here'))
    · simp only [source, if_neg first, if_pos second] at agree
      exact absurd (second ▸ here') (apart a (agree ▸ here))
    · simpa only [source, if_neg first, if_neg second] using agree
  · rintro (_ | j | _) a _ here
    · rfl
    · by_cases own : j = k
      · simp [source, own, PoolState.argGone]
      · simpa [source, PoolState.argGone, workers, own] using here
    · rfl
  · intro o a here
    rw [heap]
    exact sound.task _ a (before o a here)
  · intro o a _
    rw [heap]
  · intro o a c info _ found
    rw [heap, found]
  · intro j t f c pcs
    by_cases own : j = k
    · subst own
      simp [workers] at pcs
    · exact sound.read j t f c (by simpa [workers, own] using pcs)
  · intro c ready
    rw [main] at ready
    rw [heap]
    exact ⟨(sound.prepared c ready).1, fun o a _ => (sound.prepared c ready).2 _ a⟩

theorem executed_cases {s s' : PoolState} {k : Fin thrNum} {taskPtr : Addr} (sound : s.Sound)
    (pc : s.workers k = .executed taskPtr) (stepped : threadFunc s k = some s') :
    ∃ c, s.Owns (.worker k) taskPtr c ∧ (∃ info, s.heap.info (some c) = some info) ∧
      s' = { s.goto k (.argFreed taskPtr) with heap := s.heap.free c } := by
  have held : s.Holds (.worker k) taskPtr := by simp [PoolState.Holds, pc, WorkerPc.task]
  have kept : s.argGone (.worker k) = false := by simp [PoolState.argGone, pc, WorkerPc.argGone]
  obtain ⟨c, info, arg, found, -⟩ := sound.arg _ _ held kept
  obtain ⟨t, here, targ⟩ := argOf_some arg
  have allocated : (s.heap c).isSome := by simp [info_some.mp found]
  simp only [threadFunc, pc, here, targ, freeArg, allocated, if_true, Option.elim_some, Option.some.injEq] at stepped
  exact ⟨c, ⟨held, kept, arg⟩, ⟨info, found⟩, stepped.symm⟩

theorem executed_sound {s s' : PoolState} {k : Fin thrNum} {taskPtr : Addr} (sound : s.Sound)
    (pc : s.workers k = .executed taskPtr) (stepped : threadFunc s k = some s') : s'.Sound := by
  obtain ⟨c, owned, ⟨info, found⟩, shape⟩ := executed_cases sound pc stepped
  have heap : s'.heap = Function.update s.heap c none := by rw [shape]; rfl
  have taskQ : s'.taskQ = s.taskQ := by rw [shape]; rfl
  have main : s'.main = s.main := by rw [shape]; rfl
  have workers : s'.workers = Function.update s.workers k (.argFreed taskPtr) := by rw [shape]; rfl
  have notTask : ∀ o a, s.Holds o a → a ≠ c := by
    rintro o a held rfl
    obtain ⟨t, here⟩ := sound.task o a held
    rw [info_some, task_some.mp here] at found
    cases found
  have rep : Represents s'.heap s'.taskQ (queued s.heap s.taskQ) := by
    rw [heap, taskQ]
    exact sound.rep.frame fun a member => task_update_other (notTask .queue a member) none
  have before : ∀ o a, s'.Holds o a → s.Holds o a := by
    rintro (_ | j | _) a here
    · simpa [PoolState.Holds, rep.queued_eq] using here
    · by_cases own : j = k
      · subst own
        simpa [PoolState.Holds, workers, pc, WorkerPc.task] using here
      · simpa [PoolState.Holds, workers, own] using here
    · simpa [PoolState.Holds, main] using here
  have kept : ∀ o a, s'.Holds o a → s'.argGone o = false → s.argGone o = false ∧ o ≠ .worker k := by
    rintro (_ | j | _) a _ here
    · exact ⟨rfl, by simp⟩
    · by_cases own : j = k
      · simp [PoolState.argGone, workers, own, WorkerPc.argGone] at here
      · exact ⟨by simpa [PoolState.argGone, workers, own] using here, by simpa using own⟩
    · exact ⟨rfl, by simp⟩
  have args : ∀ o a, s.Holds o a → argOf s'.heap a = argOf s.heap a := by
    intro o a held
    rw [heap, argOf_update_other (notTask o a held)]
  refine sound.regroup (fun o _ => o) (by rw [shape]; exact sound.safe) (rep.queued_eq ▸ rep)
    (rep.queued_eq ▸ sound.distinct) before (fun _ _ _ _ _ same => same)
    (fun o a held here => (kept o a held here).1) ?_ (fun o a held => args o a (before o a held)) ?_ ?_ ?_
  · intro o a held
    obtain ⟨t, here⟩ := sound.task o a (before o a held)
    exact ⟨t, by rw [heap, task_update_other (notTask o a (before o a held)), here]⟩
  · -- No other holder owns the info that was freed.
    rintro o a d info ⟨held, here, arg⟩ there
    have old := before o a held
    obtain ⟨stays, other⟩ := kept o a held here
    have ownedOld : s.Owns o a d := ⟨old, stays, (args o a old).symm.trans arg⟩
    have different : d ≠ c := by
      rintro rfl
      obtain rfl := sound.argOnce _ _ _ _ d ownedOld owned
      exact other (sound.once _ _ a old owned.1)
    rw [heap, info_update_other different, there]
  · intro j t f d pcs
    by_cases own : j = k
    · subst own
      simp [workers] at pcs
    · exact sound.read j t f d (by simpa [workers, own] using pcs)
  · intro d ready
    rw [main] at ready
    obtain ⟨⟨dInfo, there, bound⟩, unowned⟩ := sound.prepared d ready
    have different : d ≠ c := by
      rintro rfl
      exact unowned _ _ owned
    exact ⟨⟨dInfo, by rw [heap, info_update_other different, there], bound⟩, fun o a _ => unowned o a⟩

theorem argFreed_cases {s s' : PoolState} {k : Fin thrNum} {taskPtr : Addr} (sound : s.Sound)
    (pc : s.workers k = .argFreed taskPtr) (stepped : threadFunc s k = some s') :
    s' = { s.goto k .leaving with
      heap := s.heap.free taskPtr
      history := { s.history with finished := s.history.finished ++ [serialOf s.heap taskPtr] } } := by
  have held : s.Holds (.worker k) taskPtr := by simp [PoolState.Holds, pc, WorkerPc.task]
  obtain ⟨t, here⟩ := sound.task _ _ held
  simp only [threadFunc, pc, here, Option.some.injEq] at stepped
  simp [← stepped, serialOf, here]

theorem argFreed_sound {s s' : PoolState} {k : Fin thrNum} {taskPtr : Addr} (sound : s.Sound)
    (pc : s.workers k = .argFreed taskPtr) (stepped : threadFunc s k = some s') : s'.Sound := by
  have shape := argFreed_cases sound pc stepped
  have own : s.Holds (.worker k) taskPtr := by simp [PoolState.Holds, pc, WorkerPc.task]
  obtain ⟨t, here⟩ := sound.task _ _ own
  have heap : s'.heap = Function.update s.heap taskPtr none := by rw [shape]; rfl
  have taskQ : s'.taskQ = s.taskQ := by rw [shape]; rfl
  have main : s'.main = s.main := by rw [shape]; rfl
  have workers : s'.workers = Function.update s.workers k .leaving := by rw [shape]; rfl
  have notInfo : ∀ d info, s.heap.info (some d) = some info → d ≠ taskPtr := by
    rintro d info found rfl
    rw [info_some, task_some.mp here] at found
    cases found
  have others : ∀ o a, o ≠ .worker k → s.Holds o a → a ≠ taskPtr := by
    rintro o a other held rfl
    exact other (sound.once _ _ a held own)
  have rep : Represents s'.heap s'.taskQ (queued s.heap s.taskQ) := by
    rw [heap, taskQ]
    exact sound.rep.frame fun a member => task_update_other (others .queue a (by simp) member) none
  have before : ∀ o a, s'.Holds o a → o ≠ .worker k ∧ s.Holds o a := by
    rintro (_ | j | _) a held
    · exact ⟨by simp, by simpa [PoolState.Holds, rep.queued_eq] using held⟩
    · by_cases same : j = k
      · subst same
        simp [PoolState.Holds, workers, WorkerPc.task] at held
      · exact ⟨by simpa using same, by simpa [PoolState.Holds, workers, same] using held⟩
    · exact ⟨by simp, by simpa [PoolState.Holds, main] using held⟩
  have elsewhere : ∀ o a, s'.Holds o a → a ≠ taskPtr := fun o a held => others o a (before o a held).1 (before o a held).2
  refine sound.regroup (fun o _ => o) (by rw [shape]; exact sound.safe) (rep.queued_eq ▸ rep)
    (rep.queued_eq ▸ sound.distinct) (fun o a held => (before o a held).2)
    (fun _ _ _ _ _ same => same) ?_ ?_ ?_ ?_ ?_ ?_
  · rintro (_ | j | _) a held gone
    · rfl
    · have other : j ≠ k := by simpa using (before _ a held).1
      simpa [PoolState.argGone, workers, other] using gone
    · rfl
  · intro o a held
    obtain ⟨t, found⟩ := sound.task o a (before o a held).2
    exact ⟨t, by rw [heap, task_update_other (elsewhere o a held), found]⟩
  · intro o a held
    rw [heap, argOf_update_other (elsewhere o a held)]
  · intro o a d info _ found
    rw [heap, info_update_other (notInfo d info found), found]
  · intro j t f d pcs
    by_cases same : j = k
    · subst same
      simp [workers] at pcs
    · exact sound.read j t f d (by simpa [workers, same] using pcs)
  · intro d ready
    rw [main] at ready
    obtain ⟨⟨info, found, bound⟩, unowned⟩ := sound.prepared d ready
    exact ⟨⟨info, by rw [heap, info_update_other (notInfo d info found), found], bound⟩, fun o a _ => unowned o a⟩

theorem PoolState.Sound.info_read {s : PoolState} (sound : s.Sound) {k : Fin thrNum} {t f : Nat} {p : Option Addr}
    (pc : s.workers k = .fetched t f p ∨ s.workers k = .logged t f p) :
    ∃ c info, p = some c ∧ s.Owns (.worker k) t c ∧ s.heap.info (some c) = some info := by
  have held : s.Holds (.worker k) t := by rcases pc with pc | pc <;> simp [PoolState.Holds, WorkerPc.task, pc]
  have kept : s.argGone (.worker k) = false := by
    rcases pc with pc | pc <;> simp [PoolState.argGone, WorkerPc.argGone, pc]
  obtain ⟨c, info, arg, found, -⟩ := sound.arg _ t held kept
  exact ⟨c, info, (sound.read k t f p pc).symm.trans arg, ⟨held, kept, arg⟩, found⟩

theorem threadFunc_sound {s s' : PoolState} {k : Fin thrNum} (sound : s.Sound)
    (stepped : threadFunc s k = some s') : s'.Sound := by
  cases pc : s.workers k with
  | waiting =>
    simp only [threadFunc, pc, Option.map_eq_some_iff] at stepped
    obtain ⟨taskCheck, -, rfl⟩ := stepped
    exact sound.goto rfl rfl rfl rfl rfl (by simp [pc, WorkerPc.task]) (by simp [pc, WorkerPc.argGone]) (by simp)
  | woken =>
    simp only [threadFunc, pc, Option.some.injEq] at stepped
    subst stepped
    exact sound.goto rfl rfl rfl rfl rfl (by simp [pc, WorkerPc.task]) (by simp [pc, WorkerPc.argGone]) (by simp)
  | counted => exact counted_sound sound pc stepped
  | dequeued taskPtr =>
    cases taskPtr with
    | none =>
      simp only [threadFunc, pc, Option.some.injEq] at stepped
      subst stepped
      exact sound.goto rfl rfl rfl rfl rfl (by simp [pc, WorkerPc.task]) (by simp [pc, WorkerPc.argGone]) (by simp)
    | some a =>
      obtain ⟨t, found⟩ := sound.task (.worker k) a (by simp [PoolState.Holds, pc, WorkerPc.task])
      simp only [threadFunc, pc, found, Option.some.injEq] at stepped
      subst stepped
      refine sound.goto rfl rfl rfl rfl rfl (by simp [pc, WorkerPc.task]) (by simp [pc, WorkerPc.argGone]) ?_
      intro t' f c pcs
      simp only [WorkerPc.fetched.injEq, reduceCtorEq, or_false] at pcs
      obtain ⟨rfl, -, rfl⟩ := pcs
      simp [argOf, found]
  | fetched t f p =>
    obtain ⟨c, info, rfl, owned, found⟩ := sound.info_read (.inl pc)
    simp only [threadFunc, pc, found, Option.some.injEq] at stepped
    subst stepped
    refine sound.goto rfl rfl rfl rfl rfl (by simp [pc, WorkerPc.task]) (by simp [pc, WorkerPc.argGone]) ?_
    intro t' f' c' pcs
    simp only [reduceCtorEq, WorkerPc.logged.injEq, false_or] at pcs
    obtain ⟨rfl, -, rfl⟩ := pcs
    exact owned.2.2
  | logged t f p =>
    obtain ⟨c, info, rfl, owned, found⟩ := sound.info_read (.inr pc)
    simp only [threadFunc, pc, found, Option.some.injEq] at stepped
    subst stepped
    exact sound.goto rfl rfl rfl rfl rfl (by simp [pc, WorkerPc.task]) (by simp [pc, WorkerPc.argGone]) (by simp)
  | executing t f fd =>
    simp only [threadFunc, pc, Option.some.injEq] at stepped
    subst stepped
    exact sound.goto rfl rfl rfl rfl rfl (by simp [pc, WorkerPc.task]) (by simp [pc, WorkerPc.argGone]) (by simp)
  | executed t => exact executed_sound sound pc stepped
  | argFreed t => exact argFreed_sound sound pc stepped
  | leaving =>
    simp only [threadFunc, pc, Option.some.injEq] at stepped
    subst stepped
    exact sound.goto rfl rfl rfl rfl rfl (by simp [pc, WorkerPc.task]) (by simp [pc, WorkerPc.argGone]) (by simp)

theorem signalThreadFunc_cases {s : PoolState} (sound : s.Sound) :
    (queued s.heap s.taskQ = [] ∧ signalThreadFunc s = s) ∨
      ∃ a rest info, ∃ inside : info.assignedThrId < thrNum, queued s.heap s.taskQ = a :: rest ∧
        (∃ c, argOf s.heap a = some c ∧ s.heap.info (some c) = some info) ∧
        headAssigned s.heap s.taskQ = some info.assignedThrId ∧
        signalThreadFunc s = { s with taskCheck := bSemPost ⟨info.assignedThrId, inside⟩ } := by
  cases line : queued s.heap s.taskQ with
  | nil =>
    have empty : s.taskQ.len = 0 := by simp [sound.rep.len, line]
    exact .inl ⟨rfl, by simp [signalThreadFunc, empty]⟩
  | cons a rest =>
    have some_left : s.taskQ.len ≠ 0 := by simp [sound.rep.len, line]
    have first : s.taskQ.head = some a := (line ▸ sound.rep.chain).head
    obtain ⟨c, info, arg, found, inside⟩ := sound.arg .queue a (by simp [PoolState.Holds, line]) rfl
    obtain ⟨t, here, targ⟩ := argOf_some arg
    have posted : headAssigned s.heap s.taskQ = some info.assignedThrId := by
      simp [headAssigned, first, here, targ, found]
    refine .inr ⟨a, rest, info, inside, rfl, ⟨c, arg, found⟩, posted, ?_⟩
    simp [signalThreadFunc, some_left, posted, inside]

theorem signalThreadFunc_sound {s : PoolState} (sound : s.Sound) : (signalThreadFunc s).Sound := by
  rcases signalThreadFunc_cases sound with ⟨-, same⟩ | ⟨a, rest, info, inside, -, -, -, shape⟩
  · rw [same]
    exact sound
  · rw [shape]
    exact { sound with }

theorem poolStep_sound {s s' : PoolState} {e : PoolEvent} (sound : s.Sound)
    (room : e = .enqueue → (queued s.heap s.taskQ).length + 1 < uintSize)
    (stepped : poolStep s e = some s') : s'.Sound := by
  simp only [poolStep, sound.safe, Bool.false_eq_true, if_false] at stepped
  cases e with
  | mallocInfo a clntInfo => exact mallocInfo_sound sound stepped
  | mallocTask a stale funcPtr => exact mallocTask_sound sound stepped
  | mallocFails => exact mallocFails_sound sound stepped
  | enqueue => exact enqueue_sound sound (room rfl) stepped
  | signal => exact Option.some.inj stepped ▸ signalThreadFunc_sound sound
  | worker k => exact threadFunc_sound sound stepped

def handOf (h : Heap) : WorkerPc → Dispatch.Hand
  | .dequeued (some t) => .holding (serialOf h t)
  | .fetched t _ _ => .holding (serialOf h t)
  | .logged t _ _ => .holding (serialOf h t)
  | .executing t _ _ => .running (serialOf h t)
  | .executed t => .running (serialOf h t)
  | .argFreed t => .running (serialOf h t)
  | _ => .empty

def board (s : PoolState) : Dispatch.Board (Fin thrNum) where
  submitted := s.history.enqueued
  waiting := (queued s.heap s.taskQ).map (serialOf s.heap)
  taken := s.history.dequeued
  hands k := handOf s.heap (s.workers k)
  started := s.history.executed.map Prod.fst
  done := s.history.finished

theorem handOf_congr {h h' : Heap} {pc : WorkerPc}
    (serials : ∀ t, pc.task = some t → serialOf h' t = serialOf h t) : handOf h' pc = handOf h pc := by
  cases pc with
  | dequeued p =>
    cases p with
    | none => rfl
    | some t => simp [handOf, serials t rfl]
  | fetched t f c => simp [handOf, serials t rfl]
  | logged t f c => simp [handOf, serials t rfl]
  | executing t f fd => simp [handOf, serials t rfl]
  | executed t => simp [handOf, serials t rfl]
  | argFreed t => simp [handOf, serials t rfl]
  | waiting | woken | counted | leaving => rfl

theorem board_hands_update {s s' : PoolState} {k : Fin thrNum} {pc : WorkerPc}
    (workers : s'.workers = Function.update s.workers k pc)
    (serials : ∀ j t, j ≠ k → (s.workers j).task = some t → serialOf s'.heap t = serialOf s.heap t) :
    (board s').hands = Function.update (board s).hands k (handOf s'.heap pc) := by
  funext j
  by_cases here : j = k
  · subst here
    simp [board, workers]
  · simp only [board, workers, Function.update_of_ne here]
    exact handOf_congr fun t held => serials j t here held

theorem board_ext {b b' : Dispatch.Board (Fin thrNum)} (submitted : b'.submitted = b.submitted)
    (waiting : b'.waiting = b.waiting) (taken : b'.taken = b.taken) (hands : b'.hands = b.hands)
    (started : b'.started = b.started) (done : b'.done = b.done) : b' = b := by
  cases b
  cases b'
  simp_all

theorem board_same {s s' : PoolState} (history : s'.history = s.history)
    (line : queued s'.heap s'.taskQ = queued s.heap s.taskQ)
    (serials : ∀ a ∈ queued s.heap s.taskQ, serialOf s'.heap a = serialOf s.heap a)
    (hands : ∀ k, handOf s'.heap (s'.workers k) = handOf s.heap (s.workers k)) : board s' = board s := by
  refine board_ext ?_ ?_ ?_ (funext hands) ?_ ?_
  · simp [board, history]
  · simp only [board, line]
    exact List.map_congr_left serials
  · simp [board, history]
  · simp [board, history]
  · simp [board, history]

theorem board_goto {s s' : PoolState} {k : Fin thrNum} {pc : WorkerPc}
    (workers : s'.workers = Function.update s.workers k pc) (heap : s'.heap = s.heap)
    (taskQ : s'.taskQ = s.taskQ) (history : s'.history = s.history)
    (hand : handOf s.heap pc = handOf s.heap (s.workers k)) : board s' = board s := by
  refine board_same history (by rw [heap, taskQ]) (fun a _ => by rw [heap]) ?_
  intro j
  by_cases here : j = k
  · subst here
    simp [workers, heap, hand]
  · simp [workers, heap, here]

end NetProg.P3
