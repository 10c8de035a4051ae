import NetProg.P3.Lifecycle

set_option autoImplicit false

namespace NetProg.P3

open Linked Transition

def PoolState.Numbered (s : PoolState) : Prop :=
  ∀ a, s.main = .taskReady a → serialOf s.heap a = s.history.enqueued

def PoolState.Frees (s : PoolState) (k : Fin thrNum) (b : Addr) : Prop :=
  (∃ t info, s.Owns (.worker k) t b ∧ s.heap.info (some b) = some info) ∨
    s.Holds (.worker k) b ∧ s.argGone (.worker k) = true

inductive WorkerPc.Follows : WorkerPc → WorkerPc → Prop where
  | wait : Follows .waiting .woken
  | count : Follows .woken .counted
  | dequeue (taskPtr : Option Addr) : Follows .counted (.dequeued taskPtr)
  | skip : Follows (.dequeued none) .leaving
  | fetch (t f : Nat) (c : Option Addr) : Follows (.dequeued (some t)) (.fetched t f c)
  | log (t f : Nat) (c : Option Addr) : Follows (.fetched t f c) (.logged t f c)
  | call (t f : Nat) (c : Option Addr) (fd : Int) : Follows (.logged t f c) (.executing t f fd)
  | callDone (t f : Nat) (fd : Int) : Follows (.executing t f fd) (.executed t)
  | freeArg (t : Addr) : Follows (.executed t) (.argFreed t)
  | freeTask (t : Addr) : Follows (.argFreed t) .leaving
  | again : Follows .leaving .waiting

def WorkerPc.counting : WorkerPc → Int
  -- What a step of the worker adds to `numWorkingThreads`.
  | .woken => 1
  | .leaving => -1
  | _ => 0

structure ThreadStep (s : PoolState) (k : Fin thrNum) (s' : PoolState) (pc : WorkerPc) : Prop where
  workers : s'.workers = Function.update s.workers k pc
  follows : (s.workers k).Follows pc
  main : s'.main = s.main
  enqueued : s'.history.enqueued = s.history.enqueued
  taskQ : s.workers k ≠ .counted → s'.taskQ = s.taskQ
  heap : s'.heap = s.heap ∨ (∃ t, s.workers k = .executed t) ∨ ∃ t, s.workers k = .argFreed t
  number : s'.numWorkingThreads = s.numWorkingThreads + (s.workers k).counting
  taskCheck : s'.taskCheck = if s.workers k = .waiting then Function.update s.taskCheck k 0 else s.taskCheck
  dequeued : s.history.dequeued <+: s'.history.dequeued

theorem goto_step {s : PoolState} {k : Fin thrNum} {pc : WorkerPc} (follows : (s.workers k).Follows pc)
    (quiet : (s.workers k).counting = 0) (awake : s.workers k ≠ .waiting) : ThreadStep s k (s.goto k pc) pc where
  workers := rfl
  follows := follows
  main := rfl
  enqueued := rfl
  taskQ _ := rfl
  heap := .inl rfl
  number := by rw [quiet, Int.add_zero]; rfl
  taskCheck := (if_neg awake).symm
  dequeued := List.prefix_rfl

theorem threadFunc_follows {s s' : PoolState} {k : Fin thrNum} (stepped : threadFunc s k = some s') :
    s' = s.crash ∨ ∃ pc, ThreadStep s k s' pc := by
  cases pc : s.workers k with
  | waiting =>
    simp only [threadFunc, pc, Option.map_eq_some_iff, bSemWait] at stepped
    obtain ⟨taskCheck, posted, rfl⟩ := stepped
    split_ifs at posted
    obtain rfl := Option.some.inj posted
    exact .inr ⟨_, rfl, pc ▸ .wait, rfl, rfl, fun _ => rfl, .inl rfl, by simp [PoolState.goto, pc, WorkerPc.counting],
      by simp [pc], List.prefix_rfl⟩
  | woken =>
    simp only [threadFunc, pc, Option.some.injEq] at stepped
    subst stepped
    exact .inr ⟨_, rfl, pc ▸ .count, rfl, rfl, fun _ => rfl, .inl rfl, by simp [pc, WorkerPc.counting],
      by simp [PoolState.goto, pc], List.prefix_rfl⟩
  | leaving =>
    simp only [threadFunc, pc, Option.some.injEq] at stepped
    subst stepped
    exact .inr ⟨_, rfl, pc ▸ .again, rfl, rfl, fun _ => rfl, .inl rfl,
      by simp [pc, WorkerPc.counting, Int.sub_eq_add_neg], by simp [PoolState.goto, pc], List.prefix_rfl⟩
  | executing taskPtr f fd =>
    simp only [threadFunc, pc, Option.some.injEq] at stepped
    subst stepped
    exact .inr ⟨_, goto_step (pc ▸ .callDone taskPtr f fd) (by rw [pc]; rfl) (by simp [pc])⟩
  | executed taskPtr =>
    simp only [threadFunc, pc] at stepped
    split at stepped
    next => exact .inl (Option.some.inj stepped).symm
    next t _ =>
      cases freed : freeArg s.heap t.arg with
      | none =>
        simp only [freed, Option.elim_none, Option.some.injEq] at stepped
        exact .inl stepped.symm
      | some heap =>
        simp only [freed, Option.elim_some, Option.some.injEq] at stepped
        subst stepped
        exact .inr ⟨_, rfl, pc ▸ .freeArg taskPtr, rfl, rfl, fun _ => rfl, .inr (.inl ⟨taskPtr, pc⟩),
          by simp [PoolState.goto, pc, WorkerPc.counting], by simp [PoolState.goto, pc], List.prefix_rfl⟩
  | dequeued taskPtr =>
    cases taskPtr with
    | none =>
      simp only [threadFunc, pc, Option.some.injEq] at stepped
      subst stepped
      exact .inr ⟨_, goto_step (pc ▸ .skip) (by rw [pc]; rfl) (by simp [pc])⟩
    | some a =>
      simp only [threadFunc, pc] at stepped
      split at stepped
      next => exact .inl (Option.some.inj stepped).symm
      next t _ =>
        obtain rfl := Option.some.inj stepped
        exact .inr ⟨_, goto_step (pc ▸ .fetch a _ _) (by rw [pc]; rfl) (by simp [pc])⟩
  | counted =>
    simp only [threadFunc, pc] at stepped
    split at stepped
    next => exact .inl (Option.some.inj stepped).symm
    next =>
      obtain rfl := Option.some.inj stepped
      exact .inr ⟨_, rfl, pc ▸ .dequeue _, rfl, rfl, fun quiet => absurd pc quiet, .inl rfl,
        by simp [PoolState.goto, pc, WorkerPc.counting], by simp [PoolState.goto, pc], List.prefix_append _ _⟩
  | fetched a f c =>
    simp only [threadFunc, pc] at stepped
    split at stepped
    next => exact .inl (Option.some.inj stepped).symm
    next =>
      obtain rfl := Option.some.inj stepped
      exact .inr ⟨_, goto_step (pc ▸ .log a f c) (by rw [pc]; rfl) (by simp [pc])⟩
  | logged a f c =>
    simp only [threadFunc, pc] at stepped
    split at stepped
    next => exact .inl (Option.some.inj stepped).symm
    next =>
      obtain rfl := Option.some.inj stepped
      exact .inr ⟨_, rfl, pc ▸ .call a f c _, rfl, rfl, fun _ => rfl, .inl rfl,
        by simp [PoolState.goto, pc, WorkerPc.counting], by simp [PoolState.goto, pc], List.prefix_rfl⟩
  | argFreed a =>
    simp only [threadFunc, pc] at stepped
    split at stepped
    next => exact .inl (Option.some.inj stepped).symm
    next =>
      obtain rfl := Option.some.inj stepped
      exact .inr ⟨_, rfl, pc ▸ .freeTask a, rfl, rfl, fun _ => rfl, .inr (.inr ⟨a, pc⟩),
        by simp [PoolState.goto, pc, WorkerPc.counting], by simp [PoolState.goto, pc], List.prefix_rfl⟩

structure WorkerStep (s : PoolState) (k : Fin thrNum) (s' : PoolState) (pc : WorkerPc) : Prop where
  workers : s'.workers = Function.update s.workers k pc
  follows : (s.workers k).Follows pc
  main : s'.main = s.main
  enqueued : s'.history.enqueued = s.history.enqueued
  taskQ : s.workers k ≠ .counted → s'.taskQ = s.taskQ
  heap : s'.heap = s.heap ∨ ∃ b, s.Frees k b ∧ s'.heap = s.heap.free b

theorem threadFunc_step {s s' : PoolState} {k : Fin thrNum} (sound : s.Sound)
    (stepped : threadFunc s k = some s') : ∃ pc, WorkerStep s k s' pc := by
  rcases threadFunc_follows stepped with rfl | ⟨pc, moved⟩
  · cases (threadFunc_sound sound stepped).safe
  refine ⟨pc, moved.workers, moved.follows, moved.main, moved.enqueued, moved.taskQ, ?_⟩
  rcases moved.heap with same | ⟨t, before⟩ | ⟨t, before⟩
  · exact .inl same
  · obtain ⟨c, owned, ⟨info, found⟩, rfl⟩ := executed_cases sound before stepped
    exact .inr ⟨c, .inl ⟨t, info, owned, found⟩, rfl⟩
  · obtain rfl := argFreed_cases sound before stepped
    have frees : s.Frees k t :=
      .inr (by simp [PoolState.Holds, PoolState.argGone, before, WorkerPc.task, WorkerPc.argGone])
    exact .inr ⟨t, frees, rfl⟩

theorem PoolState.Sound.free_not_held {s : PoolState} (sound : s.Sound) {k : Fin thrNum} {b : Addr}
    (frees : s.Frees k b) {o : Holder} {a : Addr} (held : s.Holds o a) (other : o ≠ .worker k) : a ≠ b := by
  rintro rfl
  rcases frees with ⟨t, info, -, found⟩ | ⟨own, -⟩
  · obtain ⟨t', here⟩ := sound.task o a held
    rw [info_some, task_some.mp here] at found
    cases found
  · exact other (sound.once _ _ a held own)

theorem PoolState.Sound.free_not_owned {s : PoolState} (sound : s.Sound) {k : Fin thrNum} {b : Addr}
    (frees : s.Frees k b) {o : Holder} {a c : Addr} (owned : s.Owns o a c) (other : o ≠ .worker k) : c ≠ b := by
  rintro rfl
  rcases frees with ⟨t, info, own, -⟩ | ⟨own, -⟩
  · obtain rfl := sound.argOnce _ _ _ _ c owned own
    exact other (sound.once _ _ a owned.1 own.1)
  · obtain ⟨c', info, arg, found, -⟩ := sound.arg o a owned.1 owned.2.1
    obtain rfl : c' = c := Option.some.inj (arg.symm.trans owned.2.2)
    obtain ⟨t, here⟩ := sound.task _ _ own
    rw [info_some, task_some.mp here] at found
    cases found

theorem WorkerStep.serials {s s' : PoolState} {k : Fin thrNum} {pc : WorkerPc} (moved : WorkerStep s k s' pc)
    (sound : s.Sound) {o : Holder} {a : Addr} (held : s.Holds o a) (other : o ≠ .worker k) :
    serialOf s'.heap a = serialOf s.heap a := by
  rcases moved.heap with same | ⟨b, frees, freed⟩
  · rw [same]
  · rw [freed]
    exact serialOf_update_other (sound.free_not_held frees held other) none

theorem WorkerStep.infos {s s' : PoolState} {k : Fin thrNum} {pc : WorkerPc} (moved : WorkerStep s k s' pc)
    (sound : s.Sound) {o : Holder} {a : Addr} (held : s.Holds o a) (kept : s.argGone o = false)
    (other : o ≠ .worker k) : infoOf s'.heap a = infoOf s.heap a := by
  obtain ⟨c, info, arg, found, -⟩ := sound.arg o a held kept
  rcases moved.heap with same | ⟨b, frees, freed⟩
  · rw [same]
  · have apart := sound.free_not_held frees held other
    have argApart := sound.free_not_owned frees ⟨held, kept, arg⟩ other
    simp [freed, infoOf, Heap.free, argOf_update_other apart, arg, info_update_other argApart]

theorem WorkerStep.line {s s' : PoolState} {k : Fin thrNum} {pc : WorkerPc} (moved : WorkerStep s k s' pc)
    (sound : s.Sound) (quiet : s.workers k ≠ .counted) : queued s'.heap s'.taskQ = queued s.heap s.taskQ := by
  rw [moved.taskQ quiet]
  rcases moved.heap with same | ⟨b, frees, freed⟩
  · rw [same]
  · rw [freed]
    have kept : ∀ a ∈ queued s.heap s.taskQ, a ≠ b := fun a member =>
      sound.free_not_held frees (o := .queue) member (by simp)
    exact (sound.rep.frame fun a member => task_update_other (kept a member) none).queued_eq

theorem poolStep_numbered {s s' : PoolState} {e : PoolEvent} (sound : s.Sound) (numbered : s.Numbered)
    (room : e = .enqueue → (queued s.heap s.taskQ).length + 1 < uintSize)
    (stepped : poolStep s e = some s') : s'.Numbered := by
  simp only [poolStep, sound.safe, Bool.false_eq_true, if_false] at stepped
  cases e with
  | mallocInfo a clntInfo =>
    obtain ⟨-, -, rfl⟩ := mallocInfo_cases stepped
    intro b ready
    cases ready
  | mallocTask a stale funcPtr =>
    obtain ⟨-, clntInfo, -, rfl⟩ := mallocTask_cases stepped
    intro b ready
    obtain rfl : a = b := MainPc.taskReady.inj ready
    simp [serialOf, task_update_here]
  | mallocFails =>
    obtain rfl := mallocFails_cases stepped
    intro b ready
    cases ready
  | enqueue =>
    obtain ⟨newTask, -, idle, -⟩ := enqueue_cases sound (room rfl) stepped
    intro a ready
    simp [idle] at ready
  | signal =>
    obtain rfl := Option.some.inj stepped
    rcases signalThreadFunc_cases sound with ⟨-, same⟩ | ⟨_, _, _, _, -, -, -, shape⟩
    · rwa [same]
    · rw [shape]
      exact numbered
  | worker k =>
    obtain ⟨pc, moved⟩ := threadFunc_step sound stepped
    intro a ready
    rw [moved.main] at ready
    have held : s.Holds .main a := by simp [PoolState.Holds, ready, MainPc.task]
    rw [moved.enqueued, moved.serials sound held (by simp), numbered a ready]

theorem counted_board {s s' : PoolState} {k : Fin thrNum} (sound : s.Sound) (pc : s.workers k = .counted)
    (stepped : threadFunc s k = some s') :
    board s' = board s ∨ Dispatch.step (board s) (.take k) = some (board s') := by
  obtain ⟨taskPtr, workers, heap, -, -, -, history, line, -, -⟩ := counted_cases sound pc stepped
  have hands := board_hands_update workers fun j t _ _ => by rw [heap]
  have idle : (board s).hands k = .empty := by simp [board, pc, handOf]
  cases taskPtr with
  | none =>
    refine .inl (board_same (by simpa using history) (by simpa using line.symm) (fun a _ => by rw [heap]) fun j => ?_)
    have at_j := congrFun hands j
    by_cases own : j = k
    · subst own
      simp [workers, pc, handOf]
    · simpa [board, own] using at_j
  | some a =>
    refine .inr ?_
    have front : (board s).waiting = serialOf s.heap a :: (board s').waiting := by simp [board, line, heap]
    simp only [Dispatch.step, idle, front, Option.some.injEq]
    refine Eq.symm (board_ext ?_ rfl ?_ ?_ ?_ ?_)
    · simp [board, history]
    · simp [board, history]
    · rw [hands, heap]
      rfl
    · simp [board, history]
    · simp [board, history]

theorem logged_board {s s' : PoolState} {k : Fin thrNum} (sound : s.Sound) {t : Addr} {f : Nat} {p : Option Addr}
    (pc : s.workers k = .logged t f p) (stepped : threadFunc s k = some s') :
    Dispatch.step (board s) (.start k) = some (board s') := by
  obtain ⟨c, info, rfl, -, found⟩ := sound.info_read (.inr pc)
  simp only [threadFunc, pc, found, Option.some.injEq] at stepped
  subst stepped
  have held : (board s).hands k = .holding (serialOf s.heap t) := by simp [board, pc, handOf]
  simp only [Dispatch.step, held, Option.some.injEq]
  refine Eq.symm (board_ext rfl rfl rfl ?_ ?_ rfl)
  · have workers : (s.goto k (.executing t f info.clientSock)).workers =
        Function.update s.workers k (.executing t f info.clientSock) := rfl
    exact board_hands_update workers fun _ _ _ _ => rfl
  · simp [board]

theorem executed_board {s s' : PoolState} {k : Fin thrNum} (sound : s.Sound) {t : Addr} (pc : s.workers k = .executed t)
    (stepped : threadFunc s k = some s') : board s' = board s := by
  obtain ⟨next, moved⟩ := threadFunc_step sound stepped
  have kept := moved.line sound (by simp [pc])
  obtain ⟨c, owned, ⟨info, found⟩, shape⟩ := executed_cases sound pc stepped
  have workers : s'.workers = Function.update s.workers k (.argFreed t) := by rw [shape]; rfl
  refine board_same (by rw [shape]; rfl) kept (fun a member => moved.serials sound (o := .queue) member (by simp)) ?_
  intro j
  by_cases own : j = k
  · subst own
    have apart : t ≠ c := by
      rintro rfl
      obtain ⟨t', here⟩ := sound.task _ t owned.1
      rw [info_some, task_some.mp here] at found
      cases found
    have same : serialOf s'.heap t = serialOf s.heap t := by
      rw [shape]
      exact serialOf_update_other apart none
    simp [workers, pc, handOf, same]
  · simp only [workers, Function.update_of_ne own]
    exact handOf_congr fun a held => moved.serials sound (o := .worker j) held (by simpa using own)

theorem argFreed_board {s s' : PoolState} {k : Fin thrNum} (sound : s.Sound) {t : Addr} (pc : s.workers k = .argFreed t)
    (stepped : threadFunc s k = some s') : Dispatch.step (board s) (.finish k) = some (board s') := by
  obtain ⟨next, moved⟩ := threadFunc_step sound stepped
  have kept := moved.line sound (by simp [pc])
  have shape := argFreed_cases sound pc stepped
  have workers : s'.workers = Function.update s.workers k .leaving := by rw [shape]; rfl
  have history : s'.history = { s.history with finished := s.history.finished ++ [serialOf s.heap t] } := by
    rw [shape]
  have running : (board s).hands k = .running (serialOf s.heap t) := by simp [board, pc, handOf]
  simp only [Dispatch.step, running, Option.some.injEq]
  refine Eq.symm (board_ext ?_ ?_ ?_ ?_ ?_ ?_)
  · simp [board, history]
  · simp only [board, kept]
    exact List.map_congr_left fun a member => moved.serials sound (o := .queue) member (by simp)
  · simp [board, history]
  · refine board_hands_update workers fun j a other there => ?_
    exact moved.serials sound (o := .worker j) there (by simpa using other)
  · simp [board, history]
  · simp [board, history]

theorem threadFunc_board {s s' : PoolState} {k : Fin thrNum} (sound : s.Sound)
    (stepped : threadFunc s k = some s') :
    board s' = board s ∨ ∃ move, Dispatch.step (board s) move = some (board s') := by
  cases pc : s.workers k with
  | waiting =>
    simp only [threadFunc, pc, Option.map_eq_some_iff] at stepped
    obtain ⟨taskCheck, -, rfl⟩ := stepped
    exact .inl (board_goto rfl rfl rfl rfl (by simp [pc, handOf]))
  | woken =>
    simp only [threadFunc, pc, Option.some.injEq] at stepped
    subst stepped
    exact .inl (board_goto rfl rfl rfl rfl (by simp [pc, handOf]))
  | counted => exact (counted_board sound pc stepped).imp_right fun takes => ⟨.take k, takes⟩
  | dequeued p =>
    cases p with
    | none =>
      simp only [threadFunc, pc, Option.some.injEq] at stepped
      subst stepped
      exact .inl (board_goto rfl rfl rfl rfl (by simp [pc, handOf]))
    | some t =>
      obtain ⟨task, found⟩ := sound.task (.worker k) t (by simp [PoolState.Holds, pc, WorkerPc.task])
      simp only [threadFunc, pc, found, Option.some.injEq] at stepped
      subst stepped
      exact .inl (board_goto rfl rfl rfl rfl (by simp [pc, handOf]))
  | fetched t f p =>
    obtain ⟨c, info, rfl, -, found⟩ := sound.info_read (.inl pc)
    simp only [threadFunc, pc, found, Option.some.injEq] at stepped
    subst stepped
    exact .inl (board_goto rfl rfl rfl rfl (by simp [pc, handOf]))
  | logged t f p => exact .inr ⟨.start k, logged_board sound pc stepped⟩
  | executing t f fd =>
    simp only [threadFunc, pc, Option.some.injEq] at stepped
    subst stepped
    exact .inl (board_goto rfl rfl rfl rfl (by simp [pc, handOf]))
  | executed t => exact .inl (executed_board sound pc stepped)
  | argFreed t => exact .inr ⟨.finish k, argFreed_board sound pc stepped⟩
  | leaving =>
    simp only [threadFunc, pc, Option.some.injEq] at stepped
    subst stepped
    exact .inl (board_goto rfl rfl rfl rfl (by simp [pc, handOf]))

theorem allocate_board {s s' : PoolState} {a : Addr} {o : Object} (sound : s.Sound) (free : s.heap a = none)
    (heap : s'.heap = Function.update s.heap a (some o)) (taskQ : s'.taskQ = s.taskQ)
    (workers : s'.workers = s.workers) (history : s'.history = s.history) : board s' = board s := by
  refine board_same history ?_ ?_ ?_
  · rw [heap, taskQ]
    exact (sound.rep_allocate free _).queued_eq
  · intro b member
    rw [heap, serialOf_update_other (sound.not_held free (o := .queue) member)]
  · intro k
    rw [heap, workers]
    exact handOf_congr fun b held => serialOf_update_other (sound.not_held free (o := .worker k) held) _

theorem enqueue_board {s s' : PoolState} (sound : s.Sound) (numbered : s.Numbered)
    (room : (queued s.heap s.taskQ).length + 1 < uintSize) (stepped : enqueue s = some s') :
    Dispatch.step (board s) .submit = some (board s') := by
  obtain ⟨newTask, ready, -, workers, -, -, history, same, rep⟩ := enqueue_cases sound room stepped
  have keep : ∀ o a, s.Holds o a → serialOf s'.heap a = serialOf s.heap a := fun o a held => by
    obtain ⟨t, found⟩ := sound.task o a held
    exact serialOf_sameButLinks same found
  have number : serialOf s'.heap newTask = s.history.enqueued :=
    (keep .main newTask (by simp [PoolState.Holds, ready, MainPc.task])).trans (numbered newTask ready)
  simp only [Dispatch.step, Option.some.injEq]
  refine Eq.symm (board_ext ?_ ?_ ?_ ?_ ?_ ?_)
  · simp [board, history]
  · simp only [board, rep.queued_eq, List.map_append, List.map_cons, List.map_nil, number]
    exact congrArg (· ++ _) (List.map_congr_left fun a member => keep .queue a member)
  · simp [board, history]
  · funext k
    simp only [board, workers]
    exact handOf_congr fun a held => keep (.worker k) a held
  · simp [board, history]
  · simp [board, history]

theorem poolStep_board {s s' : PoolState} {e : PoolEvent} (sound : s.Sound) (numbered : s.Numbered)
    (room : e = .enqueue → (queued s.heap s.taskQ).length + 1 < uintSize) (stepped : poolStep s e = some s') :
    board s' = board s ∨ ∃ move, Dispatch.step (board s) move = some (board s') := by
  simp only [poolStep, sound.safe, Bool.false_eq_true, if_false] at stepped
  cases e with
  | mallocInfo a clntInfo =>
    obtain ⟨free, -, rfl⟩ := mallocInfo_cases stepped
    exact .inl (allocate_board sound free rfl rfl rfl rfl)
  | mallocTask a stale funcPtr =>
    obtain ⟨free, clntInfo, -, rfl⟩ := mallocTask_cases stepped
    exact .inl (allocate_board sound free rfl rfl rfl rfl)
  | mallocFails =>
    obtain rfl := mallocFails_cases stepped
    exact .inl rfl
  | enqueue => exact .inr ⟨.submit, enqueue_board sound numbered (room rfl) stepped⟩
  | signal =>
    obtain rfl := Option.some.inj stepped
    rcases signalThreadFunc_cases sound with ⟨-, same⟩ | ⟨_, _, _, _, -, -, -, shape⟩
    · exact .inl (by rw [same])
    · exact .inl (by rw [shape]; rfl)
  | worker k => exact threadFunc_board sound stepped

theorem enqueue_counts {s s' : PoolState} (sound : s.Sound) (stepped : enqueue s = some s') :
    s'.history = { s.history with enqueued := s.history.enqueued + 1 } := by
  simp only [enqueue] at stepped
  split at stepped
  next newTask ready =>
    obtain ⟨t, found⟩ := sound.task .main newTask (by simp [PoolState.Holds, ready, MainPc.task])
    have last : s.taskQ.len ≠ 0 → ∃ a ta, s.taskQ.tail = some a ∧ a ≠ newTask ∧ s.heap.task (some a) = some ta := by
      intro busy
      cases line : (queued s.heap s.taskQ).getLast? with
      | none => exact absurd (by simpa [sound.rep.len] using line) busy
      | some final =>
        have member := List.mem_of_getLast? line
        obtain ⟨tf, there⟩ := sound.rep.task member
        refine ⟨final, tf, sound.rep.tail.trans line, ?_, there⟩
        rintro rfl
        cases sound.once .queue .main final member (by simp [PoolState.Holds, ready, MainPc.task])
    obtain ⟨h', taskQ', ran, -⟩ := enqueueTask_runs found last
    simp only [ran, Option.some.injEq] at stepped
    rw [← stepped]
  next => cases stepped

structure PoolState.Tracked (s : PoolState) : Prop where
  sound : s.Sound
  numbered : s.Numbered
  dispatch : Dispatch.system.Reachable (board s)

theorem PoolState.Tracked.order {s : PoolState} (tracked : s.Tracked) :
    s.history.dequeued ++ (queued s.heap s.taskQ).map (serialOf s.heap) = List.range s.history.enqueued :=
  (Dispatch.reachable_valid tracked.dispatch).order

theorem PoolState.Tracked.counts {s : PoolState} (tracked : s.Tracked) :
    s.history.dequeued.length + (queued s.heap s.taskQ).length = s.history.enqueued := by
  have lengths := congrArg List.length tracked.order
  simpa only [List.length_append, List.length_map, List.length_range] using lengths

theorem PoolState.Tracked.dequeued {s : PoolState} (tracked : s.Tracked) :
    s.history.dequeued = List.range s.history.dequeued.length := by
  have early := congrArg (List.take s.history.dequeued.length) tracked.order
  rw [List.take_left, List.take_range] at early
  have counts := tracked.counts
  rwa [Nat.min_eq_left (by omega)] at early

theorem PoolState.Tracked.backlog {s : PoolState} (tracked : s.Tracked) :
    s.backlog = (queued s.heap s.taskQ).length := by
  have counts := tracked.counts
  simp only [PoolState.backlog]
  omega

theorem threadPoolInit_tracked : threadPoolInit.Tracked where
  sound := threadPoolInit_sound
  numbered := fun _ ready => nomatch ready
  dispatch := by
    refine .initial _ (board_ext rfl ?_ rfl rfl rfl rfl)
    simp [board, threadPoolInit_queued, Dispatch.initial]

theorem PoolState.Tracked.room {s s' : PoolState} {e : PoolEvent} (tracked : s.Tracked) (counted : Counted s e s')
    (stepped : poolStep s e = some s') : e = .enqueue → (queued s.heap s.taskQ).length + 1 < uintSize := by
  rintro rfl
  simp only [poolStep, tracked.sound.safe, Bool.false_eq_true, if_false] at stepped
  have counts := enqueue_counts tracked.sound stepped
  have before := tracked.counts
  simp only [Counted, PoolState.backlog, counts] at counted
  omega

theorem PoolState.Tracked.next {s s' : PoolState} {e : PoolEvent} (tracked : s.Tracked)
    (room : e = .enqueue → (queued s.heap s.taskQ).length + 1 < uintSize) (stepped : poolStep s e = some s') :
    s'.Tracked := by
  refine ⟨poolStep_sound tracked.sound room stepped, poolStep_numbered tracked.sound tracked.numbered room stepped, ?_⟩
  rcases poolStep_board tracked.sound tracked.numbered room stepped with same | ⟨move, moved⟩
  · exact same ▸ tracked.dispatch
  · exact .next _ move _ tracked.dispatch trivial moved

theorem poolStep_tracked {s s' : PoolState} {e : PoolEvent} (tracked : s.Tracked) (counted : Counted s e s')
    (stepped : poolStep s e = some s') : s'.Tracked :=
  tracked.next (tracked.room counted stepped) stepped

theorem reachable_tracked {s : PoolState} (reached : pool.ReachableWhile Counted s) : s.Tracked := by
  refine reached.invariant (fun s start => ?_) fun s e s' _ tracked counted stepped =>
    poolStep_tracked tracked counted stepped
  exact (show s = threadPoolInit from start) ▸ threadPoolInit_tracked

theorem task_in_one_place {s : PoolState} (reached : pool.ReachableWhile Counted s) :
    s.fault = false ∧
      (∀ n < s.history.enqueued, ∃! place, (board s).At n place) ∧
      s.history.dequeued ++ (queued s.heap s.taskQ).map (serialOf s.heap) = List.range s.history.enqueued ∧
      (s.history.executed.map Prod.fst).Nodup ∧
      ∀ k s', pool.step s (.worker k) = some s' →
        (s.workers k = .counted ∧ queued s.heap s.taskQ = [] →
          s'.workers k = .dequeued none ∧ s'.history = s.history) ∧
        (s.workers k = .dequeued none → s'.workers k = .leaving ∧ s'.history = s.history) ∧
        (s.workers k = .leaving → s'.workers k = .waiting ∧ s'.history = s.history) := by
  have tracked := reachable_tracked reached
  have valid := Dispatch.reachable_valid tracked.dispatch
  refine ⟨tracked.sound.safe, valid.exactly_one_place, tracked.order, valid.startedOnce, fun k s' stepped => ?_⟩
  simp only [pool, poolStep, tracked.sound.safe, Bool.false_eq_true, if_false] at stepped
  refine ⟨?_, ?_, ?_⟩
  · rintro ⟨pc, empty⟩
    obtain ⟨taskPtr, workers, -, -, -, -, history, line, -⟩ := counted_cases tracked.sound pc stepped
    obtain rfl : taskPtr = none := by
      cases taskPtr with
      | none => rfl
      | some a => simp [empty] at line
    exact ⟨by simp [workers], by simpa using history⟩
  · intro pc
    simp only [threadFunc, pc, Option.some.injEq] at stepped
    subst stepped
    exact ⟨by simp [PoolState.goto], rfl⟩
  · intro pc
    simp only [threadFunc, pc, Option.some.injEq] at stepped
    subst stepped
    exact ⟨by simp [PoolState.goto], rfl⟩

def someClient : ClientInfo where
  clientSock := 5
  clientAddr := { sinPort := 40000, sinAddr := ⟨10, 0, 0, 1⟩ }
  assignedThrId := 0

theorem first_task_in_one_place :
    ∃ s, s.history.enqueued = 1 ∧ s.fault = false ∧ ∃! place, (board s).At 0 place := by
  obtain ⟨s, ran, one⟩ : ∃ s, pool.execWhile Counted threadPoolInit
      [.mallocInfo 0 someClient, .mallocTask 1 none 0, .enqueue, .signal, .worker 0, .worker 0, .worker 0] = some s ∧
      s.history.enqueued = 1 := ⟨_, rfl, rfl⟩
  have safe := task_in_one_place (System.execWhile_reachable (.initial _ rfl) ran)
  exact ⟨s, one, safe.1, safe.2.1 0 (by simp [one])⟩

theorem enqueue_run (n : Nat) : ∃ s, pool.Reachable s ∧ s.fault = false ∧ s.main = .idle ∧
    s.workers = (fun _ => .waiting) ∧ s.taskCheck = (fun _ => 0) ∧
    s.history = { enqueued := n, dequeued := [], executed := [], finished := [] } ∧
    (∀ a, 2 * n ≤ a → s.heap a = none) ∧ s.taskQ.len = n % uintSize ∧
    (n ≠ 0 → ∃ a t, s.taskQ.tail = some a ∧ s.heap.task (some a) = some t) ∧
    (n % uintSize = 1 → ∃ a t, s.taskQ.head = some a ∧ s.heap.task (some a) = some t ∧ t.serial + 1 = n) := by
  induction n with
  | zero => exact ⟨threadPoolInit, .initial _ rfl, rfl, rfl, rfl, rfl, rfl, fun _ _ => rfl, rfl, by simp, by simp⟩
  | succ n ih =>
    obtain ⟨s, reached, safe, idle, waiting, quiet, history, fresh, len, tail, -⟩ := ih
    let infoHeap : Heap := Function.update s.heap (2 * n) (some (.info someClient))
    let task : Task := { prev := none, function := 0, arg := some (2 * n), serial := n }
    let taskHeap : Heap := Function.update infoHeap (2 * n + 1) (some (.task task))
    have infoFree : s.heap (2 * n) = none := fresh _ (by omega)
    have taskFree : infoHeap (2 * n + 1) = none := by simpa [infoHeap] using fresh (2 * n + 1) (by omega)
    have first : pool.step s (.mallocInfo (2 * n) someClient) =
        some { s with heap := infoHeap, main := .infoReady (2 * n) } := by
      simp [pool, poolStep, safe, mallocInfo, idle, infoFree, someClient, infoHeap]
    have second : pool.step { s with heap := infoHeap, main := .infoReady (2 * n) } (.mallocTask (2 * n + 1) none 0) =
        some { s with heap := taskHeap, main := .taskReady (2 * n + 1) } := by
      simp [pool, poolStep, safe, mallocTask, taskFree, taskHeap, task, history]
    have found : taskHeap.task (some (2 * n + 1)) = some task := task_update_here _ _ _
    have before : s.taskQ.len ≠ 0 → ∃ a ta, s.taskQ.tail = some a ∧ a ≠ 2 * n + 1 ∧ taskHeap.task (some a) = some ta := by
      intro busy
      have some_before : n ≠ 0 := by
        rintro rfl
        simp [len] at busy
      obtain ⟨a, ta, last, there⟩ := tail some_before
      have apart : a ≠ 2 * n ∧ a ≠ 2 * n + 1 := by
        constructor <;> rintro rfl <;> simp [task_some, fresh] at there
      exact ⟨a, ta, last, apart.2, by rw [task_update_other apart.2, task_update_other apart.1, there]⟩
    obtain ⟨h', taskQ', ran, same, len', tail', here, head'⟩ := enqueueTask_runs found before
    have third : pool.step { s with heap := taskHeap, main := .taskReady (2 * n + 1) } .enqueue = some { s with
        heap := h', taskQ := taskQ', main := .idle
        history := { s.history with enqueued := s.history.enqueued + 1 } } := by
      simp [pool, poolStep, safe, enqueue, ran]
    refine ⟨_, .next _ _ _ (.next _ _ _ (.next _ _ _ reached trivial first) trivial second) trivial third,
      safe, rfl, waiting, quiet, by simp [history], ?_, ?_, fun _ => ⟨_, _, tail', here⟩, ?_⟩
    · intro a beyond
      rw [same.fresh]
      have apart : a ≠ 2 * n ∧ a ≠ 2 * n + 1 := by omega
      simpa [taskHeap, infoHeap, apart.1, apart.2] using fresh a (by omega)
    · simp [len', len]
    · intro one
      have empty : s.taskQ.len = 0 := by
        simp only [uintSize] at one len
        omega
      exact ⟨_, _, head' empty, here, rfl⟩

-- After 2 ^ 32 + 1 tasks only the last one is still in the queue, and the first is nowhere.
theorem counter_wrap_loses_tasks :
    ¬ ∀ s, pool.Reachable s → ∀ n < s.history.enqueued, ∃! place, (board s).At n place := by
  intro claimed
  obtain ⟨s, reached, -, -, waiting, -, history, -, len, -, head⟩ := enqueue_run (uintSize + 1)
  obtain ⟨a, t, first, found, serial⟩ := head rfl
  have only : queued s.heap s.taskQ = [a] := by
    have one : s.taskQ.len = 1 := len
    simp [queued, one, first, walk, link, found]
  obtain ⟨place, here, -⟩ := claimed s reached 0 (by simp [history])
  cases place with
  | waiting =>
    have number : serialOf s.heap a = 0 := by simpa [Dispatch.Board.At, board, only, eq_comm] using here
    have zero : t.serial = 0 := by simpa [serialOf, found] using number
    simp [zero] at serial
  | worker k => simp [Dispatch.Board.At, board, waiting, handOf, Dispatch.Hand.job] at here
  | done => simp [Dispatch.Board.At, board, history] at here

end NetProg.P3
