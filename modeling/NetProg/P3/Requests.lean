import NetProg.P3.Conservation

set_option autoImplicit false

namespace NetProg.P3

open Linked Transition

def requestOf (h : Heap) (a : Addr) : Option (Nat × Int) :=
  (h.task (some a)).bind fun t => (h.info t.arg).map fun info => (t.serial, info.clientSock)

def WorkerPc.held : WorkerPc → Option Addr
  | .dequeued p => p
  | .fetched t _ _ => some t
  | .logged t _ _ => some t
  | _ => none

def PoolState.unbegun (s : PoolState) : List Addr :=
  queued s.heap s.taskQ ++ (List.finRange thrNum).filterMap fun k => (s.workers k).held

theorem requestOf_eq (h : Heap) (a : Addr) :
    requestOf h a = (infoOf h a).map fun info => (serialOf h a, info.clientSock) := by
  cases found : h.task (some a) with
  | none => simp [requestOf, infoOf, argOf, found]
  | some t => cases arg : t.arg <;> simp [requestOf, infoOf, argOf, serialOf, found, arg]

theorem requestOf_sameButLinks {h h' : Heap} (same : SameButLinks h h')
    (a : Addr) : requestOf h' a = requestOf h a := by
  rw [requestOf_eq, requestOf_eq, infoOf_sameButLinks same]
  cases arg : argOf h a with
  | none => simp [infoOf, arg]
  | some c =>
    obtain ⟨t, found, -⟩ := argOf_some arg
    rw [serialOf_sameButLinks same found]

theorem requestOf_some {h : Heap} {a : Addr} {n : Nat} {fd : Int} : requestOf h a = some (n, fd) ↔
    ∃ t c info, h.task (some a) = some t ∧ t.arg = some c ∧ h.info (some c) = some info ∧ t.serial = n ∧
      info.clientSock = fd := by
  constructor
  · intro found
    obtain ⟨t, here, found⟩ := Option.bind_eq_some_iff.mp found
    obtain ⟨info, filed, pair⟩ := Option.map_eq_some_iff.mp found
    cases arg : t.arg with
    | none => simp [arg] at filed
    | some c => exact ⟨t, c, info, here, arg, arg ▸ filed, congrArg Prod.fst pair, congrArg Prod.snd pair⟩
  · rintro ⟨t, c, info, here, arg, filed, rfl, rfl⟩
    simp [requestOf, here, arg, filed]

theorem free_some {h : Heap} {a b : Addr} {o : Object} (found : h.free b a = some o) : h a = some o := by
  by_cases here : a = b
  · simp [Heap.free, here] at found
  · simpa [Heap.free, here] using found

theorem requestOf_free {h : Heap} {a b : Addr} {request : Nat × Int} (found : requestOf (h.free b) a = some request) :
    requestOf h a = some request := by
  obtain ⟨n, fd⟩ := request
  obtain ⟨t, c, info, here, arg, filed, serial, sock⟩ := requestOf_some.mp found
  exact requestOf_some.mpr ⟨t, c, info, task_some.mpr (free_some (task_some.mp here)), arg,
    info_some.mpr (free_some (info_some.mp filed)), serial, sock⟩

theorem requestOf_allocate {s : PoolState} (sound : s.Sound) {a : Addr} (free : s.heap a = none) (new : Option Object)
    {o : Holder} {b : Addr} (held : s.Holds o b) (kept : s.argGone o = false) :
    requestOf (Function.update s.heap a new) b = requestOf s.heap b := by
  rw [requestOf_eq, requestOf_eq, infoOf_allocate sound free new held kept,
    serialOf_update_other (sound.not_held free held)]

theorem mem_unbegun {s : PoolState} {a : Addr} :
    a ∈ s.unbegun ↔ a ∈ queued s.heap s.taskQ ∨ ∃ k, (s.workers k).held = some a := by
  simp [PoolState.unbegun]

theorem WorkerPc.held_task {pc : WorkerPc} {a : Addr} (held : pc.held = some a) :
    pc.task = some a ∧ pc.argGone = false := by
  cases pc <;> simp_all [WorkerPc.held, WorkerPc.task, WorkerPc.argGone]

theorem unbegun_held {s : PoolState} {a : Addr} (member : a ∈ s.unbegun) :
    ∃ o, s.Holds o a ∧ s.argGone o = false := by
  rcases mem_unbegun.mp member with line | ⟨k, held⟩
  · exact ⟨.queue, line, rfl⟩
  · exact ⟨.worker k, WorkerPc.held_task held⟩

theorem threadFunc_unbegun {s s' : PoolState} {k : Fin thrNum} (sound : s.Sound) (stepped : threadFunc s k = some s')
    {a : Addr} {request : Nat × Int} (member : a ∈ s'.unbegun) (found : requestOf s'.heap a = some request) :
    a ∈ s.unbegun ∧ requestOf s.heap a = some request := by
  rw [mem_unbegun] at member ⊢
  by_cases dequeues : s.workers k = .counted
  · obtain ⟨taskPtr, workers, heap, -, -, -, -, line, -⟩ := counted_cases sound dequeues stepped
    refine ⟨?_, heap ▸ found⟩
    rw [line]
    rcases member with queue | ⟨j, held⟩
    · exact .inl (List.mem_append_right _ queue)
    · by_cases here : j = k
      · have taken : taskPtr = some a := by simpa [workers, here, WorkerPc.held] using held
        exact .inl (by simp [taken])
      · exact .inr ⟨j, by simpa [workers, here] using held⟩
  · obtain ⟨pc, moved⟩ := threadFunc_step sound stepped
    constructor
    · rcases member with queue | ⟨j, held⟩
      · exact .inl (moved.line sound dequeues ▸ queue)
      · by_cases here : j = k
        · subst here
          rw [moved.workers, Function.update_self] at held
          have follows := moved.follows
          refine .inr ⟨j, ?_⟩
          cases before : s.workers j <;> rw [before] at follows <;> cases follows <;>
            simp_all [WorkerPc.held]
        · exact .inr ⟨j, by simpa [moved.workers, here] using held⟩
    · rcases moved.heap with same | ⟨b, -, freed⟩
      · rwa [same] at found
      · exact requestOf_free (freed ▸ found)

theorem threadFunc_executing {s s' : PoolState} {k j : Fin thrNum} {t f : Nat} {fd : Int} (sound : s.Sound)
    (stepped : threadFunc s k = some s') (running : s'.workers j = .executing t f fd) :
    serialOf s'.heap t = serialOf s.heap t ∧ (s.workers j = .executing t f fd ∧ j ≠ k ∨
      j = k ∧ (∃ c, s.workers k = .logged t f c) ∧ requestOf s.heap t = some (serialOf s.heap t, fd)) := by
  obtain ⟨pc, moved⟩ := threadFunc_step sound stepped
  by_cases here : j = k
  · subst here
    have follows := moved.follows
    rw [show pc = .executing t f fd by simpa [moved.workers] using running] at follows
    cases before : s.workers j with
    | logged t' f' p =>
      rw [before] at follows
      cases follows
      obtain ⟨c, info, rfl, owned, found⟩ := sound.info_read (.inr before)
      obtain ⟨task, here, arg⟩ := argOf_some owned.2.2
      simp only [threadFunc, before, found, Option.some.injEq] at stepped
      subst stepped
      have sock : info.clientSock = fd := by simpa [PoolState.goto] using running
      refine ⟨rfl, .inr ⟨rfl, ⟨_, rfl⟩, requestOf_some.mpr ⟨task, c, info, here, arg, found, ?_, sock⟩⟩⟩
      simp [serialOf, here]
    | _ => rw [before] at follows; cases follows
  · have before : s.workers j = .executing t f fd := by simpa [moved.workers, here] using running
    have held : s.Holds (.worker j) t := by simp [PoolState.Holds, before, WorkerPc.task]
    exact ⟨moved.serials sound held (by simpa using here), .inl ⟨before, here⟩⟩

def MainPc.sock (h : Heap) : MainPc → Option Int
  | .idle => none
  | .infoReady c => (h.info (some c)).map ClientInfo.clientSock
  | .taskReady a => (requestOf h a).map Prod.snd

structure PoolState.Keeps (s s' : PoolState) : Prop where
  unbegun : ∀ a ∈ s'.unbegun, ∀ request, requestOf s'.heap a = some request →
    a ∈ s.unbegun ∧ requestOf s.heap a = some request
  begun : ∀ k t f fd, s'.workers k = .executing t f fd →
    s.workers k = .executing t f fd ∧ serialOf s'.heap t = serialOf s.heap t
  enqueued : s'.history.enqueued = s.history.enqueued

theorem allocate_keeps {s s' : PoolState} (sound : s.Sound) {a : Addr} (free : s.heap a = none) (o : Object)
    (heap : s'.heap = Function.update s.heap a (some o)) (taskQ : s'.taskQ = s.taskQ)
    (workers : s'.workers = s.workers)
    (enqueued : s'.history.enqueued = s.history.enqueued) : s.Keeps s' where
  unbegun b member request found := by
    have same : s'.unbegun = s.unbegun := by
      rw [PoolState.unbegun, PoolState.unbegun, workers, heap, taskQ, (sound.rep_allocate free _).queued_eq]
    rw [same] at member
    obtain ⟨o', held, kept⟩ := unbegun_held member
    rw [heap, requestOf_allocate sound free _ held kept] at found
    exact ⟨member, found⟩
  begun k t f fd running := by
    rw [workers] at running
    have held : s.Holds (.worker k) t := by simp [PoolState.Holds, running, WorkerPc.task]
    rw [heap]
    exact ⟨running, serialOf_update_other (sound.not_held free held) _⟩
  enqueued := enqueued

theorem worker_keeps {s s' : PoolState} {k : Fin thrNum} (sound : s.Sound) (stepped : threadFunc s k = some s')
    (quiet : ∀ t f c, s.workers k ≠ .logged t f c) : s.Keeps s' where
  unbegun _ member _ found := threadFunc_unbegun sound stepped member found
  begun j t f fd running := by
    obtain ⟨same, ⟨before, -⟩ | ⟨-, ⟨c, logged⟩, -⟩⟩ := threadFunc_executing sound stepped running
    · exact ⟨before, same⟩
    · exact absurd logged (quiet t f c)
  enqueued := by
    obtain ⟨pc, moved⟩ := threadFunc_step sound stepped
    exact moved.enqueued

theorem signal_keeps {s : PoolState} (sound : s.Sound) : s.Keeps (signalThreadFunc s) := by
  have refl : s.Keeps s := ⟨fun _ member _ found => ⟨member, found⟩, fun _ _ _ _ running => ⟨running, rfl⟩, rfl⟩
  rcases signalThreadFunc_cases sound with ⟨-, same⟩ | ⟨_, _, _, _, -, -, -, shape⟩
  · rwa [same]
  · rw [shape]
    exact ⟨refl.unbegun, refl.begun, refl.enqueued⟩

theorem WorkerStep.sock {s s' : PoolState} {k : Fin thrNum} {pc : WorkerPc} (moved : WorkerStep s k s' pc) {fd : Int}
    (sock : s'.main.sock s'.heap = some fd) : s.main.sock s.heap = some fd := by
  rw [moved.main] at sock
  rcases moved.heap with same | ⟨b, -, freed⟩
  · rwa [same] at sock
  · rw [freed] at sock
    cases main : s.main with
    | idle => simp [main, MainPc.sock] at sock
    | infoReady c =>
      rw [main] at sock
      obtain ⟨info, found, rfl⟩ := Option.map_eq_some_iff.mp sock
      simp [MainPc.sock, info_some.mpr (free_some (info_some.mp found))]
    | taskReady a =>
      rw [main] at sock
      obtain ⟨request, found, rfl⟩ := Option.map_eq_some_iff.mp sock
      simp [MainPc.sock, requestOf_free found]

theorem mallocTask_sock {s s' : PoolState} {a : Addr} {stale : Option Addr} {funcPtr : Nat} {fd : Int}
    (stepped : mallocTask s a stale funcPtr = some s') (sock : s'.main.sock s'.heap = some fd) :
    s.main.sock s.heap = some fd := by
  obtain ⟨-, clntInfo, ready, rfl⟩ := mallocTask_cases stepped
  obtain ⟨⟨n, fd'⟩, found, rfl⟩ := Option.map_eq_some_iff.mp sock
  obtain ⟨t, c, info, here, arg, filed, -, rfl⟩ := requestOf_some.mp found
  rw [task_update_here] at here
  obtain rfl := Option.some.inj here
  obtain rfl := Option.some.inj arg
  have apart : clntInfo ≠ a := by
    rintro rfl
    simp [Heap.info] at filed
  rw [info_update_other apart] at filed
  simp [ready, MainPc.sock, filed]

end NetProg.P3
