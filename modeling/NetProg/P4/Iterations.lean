import NetProg.P4.Registration
import NetProg.P4.SuperLoop

set_option autoImplicit false

namespace NetProg.P4

open Transition

def clients (serverSock : Int) (ready : List Int) : List Int := ready.filter (· ≠ serverSock)

inductive SlotKept (it : Iteration) (p : FdPool SockAddr) (i : Slot) : Prop where
  | same (clientfd : p.clientfd i = it.before.clientfd i) (clientAddr : p.clientAddr i = it.before.clientAddr i)
  | closed (touch : ⟨it.before.clientfd i, true⟩ ∈ it.touched) (clientfd : p.clientfd i = -1)
      (clientAddr : p.clientAddr i = it.before.clientAddr i)
  | filled (fd : Int) (added : it.added = some fd) (free : it.before.clientfd i < 0) (clientfd : p.clientfd i = fd)

def Iteration.Progress (serverSock : Int) (it : Iteration) (l : EventLoop SockAddr) : Prop :=
  match l.pc with
  | .accepting => it.touched = [] ∧ it.added = none ∧ l.pool.nready = it.ready.length ∧
      ∀ fd ∈ clients serverSock it.ready, ∃ i, 0 < l.pool.clientfd i ∧ l.pool.clientfd i = fd
  | .scanning k => ∃ pending, (it.touched.map Touch.fd ++ pending).Perm (clients serverSock it.ready) ∧
      pending.length ≤ l.pool.nready ∧
      (∀ fd ∈ pending, ∃ i : Slot, k ≤ i.val ∧ 0 < l.pool.clientfd i ∧ l.pool.clientfd i = fd) ∧
      ∀ i : Slot, k ≤ i.val → l.pool.clientfd i ∉ it.touched.map Touch.fd
  | .selecting => (it.touched.map Touch.fd).Perm (clients serverSock it.ready)

structure Iteration.Serving (serverSock : Int) (it : Iteration) (l : EventLoop SockAddr) : Prop where
  ready : ∀ fd, l.pool.readySet fd = true ↔ fd ∈ it.ready
  nodup : it.ready.Nodup
  slots : ∀ i, SlotKept it l.pool i
  fresh : ∀ fd, it.added = some fd → fd ∉ it.ready
  progress : it.Progress serverSock l

section Serving

variable {serverSock : Int} {it : Iteration} {l l' : EventLoop SockAddr} {i : Slot}

theorem mem_clients {ready : List Int} {fd : Int} : fd ∈ clients serverSock ready ↔ fd ∈ ready ∧ fd ≠ serverSock := by
  simp [clients]

theorem touch_progress (serving : it.Serving serverSock l) (sound : l.pool.Sound serverSock)
    (scans : l.Scans (some i) l') (pool : FdPool SockAddr) (closes : Bool)
    (others : ∀ j, j ≠ i → pool.clientfd j = l.pool.clientfd j) (nready : pool.nready = l.pool.nready - 1) :
    (it.touch (l.pool.clientfd i) closes).Progress serverSock { pool, pc := .scanning (i + 1) } := by
  cases scans with
  | serves _ pc more occupied ready =>
    have progress := serving.progress
    simp only [Iteration.Progress, pc] at progress
    obtain ⟨pending, all, few, places, ahead⟩ := progress
    have client : l.pool.clientfd i ∈ clients serverSock it.ready :=
      mem_clients.mpr ⟨(serving.ready _).mp ready, sound.apart i occupied⟩
    have waits : l.pool.clientfd i ∈ pending := by
      rcases List.mem_append.mp (all.mem_iff.mpr client) with touched | waits
      · exact absurd touched (ahead i le_rfl)
      · exact waits
    have once : (it.touched.map Touch.fd ++ pending).Nodup := all.nodup_iff.mpr (serving.nodup.filter _)
    refine ⟨pending.erase (l.pool.clientfd i), ?_, ?_, fun fd member => ?_, fun j after => ?_⟩
    · -- the descriptor moves from those that wait to those that have been served
      have moved : (it.touched.map Touch.fd ++ pending).Perm
          (it.touched.map Touch.fd ++ l.pool.clientfd i :: pending.erase (l.pool.clientfd i)) :=
        (List.perm_cons_erase waits).append_left _
      simp only [Iteration.touch, List.map_append, List.map_cons, List.map_nil, List.append_assoc, List.singleton_append]
      exact moved.symm.trans all
    · have size := List.length_erase_of_mem waits
      have positive := List.length_pos_of_mem waits
      simp only [nready, size]
      omega
    · obtain ⟨j, after, positive, rfl⟩ := places fd (List.mem_of_mem_erase member)
      have other : j ≠ i := by
        rintro rfl
        exact ((List.nodup_append.mp once).2.1.mem_erase_iff.mp member).1 rfl
      refine ⟨j, ?_, ?_, others j other⟩
      · have distinct : j.val ≠ i.val := fun same => other (Fin.ext same)
        omega
      · simp only [others j other, positive]
    · have other : j ≠ i := by
        rintro rfl
        omega
      simp only [Iteration.touch, List.map_append, List.map_cons, List.map_nil, List.mem_append, List.mem_singleton,
        others j other, not_or]
      refine ⟨ahead j (by omega), fun same => other ?_⟩
      exact sound.distinct j i (same ▸ occupied) same

theorem SlotKept.touch {p p' : FdPool SockAddr} {j : Slot} (kept : SlotKept it p j) (fd : Int) (closes : Bool)
    (clientfd : p'.clientfd j = p.clientfd j) (clientAddr : p'.clientAddr j = p.clientAddr j) :
    SlotKept (it.touch fd closes) p' j := by
  cases kept with
  | same clientfd' clientAddr' => exact .same (clientfd.trans clientfd') (clientAddr.trans clientAddr')
  | closed touch clientfd' clientAddr' =>
    exact .closed (List.mem_append_left _ touch) (clientfd.trans clientfd') (clientAddr.trans clientAddr')
  | filled fd' added free clientfd' => exact .filled fd' added free (clientfd.trans clientfd')

namespace Iteration.Serving

theorem read (serving : it.Serving serverSock l) (sound : l.pool.Sound serverSock)
    (scans : l.Scans (some i) l') : (it.touch (l.pool.clientfd i) false).Serving serverSock l' := by
  have progress := touch_progress serving sound scans l'.pool false
  cases scans with
  | serves _ pc more occupied ready =>
    exact ⟨serving.ready, serving.nodup, fun j => (serving.slots j).touch _ _ rfl rfl, serving.fresh,
      progress (fun _ _ => rfl) rfl⟩

theorem closed (serving : it.Serving serverSock l) (sound : l.pool.Sound serverSock)
    (scans : l.Scans (some i) l') :
    (it.touch (l.pool.clientfd i) true).Serving serverSock { l' with pool := l'.pool.closeSlot i } := by
  have progress := touch_progress serving sound scans (l'.pool.closeSlot i) true
  cases scans with
  | serves _ pc more occupied ready =>
    refine ⟨serving.ready, serving.nodup, fun j => ?_, serving.fresh,
      progress (fun j other => Function.update_of_ne other ..) rfl⟩
    by_cases here : j = i
    · subst here
      cases serving.slots j with
      | same clientfd clientAddr =>
        refine .closed ?_ (Function.update_self ..) clientAddr
        simp [Iteration.touch, clientfd]
      | closed _ clientfd => omega
      | filled fd added free clientfd =>
        -- the client that has just been accepted is not ready
        exact absurd ((serving.ready _).mp ready) (clientfd ▸ serving.fresh fd added)
    · exact (serving.slots j).touch _ _ (Function.update_of_ne here ..) rfl

theorem passes (serving : it.Serving serverSock l) (sound : l.pool.Sound serverSock) (scans : l.Scans none l') :
    it.Serving serverSock l' := by
  have progress := serving.progress
  cases scans with
  | skips i pc idle =>
    simp only [Iteration.Progress, pc] at progress
    obtain ⟨pending, all, few, places, ahead⟩ := progress
    refine ⟨serving.ready, serving.nodup, serving.slots, serving.fresh, pending, all, few, fun fd member => ?_,
      fun j after => ahead j (by omega)⟩
    obtain ⟨j, after, positive, rfl⟩ := places fd member
    have other : j ≠ i := by
      rintro rfl
      have client := all.mem_iff.mp (List.mem_append_right _ member)
      have ready := (serving.ready _).mpr (mem_clients.mp client).1
      exact absurd ready (by simp [idle positive])
    have distinct : j.val ≠ i.val := fun same => other (Fin.ext same)
    exact ⟨j, by omega, positive, rfl⟩
  | ends k pc done =>
    simp only [Iteration.Progress, pc] at progress
    obtain ⟨pending, all, few, places, ahead⟩ := progress
    refine ⟨serving.ready, serving.nodup, serving.slots, serving.fresh, ?_⟩
    -- nobody waits, whichever of the two counters has ended the scan
    have nobody : pending = [] := by
      by_contra waiting
      obtain ⟨fd, rest, rfl⟩ := List.exists_cons_of_ne_nil waiting
      obtain ⟨j, after, positive, -⟩ := places fd (by simp)
      have used := sound.used j positive
      simp only [List.length_cons] at few
      omega
    rw [nobody, List.append_nil] at all
    exact all

theorem nobody (serving : it.Serving serverSock l) (pc : l.pc = .accepting) :
    it.Serving serverSock { l with pc := .scanning 0 } := by
  have progress := serving.progress
  simp only [Iteration.Progress, pc] at progress
  obtain ⟨untouched, -, nready, places⟩ := progress
  refine ⟨serving.ready, serving.nodup, serving.slots, serving.fresh, clients serverSock it.ready, ?_, ?_,
    fun fd member => ?_, ?_⟩
  · rw [untouched]
    exact .refl _
  · rw [nready, Int.ofNat_le]
    exact List.length_filter_le ..
  · obtain ⟨j, positive, same⟩ := places fd member
    exact ⟨j, Nat.zero_le _, positive, same⟩
  · simp [untouched]

theorem accepts (serving : it.Serving serverSock l) (pc : l.pc = .accepting)
    (asked : l.pool.readySet serverSock = true) {sockfd : Int} {clientAddr : SockAddr} {pool : FdPool SockAddr}
    (unwatched : sockfd ∉ it.ready) (added : l.pool.Added sockfd clientAddr pool) :
    { it with added := some sockfd }.Serving serverSock { pool, pc := .scanning 0 } := by
  have progress := serving.progress
  simp only [Iteration.Progress, pc] at progress
  obtain ⟨untouched, nothing, nready, places⟩ := progress
  obtain ⟨counted, readySet⟩ := added.counts
  have before (j : Slot) : l.pool.clientfd j = it.before.clientfd j ∧ l.pool.clientAddr j = it.before.clientAddr j := by
    cases serving.slots j with
    | same clientfd clientAddr => exact ⟨clientfd, clientAddr⟩
    | closed touch => simp [untouched] at touch
    | filled fd added => simp [nothing] at added
  refine ⟨by rw [readySet]; exact serving.ready, serving.nodup, fun j => ?_, fun fd same => ?_,
    clients serverSock it.ready, ?_, ?_, fun fd member => ?_, ?_⟩
  · rcases added.cases j with ⟨clientfd, addr⟩ | ⟨free, clientfd, -⟩
    · exact .same (clientfd.trans (before j).1) (addr.trans (before j).2)
    · exact .filled sockfd rfl ((before j).1 ▸ free) clientfd
  · obtain rfl := Option.some.inj same
    exact unwatched
  · rw [untouched]
    exact .refl _
  · -- the listening socket was counted as well
    have listed : serverSock ∈ it.ready := (serving.ready _).mp asked
    have fewer : (clients serverSock it.ready).length < it.ready.length := by
      refine List.length_filter_lt_length_iff_exists.mpr ⟨serverSock, listed, ?_⟩
      simp
    rw [counted, nready]
    omega
  · obtain ⟨j, positive, same⟩ := places fd member
    rcases added.cases j with ⟨clientfd, -⟩ | ⟨free, -⟩
    · exact ⟨j, Nat.zero_le _, clientfd ▸ positive, clientfd.trans same⟩
    · omega
  · simp [untouched]

end Iteration.Serving

end Serving

structure SuperLoop.Orderly (s : SuperLoop) : Prop where
  pool : s.loop.pool.Sound s.serverSock
  wiring : Wiring s.loop.pool.clientfd s.sockets s.connections
  serving : ∀ it, s.iteration = some it → it.Serving s.serverSock s.loop

theorem added_takes {p p' : FdPool SockAddr} {sockfd : Int} {clientAddr : SockAddr}
    (added : p.Added sockfd clientAddr p') : Wiring.Takes p.clientfd p'.clientfd sockfd := by
  cases added with
  | taken i free => exact .inl ⟨i, free, rfl⟩
  | full => exact .inr rfl

theorem SuperLoop.Starts.orderly {s : SuperLoop} (starts : s.Starts) : s.Orderly := by
  obtain ⟨pool, loop⟩ := starts.loop
  constructor
  case pool =>
    rw [loop]
    exact initPool_sound s.serverSock pool
  case wiring =>
    apply wiring_empty
    · simp [loop, initPool]
    · simp [starts.sockets]
  case serving => simp [starts.iteration]

theorem SuperLoop.Orderly.touched {s : SuperLoop} (orderly : s.Orderly) {i : Slot} {loop : EventLoop SockAddr}
    (scans : s.loop.Scans (some i) loop) {it : Iteration} (current : s.touch i false = some it) :
    it.Serving s.serverSock loop := by
  obtain ⟨before, earlier, rfl⟩ := Option.map_eq_some_iff.mp current
  exact (orderly.serving before earlier).read orderly.pool scans

theorem SuperLoop.Moves.orderly {s s' : SuperLoop} {e : LoopEvent} (orderly : s.Orderly) (moves : s.Moves e s') :
    s'.Orderly := by
  obtain ⟨pool, wiring, serving⟩ := orderly
  cases moves with
  | selectFails pc => exact ⟨pool.regroup _ _, wiring, by simp⟩
  | selects ready nodup watched =>
    refine ⟨pool.regroup _ _, wiring, fun it current => ?_⟩
    obtain rfl := Option.some.inj current
    refine ⟨by simp, nodup, fun j => .same rfl rfl, by simp, rfl, rfl, rfl, fun fd member => ?_⟩
    obtain ⟨listed, client⟩ := mem_clients.mp member
    exact ((pool.readSet fd).mp (watched fd listed)).resolve_left client
  | nobody pc => exact ⟨pool, wiring, fun it current => (serving it current).nobody pc⟩
  | accepts sockfd peer pool' pc asked positive other closed added =>
    have unused (j : Slot) : s.loop.pool.clientfd j ≠ sockfd := by
      rcases pool.free j with occupied | empty
      · exact wiring.away closed occupied
      · omega
    refine ⟨pool.added positive other unused added, wiring.accept (added_takes added) positive closed, ?_⟩
    intro it current
    obtain ⟨before, earlier, rfl⟩ := Option.map_eq_some_iff.mp current
    refine (serving before earlier).accepts pc asked (fun listed => ?_) added
    have progress := (serving before earlier).progress
    simp only [Iteration.Progress, pc] at progress
    obtain ⟨j, -, same⟩ := progress.2.2.2 sockfd (mem_clients.mpr ⟨listed, other⟩)
    exact unused j same
  | passes read unwritten loop scans =>
    have slots := scans.slots
    have sound : loop.pool.Sound s.serverSock := by
      cases scans
      · exact pool
      · exact pool
    exact ⟨sound, slots.clientfd ▸ wiring, fun it current => (serving it current).passes pool scans⟩
  | givesUp unwritten i loop scans =>
    cases scans
    exact ⟨pool.regroup _ _, wiring, by simp⟩
  | closes unwritten i loop scans =>
    have done : ∀ it, s.touch i true = some it →
        it.Serving s.serverSock { loop with pool := loop.pool.closeSlot i } := by
      intro it current
      obtain ⟨before, earlier, rfl⟩ := Option.map_eq_some_iff.mp current
      exact (serving before earlier).closed pool scans
    have slots := scans.slots
    cases scans with
    | serves _ _ _ occupied =>
      refine ⟨(pool.regroup _ _).close occupied, ?_, done⟩
      exact wiring.close
  | unread unwritten i loop scans =>
    have touched (it : Iteration) (current : s.touch i false = some it) : it.Serving s.serverSock loop :=
      SuperLoop.Orderly.touched ⟨pool, wiring, serving⟩ scans current
    cases scans
    exact ⟨pool.regroup _ _, wiring, touched⟩
  | handles received unwritten i c loop h scans socket ran =>
    have touched (it : Iteration) (current : s.touch i false = some it) : it.Serving s.serverSock loop :=
      SuperLoop.Orderly.touched ⟨pool, wiring, serving⟩ scans current
    cases scans
    exact ⟨pool.regroup _ _, wiring, touched⟩

theorem orderly_reachable {s : SuperLoop} (reached : superLoop.Reachable s) : s.Orderly := by
  apply reached.invariant
  · exact fun _ starts => SuperLoop.Starts.orderly starts
  · exact fun _ _ _ _ orderly _ stepped => SuperLoop.Moves.orderly orderly (SuperLoop.step_moves stepped)

theorem touched_few {serverSock : Int} {it : Iteration} {l : EventLoop SockAddr} (serving : it.Serving serverSock l) :
    ∃ pending, (it.touched.map Touch.fd ++ pending).Perm (clients serverSock it.ready) := by
  have progress := serving.progress
  simp only [Iteration.Progress] at progress
  split at progress
  · rw [progress.1]
    exact ⟨_, .refl _⟩
  · obtain ⟨pending, all, -⟩ := progress
    exact ⟨pending, all⟩
  · exact ⟨[], by rwa [List.append_nil]⟩

structure SuperLoop.InRange (s : SuperLoop) : Prop where
  maxi : s.loop.pool.maxi < fdSetSize
  index : ∀ i, s.loop.pc = .scanning i → i ≤ fdSetSize

theorem SuperLoop.Starts.inRange {s : SuperLoop} (starts : s.Starts) (below : s.loop.pool.maxi < fdSetSize) :
    s.InRange := by
  obtain ⟨pool, loop⟩ := starts.loop
  exact ⟨below, fun i pc => by simp [loop] at pc⟩

theorem scans_inRange {s : SuperLoop} (inRange : s.InRange) {served : Option Slot} {loop : EventLoop SockAddr}
    (scans : s.loop.Scans served loop) :
    loop.pool.maxi < fdSetSize ∧ ∀ i, loop.pc = .scanning i → i ≤ fdSetSize := by
  refine ⟨by rw [scans.slots.maxi]; exact inRange.maxi, fun i pc => ?_⟩
  cases scans with
  | serves j | skips j =>
    obtain rfl := LoopPc.scanning.inj pc
    exact j.isLt
  | ends k => cases pc

theorem SuperLoop.Moves.inRange {s s' : SuperLoop} {e : LoopEvent} (moves : s.Moves e s') (inRange : s.InRange) :
    s'.InRange := by
  cases moves with
  | selectFails pc => exact ⟨inRange.maxi, fun i here => by simp [pc] at here⟩
  | selects ready nodup watched => exact ⟨inRange.maxi, by simp⟩
  | nobody pc =>
    refine ⟨inRange.maxi, fun i here => ?_⟩
    obtain rfl := LoopPc.scanning.inj here
    exact Nat.zero_le _
  | accepts sockfd peer pool pc asked positive other closed added =>
    refine ⟨?_, fun i here => ?_⟩
    · cases added with
      | full => exact inRange.maxi
      | taken j free =>
        have bound := j.isLt
        have before := inRange.maxi
        simp only [FdPool.takeSlot]
        split_ifs <;> omega
    · obtain rfl := LoopPc.scanning.inj here
      exact Nat.zero_le _
  | passes read unwritten loop scans =>
    obtain ⟨maxi, index⟩ := scans_inRange inRange scans
    exact ⟨maxi, index⟩
  | givesUp unwritten i loop scans => exact ⟨(scans_inRange inRange scans).1, by simp⟩
  | closes unwritten i loop scans =>
    obtain ⟨maxi, index⟩ := scans_inRange inRange scans
    exact ⟨maxi, index⟩
  | unread unwritten i loop scans =>
    obtain ⟨maxi, index⟩ := scans_inRange inRange scans
    exact ⟨maxi, index⟩
  | handles received unwritten i c loop h scans socket ran =>
    obtain ⟨maxi, index⟩ := scans_inRange inRange scans
    exact ⟨maxi, index⟩

theorem scan_goes_on {s : SuperLoop} (inRange : s.InRange) {i : Nat} (pc : s.loop.pc = .scanning i) :
    ∃ served loop, s.loop.scan = some (served, loop) ∧ (loop.pc = .selecting ∨ loop.pc = .scanning (i + 1)) := by
  have maxi := inRange.maxi
  simp only [EventLoop.scan, pc]
  split_ifs with more inside ready
  · exact ⟨_, _, rfl, .inr rfl⟩
  · exact ⟨_, _, rfl, .inr rfl⟩
  · omega
  · exact ⟨_, _, rfl, .inl rfl⟩

theorem ready_clients_served_once {start s : SuperLoop} (starts : start.Starts)
    (below : start.loop.pool.maxi < fdSetSize) {events : List LoopEvent} (ran : superLoop.exec start events = some s)
    {it : Iteration} (current : s.iteration = some it) :
    (it.touched.map Touch.fd).Nodup ∧
    (∀ fd ∈ it.touched.map Touch.fd, fd ∈ it.ready ∧ fd ≠ s.serverSock ∧ it.added ≠ some fd) ∧
    (s.loop.pc = .selecting → ∀ fd ∈ it.ready, fd ≠ s.serverSock → fd ∈ it.touched.map Touch.fd) ∧
    (∀ i, SlotKept it s.loop.pool i) ∧
    ∀ i, s.loop.pc = .scanning i → i ≤ fdSetSize ∧ ∃ served loop, s.loop.scan = some (served, loop) ∧
      (loop.pc = .selecting ∨ loop.pc = .scanning (i + 1)) := by
  have inRange : s.InRange := by
    apply System.exec_invariant (P := SuperLoop.InRange) _ (starts.inRange below) ran
    intro s e s' inRange stepped
    exact (SuperLoop.step_moves stepped).inRange inRange
  have reached := System.exec_reachable (.initial _ starts) ran
  have serving := (orderly_reachable reached).serving it current
  obtain ⟨pending, all⟩ := touched_few serving
  refine ⟨?_, fun fd touched => ?_, fun pc fd listed client => ?_, serving.slots,
    fun i pc => ⟨inRange.index i pc, scan_goes_on inRange pc⟩⟩
  · have once : (it.touched.map Touch.fd ++ pending).Nodup := all.nodup_iff.mpr (serving.nodup.filter _)
    exact (List.nodup_append.mp once).1
  · obtain ⟨listed, client⟩ := mem_clients.mp (all.mem_iff.mp (List.mem_append_left _ touched))
    exact ⟨listed, client, fun added => serving.fresh fd added listed⟩
  · have progress := serving.progress
    simp only [Iteration.Progress, pc] at progress
    exact progress.mem_iff.mpr (mem_clients.mpr ⟨listed, client⟩)

def noAddr : SockAddr := fun _ => 0

def newLoop (clientAddr : SockAddr) : SuperLoop where
  serverSock := 3
  clientAddr
  clientAddrLen := initialAddrLen
  loop :=
    { pool := initPool 3 { maxfd := 0, readSet := fun _ => false, clientfd := fun _ => 0, clientAddr := fun _ => noAddr
                           maxi := -7, readySet := fun _ => false, nready := 0 }
      pc := .selecting }
  node := startUp 1 fun _ => 0
  sockets := fun _ => none
  connections := 0
  peers := fun _ => noAddr
  requests := []
  iteration := none

theorem newLoop_starts (clientAddr : SockAddr) : (newLoop clientAddr).Starts :=
  ⟨show (0 : Int) < 3 by decide, rfl, ⟨_, rfl⟩, ⟨1, fun _ => 0, [], 0, rfl⟩, rfl, rfl, rfl, rfl⟩

def twoClients : List LoopEvent :=
  [.select [3], .accept (some (4, noAddr)), .scan .failed zeroed,
    .select [3], .accept (some (5, noAddr)), .scan .failed zeroed,
    -- `accept` fails, one client has closed its connection and the other one has sent a byte
    .select [5, 3, 4], .accept none, .scan .closed zeroed, .scan (.data [0]) zeroed, .scan .failed zeroed]

theorem two_clients_served : ∃ (s : SuperLoop) (it : Iteration), s.iteration = some it ∧ it.ready = [5, 3, 4] ∧
    it.touched = [⟨4, true⟩, ⟨5, false⟩] ∧
    (∀ fd ∈ it.ready, fd ≠ s.serverSock → fd ∈ it.touched.map Touch.fd) ∧ ∀ i, SlotKept it s.loop.pool i := by
  obtain ⟨s, it, ran, current, pc, ready, touched⟩ : ∃ s it,
      superLoop.exec (newLoop noAddr) twoClients = some s ∧ s.iteration = some it ∧ s.loop.pc = .selecting ∧
      it.ready = [5, 3, 4] ∧ it.touched = [⟨4, true⟩, ⟨5, false⟩] := ⟨_, _, rfl, rfl, rfl, rfl, rfl⟩
  have below : (newLoop noAddr).loop.pool.maxi < fdSetSize := by decide
  have served := ready_clients_served_once (newLoop_starts noAddr) below ran current
  exact ⟨s, it, current, ready, touched, served.2.2.1 pc, served.2.2.2.1⟩

end NetProg.P4
