import NetProg.P2.Simulation
import NetProg.Upload.Rounds

set_option autoImplicit false

namespace NetProg.P2

open Memory Upload Transition

def CarriesData (command : UInt16) : Prop := command = dataDelivery ∨ command = dataStore

instance (command : UInt16) : Decidable (CarriesData command) := inferInstanceAs (Decidable (_ ∨ _))

def taken (pkt : Block) : UInt16 × List UInt8 :=
  -- What the `switch` goes by: the command, and the data of a delivery or a store.
  let command := load16 pkt commandAt
  (command, if CarriesData command then load pkt dataAt (dataLen pkt).toNat else [])

def sentAs (packet : List UInt8) : UInt16 × List UInt8 :=
  let command := load16 (ofBytes packet) commandAt
  (command, if CarriesData command then packet.drop headerLength else [])

-- The packet variable has the bytes of the packet wherever the `switch` looks.
structure Shows (pkt : Block) (packet : List UInt8) : Prop where
  command : load pkt commandAt 2 = load (ofBytes packet) commandAt 2
  length : CarriesData (load16 (ofBytes packet) commandAt) → load pkt lengthAt 2 = load (ofBytes packet) lengthAt 2
  data : CarriesData (load16 (ofBytes packet) commandAt) →
    load pkt dataAt (packet.length - headerLength) = packet.drop headerLength

theorem dataLen_of (pkt : Block) {n : Nat} (low : headerLength ≤ n) (high : n ≤ headerLength + dataSize) :
    (dataLen pkt).toNat = n - headerLength ↔ load16 pkt lengthAt = UInt16.ofNat n := by
  simp only [headerLength, dataSize] at low high ⊢
  have field := (load16 pkt lengthAt).toNat_lt
  have value : (UInt16.ofNat n).toNat = n := UInt16.toNat_ofNat_of_lt' (by simp only [UInt16.size]; omega)
  have wide : (UInt32.ofNat (load16 pkt lengthAt).toNat).toNat = (load16 pkt lengthAt).toNat :=
    UInt32.toNat_ofNat_of_lt' (by simp only [UInt32.size]; omega)
  rw [← UInt16.toNat_inj, value, dataLen, UInt32.toNat_sub, wide]
  simp only [UInt32.reduceToNat]
  omega

theorem taken_iff {packet : List UInt8} (formed : WellFormed packet) (pkt : Block) :
    taken pkt = sentAs packet ↔ Shows pkt packet := by
  have size := dataLen_of pkt formed.low formed.high
  rw [← formed.length, load16_inj] at size
  have fields : taken pkt = sentAs packet ↔ load16 pkt commandAt = load16 (ofBytes packet) commandAt ∧
      (CarriesData (load16 (ofBytes packet) commandAt) →
        load pkt dataAt (dataLen pkt).toNat = packet.drop headerLength) := by
    simp only [taken, sentAs, Prod.mk.injEq]
    refine and_congr_right fun same => ?_
    rw [same]
    split_ifs with carries
    · simp only [carries, true_imp_iff]
    · simp only [carries, false_imp_iff]
  rw [fields]
  constructor
  · rintro ⟨command, data⟩
    have measured (carries : CarriesData (load16 (ofBytes packet) commandAt)) :
        (dataLen pkt).toNat = packet.length - headerLength := by
      have lengths := congrArg List.length (data carries)
      rwa [length_load, List.length_drop] at lengths
    refine ⟨load16_inj.mp command, fun carries => size.mp (measured carries), fun carries => ?_⟩
    rw [← measured carries, data carries]
  · intro shown
    refine ⟨load16_inj.mpr shown.command, fun carries => ?_⟩
    rw [size.mpr (shown.length carries), shown.data carries]

theorem WellFormed.shown {packet : List UInt8} (formed : WellFormed packet) (pkt : Block) :
    Shows (receivePkt pkt (headerLength + dataSize) packet) packet := by
  have carries := formed.carries pkt
  refine (taken_iff formed _).mp ?_
  rw [taken, sentAs, carries.command, carries.dataLen formed.fits, carries.data]

theorem taken_fields {pkt pkt' : Block} (same : taken pkt = taken pkt') :
    load16 pkt commandAt = load16 pkt' commandAt ∧ (CarriesData (load16 pkt' commandAt) →
      dataLen pkt = dataLen pkt' ∧ load pkt dataAt (dataLen pkt').toNat = load pkt' dataAt (dataLen pkt').toNat) := by
  simp only [taken, Prod.mk.injEq] at same
  obtain ⟨command, data⟩ := same
  refine ⟨command, fun carries => ?_⟩
  rw [command, if_pos carries, if_pos carries] at data
  have len : dataLen pkt = dataLen pkt' := UInt32.toNat_inj.mp (by simpa using congrArg List.length data)
  rw [len] at data
  exact ⟨len, data⟩

def withPkt (pkt : Block) (next : Option (Session × Effects)) : Option (Session × Effects) :=
  next.map fun (s, effects) => ({ s with serverRecvPkt := pkt }, effects)

theorem handle_taken {s : Session} {pkt : Block} (same : taken pkt = taken s.serverRecvPkt) (o : Outcome) :
    { s with serverRecvPkt := pkt }.handle o = withPkt pkt (s.handle o) := by
  obtain ⟨command, fields⟩ := taken_fields same
  simp only [Session.handle, command]
  split_ifs with hello delivery stores
  · rfl
  · obtain ⟨len, data⟩ := fields (.inl delivery)
    simp only [Session.deliver, len, data]
    split
    · rfl
    · split_ifs <;> rfl
  · obtain ⟨len, data⟩ := fields (.inr stores)
    simp only [Session.store, len, data]
    split
    case isFalse => rfl
    split
    · rfl
    split
    case isFalse => rfl
    split
    · rfl
    · rfl
    · split <;> rfl
  · rfl
  · rfl

-- The packet variable after a `read` of at most `sizeof(data_pkt)` bytes.
abbrev received (pkt : Block) (bytes : List UInt8) : Block := receivePkt pkt (headerLength + dataSize) bytes

def dispatched : Session → List (List UInt8 × Outcome) → List (UInt16 × List UInt8)
  -- What the `switch` of the session is given in each round.
  | _, [] => []
  | s, (bytes, o) :: rest =>
    if s.isOver then []
    else taken (received s.serverRecvPkt bytes) :: match s.iterate (.packet bytes) o with
      | none => []
      | some (s, _) => dispatched s rest

def Stopped (s : Session) (reads : List (List UInt8 × Outcome)) : Prop :=
  ∀ s' effects, s.rounds (packetReads reads) = some (s', effects) → s'.isOver = true

def DispatchesSent (s : Session) (reads : List (List UInt8 × Outcome)) (packets : List (List UInt8)) : Prop :=
  dispatched s reads <+: packets.map sentAs ∧ (Stopped s reads ∨ dispatched s reads = packets.map sentAs)

def InStep : Session → List (List UInt8 × Outcome) → List (List UInt8) → Prop
  -- Until the session stops, each read leaves the next packet in the packet variable.
  | _, [], [] => True
  | s, [], _ :: _ => s.isOver = true
  | s, _ :: _, [] => s.isOver = true
  | s, (bytes, o) :: reads, packet :: packets => s.isOver = false →
    Shows (received s.serverRecvPkt bytes) packet ∧
      ∀ s' effects, s.iterate (.packet bytes) o = some (s', effects) → InStep s' reads packets

section Session

variable {s : Session} {reads : List (List UInt8 × Outcome)} {packets : List (List UInt8)}

theorem dispatches_over (ended : s.isOver = true) : DispatchesSent s reads packets := by
  have nothing : dispatched s reads = [] := by
    cases reads with
    | nil => rfl
    | cons head rest => simp [dispatched, ended]
  refine ⟨nothing ▸ List.nil_prefix, .inl fun s' effects ran => ?_⟩
  obtain ⟨rfl, -⟩ := Prod.mk.inj (Option.some.inj ((rounds_over ended _).symm.trans ran))
  exact ended

theorem stopped_cons {s' : Session} {bytes : List UInt8} {o : Outcome} {effect : Effects} (running : s.isOver = false)
    (ran : s.iterate (.packet bytes) o = some (s', effect)) :
    Stopped s ((bytes, o) :: reads) ↔ Stopped s' reads := by
  have cons := rounds_cons running ran (packetReads reads)
  constructor
  · intro stopped final later after
    rw [after] at cons
    exact stopped final _ cons
  · intro stopped final effects whole
    obtain ⟨⟨final', later⟩, after, same⟩ := Option.map_eq_some_iff.mp (cons.symm.trans whole)
    obtain ⟨rfl, -⟩ := Prod.mk.inj same
    exact stopped _ _ after

theorem dispatches_cons {bytes packet : List UInt8} {o : Outcome} (running : s.isOver = false)
    (formed : WellFormed packet) :
    DispatchesSent s ((bytes, o) :: reads) (packet :: packets) ↔ Shows (received s.serverRecvPkt bytes) packet ∧
      ∀ s' effects, s.iterate (.packet bytes) o = some (s', effects) → DispatchesSent s' reads packets := by
  rw [← taken_iff formed]
  cases ran : s.iterate (.packet bytes) o with
  | none =>
    have stopped : Stopped s ((bytes, o) :: reads) := by
      intro s' effects whole
      cases (rounds_stuck running ran _).symm.trans whole
    simp [DispatchesSent, dispatched, running, ran, stopped, List.cons_prefix_cons]
  | some next =>
    obtain ⟨s', effect⟩ := next
    have head : dispatched s ((bytes, o) :: reads) = taken (received s.serverRecvPkt bytes) :: dispatched s' reads := by
      simp [dispatched, running, ran]
    rw [DispatchesSent, head, List.map_cons, List.cons_prefix_cons, stopped_cons running ran, List.cons.injEq]
    constructor
    · rintro ⟨⟨same, inOrder⟩, whole⟩
      refine ⟨same, fun s'' effects later => ?_⟩
      obtain ⟨rfl, -⟩ := Prod.mk.inj (Option.some.inj later)
      exact ⟨inOrder, whole.imp_right And.right⟩
    · rintro ⟨same, later⟩
      obtain ⟨inOrder, whole⟩ := later s' effect rfl
      exact ⟨⟨same, inOrder⟩, whole.imp_right fun rest => ⟨same, rest⟩⟩

theorem dispatches_iff (formed : ∀ packet ∈ packets, WellFormed packet) :
    DispatchesSent s reads packets ↔ InStep s reads packets := by
  induction reads generalizing s packets with
  | nil =>
    have stopped : Stopped s [] ↔ s.isOver = true := by
      constructor
      · exact fun stopped => stopped s [] rfl
      · rintro ended s' effects ran
        obtain ⟨rfl, -⟩ := Prod.mk.inj (Option.some.inj ran)
        exact ended
    cases packets with
    | nil => simp [DispatchesSent, dispatched, InStep]
    | cons packet packets => simp [DispatchesSent, dispatched, InStep, stopped]
  | cons head reads ih =>
    obtain ⟨bytes, o⟩ := head
    cases ended : s.isOver with
    | true =>
      refine iff_of_true (dispatches_over ended) ?_
      cases packets with
      | nil => exact ended
      | cons packet packets => simp [InStep, ended]
    | false =>
      cases packets with
      | nil =>
        refine iff_of_false ?_ (by simp [InStep, ended])
        rintro ⟨inOrder, -⟩
        simp [dispatched, ended] at inOrder
      | cons packet packets =>
        rw [dispatches_cons ended (formed packet (by simp))]
        simp only [InStep, ended, true_imp_iff]
        refine and_congr_right fun _ => forall_congr' fun s' => forall_congr' fun effects => imp_congr_right fun _ => ?_
        exact ih fun packet' member => formed packet' (by simp [member])

theorem inStep_effects {s : Session} {reads : List (List UInt8 × Outcome)} {packets : List (List UInt8)}
    (formed : ∀ packet ∈ packets, WellFormed packet) (inStep : InStep s reads packets) (pkt : Block) :
    (s.rounds (packetReads reads)).map Prod.snd =
      ({ s with serverRecvPkt := pkt }.rounds (packetReads (packets.zip (reads.map Prod.snd)))).map Prod.snd := by
  induction reads generalizing s packets pkt with
  | nil => cases packets <;> rfl
  | cons head reads ih =>
    obtain ⟨bytes, o⟩ := head
    cases ended : s.isOver with
    | true =>
      have ended' : Session.isOver { s with serverRecvPkt := pkt } = true := ended
      rw [rounds_over ended, rounds_over ended']
      rfl
    | false =>
      have ended' : Session.isOver { s with serverRecvPkt := pkt } = false := ended
      cases packets with
      | nil => exact absurd (show s.isOver = true from inStep) (by simp [ended])
      | cons packet packets =>
        obtain ⟨shown, later⟩ := inStep ended
        have whole := formed packet (by simp)
        -- the round of the packet as it was sent, against that of the bytes that were read
        have same : taken (received pkt packet) = taken (received s.serverRecvPkt bytes) :=
          ((taken_iff whole _).mpr (whole.shown pkt)).trans ((taken_iff whole _).mpr shown).symm
        have round := handle_taken (s := { s with serverRecvPkt := received s.serverRecvPkt bytes }) same o
        cases ran : s.iterate (.packet bytes) o with
        | none =>
          have ran' : Session.iterate { s with serverRecvPkt := pkt } (.packet packet) o = none :=
            round.trans (congrArg (withPkt _) ran)
          exact (congrArg _ (rounds_stuck ended ran _)).trans (congrArg _ (rounds_stuck ended' ran' _).symm)
        | some next =>
          obtain ⟨s', effect⟩ := next
          have ran' : Session.iterate { s with serverRecvPkt := pkt } (.packet packet) o =
              some ({ s' with serverRecvPkt := received pkt packet }, effect) :=
            round.trans (congrArg (withPkt _) ran)
          have rest := ih (fun packet' member => formed packet' (by simp [member])) (later s' effect ran)
            (received pkt packet)
          have first := rounds_cons ended ran (packetReads reads)
          have second := rounds_cons ended' ran' (packetReads (packets.zip (reads.map Prod.snd)))
          refine (congrArg _ first).trans (Eq.trans ?_ (congrArg _ second).symm)
          have snds := congrArg (Option.map (List.cons effect)) rest
          simp only [Option.map_map] at snds ⊢
          exact snds

theorem whole_packets_inStep (formed : ∀ packet ∈ reads.map Prod.fst, WellFormed packet) :
    InStep s reads (reads.map Prod.fst) := by
  induction reads generalizing s with
  | nil => exact trivial
  | cons head reads ih =>
    obtain ⟨bytes, o⟩ := head
    intro _
    refine ⟨(formed bytes (by simp)).shown _, fun s' effects _ => ?_⟩
    exact ih fun packet member => formed packet (by simp_all)

end Session

structure StreamServer where
  server : SelectServer
  -- for each connection what the packet variable held before each read, and the bytes that were read
  reads : Nat → List (Block × List UInt8)
  -- what the `switch` has been given
  dispatched : Nat → List (UInt16 × List UInt8)

def StreamServer.receive (s : StreamServer) (i : Slot) (loop : EventLoop Unit) (bytes : List UInt8)
    (serverSendPkt serverRecvPkt : Block) (o : SelectOutcome) : Option StreamServer :=
  -- `handleClientRequest` whatever the bytes are; the packet variable is a new one in each call.
  match s.server.sockets (s.server.loop.pool.clientfd i) with
  | none => none
  | some c =>
    (handleClientRequest s.server.heap (s.server.vars i) serverSendPkt (received serverRecvPkt bytes) o).map fun h =>
      { server := s.server.handled i c loop { packet := bytes, outcome := o.seenAlone, effects := h.effects } h
        reads := Function.update s.reads c (s.reads c ++ [(serverRecvPkt, bytes)])
        dispatched := Function.update s.dispatched c (s.dispatched c ++ [taken (received serverRecvPkt bytes)]) }

def StreamServer.step (s : StreamServer) : SelectEvent → Option StreamServer
  | .scan (.packet bytes) serverSendPkt serverRecvPkt o => match s.server.loop.scan with
    | none => none
    | some (none, loop) => some { s with server := { s.server with loop } }
    | some (some i, loop) =>
      if bytes ≠ [] ∧ bytes.length ≤ headerLength + dataSize then
        s.receive i loop bytes serverSendPkt serverRecvPkt o
      else none
  | e => (s.server.step e).map fun server => { s with server }

def streamServer : System StreamServer SelectEvent where
  init s := s.server.Starts ∧ s.reads = (fun _ => []) ∧ s.dispatched = fun _ => []
  step := StreamServer.step

theorem stream_step_cases {s s' : StreamServer} {e : SelectEvent} (stepped : s.step e = some s') :
    (s'.reads = s.reads ∧ s'.dispatched = s.dispatched) ∨ ∃ c serverRecvPkt bytes,
      s'.reads = Function.update s.reads c (s.reads c ++ [(serverRecvPkt, bytes)]) ∧
      s'.dispatched = Function.update s.dispatched c (s.dispatched c ++ [taken (received serverRecvPkt bytes)]) := by
  unfold StreamServer.step at stepped
  split at stepped
  next bytes serverSendPkt serverRecvPkt o =>
    split at stepped
    · cases stepped
    · obtain rfl := Option.some.inj stepped
      exact .inl ⟨rfl, rfl⟩
    · split_ifs at stepped
      simp only [StreamServer.receive] at stepped
      split at stepped
      · cases stepped
      · next c _ =>
        obtain ⟨h, -, rfl⟩ := Option.map_eq_some_iff.mp stepped
        exact .inr ⟨c, serverRecvPkt, bytes, rfl, rfl⟩
  next =>
    obtain ⟨server, -, rfl⟩ := Option.map_eq_some_iff.mp stepped
    exact .inl ⟨rfl, rfl⟩

theorem stream_dispatched {s : StreamServer} (reached : streamServer.Reachable s) (c : Nat) :
    s.dispatched c = (s.reads c).map fun read => taken (received read.1 read.2) := by
  revert c
  apply reached.invariant
  · rintro s ⟨-, reads, dispatched⟩ c
    simp [reads, dispatched]
  · intro s e s' _ same _ stepped c
    rcases stream_step_cases stepped with ⟨reads, dispatched⟩ | ⟨c', serverRecvPkt, bytes, reads, dispatched⟩
    · rw [reads, dispatched, same c]
    · by_cases here : c = c'
      · subst here
        simp [reads, dispatched, same c]
      · simp [reads, dispatched, same c, here]

theorem taken_all {packets : List (List UInt8)} (formed : ∀ packet ∈ packets, WellFormed packet)
    (reads : List (Block × List UInt8)) :
    reads.map (fun read => taken (received read.1 read.2)) = packets.map sentAs ↔
      List.Forall₂ (fun read packet => Shows (received read.1 read.2) packet) reads packets := by
  induction reads generalizing packets with
  | nil => cases packets <;> simp
  | cons read reads ih =>
    cases packets with
    | nil => simp
    | cons packet packets =>
      rw [List.map_cons, List.map_cons, List.cons.injEq, List.forall₂_cons, taken_iff (formed packet (by simp)),
        ih fun packet' member => formed packet' (by simp [member])]

theorem packets_dispatched {packets : List (List UInt8)} (formed : ∀ packet ∈ packets, WellFormed packet)
    (sendUnwritten recvUnwritten : Block) (reads : List (List UInt8 × Outcome)) {s : StreamServer}
    (reached : streamServer.Reachable s) (c : Nat) :
    (DispatchesSent (.start sendUnwritten recvUnwritten) reads packets ↔
      InStep (.start sendUnwritten recvUnwritten) reads packets) ∧
    (s.dispatched c = packets.map sentAs ↔
      List.Forall₂ (fun read packet => Shows (received read.1 read.2) packet) (s.reads c) packets) := by
  rw [stream_dispatched reached]
  exact ⟨dispatches_iff formed, taken_all formed _⟩

def greeting : List UInt8 := message 0 clientHello []

def delivery : List UInt8 := message 1 dataDelivery [7]

def newStream : StreamServer := { server := newServer, reads := fun _ => [], dispatched := fun _ => [] }

theorem newStream_starts : streamServer.Reachable newStream := .initial _ ⟨newServer_starts, rfl, rfl⟩

def receives (bytes : List UInt8) : List SelectEvent :=
  [.select [4], .accept none, .scan (.packet bytes) zeroed zeroed succeeds, nothingReady]

theorem two_reads_dispatched : ∃ s : StreamServer, s.reads 0 = [(zeroed, greeting), (zeroed, delivery)] ∧
    s.dispatched 0 = [sentAs greeting, sentAs delivery] ∧
    DispatchesSent (.start zeroed zeroed) [(greeting, succeeds.seenAlone), (delivery, succeeds.seenAlone)]
      [greeting, delivery] := by
  have formed : ∀ packet ∈ [greeting, delivery], WellFormed packet := by decide
  obtain ⟨s, ran, reads⟩ : ∃ s, streamServer.exec newStream (connects 0 ++ receives greeting ++ receives delivery) = some s ∧
      s.reads 0 = [(zeroed, greeting), (zeroed, delivery)] := ⟨_, rfl, rfl⟩
  have reached := System.exec_reachable newStream_starts ran
  obtain ⟨alone, together⟩ := packets_dispatched formed zeroed zeroed
    [(greeting, succeeds.seenAlone), (delivery, succeeds.seenAlone)] reached 0
  refine ⟨s, reads, together.mpr ?_, alone.mpr (whole_packets_inStep formed)⟩
  rw [reads]
  exact .cons ((formed _ (by simp)).shown _) (.cons ((formed _ (by simp)).shown _) .nil)

-- One `read` returns the greeting and the delivery, and the delivery is not dispatched.
theorem joined_packets_lost :
    (¬ ∀ (sendUnwritten recvUnwritten : Block) (packets : List (List UInt8)) (reads : List (List UInt8 × Outcome)),
      (∀ packet ∈ packets, WellFormed packet) → (reads.map Prod.fst).flatten = packets.flatten →
      (∀ read ∈ reads, read.1 ≠ [] ∧ read.1.length ≤ headerLength + dataSize) →
      DispatchesSent (.start sendUnwritten recvUnwritten) reads packets) ∧
    ¬ ∀ s : StreamServer, streamServer.Reachable s → ∀ (c : Nat) (packets : List (List UInt8)),
      (∀ packet ∈ packets, WellFormed packet) → ((s.reads c).map Prod.snd).flatten = packets.flatten →
      s.dispatched c = packets.map sentAs := by
  have formed : ∀ packet ∈ [greeting, delivery], WellFormed packet := by decide
  constructor
  · intro claimed
    have sent := claimed zeroed zeroed [greeting, delivery] [(greeting ++ delivery, succeeds.seenAlone)] formed
      (by simp) (by decide)
    have running : (Session.rounds (.start zeroed zeroed)
        (packetReads [(greeting ++ delivery, succeeds.seenAlone)])).map (fun result => result.1.isOver) = some false := rfl
    rcases sent.2 with stopped | whole
    · obtain ⟨⟨s, effects⟩, ran, ended⟩ := Option.map_eq_some_iff.mp running
      exact absurd (stopped s effects ran) (by simp [ended])
    · exact absurd (congrArg List.length whole) (by decide)
  · intro claimed
    obtain ⟨s, ran, reads, dispatched⟩ : ∃ s,
        streamServer.exec newStream (connects 0 ++ receives (greeting ++ delivery)) = some s ∧
        s.reads 0 = [(zeroed, greeting ++ delivery)] ∧ (s.dispatched 0).length = 1 := ⟨_, rfl, rfl, rfl⟩
    have reached := System.exec_reachable newStream_starts ran
    have sent := claimed s reached 0 [greeting, delivery] formed (by simp [reads])
    simp [sent] at dispatched

end NetProg.P2
