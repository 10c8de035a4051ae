import NetProg.P1.Client
import NetProg.Shared.Transition

set_option autoImplicit false

-- The two loops and the packets between them, when every `read` returns one packet and no call fails.

namespace NetProg.P1

open Memory Upload Transition

inductive Side where
  | client
  | server
deriving DecidableEq, Repr

structure Setting where
  -- What is given from outside to one transfer.
  fileName : List UInt8
  -- the non-empty results of `read(fd)`
  chunks : List (List UInt8)
  clientRand : Nat
  serverRand : Nat
  -- what the four packet variables hold at first
  unwritten : Side → Block
  received : Side → Block

structure Setting.Valid (p : Setting) : Prop where
  text : ∀ c ∈ p.fileName, c ≠ 0
  short : p.fileName.length < dataSize
  chunks : ∀ bytes ∈ p.chunks, bytes ≠ [] ∧ bytes.length ≤ dataSize
  size : p.chunks.flatten.length < 2 ^ 32

structure Exchange where
  client : Client
  server : Session
  -- packets that have been written and not read
  toServer : List (List UInt8)
  toClient : List (List UInt8)
  log : List (Side × List UInt8)
  written : List (List UInt8 × List UInt8)

inductive ExchangeEvent where
  | client
  | server (memory : Block) (stored : Nat)

def Setting.start (p : Setting) : Exchange :=
  let (client, packets) := Client.start (p.unwritten .client) (p.received .client) (p.chunks.map some) p.clientRand
  { client, server := .start (p.unwritten .server) (p.received .server), toServer := packets, toClient := [],
    log := packets.map fun packet => (.client, packet), written := [] }

def Setting.outcome (p : Setting) (memory : Block) (stored : Nat) : Outcome where
  rand := p.serverRand
  realloc := some memory
  malloc := true
  opens := true
  writes := some stored

def Setting.step (p : Setting) (s : Exchange) : ExchangeEvent → Option Exchange
  | .client => match s.toClient with
    | [] => none
    | packet :: rest =>
      if s.client.isOver then none
      else (s.client.iterate p.fileName (.packet packet)).map fun (client, packets) =>
        { s with client, toClient := rest, toServer := s.toServer ++ packets
                 log := s.log ++ packets.map fun packet => (.client, packet) }
  | .server memory stored => match s.toServer with
    | [] => none
    | packet :: rest =>
      if s.server.isOver then none
      else (s.server.iterate (.packet packet) (p.outcome memory stored)).map fun (server, effects) =>
        { s with server, toServer := rest, toClient := s.toClient ++ effects.replies
                 log := s.log ++ effects.replies.map fun packet => (.server, packet)
                 written := s.written ++ effects.written.toList }

def Setting.system (p : Setting) : System Exchange ExchangeEvent where
  init s := s = p.start
  step := p.step

section Transcript

variable (p : Setting)

def Setting.deliveries : List (List UInt8) := if p.chunks = [] then [[]] else p.chunks

def Setting.clientSequence (i : Nat) : UInt16 := UInt16.ofNat (p.clientRand % maxSequence) + UInt16.ofNat i

def Setting.serverSequence (i : Nat) : UInt16 := UInt16.ofNat (p.serverRand % maxSequence) + UInt16.ofNat i

def Setting.request (i : Nat) : List UInt8 :=
  if i = 0 then message (p.clientSequence 0) clientHello []
  else match p.deliveries[i - 1]? with
    | some data => message (p.clientSequence i) dataDelivery data
    | none => message (p.clientSequence i) dataStore (p.fileName ++ [0])

def Setting.answer (i : Nat) : List UInt8 :=
  if i = 0 then message (p.serverSequence 0) serverHello []
  else if i ≤ p.deliveries.length then message (p.serverSequence i) pktReceived []
  else message (p.serverSequence i) fileStored []

def Setting.round (i : Nat) : List (Side × List UInt8) := [(.client, p.request i), (.server, p.answer i)]

def Setting.transcript : List (Side × List UInt8) := (List.range (p.deliveries.length + 2)).flatMap p.round

end Transcript

theorem serverSequence_succ (p : Setting) (i : Nat) : p.serverSequence (i + 1) = p.serverSequence i + 1 := by
  rw [Setting.serverSequence, UInt16.ofNat_add, ← UInt16.add_assoc]
  rfl

theorem clientSequence_succ (p : Setting) (i : Nat) : p.clientSequence (i + 1) = p.clientSequence i + 1 := by
  rw [Setting.clientSequence, UInt16.ofNat_add, ← UInt16.add_assoc]
  rfl

section Stages

variable {p : Setting}

theorem deliveries_flatten : p.deliveries.flatten = p.chunks.flatten := by
  by_cases empty : p.chunks = [] <;> simp [Setting.deliveries, empty]

theorem deliveries_short (valid : p.Valid) : ∀ data ∈ p.deliveries, data.length ≤ dataSize := by
  intro data member
  by_cases empty : p.chunks = []
  · obtain rfl : data = [] := by simpa [Setting.deliveries, empty] using member
    exact Nat.zero_le _
  · exact (valid.chunks data (by simpa [Setting.deliveries, empty] using member)).2

structure ClientAt (p : Setting) (i : Nat) (c : Client) : Prop where
  sent : c.Sent (p.clientSequence i)
  reads : c.reads = (p.chunks.drop i).map some
  on : c.isOver = false

structure ServerAt (p : Setting) (i : Nat) (s : Session) : Prop where
  static : load s.serverSendPkt 0 2 = [staticVersion, staticUserId]
  sequence : 0 < i → s.Sent (p.serverSequence (i - 1))
  buffered : s.Buffered (p.deliveries.take (i - 1)).flatten
  null : i ≤ 1 → s.buffer = none
  on : s.isOver = false

theorem take_flatten_succ {i : Nat} (inside : i < p.deliveries.length) :
    (p.deliveries.take (i + 1)).flatten = (p.deliveries.take i).flatten ++ p.deliveries[i] := by
  rw [List.take_add_one, List.flatten_append, List.getElem?_eq_getElem inside]
  simp

theorem delivered_room (valid : p.Valid) {i : Nat} (inside : i < p.deliveries.length) :
    (p.deliveries.take i).flatten.length + p.deliveries[i].length < 2 ^ 32 := by
  have whole := congrArg List.length (congrArg List.flatten (List.take_append_drop (i + 1) p.deliveries))
  rw [List.flatten_append, take_flatten_succ inside, deliveries_flatten] at whole
  simp only [List.length_append] at whole
  have size := valid.size
  omega

theorem delivery_nonempty (valid : p.Valid) {i : Nat} (inside : i < p.deliveries.length) (later : 0 < i) :
    0 < p.deliveries[i].length := by
  have nonempty : p.chunks ≠ [] := by
    rintro empty
    simp only [Setting.deliveries, empty, if_true, List.length_singleton] at inside
    omega
  have listed : p.deliveries[i] ∈ p.chunks := by
    simpa only [Setting.deliveries, if_neg nonempty] using List.getElem_mem inside
  exact List.length_pos_iff.mpr (valid.chunks _ listed).1

theorem request_carries (valid : p.Valid) (pkt : Block) {i : Nat} (inside : i < p.deliveries.length) :
    Carries (receivePkt pkt (headerLength + dataSize) (p.request (i + 1))) (p.clientSequence (i + 1)) dataDelivery
      p.deliveries[i] := by
  have packet : p.request (i + 1) = message (p.clientSequence (i + 1)) dataDelivery p.deliveries[i] := by
    simp [Setting.request, inside]
  rw [packet]
  refine receivePkt_carries pkt _ _ (Nat.add_le_add_left ?_ headerLength)
  exact deliveries_short valid _ (List.getElem_mem inside)

theorem server_start (p : Setting) : ServerAt p 0 (.start (p.unwritten .server) (p.received .server)) where
  static := initPkt_static _
  sequence := fun positive => absurd positive (Nat.lt_irrefl 0)
  buffered := ⟨rfl, fun b held => (by cases held), fun _ => rfl⟩
  null := fun _ => rfl
  on := rfl

theorem server_answers (valid : p.Valid) {i : Nat} (early : i ≤ p.deliveries.length) {s : Session}
    (here : ServerAt p i s) (memory : Block) (stored : Nat) :
    ∃ s', s.iterate (.packet (p.request i)) (p.outcome memory stored) =
      some (s', { replies := [p.answer i], written := none }) ∧ ServerAt p (i + 1) s' := by
  let received := { s with serverRecvPkt := receivePkt s.serverRecvPkt (headerLength + dataSize) (p.request i) }
  cases i with
  | zero =>
    have carries : Carries received.serverRecvPkt (p.clientSequence 0) clientHello [] :=
      receivePkt_carries _ _ _ (Nat.le_add_right _ _)
    have first : p.serverSequence 0 = UInt16.ofNat (p.serverRand % maxSequence) := by simp [Setting.serverSequence]
    have effects := reply_effects (s := received) here.static (p.serverRand % maxSequence) serverHello none
    have sent := reply_sent (s := received) here.static (p.serverRand % maxSequence) serverHello none
    refine ⟨_, (handle_hello carries (p.outcome memory stored)).trans (congrArg some (Prod.ext rfl ?_)), ?_⟩
    · rw [Setting.answer, if_pos rfl, first]
      exact effects
    · constructor
      case static => exact sent.static
      case sequence => intro _; rw [first]; exact sent
      case buffered => exact ⟨here.buffered.count, here.buffered.block, here.buffered.null⟩
      case null => intro _; exact here.null (Nat.zero_le 1)
      case on => exact here.on
  | succ i =>
    have before : received.Sent (p.serverSequence i) := by
      have sent := here.sequence (Nat.succ_pos i)
      exact ⟨sent.static, sent.last⟩
    have buffered : received.Buffered (p.deliveries.take i).flatten :=
      ⟨here.buffered.count, here.buffered.block, here.buffered.null⟩
    have kept : received.buffer = none ∨ 0 < (p.deliveries.take i).flatten.length + p.deliveries[i].length := by
      by_cases first : i = 0
      · exact .inl (here.null (by omega))
      · have nonempty := delivery_nonempty valid early (Nat.pos_of_ne_zero first)
        exact .inr (by omega)
    obtain ⟨s', handled, sent, grown, same⟩ := handle_delivery (request_carries valid s.serverRecvPkt early)
      (deliveries_short valid _ (List.getElem_mem early)) before buffered (delivered_room valid early)
      (o := p.outcome memory stored) rfl kept
    rw [← serverSequence_succ] at handled sent
    refine ⟨s', ?_, ?_⟩
    · rw [Setting.answer, if_neg (Nat.succ_ne_zero i), if_pos early]
      exact handled
    · constructor
      case static => exact sent.static
      case sequence => intro _; exact sent
      case buffered =>
        rw [Nat.add_sub_cancel, take_flatten_succ early]
        exact grown
      case null => omega
      case on => exact same.trans here.on

theorem server_stores (valid : p.Valid) {s : Session} (here : ServerAt p (p.deliveries.length + 1) s) (memory : Block)
    (stored : Nat) :
    ∃ s', s.iterate (.packet (p.request (p.deliveries.length + 1))) (p.outcome memory stored) =
      some (s', { replies := [p.answer (p.deliveries.length + 1)]
                  written := some (p.fileName, p.chunks.flatten) }) ∧ s'.fileStored = true := by
  have packet : p.request (p.deliveries.length + 1) =
      message (p.clientSequence (p.deliveries.length + 1)) dataStore (p.fileName ++ [0]) := by
    simp [Setting.request]
  have carries : Carries (receivePkt s.serverRecvPkt (headerLength + dataSize) (p.request (p.deliveries.length + 1)))
      (p.clientSequence (p.deliveries.length + 1)) dataStore (p.fileName ++ [0]) := by
    rw [packet]
    refine receivePkt_carries _ _ _ (Nat.add_le_add_left ?_ headerLength)
    rw [List.length_append]
    exact valid.short
  let received := { s with serverRecvPkt :=
                      receivePkt s.serverRecvPkt (headerLength + dataSize) (p.request (p.deliveries.length + 1)) }
  have sent := here.sequence (Nat.succ_pos _)
  have buffered : received.Buffered p.chunks.flatten := by
    have held := here.buffered
    rw [Nat.add_sub_cancel, List.take_length, deliveries_flatten] at held
    exact ⟨held.count, held.block, held.null⟩
  have before : received.Sent (p.serverSequence p.deliveries.length) := ⟨sent.static, sent.last⟩
  obtain ⟨s', handled, ended⟩ := handle_store (s := received) carries valid.text valid.short before buffered
    (o := p.outcome memory stored) ⟨rfl, rfl⟩ rfl
  rw [← serverSequence_succ] at handled
  refine ⟨s', ?_, ended⟩
  rw [Setting.answer, if_neg (Nat.succ_ne_zero _), if_neg (Nat.not_succ_le_self _)]
  exact handled

theorem client_start (p : Setting) :
    ClientAt p 0 (Client.start (p.unwritten .client) (p.received .client) (p.chunks.map some) p.clientRand).1 ∧
      (Client.start (p.unwritten .client) (p.received .client) (p.chunks.map some) p.clientRand).2 = [p.request 0] := by
  obtain ⟨packets, sent⟩ := start_eq (p.unwritten .client) (p.received .client) (p.chunks.map some) p.clientRand
  have first : p.clientSequence 0 = UInt16.ofNat (p.clientRand % maxSequence) := by simp [Setting.clientSequence]
  refine ⟨⟨first ▸ sent, rfl, rfl⟩, ?_⟩
  rw [packets, Setting.request, if_pos rfl, first]

theorem answer_carries (p : Setting) (pkt : Block) (i : Nat) :
    Carries (receivePkt pkt headerLength (p.answer i)) (p.serverSequence i)
      (if i = 0 then serverHello else if i ≤ p.deliveries.length then pktReceived else fileStored) [] := by
  have packet : p.answer i = message (p.serverSequence i)
      (if i = 0 then serverHello else if i ≤ p.deliveries.length then pktReceived else fileStored) [] := by
    simp only [Setting.answer]
    split_ifs with first
    · rw [first]
    · rfl
    · rfl
  rw [packet]
  exact receivePkt_carries pkt _ _ (Nat.le_refl _)

theorem readFile_eq {c : Client} {i : Nat} (reads : c.reads = (p.chunks.drop i).map some) :
    c.readFile = (some (p.chunks.getD i []), { c with reads := (p.chunks.drop (i + 1)).map some }) := by
  by_cases inside : i < p.chunks.length
  · rw [List.drop_eq_getElem_cons inside, List.map_cons] at reads
    simp [Client.readFile, reads, inside]
  · have behind : p.chunks.length ≤ i := Nat.not_lt.mp inside
    rw [List.drop_eq_nil_of_le behind, List.map_nil] at reads
    have same : { c with reads := [] } = c := by rw [← reads]
    rw [List.drop_eq_nil_of_le (Nat.le_succ_of_le behind), List.map_nil, same]
    simp [Client.readFile, reads, behind]

theorem request_next (valid : p.Valid) {i : Nat} (early : i ≤ p.deliveries.length) :
    p.request (i + 1) =
      if p.chunks.getD i [] = [] ∧ i ≠ 0 then message (p.clientSequence (i + 1)) dataStore (p.fileName ++ [0])
      else message (p.clientSequence (i + 1)) dataDelivery (p.chunks.getD i []) := by
  simp only [Setting.request, if_neg (Nat.succ_ne_zero i), Nat.add_sub_cancel]
  by_cases inside : i < p.chunks.length
  · have nonempty : p.chunks ≠ [] := List.ne_nil_of_length_pos (by omega)
    have chunk : p.chunks[i] ≠ [] := (valid.chunks _ (List.getElem_mem inside)).1
    simp [Setting.deliveries, nonempty, inside, chunk]
  · have behind : p.chunks.length ≤ i := Nat.not_lt.mp inside
    by_cases first : i = 0
    · subst first
      have empty : p.chunks = [] := List.length_eq_zero_iff.mp (by omega)
      simp [Setting.deliveries, empty]
    · have last : p.deliveries.length ≤ i := by
        simp only [Setting.deliveries]
        split_ifs
        · simp only [List.length_singleton]
          omega
        · exact behind
      simp [List.getElem?_eq_none last, behind, first]

theorem client_asks (valid : p.Valid) {i : Nat} (early : i ≤ p.deliveries.length) {c : Client}
    (here : ClientAt p i c) :
    ∃ c', c.iterate p.fileName (.packet (p.answer i)) = some (c', [p.request (i + 1)]) ∧ ClientAt p (i + 1) c' := by
  let received := { c with clientRecvPkt := receivePkt c.clientRecvPkt headerLength (p.answer i) }
  let read := { received with reads := (p.chunks.drop (i + 1)).map some }
  have carries := answer_carries p c.clientRecvPkt i
  have file : received.readFile = (some (p.chunks.getD i []), read) := readFile_eq here.reads
  have sent : read.Sent (p.clientSequence i) := ⟨here.sent.static, here.sent.last⟩
  have short : p.fileName.length + 1 ≤ dataSize := valid.short
  have handled : received.handle p.fileName = some (
      if p.chunks.getD i [] = [] ∧ i ≠ 0 then read.sendNext (p.fileName ++ [0]) dataStore
      else read.sendNext (p.chunks.getD i []) dataDelivery) := by
    by_cases first : i = 0
    · have command : load16 received.clientRecvPkt commandAt = serverHello := by
        rw [carries.command, if_pos first]
      simp only [Client.handle, command, if_true, file, first, ne_eq, not_true, and_false, if_false]
    · have command : load16 received.clientRecvPkt commandAt = pktReceived := by
        rw [carries.command, if_neg first, if_pos early]
      have other : pktReceived ≠ serverHello := by decide
      simp only [Client.handle, command, if_neg other, if_true, file]
      cases chunk : p.chunks.getD i [] with
      | nil => simp only [if_pos short, ne_eq, first, not_false_eq_true, and_self, if_true]
      | cons b rest => simp only [reduceCtorEq, false_and, if_false]
  have asked : ∀ data cmd, (read.sendNext data cmd).2 = [message (p.clientSequence (i + 1)) cmd data] ∧
      ClientAt p (i + 1) (read.sendNext data cmd).1 := by
    intro data cmd
    obtain ⟨packets, next⟩ := sendNext_eq sent data cmd
    rw [← clientSequence_succ] at packets next
    exact ⟨packets, next, rfl, here.on⟩
  refine ⟨_, handled.trans (congrArg some (Prod.ext rfl ?_)), ?_⟩
  · rw [request_next valid early]
    split_ifs
    · exact (asked _ _).1
    · exact (asked _ _).1
  · split_ifs
    · exact (asked _ _).2
    · exact (asked _ _).2

theorem client_finishes (p : Setting) (c : Client) :
    ∃ c', c.iterate p.fileName (.packet (p.answer (p.deliveries.length + 1))) = some (c', []) ∧ c'.fileStored = true := by
  have carries := answer_carries p c.clientRecvPkt (p.deliveries.length + 1)
  rw [if_neg (Nat.succ_ne_zero _), if_neg (Nat.not_succ_le_self _)] at carries
  let received := receivePkt c.clientRecvPkt headerLength (p.answer (p.deliveries.length + 1))
  refine ⟨{ c with clientRecvPkt := received, fileStored := true }, ?_, rfl⟩
  simp only [Client.iterate, Client.handle, carries.command]
  rfl

inductive Stage (p : Setting) : Nat → Exchange → Prop where
  | asked (i : Nat) (early : i ≤ p.deliveries.length + 1) (s : Exchange) (client : ClientAt p i s.client)
      (server : ServerAt p i s.server) (toServer : s.toServer = [p.request i]) (toClient : s.toClient = [])
      (log : s.log = (List.range i).flatMap p.round ++ [(.client, p.request i)]) (written : s.written = []) :
      Stage p (2 * i) s
  | answered (i : Nat) (early : i ≤ p.deliveries.length) (s : Exchange) (client : ClientAt p i s.client)
      (server : ServerAt p (i + 1) s.server) (toServer : s.toServer = []) (toClient : s.toClient = [p.answer i])
      (log : s.log = (List.range (i + 1)).flatMap p.round) (written : s.written = []) : Stage p (2 * i + 1) s
  | stored (s : Exchange) (client : ClientAt p (p.deliveries.length + 1) s.client) (server : s.server.fileStored = true)
      (toServer : s.toServer = []) (toClient : s.toClient = [p.answer (p.deliveries.length + 1)])
      (log : s.log = p.transcript) (written : s.written = [(p.fileName, p.chunks.flatten)]) :
      Stage p (2 * (p.deliveries.length + 1) + 1) s
  | complete (s : Exchange) (client : s.client.fileStored = true) (server : s.server.fileStored = true)
      (toServer : s.toServer = []) (toClient : s.toClient = []) (log : s.log = p.transcript)
      (written : s.written = [(p.fileName, p.chunks.flatten)]) : Stage p (2 * (p.deliveries.length + 2)) s

theorem start_stage (p : Setting) : Stage p 0 p.start := by
  obtain ⟨client, packets⟩ := client_start p
  refine .asked 0 (Nat.zero_le _) p.start client (server_start p) packets rfl ?_ rfl
  simp [Setting.start, packets]

theorem server_step {s : Exchange} {packet : List UInt8} {server : Session} {effects : Effects} {memory : Block}
    {stored : Nat} (toServer : s.toServer = [packet]) (on : s.server.isOver = false)
    (handled : s.server.iterate (.packet packet) (p.outcome memory stored) = some (server, effects)) :
    p.step s (.server memory stored) =
      some { s with server, toServer := [], toClient := s.toClient ++ effects.replies
                    log := s.log ++ effects.replies.map fun packet => (.server, packet)
                    written := s.written ++ effects.written.toList } := by
  simp [Setting.step, toServer, on, handled]

theorem client_step {s : Exchange} {packet : List UInt8} {client : Client} {packets : List (List UInt8)}
    (toClient : s.toClient = [packet]) (on : s.client.isOver = false)
    (handled : s.client.iterate p.fileName (.packet packet) = some (client, packets)) :
    p.step s .client = some { s with client, toClient := [], toServer := s.toServer ++ packets
                                     log := s.log ++ packets.map fun packet => (.client, packet) } := by
  simp [Setting.step, toClient, on, handled]

theorem client_blocked {s : Exchange} (toClient : s.toClient = []) : p.step s .client = none := by
  simp [Setting.step, toClient]

theorem server_blocked {s : Exchange} (toServer : s.toServer = []) (memory : Block) (stored : Nat) :
    p.step s (.server memory stored) = none := by
  simp [Setting.step, toServer]

theorem asked_step (valid : p.Valid) {i : Nat} (early : i ≤ p.deliveries.length + 1) {s : Exchange}
    (client : ClientAt p i s.client) (server : ServerAt p i s.server) (toServer : s.toServer = [p.request i])
    (toClient : s.toClient = []) (log : s.log = (List.range i).flatMap p.round ++ [(.client, p.request i)])
    (written : s.written = []) (memory : Block) (stored : Nat) :
    ∃ s', p.step s (.server memory stored) = some s' ∧ Stage p (2 * i + 1) s' := by
  have grown : s.log ++ [(.server, p.answer i)] = (List.range (i + 1)).flatMap p.round := by
    rw [log, List.range_succ, List.flatMap_append, List.append_assoc]
    simp [Setting.round]
  by_cases last : i = p.deliveries.length + 1
  · subst last
    obtain ⟨server', handled, ended⟩ := server_stores valid server memory stored
    refine ⟨_, server_step toServer server.on handled, .stored _ client ended rfl ?_ grown ?_⟩
    · simp [toClient]
    · simp [written]
  · have before : i ≤ p.deliveries.length := by omega
    obtain ⟨server', handled, next⟩ := server_answers valid before server memory stored
    refine ⟨_, server_step toServer server.on handled, .answered i before _ client next rfl ?_ grown ?_⟩
    · simp [toClient]
    · simp [written]

theorem answered_step (valid : p.Valid) {i : Nat} (early : i ≤ p.deliveries.length) {s : Exchange}
    (client : ClientAt p i s.client) (server : ServerAt p (i + 1) s.server) (toServer : s.toServer = [])
    (toClient : s.toClient = [p.answer i]) (log : s.log = (List.range (i + 1)).flatMap p.round)
    (written : s.written = []) : ∃ s', p.step s .client = some s' ∧ Stage p (2 * i + 1 + 1) s' := by
  obtain ⟨client', handled, next⟩ := client_asks valid early client
  refine ⟨_, client_step toClient client.on handled, ?_⟩
  refine .asked (i + 1) (Nat.succ_le_succ early) _ next server ?_ rfl ?_ written
  · simp [toServer]
  · simp [log]

theorem stored_step {s : Exchange} (client : ClientAt p (p.deliveries.length + 1) s.client)
    (server : s.server.fileStored = true) (toServer : s.toServer = [])
    (toClient : s.toClient = [p.answer (p.deliveries.length + 1)]) (log : s.log = p.transcript)
    (written : s.written = [(p.fileName, p.chunks.flatten)]) :
    ∃ s', p.step s .client = some s' ∧ Stage p (2 * (p.deliveries.length + 1) + 1 + 1) s' := by
  obtain ⟨client', handled, ended⟩ := client_finishes p s.client
  refine ⟨_, client_step toClient client.on handled, ?_⟩
  refine .complete _ ended server ?_ rfl ?_ written
  · simp [toServer]
  · simp [log]

theorem stage_step (valid : p.Valid) {k : Nat} {s s' : Exchange} {e : ExchangeEvent} (stage : Stage p k s)
    (stepped : p.step s e = some s') : Stage p (k + 1) s' := by
  cases stage with
  | asked i early s client server toServer toClient log written =>
    cases e with
    | client => simp [client_blocked toClient] at stepped
    | server memory stored =>
      obtain ⟨s₁, ran, next⟩ := asked_step valid early client server toServer toClient log written memory stored
      obtain rfl := Option.some.inj (ran.symm.trans stepped)
      exact next
  | answered i early s client server toServer toClient log written =>
    cases e with
    | client =>
      obtain ⟨s₁, ran, next⟩ := answered_step valid early client server toServer toClient log written
      obtain rfl := Option.some.inj (ran.symm.trans stepped)
      exact next
    | server memory stored => simp [server_blocked toServer] at stepped
  | stored s client server toServer toClient log written =>
    cases e with
    | client =>
      obtain ⟨s₁, ran, next⟩ := stored_step client server toServer toClient log written
      obtain rfl := Option.some.inj (ran.symm.trans stepped)
      exact next
    | server memory stored => simp [server_blocked toServer] at stepped
  | complete s client server toServer toClient log written =>
    cases e with
    | client => simp [client_blocked toClient] at stepped
    | server memory stored => simp [server_blocked toServer] at stepped

theorem stage_enabled (valid : p.Valid) {k : Nat} {s : Exchange} (stage : Stage p k s)
    (unfinished : k < 2 * (p.deliveries.length + 2)) : ∃ e s', p.step s e = some s' := by
  cases stage with
  | asked i early s client server toServer toClient log written =>
    obtain ⟨s', ran, -⟩ := asked_step valid early client server toServer toClient log written (fun _ => 0) 0
    exact ⟨_, s', ran⟩
  | answered i early s client server toServer toClient log written =>
    obtain ⟨s', ran, -⟩ := answered_step valid early client server toServer toClient log written
    exact ⟨_, s', ran⟩
  | stored s client server toServer toClient log written =>
    obtain ⟨s', ran, -⟩ := stored_step client server toServer toClient log written
    exact ⟨_, s', ran⟩
  | complete s client server toServer toClient log written => omega

theorem run_stage (valid : p.Valid) {events : List ExchangeEvent} {k : Nat} {s s' : Exchange} (stage : Stage p k s)
    (ran : p.system.exec s events = some s') : Stage p (k + events.length) s' := by
  induction events generalizing k s with
  | nil =>
    obtain rfl := Option.some.inj ran
    exact stage
  | cons e rest ih =>
    cases stepped : p.system.step s e with
    | none => simp [System.exec, stepped] at ran
    | some mid =>
      rw [System.exec_cons stepped] at ran
      have later := ih (stage_step valid stage stepped) ran
      rwa [Nat.add_assoc, Nat.add_comm 1] at later

theorem transcript_length (p : Setting) : p.transcript.length = 2 * (p.deliveries.length + 2) := by
  simp [Setting.transcript, Setting.round, List.length_flatMap, Nat.mul_comm]

theorem rounds_prefix {i : Nat} (early : i ≤ p.deliveries.length + 2) :
    (List.range i).flatMap p.round <+: p.transcript := by
  obtain ⟨rest, size⟩ := Nat.exists_eq_add_of_le early
  rw [Setting.transcript, size, List.range_add, List.flatMap_append]
  exact List.prefix_append _ _

theorem stage_log {k : Nat} {s : Exchange} (stage : Stage p k s) : s.log <+: p.transcript := by
  cases stage with
  | asked i early s client server toServer toClient log written =>
    have whole := rounds_prefix (p := p) (Nat.succ_le_succ early)
    rw [List.range_succ, List.flatMap_append, List.flatMap_singleton, Setting.round] at whole
    rw [log]
    exact List.IsPrefix.trans ((List.prefix_append_right_inj _).mpr (by simp)) whole
  | answered i early s client server toServer toClient log written =>
    rw [log]
    exact rounds_prefix (by omega)
  | stored s client server toServer toClient log written => exact log ▸ List.prefix_rfl
  | complete s client server toServer toClient log written => exact log ▸ List.prefix_rfl

end Stages

theorem file_transferred {p : Setting} (valid : p.Valid) {events : List ExchangeEvent} {s : Exchange}
    (ran : p.system.exec p.start events = some s) :
    s.log <+: p.transcript ∧ events.length ≤ p.transcript.length ∧
      (events.length < p.transcript.length → ∃ e s', p.step s e = some s') ∧
      (events.length = p.transcript.length → s.log = p.transcript ∧ s.client.fileStored = true ∧
        s.server.fileStored = true ∧ s.written = [(p.fileName, p.chunks.flatten)]) := by
  have stage := run_stage valid (start_stage p) ran
  rw [Nat.zero_add] at stage
  rw [transcript_length]
  refine ⟨stage_log stage, ?_, stage_enabled valid stage, ?_⟩
  · generalize events.length = k at stage
    cases stage <;> omega
  · intro through
    rw [through] at stage
    generalize total : 2 * (p.deliveries.length + 2) = k at stage
    cases stage with
    | asked => omega
    | answered => omega
    | stored => omega
    | complete s client server toServer toClient log written => exact ⟨log, client, server, written⟩

def threeBytes : Setting where
  fileName := [97]
  chunks := [[1, 2], [3]]
  clientRand := 65534
  serverRand := 7
  unwritten := fun _ _ => 0
  received := fun _ _ => 0

theorem threeBytes_valid : threeBytes.Valid where
  text := by simp [threeBytes]
  short := by decide
  chunks := by decide
  size := by decide

theorem three_bytes_transferred : ∃ s,
    threeBytes.system.exec threeBytes.start [.server (fun _ => 0) 0, .client, .server (fun _ => 0) 0, .client,
      .server (fun _ => 0) 0, .client, .server (fun _ => 0) 3, .client] = some s ∧
      s.client.fileStored = true ∧ s.written = [([97], [1, 2, 3])] := by
  obtain ⟨s, ran⟩ : ∃ s, threeBytes.system.exec threeBytes.start [.server (fun _ => 0) 0, .client,
      .server (fun _ => 0) 0, .client, .server (fun _ => 0) 0, .client, .server (fun _ => 0) 3, .client] = some s :=
    ⟨_, rfl⟩
  obtain ⟨-, client, -, written⟩ := (file_transferred threeBytes_valid ran).2.2.2 (by decide)
  exact ⟨s, ran, client, written⟩

end NetProg.P1
