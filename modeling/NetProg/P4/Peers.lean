import NetProg.Net.FdPool
import NetProg.P4.ChildServer
import NetProg.Shared.Threads
import NetProg.Shared.Transition

set_option autoImplicit false

namespace NetProg.P4

open Memory Threads Transition

variable {K : Type} [DecidableEq K]

-- Whether a socket with these packets in it takes one more.
abbrev Room := List (List UInt8) → List UInt8 → Bool

-- Where a connection is at its peer: in the queue of the listening socket, in `clientfd`, or accepted when
-- `addClient` had no slot, so that `select` does not look at it.
inductive Accepted where
  | queued
  | slot
  | lost
deriving DecidableEq, Repr

structure Connection (K : Type) where
  client : K
  peer : K
  -- the FILE_REQ, and whether it is still to be read
  fileReqPkt : List UInt8
  pending : Bool
  accepted : Accepted
  -- what `handleClientRequest` has to write here, and whether it returns then
  sending : Option (List (List UInt8) × Bool)
  -- packets that have been written and not been read
  arrived : List (List UInt8)
  -- Ghost record of the run: what the client wants.
  fileName : List UInt8
  fileSize : UInt32

inductive Getting where
  | prompt
  | receiving (c : Nat) (fileSize : UInt32) (r : Receiving)

structure Peers (K : Type) where
  mains : K → Getting
  -- the connection whose request a listening thread handles
  servers : K → Option Nat
  connections : List (Connection K)
  -- Ghost record of the run: how the receive loops have ended.
  results : List (Nat × Received)

inductive PeerEvent (K : Type) where
  -- what the super node has answered, and the memory that the command gets
  | get (k peer : K) (fileName : List UInt8) (fileSize : UInt32) (fileReqPkt fileResSuccessPkt fileBuffer : Block)
  | accept (j : K) (c : Nat)
  | serve (j : K) (c : Nat)
  | send (j : K)
  | finish (j : K)
  | receive (k : K)

def PeerEvent.isGet : PeerEvent K → Bool
  | .get .. => true
  | _ => false

section Events

variable (nodes : K → ChildNode) (takes : Room) (s : Peers K)

def Connection.answer (connection : Connection K) : Run (List (List UInt8) × Bool) :=
  (nodes connection.peer).handleClientRequest (some connection.fileReqPkt)

def Peers.change (c : Nat) (connection : Connection K) : Peers K :=
  { s with connections := s.connections.set c connection }

def opened (k peer : K) (fileName : List UInt8) (fileSize : UInt32) (fileReqPkt : Block) : Connection K where
  client := k
  peer := peer
  fileReqPkt := fileReqPacket fileReqPkt (nodes k).id fileName
  pending := true
  accepted := .queued
  sending := none
  arrived := []
  fileName := fileName
  fileSize := fileSize

def Peers.get (k peer : K) (fileName : List UInt8) (fileSize : UInt32)
    (fileReqPkt fileResSuccessPkt fileBuffer : Block) : Option (Peers K) :=
  match s.mains k with
  | .receiving .. => none
  | .prompt =>
    let r := Receiving.start fileResSuccessPkt fileBuffer
    some { s with
      mains := Function.update s.mains k (.receiving s.connections.length fileSize r)
      connections := s.connections ++ [opened nodes k peer fileName fileSize fileReqPkt] }

def Peers.clients (j : K) : List (Connection K) := s.connections.filter fun connection => connection.peer = j

-- Main does not close its connection to a peer, so a slot that is taken stays taken.
def Peers.slots (j : K) : Nat := (s.clients j).countP fun connection => connection.accepted = .slot

def Peers.addClient (j : K) : Accepted := if s.slots j < fdSetSize then .slot else .lost

def Peers.accept (j : K) (c : Nat) : Option (Peers K) :=
  match s.servers j, s.connections[c]? with
  | none, some connection =>
    if connection.peer = j ∧ connection.accepted = .queued then
      some (s.change c { connection with accepted := s.addClient j })
    else none
  | _, _ => none

def Peers.serve (j : K) (c : Nat) : Option (Peers K) :=
  match s.servers j, s.connections[c]? with
  | none, some connection =>
    if connection.peer = j ∧ connection.accepted = .slot ∧ connection.pending = true then
      match connection.answer nodes with
      | .ok sending => some { s.change c { connection with pending := false, sending := some sending } with
          servers := Function.update s.servers j (some c) }
      | .error _ => none
    else none
  | _, _ => none

def Peers.serving (j : K) : Option (Nat × Connection K × List (List UInt8) × Bool) := do
  let c ← s.servers j
  let connection ← s.connections[c]?
  let (left, returns) ← connection.sending
  some (c, connection, left, returns)

def Peers.send (j : K) : Option (Peers K) :=
  -- `write` waits until the socket takes the packet
  match s.serving j with
  | some (c, connection, packet :: left, returns) =>
    if takes connection.arrived packet = true then
      some (s.change c { connection with sending := some (left, returns), arrived := connection.arrived ++ [packet] })
    else none
  | _ => none

def Peers.finish (j : K) : Option (Peers K) :=
  match s.serving j with
  | some (c, connection, [], true) =>
    some { s.change c { connection with sending := none } with servers := Function.update s.servers j none }
  | _ => none

def Peers.receive (k : K) : Option (Peers K) :=
  match s.mains k with
  | .prompt => none
  | .receiving c fileSize r => match s.connections[c]? with
    | none => none
    | some connection => match connection.arrived with
      | [] => none
      | packet :: arrived =>
        let read := s.change c { connection with arrived }
        match r.iterate fileSize (.packet packet) with
        | .error _ => none
        | .ok (.waiting r) => some { read with mains := Function.update s.mains k (.receiving c fileSize r) }
        | .ok outcome => some { read with
            mains := Function.update s.mains k .prompt, results := s.results ++ [(c, outcome)] }

def Peers.step : PeerEvent K → Option (Peers K)
  | .get k peer fileName fileSize fileReqPkt fileResSuccessPkt fileBuffer =>
    s.get nodes k peer fileName fileSize fileReqPkt fileResSuccessPkt fileBuffer
  | .accept j c => s.accept j c
  | .serve j c => s.serve nodes j c
  | .send j => s.send takes j
  | .finish j => s.finish j
  | .receive k => s.receive k

def peersInit : Peers K where
  mains := fun _ => .prompt
  servers := fun _ => none
  connections := []
  results := []

def peers : System (Peers K) (PeerEvent K) where
  init s := s = peersInit
  step s := s.step nodes takes

end Events

def ChildNode.Refuses (child : ChildNode) (fileName : List UInt8) : Prop :=
  child.files.stat (dataDir ++ fileName) = none ∨ child.files.opens (dataDir ++ fileName) = false

-- The peer has no such file, or it has the file with the size that has been registered.
inductive Offer (child : ChildNode) (fileName : List UInt8) (fileSize : UInt32) : Prop where
  | refuses (refuses : child.Refuses fileName)
  | holds (content : List UInt8) (holds : child.Holds fileName content) (nonempty : content ≠ [])
      (small : content.length < 2 ^ 31) (size : fileSize.toNat = content.length)

def Current (nodes : K → ChildNode) (s : Peers K) (e : PeerEvent K) (_ : Peers K) : Prop :=
  match e with
  | .get _ peer fileName fileSize _ _ _ =>
    fileName.length < fileNameLen ∧ (∀ c ∈ fileName, c ≠ 0) ∧ Offer (nodes peer) fileName fileSize ∧
      (s.clients peer).length < fdSetSize
  | _ => True

-- How the loop ends for a client that is alone with its peer.
inductive Ends (child : ChildNode) (fileName : List UInt8) : Received → Prop where
  | refused (r : Receiving) (refuses : child.Refuses fileName) : Ends child fileName (.refused r)
  | complete (r : Receiving) (content : List UInt8) (holds : child.Holds fileName content)
      (kept : load r.fileBuffer 0 content.length = content) : Ends child fileName (.complete r)

inductive Settles (good : Received → Prop) (fileSize : UInt32) : Receiving → List (List UInt8) → Prop where
  | waits (r r' : Receiving) (packet : List UInt8) (rest : List (List UInt8))
      (iterates : r.iterate fileSize (.packet packet) = .ok (.waiting r')) (later : Settles good fileSize r' rest) :
      Settles good fileSize r (packet :: rest)
  | ends (r : Receiving) (packet : List UInt8) (outcome : Received)
      (iterates : r.iterate fileSize (.packet packet) = .ok outcome) (final : ∀ r', outcome ≠ .waiting r')
      (fine : good outcome) : Settles good fileSize r [packet]

section Settling

variable {good : Received → Prop} {fileSize : UInt32} {r : Receiving}

theorem settles_chunks (id : UInt32) {chunks : List (List UInt8)} (cut : ∀ bytes ∈ chunks, Chunk bytes)
    (nonempty : chunks ≠ []) {bytes : List UInt8} (stored : Stored r bytes)
    (size : fileSize.toNat = bytes.length + chunks.flatten.length) (small : fileSize.toNat < 2 ^ 31)
    (complete : ∀ r', Stored r' (bytes ++ chunks.flatten) → good (.complete r')) :
    Settles good fileSize r (chunks.map (resSuccessPacket id)) := by
  induction chunks generalizing r bytes with
  | nil => exact absurd rfl nonempty
  | cons chunk rest ih =>
    have first := cut chunk (by simp)
    simp only [List.flatten_cons, List.length_append] at size
    rcases iterate_cases (read_packet stored id first) first small with ⟨-, r', stored', -, ran⟩ | ⟨full, -⟩
    · by_cases last : rest = []
      · subst last
        rw [if_pos (by simpa using size.symm)] at ran
        exact .ends r _ _ ran (by simp) (complete r' (by simpa using stored'))
      · obtain ⟨next, later, rfl⟩ := List.exists_cons_of_ne_nil last
        have more := List.length_pos_iff.mpr (cut next (by simp)).1
        simp only [List.flatten_cons, List.length_append] at size
        rw [if_neg (by omega)] at ran
        have cut' : ∀ bytes ∈ next :: later, Chunk bytes := fun bytes member => cut bytes (List.mem_cons_of_mem _ member)
        refine .waits r r' _ _ ran (ih cut' (by simp) stored' ?_ ?_)
        · simp only [List.flatten_cons, List.length_append]
          omega
        · intro r' whole
          exact complete r' (by simpa using whole)
    · omega

theorem settles_refused (id : UInt32) (refused : ∀ r', good (.refused r')) :
    Settles good fileSize r [headerPacket { totalLen := 12, id, msgType := fileResFail }] := by
  let hdr : Header := { totalLen := 12, id, msgType := fileResFail }
  have whole : (headerPacket hdr).take (headerLen + dataSize) = headerPacket hdr :=
    List.take_of_length_le (by simp [headerPacket])
  have header : loadHeader (store r.fileResSuccessPkt 0 (headerPacket hdr)) = hdr := by
    refine Eq.trans (loadHeader_congr fun j below => ?_) (loadHeader_storeHeader (fun _ => 0) hdr)
    exact store_load _ _ (Nat.zero_le j) (by omega)
  have other : fileResFail ≠ fileResSuccess := by decide
  let r' : Receiving := { r with fileResSuccessPkt := store r.fileResSuccessPkt 0 (headerPacket hdr) }
  refine .ends r _ _ ?_ (by simp) (refused r')
  simp only [Receiving.iterate, Receiving.read, hdr, whole] at header ⊢
  rw [header]
  exact if_neg other

end Settling

omit [DecidableEq K] in
theorem offer_settles {nodes : K → ChildNode} {connection : Connection K}
    (offer : Offer (nodes connection.peer) connection.fileName connection.fileSize)
    (short : connection.fileName.length < fileNameLen) (text : ∀ c ∈ connection.fileName, c ≠ 0)
    {unwritten : Block} {id : UInt32} (asks : connection.fileReqPkt = fileReqPacket unwritten id connection.fileName)
    (fileResSuccessPkt fileBuffer : Block) :
    ∃ packets, connection.answer nodes = .ok (packets, true) ∧
      Settles (Ends (nodes connection.peer) connection.fileName) connection.fileSize
        (Receiving.start fileResSuccessPkt fileBuffer) packets := by
  rw [Connection.answer, asks]
  cases offer with
  | refuses refuses =>
    have failed : handleFileReq (nodes connection.peer).id (nodes connection.peer).fileResSuccessPkt
        ((nodes connection.peer).files.stat (dataDir ++ connection.fileName))
        ((nodes connection.peer).files.opens (dataDir ++ connection.fileName))
        ((nodes connection.peer).files.reads (dataDir ++ connection.fileName)) =
          ([headerPacket { totalLen := 12, id := (nodes connection.peer).id, msgType := fileResFail }], true) := by
      refine if_pos (refuses.imp_left fun missing => ?_)
      rw [missing]
      decide
    refine ⟨_, (fileReq_handled _ short text unwritten id).trans (congrArg Except.ok failed), ?_⟩
    exact settles_refused _ fun r => .refused r refuses
  | holds content holds nonempty small size =>
    obtain ⟨chunks, cut, rfl, served⟩ := fileReq_served holds short text small unwritten id
    refine ⟨_, served, ?_⟩
    have empty : Stored (Receiving.start fileResSuccessPkt fileBuffer) [] := ⟨rfl, rfl⟩
    refine settles_chunks _ cut ?_ empty (by simpa using size) (by omega) fun r whole => ?_
    · rintro rfl
      exact nonempty rfl
    · exact .complete r _ holds (by simpa using whole.kept)

section Steps

variable {nodes : K → ChildNode} {takes : Room} {s s' : Peers K}

inductive Peers.Moves (nodes : K → ChildNode) (takes : Room) (s : Peers K) : PeerEvent K → Peers K → Prop where
  | get (k peer : K) (fileName : List UInt8) (fileSize : UInt32) (fileReqPkt fileResSuccessPkt fileBuffer : Block)
      (prompt : s.mains k = .prompt) :
      s.Moves nodes takes (.get k peer fileName fileSize fileReqPkt fileResSuccessPkt fileBuffer) { s with
        mains := Function.update s.mains k
          (.receiving s.connections.length fileSize (Receiving.start fileResSuccessPkt fileBuffer))
        connections := s.connections ++ [opened nodes k peer fileName fileSize fileReqPkt] }
  | accept (c : Nat) (connection : Connection K) (idle : s.servers connection.peer = none)
      (here : s.connections[c]? = some connection) (queued : connection.accepted = .queued) :
      s.Moves nodes takes (.accept connection.peer c)
        (s.change c { connection with accepted := s.addClient connection.peer })
  | serve (c : Nat) (connection : Connection K) (packets : List (List UInt8)) (returns : Bool)
      (idle : s.servers connection.peer = none) (here : s.connections[c]? = some connection)
      (pending : connection.pending = true) (answer : connection.answer nodes = .ok (packets, returns)) :
      s.Moves nodes takes (.serve connection.peer c) {
        s.change c { connection with pending := false, sending := some (packets, returns) } with
        servers := Function.update s.servers connection.peer (some c) }
  | send (j : K) (c : Nat) (connection : Connection K) (packet : List UInt8) (left : List (List UInt8)) (returns : Bool)
      (serving : s.servers j = some c) (here : s.connections[c]? = some connection)
      (sending : connection.sending = some (packet :: left, returns)) (room : takes connection.arrived packet = true) :
      s.Moves nodes takes (.send j)
        (s.change c { connection with sending := some (left, returns), arrived := connection.arrived ++ [packet] })
  | finish (j : K) (c : Nat) (connection : Connection K) (serving : s.servers j = some c)
      (here : s.connections[c]? = some connection) (sending : connection.sending = some ([], true)) :
      s.Moves nodes takes (.finish j)
        { s.change c { connection with sending := none } with servers := Function.update s.servers j none }
  | waits (k : K) (c : Nat) (fileSize : UInt32) (r r' : Receiving) (connection : Connection K) (packet : List UInt8)
      (arrived : List (List UInt8)) (receiving : s.mains k = .receiving c fileSize r)
      (here : s.connections[c]? = some connection) (front : connection.arrived = packet :: arrived)
      (iterates : r.iterate fileSize (.packet packet) = .ok (.waiting r')) :
      s.Moves nodes takes (.receive k) { s.change c { connection with arrived } with
        mains := Function.update s.mains k (.receiving c fileSize r') }
  | ends (k : K) (c : Nat) (fileSize : UInt32) (r : Receiving) (outcome : Received) (connection : Connection K)
      (packet : List UInt8) (arrived : List (List UInt8)) (receiving : s.mains k = .receiving c fileSize r)
      (here : s.connections[c]? = some connection) (front : connection.arrived = packet :: arrived)
      (iterates : r.iterate fileSize (.packet packet) = .ok outcome) (final : ∀ r', outcome ≠ .waiting r') :
      s.Moves nodes takes (.receive k) { s.change c { connection with arrived } with
        mains := Function.update s.mains k .prompt, results := s.results ++ [(c, outcome)] }

omit [DecidableEq K] in
theorem serving_some {j : K} {c : Nat} {connection : Connection K} {left : List (List UInt8)} {returns : Bool} :
    s.serving j = some (c, connection, left, returns) ↔ s.servers j = some c ∧ s.connections[c]? = some connection ∧
      connection.sending = some (left, returns) := by
  simp only [Peers.serving, bind, Option.bind_eq_some_iff, Option.some.injEq, Prod.mk.injEq]
  constructor
  · rintro ⟨c, serving, connection, here, ⟨left, returns⟩, sending, rfl, rfl, rfl, rfl⟩
    exact ⟨serving, here, sending⟩
  · rintro ⟨serving, here, sending⟩
    exact ⟨c, serving, connection, here, _, sending, rfl, rfl, rfl, rfl⟩

theorem receive_moves {k : K} (stepped : s.receive k = some s') : s.Moves nodes takes (.receive k) s' := by
  simp only [Peers.receive] at stepped
  split at stepped
  next => cases stepped
  next c fileSize r receiving =>
    split at stepped
    next => cases stepped
    next connection here =>
      split at stepped
      next => cases stepped
      next packet arrived front =>
        split at stepped
        next => cases stepped
        next r' iterates =>
          exact Option.some.inj stepped ▸
            .waits k c fileSize r r' connection packet arrived receiving here front iterates
        next outcome final iterates =>
          exact Option.some.inj stepped ▸
            .ends k c fileSize r outcome connection packet arrived receiving here front iterates fun r' => final r'

theorem step_moves {e : PeerEvent K} (stepped : s.step nodes takes e = some s') : s.Moves nodes takes e s' := by
  cases e with
  | get k peer fileName fileSize fileReqPkt fileResSuccessPkt fileBuffer =>
    simp only [Peers.step, Peers.get] at stepped
    split at stepped
    next => cases stepped
    next prompt => exact Option.some.inj stepped ▸ .get k peer fileName fileSize _ _ _ prompt
  | accept j c =>
    simp only [Peers.step, Peers.accept] at stepped
    split at stepped
    next connection idle here =>
      split_ifs at stepped with asks
      obtain ⟨rfl, queued⟩ := asks
      exact Option.some.inj stepped ▸ .accept c connection idle here queued
    next => cases stepped
  | serve j c =>
    simp only [Peers.step, Peers.serve] at stepped
    split at stepped
    next connection idle here =>
      split_ifs at stepped with asks
      obtain ⟨rfl, -, pending⟩ := asks
      split at stepped
      next sending answer =>
        obtain ⟨packets, returns⟩ := sending
        exact Option.some.inj stepped ▸ .serve c connection packets returns idle here pending answer
      next => cases stepped
    next => cases stepped
  | send j =>
    simp only [Peers.step, Peers.send] at stepped
    split at stepped
    next c connection packet left returns found =>
      obtain ⟨serving, here, sending⟩ := serving_some.mp found
      split_ifs at stepped with room
      exact Option.some.inj stepped ▸ .send j c connection packet left returns serving here sending room
    next => cases stepped
  | finish j =>
    simp only [Peers.step, Peers.finish] at stepped
    split at stepped
    next c connection found =>
      obtain ⟨serving, here, sending⟩ := serving_some.mp found
      exact Option.some.inj stepped ▸ .finish j c connection serving here sending
    next => cases stepped
  | receive k => exact receive_moves stepped

end Steps

-- The packets that the client of a connection has still to read.
inductive Connection.Awaits (nodes : K → ChildNode) (connection : Connection K) : List (List UInt8) → Prop where
  | requested (packets : List (List UInt8)) (pending : connection.pending = true) (quiet : connection.sending = none)
      (empty : connection.arrived = []) (answer : connection.answer nodes = .ok (packets, true)) :
      connection.Awaits nodes packets
  | served (left : List (List UInt8)) (read : connection.pending = false)
      (sending : connection.sending = some (left, true)) : connection.Awaits nodes (connection.arrived ++ left)
  | sent (read : connection.pending = false) (quiet : connection.sending = none) :
      connection.Awaits nodes connection.arrived

def Peers.Transfers (nodes : K → ChildNode) (s : Peers K) (c : Nat) (connection : Connection K)
    (packets : List (List UInt8)) : Prop :=
  (∃ r, s.mains connection.client = .receiving c connection.fileSize r ∧
      Settles (Ends (nodes connection.peer) connection.fileName) connection.fileSize r packets) ∨
    packets = [] ∧ ∀ fileSize r, s.mains connection.client ≠ .receiving c fileSize r

structure Peers.Orderly (nodes : K → ChildNode) (s : Peers K) : Prop where
  transfers : ∀ c connection, s.connections[c]? = some connection →
    ∃ packets, connection.Awaits nodes packets ∧ s.Transfers nodes c connection packets
  clients : ∀ k c fileSize r, s.mains k = .receiving c fileSize r →
    ∃ connection, s.connections[c]? = some connection ∧ connection.client = k
  servers : ∀ j c, s.servers j = some c → ∃ connection, s.connections[c]? = some connection ∧ connection.peer = j ∧
    connection.sending.isSome = true
  sending : ∀ c connection, s.connections[c]? = some connection → connection.sending.isSome = true →
    s.servers connection.peer = some c
  results : ∀ c outcome, (c, outcome) ∈ s.results →
    ∃ connection, s.connections[c]? = some connection ∧ Ends (nodes connection.peer) connection.fileName outcome

section Orderly

variable {nodes : K → ChildNode} {takes : Room} {s s' : Peers K} {c : Nat} {old new : Connection K}

omit [DecidableEq K] in
theorem change_lookup (here : s.connections[c]? = some old) (c' : Nat) :
    (s.change c new).connections[c']? = if c' = c then some new else s.connections[c']? := by
  obtain ⟨inside, -⟩ := List.getElem?_eq_some_iff.mp here
  simp only [Peers.change, List.getElem?_set, inside, if_true]
  by_cases same : c' = c
  · simp [same]
  · simp [same, Ne.symm same]

structure Connection.Same (old new : Connection K) : Prop where
  client : new.client = old.client
  peer : new.peer = old.peer
  fileName : new.fileName = old.fileName
  fileSize : new.fileSize = old.fileSize

omit [DecidableEq K] in
theorem Peers.Orderly.change (orderly : s.Orderly nodes) (here : s.connections[c]? = some old)
    (same : old.Same new) (connections : s'.connections = (s.change c new).connections)
    (mains : ∀ k c' fileSize r, s'.mains k = .receiving c' fileSize r →
      ∃ r, s.mains k = .receiving c' fileSize r)
    (others : ∀ c', c' ≠ c → ∀ k fileSize r, s.mains k = .receiving c' fileSize r →
      s'.mains k = .receiving c' fileSize r)
    (transfers : ∃ packets, new.Awaits nodes packets ∧ s'.Transfers nodes c new packets)
    (servers : ∀ j c', s'.servers j = some c' → ∃ connection, s'.connections[c']? = some connection ∧
      connection.peer = j ∧ connection.sending.isSome = true)
    (sending : ∀ c' connection, s'.connections[c']? = some connection → connection.sending.isSome = true →
      s'.servers connection.peer = some c')
    (results : ∀ c' outcome, (c', outcome) ∈ s'.results →
      (c', outcome) ∈ s.results ∨ c' = c ∧ Ends (nodes old.peer) old.fileName outcome) : s'.Orderly nodes := by
  have lookup (c' : Nat) : s'.connections[c']? = if c' = c then some new else s.connections[c']? :=
    connections ▸ change_lookup here c'
  constructor
  case transfers =>
    intro c' connection found
    rw [lookup] at found
    split_ifs at found with own
    · obtain rfl := Option.some.inj found
      exact own ▸ transfers
    · obtain ⟨packets, awaits, before⟩ := orderly.transfers c' connection found
      refine ⟨packets, awaits, before.imp ?_ ?_⟩
      · rintro ⟨r, receiving, settles⟩
        exact ⟨r, others c' own _ _ _ receiving, settles⟩
      · rintro ⟨rfl, left⟩
        refine ⟨rfl, fun fileSize r receiving => ?_⟩
        obtain ⟨r, earlier⟩ := mains _ _ _ _ receiving
        exact left fileSize r earlier
  case clients =>
    intro k c' fileSize r receiving
    obtain ⟨r, earlier⟩ := mains k c' fileSize r receiving
    obtain ⟨connection, found, client⟩ := orderly.clients k c' fileSize r earlier
    by_cases own : c' = c
    · subst own
      obtain rfl := Option.some.inj (here.symm.trans found)
      exact ⟨new, by rw [lookup, if_pos rfl], same.client.trans client⟩
    · exact ⟨connection, by rw [lookup, if_neg own, found], client⟩
  case servers => exact servers
  case sending => exact sending
  case results =>
    intro c' outcome member
    rcases results c' outcome member with before | ⟨rfl, ends⟩
    · obtain ⟨connection, found, ends⟩ := orderly.results c' outcome before
      by_cases own : c' = c
      · subst own
        obtain rfl := Option.some.inj (here.symm.trans found)
        exact ⟨new, by rw [lookup, if_pos rfl], by rwa [same.peer, same.fileName]⟩
      · exact ⟨connection, by rw [lookup, if_neg own, found], ends⟩
    · exact ⟨new, by rw [lookup, if_pos rfl], by rwa [same.peer, same.fileName]⟩

omit [DecidableEq K] in
theorem servers_kept (orderly : s.Orderly nodes) (here : s.connections[c]? = some old) (same : old.Same new)
    (sends : new.sending.isSome = old.sending.isSome) (connections : s'.connections = (s.change c new).connections)
    (servers : s'.servers = s.servers) :
    (∀ j c', s'.servers j = some c' → ∃ connection, s'.connections[c']? = some connection ∧ connection.peer = j ∧
      connection.sending.isSome = true) ∧
      ∀ c' connection, s'.connections[c']? = some connection → connection.sending.isSome = true →
        s'.servers connection.peer = some c' := by
  have lookup (c' : Nat) : s'.connections[c']? = if c' = c then some new else s.connections[c']? :=
    connections ▸ change_lookup here c'
  rw [servers]
  constructor
  · intro j c' serving
    obtain ⟨connection, found, peer, sending⟩ := orderly.servers j c' serving
    by_cases own : c' = c
    · subst own
      obtain rfl := Option.some.inj (here.symm.trans found)
      exact ⟨new, by rw [lookup, if_pos rfl], same.peer.trans peer, sends.trans sending⟩
    · exact ⟨connection, by rw [lookup, if_neg own, found], peer, sending⟩
  · intro c' connection found sending
    rw [lookup] at found
    split_ifs at found with own
    · obtain rfl := Option.some.inj found
      rw [own, same.peer]
      exact orderly.sending c old here (sends.symm.trans sending)
    · exact orderly.sending c' connection found sending

theorem get_orderly (orderly : s.Orderly nodes) {k peer : K} {fileName : List UInt8} {fileSize : UInt32}
    {fileReqPkt fileResSuccessPkt fileBuffer : Block} (prompt : s.mains k = .prompt)
    (short : fileName.length < fileNameLen) (text : ∀ c ∈ fileName, c ≠ 0)
    (offer : Offer (nodes peer) fileName fileSize)
    (connections : s'.connections = s.connections ++ [opened nodes k peer fileName fileSize fileReqPkt])
    (mains : s'.mains = Function.update s.mains k
      (.receiving s.connections.length fileSize (Receiving.start fileResSuccessPkt fileBuffer)))
    (servers : s'.servers = s.servers) (results : s'.results = s.results) : s'.Orderly nodes := by
  have lookup {c : Nat} {connection : Connection K} (found : s'.connections[c]? = some connection) :
      s.connections[c]? = some connection ∨
        c = s.connections.length ∧ connection = opened nodes k peer fileName fileSize fileReqPkt := by
    rw [connections, List.getElem?_append] at found
    split_ifs at found with old
    · exact .inl found
    · rw [List.getElem?_singleton] at found
      split_ifs at found with last
      exact .inr ⟨by omega, (Option.some.inj found).symm⟩
  have kept {c : Nat} {connection : Connection K} (found : s.connections[c]? = some connection) :
      s'.connections[c]? = some connection := by
    rw [connections, List.getElem?_append_left (List.getElem?_eq_some_iff.mp found).1, found]
  constructor
  case transfers =>
    intro c connection found
    rcases lookup found with old | ⟨rfl, rfl⟩
    · obtain ⟨packets, awaits, before⟩ := orderly.transfers c connection old
      have inside := (List.getElem?_eq_some_iff.mp old).1
      refine ⟨packets, awaits, before.imp ?_ ?_⟩
      · rintro ⟨r, receiving, settles⟩
        have other : connection.client ≠ k := by
          rintro rfl
          cases prompt.symm.trans receiving
        exact ⟨r, by rw [mains, Function.update_of_ne other, receiving], settles⟩
      · rintro ⟨rfl, left⟩
        refine ⟨rfl, fun fileSize' r receiving => ?_⟩
        rw [mains] at receiving
        by_cases own : connection.client = k
        · rw [own, Function.update_self, Getting.receiving.injEq] at receiving
          omega
        · rw [Function.update_of_ne own] at receiving
          exact left fileSize' r receiving
    · let new := opened nodes k peer fileName fileSize fileReqPkt
      have asks : new.fileReqPkt = fileReqPacket fileReqPkt (nodes k).id new.fileName := rfl
      obtain ⟨packets, answer, settles⟩ := offer_settles offer short text asks fileResSuccessPkt fileBuffer
      exact ⟨packets, .requested packets rfl rfl rfl answer, .inl ⟨_, mains ▸ Function.update_self k _ _, settles⟩⟩
  case clients =>
    intro k' c fileSize' r receiving
    rw [mains] at receiving
    by_cases own : k' = k
    · subst own
      rw [Function.update_self, Getting.receiving.injEq] at receiving
      obtain ⟨rfl, -, -⟩ := receiving
      exact ⟨_, by rw [connections, List.getElem?_concat_length], rfl⟩
    · rw [Function.update_of_ne own] at receiving
      obtain ⟨connection, found, client⟩ := orderly.clients k' c fileSize' r receiving
      exact ⟨connection, kept found, client⟩
  case servers =>
    intro j c serving
    rw [servers] at serving
    obtain ⟨connection, found, peer, sending⟩ := orderly.servers j c serving
    exact ⟨connection, kept found, peer, sending⟩
  case sending =>
    intro c connection found sending
    rw [servers]
    rcases lookup found with old | ⟨rfl, rfl⟩
    · exact orderly.sending c connection old sending
    · cases sending
  case results =>
    intro c outcome member
    rw [results] at member
    obtain ⟨connection, found, ends⟩ := orderly.results c outcome member
    exact ⟨connection, kept found, ends⟩

omit [DecidableEq K] in
theorem transfers_kept (orderly : s.Orderly nodes) (here : s.connections[c]? = some old) (same : old.Same new)
    (mains : s'.mains = s.mains) (awaits : ∀ packets, old.Awaits nodes packets → new.Awaits nodes packets) :
    ∃ packets, new.Awaits nodes packets ∧ s'.Transfers nodes c new packets := by
  obtain ⟨packets, before, transfers⟩ := orderly.transfers c old here
  refine ⟨packets, awaits packets before, ?_⟩
  simpa only [Peers.Transfers, mains, same.client, same.peer, same.fileName, same.fileSize] using transfers

omit [DecidableEq K] in
theorem accept_orderly (orderly : s.Orderly nodes) (here : s.connections[c]? = some old) (accepted : Accepted) :
    Peers.Orderly nodes (s.change c { old with accepted }) := by
  let new : Connection K := { old with accepted }
  have same : old.Same new := ⟨rfl, rfl, rfl, rfl⟩
  have changed : (s.change c new).connections = (s.change c new).connections := rfl
  obtain ⟨servers, sending⟩ := servers_kept orderly here same rfl changed rfl
  refine orderly.change here same rfl (fun _ _ _ r receiving => ⟨r, receiving⟩)
    (fun _ _ _ _ _ receiving => receiving) ?_ servers sending fun _ _ member => .inl member
  refine transfers_kept orderly here same rfl fun packets awaits => ?_
  cases awaits with
  | requested _ pending quiet empty answer => exact .requested packets pending quiet empty answer
  | served left read sending => exact .served left read sending
  | sent read quiet => exact .sent read quiet

theorem serve_orderly (orderly : s.Orderly nodes) {packets : List (List UInt8)} {returns : Bool}
    (idle : s.servers old.peer = none) (here : s.connections[c]? = some old) (pending : old.pending = true)
    (answer : old.answer nodes = .ok (packets, returns)) :
    Peers.Orderly nodes { s.change c { old with pending := false, sending := some (packets, returns) } with
      servers := Function.update s.servers old.peer (some c) } := by
  let new : Connection K := { old with pending := false, sending := some (packets, returns) }
  have same : old.Same new := ⟨rfl, rfl, rfl, rfl⟩
  have lookup (c' : Nat) : (s.change c new).connections[c']? = if c' = c then some new else s.connections[c']? :=
    change_lookup here c'
  refine orderly.change here same rfl (fun _ _ _ r receiving => ⟨r, receiving⟩)
    (fun _ _ _ _ _ receiving => receiving) ?_ ?_ ?_ fun _ _ member => .inl member
  · refine transfers_kept orderly here same rfl fun all awaits => ?_
    cases awaits with
    | requested _ unread quiet empty asked =>
      obtain ⟨rfl, rfl⟩ := Prod.mk.inj (Except.ok.inj (answer.symm.trans asked))
      have awaits : new.Awaits nodes (new.arrived ++ packets) := .served packets rfl rfl
      rwa [show new.arrived = [] from empty] at awaits
    | served left read sending => simp [pending] at read
    | sent read quiet => simp [pending] at read
  · intro j c' serving
    have serving : Function.update s.servers old.peer (some c) j = some c' := serving
    by_cases own : j = old.peer
    · rw [own, Function.update_self] at serving
      obtain rfl := Option.some.inj serving
      exact ⟨new, (lookup c).trans (if_pos rfl), own.symm, rfl⟩
    · rw [Function.update_of_ne own] at serving
      obtain ⟨connection, found, peer, sending⟩ := orderly.servers j c' serving
      have other : c' ≠ c := by
        rintro rfl
        obtain rfl := Option.some.inj (here.symm.trans found)
        exact own peer.symm
      exact ⟨connection, (lookup c').trans ((if_neg other).trans found), peer, sending⟩
  · intro c' connection found sending
    have found := (lookup c').symm.trans found
    split_ifs at found with own
    · obtain rfl := Option.some.inj found
      exact own ▸ Function.update_self _ _ _
    · have before := orderly.sending c' connection found sending
      have other : connection.peer ≠ old.peer := fun same => by simp [same, idle] at before
      exact (Function.update_of_ne other _ _).trans before

theorem finish_orderly (orderly : s.Orderly nodes) {j : K} (serving : s.servers j = some c)
    (here : s.connections[c]? = some old) (sending : old.sending = some ([], true)) :
    Peers.Orderly nodes
      { s.change c { old with sending := none } with servers := Function.update s.servers j none } := by
  let new : Connection K := { old with sending := none }
  have same : old.Same new := ⟨rfl, rfl, rfl, rfl⟩
  have lookup (c' : Nat) : (s.change c new).connections[c']? = if c' = c then some new else s.connections[c']? :=
    change_lookup here c'
  refine orderly.change here same rfl (fun _ _ _ r receiving => ⟨r, receiving⟩)
    (fun _ _ _ _ _ receiving => receiving) ?_ ?_ ?_ fun _ _ member => .inl member
  · refine transfers_kept orderly here same rfl fun all awaits => ?_
    cases awaits with
    | requested _ _ quiet => simp [sending] at quiet
    | served left read writes =>
      obtain rfl : left = [] := by simpa [sending] using writes.symm
      rw [List.append_nil]
      exact .sent read rfl
    | sent _ quiet => simp [sending] at quiet
  · intro j' c' later
    have later : Function.update s.servers j none j' = some c' := later
    have other : j' ≠ j := by
      rintro rfl
      simp at later
    rw [Function.update_of_ne other] at later
    obtain ⟨connection, found, peer, sends⟩ := orderly.servers j' c' later
    have away : c' ≠ c := by
      rintro rfl
      obtain ⟨connection', found', peer', -⟩ := orderly.servers j c' serving
      obtain rfl := Option.some.inj (found.symm.trans found')
      exact other (peer.symm.trans peer')
    exact ⟨connection, (lookup c').trans ((if_neg away).trans found), peer, sends⟩
  · intro c' connection found sends
    have found := (lookup c').symm.trans found
    split_ifs at found with own
    · obtain rfl := Option.some.inj found
      cases sends
    · have before := orderly.sending c' connection found sends
      have other : connection.peer ≠ j := by
        rintro rfl
        exact own (Option.some.inj (before.symm.trans serving))
      exact (Function.update_of_ne other _ _).trans before

omit [DecidableEq K] in
theorem send_orderly (orderly : s.Orderly nodes) {packet : List UInt8} {left : List (List UInt8)} {returns : Bool}
    (here : s.connections[c]? = some old) (sending : old.sending = some (packet :: left, returns)) :
    Peers.Orderly nodes
      (s.change c { old with sending := some (left, returns), arrived := old.arrived ++ [packet] }) := by
  let new : Connection K := { old with sending := some (left, returns), arrived := old.arrived ++ [packet] }
  have same : old.Same new := ⟨rfl, rfl, rfl, rfl⟩
  have sends : new.sending.isSome = old.sending.isSome := by rw [sending]; rfl
  have changed : (s.change c new).connections = (s.change c new).connections := rfl
  obtain ⟨servers, sending'⟩ := servers_kept orderly here same sends changed rfl
  refine orderly.change here same rfl (fun _ _ _ r receiving => ⟨r, receiving⟩)
    (fun _ _ _ _ _ receiving => receiving) ?_ servers sending' fun _ _ member => .inl member
  refine transfers_kept orderly here same rfl fun all awaits => ?_
  cases awaits with
  | requested _ _ quiet => simp [sending] at quiet
  | served rest read writes =>
    obtain ⟨rfl, rfl⟩ := Prod.mk.inj (Option.some.inj (sending.symm.trans writes))
    have awaits : new.Awaits nodes (new.arrived ++ left) := .served left read rfl
    rwa [show new.arrived = old.arrived ++ [packet] from rfl, List.append_assoc] at awaits
  | sent _ quiet => simp [sending] at quiet

omit [DecidableEq K] in
theorem front_awaited {packet : List UInt8} {arrived packets : List (List UInt8)} (awaits : old.Awaits nodes packets)
    (front : old.arrived = packet :: arrived) :
    ∃ rest, packets = packet :: rest ∧ Connection.Awaits nodes { old with arrived } rest := by
  cases awaits with
  | requested _ _ _ empty => simp [front] at empty
  | served left read sending =>
    exact ⟨arrived ++ left, by rw [front, List.cons_append], .served left read sending⟩
  | sent read quiet => exact ⟨arrived, front, .sent read quiet⟩

omit [DecidableEq K] in
theorem receive_settles (orderly : s.Orderly nodes) {k : K} {fileSize : UInt32} {r : Receiving} {packet : List UInt8}
    {arrived : List (List UInt8)} (receiving : s.mains k = .receiving c fileSize r)
    (here : s.connections[c]? = some old) (front : old.arrived = packet :: arrived) :
    old.client = k ∧ old.fileSize = fileSize ∧ ∃ rest, Connection.Awaits nodes { old with arrived } rest ∧
      Settles (Ends (nodes old.peer) old.fileName) fileSize r (packet :: rest) := by
  obtain ⟨connection, found, client⟩ := orderly.clients k c fileSize r receiving
  obtain rfl := Option.some.inj (here.symm.trans found)
  obtain ⟨packets, awaits, ⟨r', now, settles⟩ | ⟨rfl, -⟩⟩ := orderly.transfers c old here
  · rw [client, receiving] at now
    obtain ⟨-, size, rfl⟩ := Getting.receiving.inj now
    obtain ⟨rest, rfl, later⟩ := front_awaited awaits front
    exact ⟨client, size.symm, rest, later, size ▸ settles⟩
  · obtain ⟨rest, nothing, -⟩ := front_awaited awaits front
    cases nothing

theorem waits_orderly (orderly : s.Orderly nodes) {k : K} {fileSize : UInt32} {r r' : Receiving} {packet : List UInt8}
    {arrived : List (List UInt8)} (receiving : s.mains k = .receiving c fileSize r)
    (here : s.connections[c]? = some old) (front : old.arrived = packet :: arrived)
    (iterates : r.iterate fileSize (.packet packet) = .ok (.waiting r')) :
    Peers.Orderly nodes { s.change c { old with arrived } with
      mains := Function.update s.mains k (.receiving c fileSize r') } := by
  let new : Connection K := { old with arrived }
  let after : Peers K := { s.change c new with mains := Function.update s.mains k (.receiving c fileSize r') }
  have same : old.Same new := ⟨rfl, rfl, rfl, rfl⟩
  have changed : after.connections = (s.change c new).connections := rfl
  obtain ⟨servers, sending⟩ := servers_kept orderly here same rfl changed rfl
  obtain ⟨rfl, rfl, rest, later, settles⟩ := receive_settles orderly receiving here front
  refine orderly.change here same rfl ?_ ?_ ?_ servers sending fun _ _ member => .inl member
  · intro k c' fileSize r now
    have now : Function.update s.mains old.client (.receiving c old.fileSize r') k = .receiving c' fileSize r := now
    by_cases own : k = old.client
    · rw [own, Function.update_self] at now
      obtain ⟨rfl, rfl, -⟩ := Getting.receiving.inj now
      exact ⟨_, own ▸ receiving⟩
    · rw [Function.update_of_ne own] at now
      exact ⟨r, now⟩
  · intro c' other k fileSize r before
    have away : k ≠ old.client := by
      rintro rfl
      exact other (Getting.receiving.inj (before.symm.trans receiving)).1
    exact (Function.update_of_ne away _ _).trans before
  · refine ⟨rest, later, .inl ⟨r', Function.update_self _ _ _, ?_⟩⟩
    cases settles with
    | waits _ _ _ _ ran settles =>
      obtain rfl := Received.waiting.inj (Except.ok.inj (iterates.symm.trans ran))
      exact settles
    | ends _ _ _ ran final => exact absurd (Except.ok.inj (ran.symm.trans iterates)) (final r')

theorem ends_orderly (orderly : s.Orderly nodes) {k : K} {fileSize : UInt32} {r : Receiving} {outcome : Received}
    {packet : List UInt8} {arrived : List (List UInt8)} (receiving : s.mains k = .receiving c fileSize r)
    (here : s.connections[c]? = some old) (front : old.arrived = packet :: arrived)
    (iterates : r.iterate fileSize (.packet packet) = .ok outcome) (final : ∀ r', outcome ≠ .waiting r') :
    Peers.Orderly nodes { s.change c { old with arrived } with
      mains := Function.update s.mains k .prompt, results := s.results ++ [(c, outcome)] } := by
  let new : Connection K := { old with arrived }
  let after : Peers K := { s.change c new with
    mains := Function.update s.mains k .prompt, results := s.results ++ [(c, outcome)] }
  have same : old.Same new := ⟨rfl, rfl, rfl, rfl⟩
  have changed : after.connections = (s.change c new).connections := rfl
  obtain ⟨servers, sending⟩ := servers_kept orderly here same rfl changed rfl
  obtain ⟨rfl, rfl, rest, later, settles⟩ := receive_settles orderly receiving here front
  obtain ⟨rfl, fine⟩ : rest = [] ∧ Ends (nodes old.peer) old.fileName outcome := by
    cases settles with
    | waits _ r' _ _ ran => exact absurd (Except.ok.inj (iterates.symm.trans ran)) (final r')
    | ends _ _ _ ran _ fine =>
      obtain rfl := Except.ok.inj (iterates.symm.trans ran)
      exact ⟨rfl, fine⟩
  have idle (c' : Nat) (fileSize : UInt32) (r : Receiving) (k : K) (now : after.mains k = .receiving c' fileSize r) :
      k ≠ old.client ∧ s.mains k = .receiving c' fileSize r := by
    have now : Function.update s.mains old.client .prompt k = .receiving c' fileSize r := now
    by_cases own : k = old.client
    · simp [own] at now
    · rw [Function.update_of_ne own] at now
      exact ⟨own, now⟩
  refine orderly.change here same rfl ?_ ?_ ?_ servers sending ?_
  · exact fun k c' fileSize r now => ⟨r, (idle c' fileSize r k now).2⟩
  · intro c' other k fileSize r before
    have away : k ≠ old.client := by
      rintro rfl
      exact other (Getting.receiving.inj (before.symm.trans receiving)).1
    exact (Function.update_of_ne away _ _).trans before
  · exact ⟨[], later, .inr ⟨rfl, fun fileSize r now => (idle c fileSize r _ now).1 rfl⟩⟩
  · intro c' outcome' member
    rcases List.mem_append.mp member with earlier | last
    · exact .inl earlier
    · obtain ⟨rfl, rfl⟩ := Prod.mk.inj (List.mem_singleton.mp last)
      exact .inr ⟨rfl, fine⟩

theorem step_orderly (orderly : s.Orderly nodes) {e : PeerEvent K} (current : Current nodes s e s')
    (stepped : s.step nodes takes e = some s') : s'.Orderly nodes := by
  cases step_moves stepped with
  | get k peer fileName fileSize fileReqPkt fileResSuccessPkt fileBuffer prompt =>
    obtain ⟨short, text, offer, -⟩ := current
    exact get_orderly orderly prompt short text offer rfl rfl rfl rfl
  | accept c connection idle here queued => exact accept_orderly orderly here _
  | serve c connection packets returns idle here pending answer => exact serve_orderly orderly idle here pending answer
  | send j c connection packet left returns serving here sending room => exact send_orderly orderly here sending
  | finish j c connection serving here sending => exact finish_orderly orderly serving here sending
  | waits k c fileSize r r' connection packet arrived receiving here front iterates =>
    exact waits_orderly orderly receiving here front iterates
  | ends k c fileSize r outcome connection packet arrived receiving here front iterates final =>
    exact ends_orderly orderly receiving here front iterates final

-- Every connection that has been made to a peer has a slot there, or will get one.
structure Peers.Pooled (s : Peers K) : Prop where
  few : ∀ j, (s.clients j).length ≤ fdSetSize
  found : ∀ connection ∈ s.connections, connection.accepted ≠ .lost

theorem clients_length (j : K) : (s.clients j).length = (s.connections.map Connection.peer).count j := by
  rw [Peers.clients, ← List.countP_eq_length_filter, List.count, List.countP_map]
  rfl

theorem change_clients (here : s.connections[c]? = some old) (same : new.peer = old.peer) (j : K) :
    ((s.change c new).clients j).length = (s.clients j).length := by
  obtain ⟨inside, rfl⟩ := List.getElem?_eq_some_iff.mp here
  have peers : (s.change c new).connections.map Connection.peer = s.connections.map Connection.peer := by
    rw [Peers.change, List.map_set, same, ← List.getElem_map Connection.peer (h := by simpa using inside)]
    exact List.set_getElem_self _
  rw [clients_length, clients_length, peers]

theorem change_pooled (pooled : s.Pooled) (here : s.connections[c]? = some old)
    (connections : s'.connections = (s.change c new).connections) (same : new.peer = old.peer)
    (found : old.accepted ≠ .lost → new.accepted ≠ .lost) : s'.Pooled := by
  constructor
  · intro j
    have clients : s'.clients j = (s.change c new).clients j := by rw [Peers.clients, connections, Peers.clients]
    rw [clients, change_clients here same]
    exact pooled.few j
  · intro connection member
    rw [connections] at member
    rcases List.mem_or_eq_of_mem_set member with before | rfl
    · exact pooled.found connection before
    · exact found (pooled.found old (List.mem_of_getElem? here))

-- The connection that is accepted is one of those that have been made, and has no slot yet.
theorem addClient_slot (pooled : s.Pooled) (here : s.connections[c]? = some old) (queued : old.accepted = .queued) :
    s.addClient old.peer = .slot := by
  have member : old ∈ s.clients old.peer := by
    rw [Peers.clients, List.mem_filter]
    exact ⟨List.mem_of_getElem? here, by simp⟩
  have fewer : s.slots old.peer < (s.clients old.peer).length :=
    List.countP_lt_length_iff.mpr ⟨old, member, by simp [queued]⟩
  exact if_pos (fewer.trans_le (pooled.few old.peer))

theorem step_pooled (pooled : s.Pooled) {e : PeerEvent K} (current : Current nodes s e s')
    (stepped : s.step nodes takes e = some s') : s'.Pooled := by
  cases step_moves stepped with
  | get k peer fileName fileSize fileReqPkt fileResSuccessPkt fileBuffer prompt =>
    obtain ⟨-, -, -, slot⟩ := current
    constructor
    · intro j
      simp only [Peers.clients, List.filter_append, List.length_append, List.filter_singleton, opened]
      by_cases own : peer = j
      · subst own
        simpa [Peers.clients] using Nat.succ_le_of_lt slot
      · simpa [own, Peers.clients] using pooled.few j
    · intro connection member
      rcases List.mem_append.mp member with earlier | last
      · exact pooled.found connection earlier
      · rw [List.mem_singleton.mp last]
        exact Accepted.noConfusion
  | accept c connection idle here queued =>
    refine change_pooled pooled here rfl rfl fun _ => ?_
    rw [addClient_slot pooled here queued]
    exact Accepted.noConfusion
  | serve c connection packets returns idle here pending answer =>
    exact change_pooled pooled here rfl rfl id
  | send j c connection packet left returns serving here sending room =>
    exact change_pooled pooled here rfl rfl id
  | finish j c connection serving here sending =>
    exact change_pooled pooled here rfl rfl id
  | waits k c fileSize r r' connection packet arrived receiving here front iterates =>
    exact change_pooled pooled here rfl rfl id
  | ends k c fileSize r outcome connection packet arrived receiving here front iterates final =>
    exact change_pooled pooled here rfl rfl id

theorem reachable_pooled (reached : (peers nodes takes).ReachableWhile (Current nodes) s) : s.Pooled := by
  refine reached.invariant (P := Peers.Pooled) ?_ ?_
  · rintro s rfl
    constructor <;> simp [peersInit, Peers.clients]
  · exact fun s e s' _ pooled current stepped => step_pooled pooled current stepped

theorem reachable_orderly (reached : (peers nodes takes).ReachableWhile (Current nodes) s) : s.Orderly nodes := by
  refine reached.invariant (P := Peers.Orderly nodes) ?_ ?_
  · rintro s rfl
    constructor <;> simp [peersInit]
  · exact fun s e s' _ orderly current stepped => step_orderly orderly current stepped

end Orderly

def Connection.asked (nodes : K → ChildNode) (connection : Connection K) : Nat :=
  match connection.answer nodes with
  | .ok (packets, _) => 2 * packets.length + 2
  | .error _ => 0

def Connection.writes (connection : Connection K) : Nat :=
  match connection.sending with
  | some (left, _) => 2 * left.length + 1
  | none => 0

def Connection.work (nodes : K → ChildNode) (connection : Connection K) : Nat :=
  (if connection.accepted = .queued then 1 else 0) +
    (if connection.pending = true then connection.asked nodes else 0) + connection.writes + connection.arrived.length

def Peers.work (nodes : K → ChildNode) (s : Peers K) : Nat := (s.connections.map (Connection.work nodes)).sum

section Work

variable {nodes : K → ChildNode} {takes : Room} {s s' : Peers K} {c : Nat} {old new : Connection K}

omit [DecidableEq K] in
theorem change_work (here : s.connections[c]? = some old) (connections : s'.connections = s.connections.set c new)
    (less : new.work nodes < old.work nodes) : s'.work nodes < s.work nodes := by
  have sums : ((s.connections.set c new).map (Connection.work nodes)).sum + old.work nodes =
      s.work nodes + new.work nodes := sum_set (Connection.work nodes) here
  have after : s'.work nodes = ((s.connections.set c new).map (Connection.work nodes)).sum := by
    rw [Peers.work, connections]
  omega

omit [DecidableEq K] in
theorem less_work (accepted : new.accepted = old.accepted) (pending : new.pending = old.pending)
    (answer : new.answer nodes = old.answer nodes)
    (less : new.writes + new.arrived.length < old.writes + old.arrived.length) : new.work nodes < old.work nodes := by
  simp only [Connection.work, Connection.asked, accepted, pending, answer]
  omega

theorem step_work {e : PeerEvent K} (own : e.isGet = false) (stepped : s.step nodes takes e = some s') :
    s'.work nodes < s.work nodes := by
  cases step_moves stepped with
  | get => cases own
  | accept c connection idle here queued =>
    refine change_work here rfl ?_
    have answer : Connection.asked nodes { connection with accepted := s.addClient connection.peer } =
        connection.asked nodes := rfl
    have writes : Connection.writes { connection with accepted := s.addClient connection.peer } = connection.writes :=
      rfl
    have place : s.addClient connection.peer ≠ .queued := by
      rw [Peers.addClient]
      split_ifs <;> exact Accepted.noConfusion
    simp only [Connection.work, answer, writes, queued, place, if_true, if_false]
    omega
  | serve c connection packets returns idle here pending answer =>
    refine change_work here rfl ?_
    have asked : connection.asked nodes = 2 * packets.length + 2 := by rw [Connection.asked, answer]
    simp only [Connection.work, asked, pending, if_true, Bool.false_eq_true, if_false]
    simp only [Connection.writes]
    omega
  | send j c connection packet left returns serving here sending room =>
    refine change_work here rfl (less_work rfl rfl rfl ?_)
    simp only [Connection.writes, sending, List.length_append, List.length_cons, List.length_nil]
    omega
  | finish j c connection serving here sending =>
    refine change_work here rfl (less_work rfl rfl rfl ?_)
    simp only [Connection.writes, sending, List.length_nil]
    omega
  | waits k c fileSize r r' connection packet arrived receiving here front iterates =>
    refine change_work here rfl (less_work rfl rfl rfl ?_)
    simp [Connection.writes, front]
  | ends k c fileSize r outcome connection packet arrived receiving here front iterates final =>
    refine change_work here rfl (less_work rfl rfl rfl ?_)
    simp [Connection.writes, front]

theorem arrived_received (orderly : s.Orderly nodes) {k : K} {fileSize : UInt32} {r : Receiving}
    (receiving : s.mains k = .receiving c fileSize r) (here : s.connections[c]? = some old)
    (unread : old.arrived ≠ []) :
    s.step nodes takes (.receive k) ≠ none := by
  obtain ⟨packet, arrived, front⟩ := List.exists_cons_of_ne_nil unread
  obtain ⟨-, -, rest, -, settles⟩ := receive_settles orderly receiving here front
  simp only [Peers.step, Peers.receive, receiving, here, front]
  cases settles with
  | waits _ _ _ _ ran => simp [ran]
  | ends _ _ outcome ran final =>
    rw [ran]
    cases outcome with
    | waiting r' => exact absurd rfl (final r')
    | complete | refused | broken => simp

theorem serving_moves (orderly : s.Orderly nodes) (room : ∀ packet, takes [] packet = true) {j : K}
    (serving : s.servers j = some c) : ∃ e, e.isGet = false ∧ s.step nodes takes e ≠ none := by
  obtain ⟨connection, here, peer, sends⟩ := orderly.servers j c serving
  obtain ⟨packets, awaits, transfers⟩ := orderly.transfers c connection here
  cases awaits with
  | requested _ _ quiet => simp [quiet] at sends
  | sent _ quiet => simp [quiet] at sends
  | served left read sending =>
    have found := serving_some.mpr ⟨serving, here, sending⟩
    cases left with
    | nil => exact ⟨.finish j, rfl, by simp [Peers.step, Peers.finish, found]⟩
    | cons packet left =>
      by_cases fits : takes connection.arrived packet = true
      · exact ⟨.send j, rfl, by simp [Peers.step, Peers.send, found, fits]⟩
      · have unread : connection.arrived ≠ [] := by
          intro empty
          exact fits (empty ▸ room packet)
        rcases transfers with ⟨r, receiving, -⟩ | ⟨nothing, -⟩
        · exact ⟨.receive _, rfl, arrived_received orderly receiving here unread⟩
        · simp at nothing

theorem prompt_of_stuck (orderly : s.Orderly nodes) (pooled : s.Pooled) (room : ∀ packet, takes [] packet = true)
    (stuck : ∀ e : PeerEvent K, e.isGet = false → s.step nodes takes e = none) (k : K) : s.mains k = .prompt := by
  cases main : s.mains k with
  | prompt => rfl
  | receiving c fileSize r =>
    have still : ¬ ∃ e : PeerEvent K, e.isGet = false ∧ s.step nodes takes e ≠ none := by
      rintro ⟨e, own, moves⟩
      exact moves (stuck e own)
    refine absurd ?_ still
    obtain ⟨connection, here, rfl⟩ := orderly.clients k c fileSize r main
    obtain ⟨packets, awaits, ⟨r', -, settles⟩ | ⟨-, left⟩⟩ := orderly.transfers c connection here
    · cases awaits with
      | requested _ pending quiet empty answer =>
        cases busy : s.servers connection.peer with
        | some c' => exact serving_moves orderly room busy
        | none =>
          cases accepted : connection.accepted with
          | queued =>
            exact ⟨.accept connection.peer c, rfl, by simp [Peers.step, Peers.accept, busy, here, accepted]⟩
          | slot =>
            exact ⟨.serve connection.peer c, rfl, by
              simp [Peers.step, Peers.serve, busy, here, accepted, pending, answer]⟩
          | lost => exact absurd accepted (pooled.found connection (List.mem_of_getElem? here))
      | served rest read sending =>
        exact serving_moves orderly room (orderly.sending c connection here (by simp [sending]))
      | sent read quiet =>
        have unread : connection.arrived ≠ [] := by
          intro empty
          rw [empty] at settles
          cases settles
        exact ⟨.receive _, rfl, arrived_received orderly main here unread⟩
    · exact absurd main (left fileSize r)

def Peers.Settled (s : Peers K) : Prop :=
  ∀ c connection, s.connections[c]? = some connection →
    (∃ fileSize r, s.mains connection.client = .receiving c fileSize r) ∨ ∃ outcome, (c, outcome) ∈ s.results

omit [DecidableEq K] in
theorem change_settled (settled : s.Settled) (here : s.connections[c]? = some old)
    (connections : s'.connections = (s.change c new).connections) (client : new.client = old.client)
    (mains : ∀ k c' fileSize r, s.mains k = .receiving c' fileSize r →
      (∃ fileSize r, s'.mains k = .receiving c' fileSize r) ∨ ∃ outcome, (c', outcome) ∈ s'.results)
    (results : s.results ⊆ s'.results) : s'.Settled := by
  intro c' connection found
  rw [connections, change_lookup here] at found
  have before : ∃ earlier, s.connections[c']? = some earlier ∧ earlier.client = connection.client := by
    split_ifs at found with own
    · obtain rfl := Option.some.inj found
      exact ⟨old, own ▸ here, client.symm⟩
    · exact ⟨connection, found, rfl⟩
  obtain ⟨earlier, there, same⟩ := before
  rcases settled c' earlier there with ⟨fileSize, r, receiving⟩ | ⟨outcome, member⟩
  · exact mains _ c' fileSize r (same ▸ receiving)
  · exact .inr ⟨outcome, results member⟩

theorem step_settled (settled : s.Settled) {e : PeerEvent K} (stepped : s.step nodes takes e = some s') :
    s'.Settled := by
  cases step_moves stepped with
  | get k peer fileName fileSize fileReqPkt fileResSuccessPkt fileBuffer prompt =>
    intro c connection found
    rw [List.getElem?_append] at found
    split_ifs at found with earlier
    · refine (settled c connection found).imp_left ?_
      rintro ⟨fileSize', r, receiving⟩
      have other : connection.client ≠ k := by
        rintro rfl
        cases prompt.symm.trans receiving
      exact ⟨fileSize', r, (Function.update_of_ne other _ _).trans receiving⟩
    · rw [List.getElem?_singleton] at found
      split_ifs at found with last
      obtain rfl := Option.some.inj found
      obtain rfl : c = s.connections.length := by omega
      exact .inl ⟨_, _, Function.update_self k _ _⟩
  | accept c connection idle here queued =>
    exact change_settled settled here rfl rfl (fun _ _ fileSize r receiving => .inl ⟨fileSize, r, receiving⟩)
      (List.Subset.refl _)
  | serve c connection packets returns idle here pending answer =>
    exact change_settled settled here rfl rfl (fun _ _ fileSize r receiving => .inl ⟨fileSize, r, receiving⟩)
      (List.Subset.refl _)
  | send j c connection packet left returns serving here sending room =>
    exact change_settled settled here rfl rfl (fun _ _ fileSize r receiving => .inl ⟨fileSize, r, receiving⟩)
      (List.Subset.refl _)
  | finish j c connection serving here sending =>
    exact change_settled settled here rfl rfl (fun _ _ fileSize r receiving => .inl ⟨fileSize, r, receiving⟩)
      (List.Subset.refl _)
  | waits k c fileSize r r' connection packet arrived receiving here front iterates =>
    refine change_settled settled here rfl rfl (fun k' c' fileSize' r₁ before => .inl ?_) (List.Subset.refl _)
    by_cases own : k' = k
    · subst own
      obtain ⟨rfl, -, -⟩ := Getting.receiving.inj (receiving.symm.trans before)
      exact ⟨_, _, Function.update_self k' _ _⟩
    · exact ⟨fileSize', r₁, (Function.update_of_ne own _ _).trans before⟩
  | ends k c fileSize r outcome connection packet arrived receiving here front iterates final =>
    refine change_settled settled here rfl rfl (fun k' c' fileSize' r₁ before => ?_) (List.subset_append_left _ _)
    by_cases own : k' = k
    · subst own
      obtain ⟨rfl, -, -⟩ := Getting.receiving.inj (receiving.symm.trans before)
      exact .inr ⟨outcome, List.mem_append_right _ (List.mem_singleton_self _)⟩
    · exact .inl ⟨fileSize', r₁, (Function.update_of_ne own _ _).trans before⟩

end Work

-- A file `a` of three bytes that is read byte by byte.
def threeBytes : ChildNode where
  id := 7
  files := {
    stat := fun _ => some 3
    opens := fun _ => true
    reads := fun _ => fileReads [[1], [2], [3]] }
  fileReqPkt := fun _ => 0
  fileResSuccessPkt := fun _ => 0

def emptyOnly : Room := fun arrived _ => arrived.isEmpty

def getOther (k : Bool) : PeerEvent Bool := .get k (!k) [97] 3 (fun _ => 0) (fun _ => 0) (fun _ => 0)

def circle : Peers Bool where
  mains := fun k => .receiving k.toNat 3 (Receiving.start (fun _ => 0) (fun _ => 0))
  servers := fun _ => none
  connections := [opened (fun _ => threeBytes) false true [97] 3 (fun _ => 0),
    opened (fun _ => threeBytes) true false [97] 3 (fun _ => 0)]
  results := []

theorem threeBytes_holds : threeBytes.Holds [97] [1, 2, 3] := ⟨rfl, rfl, [[1], [2], [3]], by decide, rfl, rfl⟩

theorem getOther_current (k : Bool) {s : Peers Bool} (slot : (s.clients (!k)).length < fdSetSize) (s' : Peers Bool) :
    Current (fun _ => threeBytes) s (getOther k) s' :=
  ⟨by decide, by simp, .holds [1, 2, 3] threeBytes_holds (by decide) (by decide) rfl, slot⟩

theorem circle_reached :
    (peers (fun _ => threeBytes) emptyOnly).ReachableWhile (Current fun _ => threeBytes) circle := by
  have start : (peers (fun _ => threeBytes) emptyOnly).ReachableWhile (Current fun _ => threeBytes)
      (peersInit : Peers Bool) := .initial peersInit rfl
  have first := start.next _ (getOther false) _ (getOther_current false (by decide) _) rfl
  refine first.next _ (getOther true) _ (getOther_current true ?_ _) ?_
  · decide
  have mains : circle.mains = Function.update (Function.update (fun _ => .prompt) false
      (.receiving 0 3 (Receiving.start (fun _ => 0) (fun _ => 0)))) true
      (.receiving 1 3 (Receiving.start (fun _ => 0) (fun _ => 0))) := by
    funext k
    cases k <;> rfl
  exact congrArg some (by rw [circle, Peers.mk.injEq]; exact ⟨mains.symm, rfl, rfl, rfl⟩)

theorem threeBytes_answers (k peer : Bool) (fileSize : UInt32) :
    (opened (fun _ => threeBytes) k peer [97] fileSize (fun _ => 0)).answer (fun _ => threeBytes) =
      .ok ([[1], [2], [3]].map (resSuccessPacket 7), true) := by
  have cut : ∀ bytes ∈ [[1], [2], [3]], Chunk bytes := by decide
  have regular : 0 ≤ asInt 3 := by decide
  have handled : threeBytes.handleClientRequest (some (fileReqPacket (fun _ => 0) 7 [97])) = _ :=
    fileReq_handled threeBytes (by decide) (by simp) (fun _ => 0) 7
  exact handled.trans (congrArg Except.ok (handleFileReq_serves 7 (fun _ => 0) cut regular))

theorem circle_work : circle.work (fun _ => threeBytes) = 18 := by
  have each (k peer : Bool) :
      (opened (fun _ => threeBytes) k peer [97] 3 (fun _ => 0)).work (fun _ => threeBytes) = 9 := by
    have asked : (opened (fun _ => threeBytes) k peer [97] 3 (fun _ => 0)).asked (fun _ => threeBytes) = 8 := by
      rw [Connection.asked, threeBytes_answers]
      rfl
    rw [Connection.work, asked]
    rfl
  simp only [Peers.work, circle, List.map_cons, List.map_nil, List.sum_cons, List.sum_nil, each, Nat.reduceAdd]

end NetProg.P4
