import NetProg.Net.FdPool
import NetProg.Shared.Transition
import NetProg.Upload.Session

set_option autoImplicit false

namespace NetProg.P2

open Memory Upload Transition

structure SelectOutcome where
  -- How the calls that one packet leads to turn out.
  rand : Nat
  realloc : Option (Nat × Block)
  malloc : Bool
  opens : Bool
  writes : Option Nat

def SelectOutcome.seenAlone (o : SelectOutcome) : Outcome where
  -- The same calls, as far as a process of its own can see them.
  rand := o.rand
  realloc := o.realloc.map Prod.snd
  malloc := o.malloc
  opens := o.opens
  writes := o.writes

structure SlotVars where
  -- The elements of the three arrays for one slot.
  buffer : Nat
  lastSeqNum : UInt16
  bytesRead : UInt32
deriving DecidableEq, Repr

def noVars : SlotVars := { buffer := 0, lastSeqNum := 0, bytesRead := 0 }

structure SlotHandled where
  heap : Heap
  vars : SlotVars
  effects : Effects
  -- the block that `vars.buffer` points to has been freed
  freed : Bool

def sendReply (serverSendPkt : Block) (seqNum : Nat) (cmd : UInt16) (written : Option (List UInt8 × List UInt8)) :
    Effects :=
  { replies := [(sendCmdPkt (initPkt serverSendPkt) seqNum headerLength cmd).2], written }

def deliver (heap : Heap) (v : SlotVars) (serverSendPkt serverRecvPkt : Block) (o : SelectOutcome) :
    Option SlotHandled :=
  let len := dataLen serverRecvPkt
  let size := v.bytesRead + len
  match heap.realloc v.buffer size.toNat o.realloc with
  | none => none
  | some (heap, buffer) =>
    let seqNum := v.lastSeqNum.toNat + 1
    let v := { v with buffer, lastSeqNum := UInt16.ofNat seqNum }
    match heap.deref buffer with
    | none => some { heap, vars := v, effects := sendReply serverSendPkt seqNum error none, freed := false }
    | some b =>
      if len.toNat ≤ dataSize ∧ v.bytesRead.toNat + len.toNat ≤ b.size then
        let filled := { b with bytes := store b.bytes v.bytesRead.toNat (load serverRecvPkt dataAt len.toNat) }
        some { heap := Function.update heap buffer (some filled), vars := { v with bytesRead := size },
               effects := sendReply serverSendPkt seqNum pktReceived none, freed := false }
      else none

def storeFile (heap : Heap) (v : SlotVars) (serverSendPkt serverRecvPkt : Block) (o : SelectOutcome) :
    Option SlotHandled :=
  let len := dataLen serverRecvPkt
  if o.malloc ∧ len.toNat ≤ dataSize then
    match cstring (load serverRecvPkt dataAt len.toNat) with
    | none => none
    | some fileName =>
      let seqNum := v.lastSeqNum.toNat + 1
      let v := { v with lastSeqNum := UInt16.ofNat seqNum }
      let failed (written : Option (List UInt8 × List UInt8)) : SlotHandled :=
        { heap, vars := v, effects := sendReply serverSendPkt seqNum storedError written, freed := false }
      if o.opens then
        match bytesToWrite (heap.deref v.buffer) v.bytesRead.toNat with
        | none => none
        | some none => some (failed none)
        | some (some bytes) => match o.writes with
          | none => some (failed (some (fileName, bytes)))
          | some _ => match heap.free v.buffer with
            | none => none
            | some heap =>
              -- neither the pointer nor the count is reset
              some { heap, vars := v, effects := sendReply serverSendPkt seqNum fileStored (some (fileName, bytes)),
                     freed := v.buffer ≠ 0 }
      else some (failed none)
  else none

-- `handleClientRequest` of `select_server_utilities.c` behind its `read`.
def handleClientRequest (heap : Heap) (v : SlotVars) (serverSendPkt serverRecvPkt : Block) (o : SelectOutcome) :
    Option SlotHandled :=
  let command := load16 serverRecvPkt commandAt
  if command = clientHello then
    let seqNum := o.rand % maxSequence
    some { heap, vars := { v with lastSeqNum := UInt16.ofNat seqNum },
           effects := sendReply serverSendPkt seqNum serverHello none, freed := false }
  else if command = dataDelivery then deliver heap v serverSendPkt serverRecvPkt o
  else if command = dataStore then storeFile heap v serverSendPkt serverRecvPkt o
  else some { heap, vars := v, effects := { replies := [], written := none }, freed := false }

structure Entry where
  packet : List UInt8
  outcome : Outcome
  effects : Effects

structure SelectServer where
  serverSock : Int
  loop : EventLoop Unit
  heap : Heap
  vars : Slot → SlotVars
  -- the connection of each open descriptor, by the order in which they were accepted
  sockets : Int → Option Nat
  connections : Nat
  -- what has been handled on each connection
  log : Nat → List Entry
  -- the pointer of the slot is one that has been freed
  spent : Slot → Bool

structure WellFormed (packet : List UInt8) : Prop where
  low : headerLength ≤ packet.length
  high : packet.length ≤ headerLength + dataSize
  length : load16 (ofBytes packet) lengthAt = UInt16.ofNat packet.length

instance (packet : List UInt8) : Decidable (WellFormed packet) :=
  decidable_of_iff (headerLength ≤ packet.length ∧ packet.length ≤ headerLength + dataSize ∧
      load16 (ofBytes packet) lengthAt = UInt16.ofNat packet.length)
    ⟨fun ⟨low, high, length⟩ => ⟨low, high, length⟩, fun formed => ⟨formed.low, formed.high, formed.length⟩⟩

inductive SelectEvent where
  | select (ready : List Int)
  | accept (accepted : Option Int)
  | scan (read : SocketRead) (serverSendPkt serverRecvPkt : Block) (o : SelectOutcome)

def SelectServer.accept (s : SelectServer) (accepted : Option Int) : Option SelectServer :=
  match accepted with
  | none => (s.loop.accept s.serverSock none).map fun loop => { s with loop }
  | some sockfd =>
    if 0 < sockfd ∧ sockfd < fdSetSize ∧ sockfd ≠ s.serverSock ∧ s.sockets sockfd = none then
      (s.loop.accept s.serverSock (some (sockfd, ()))).map fun loop =>
        { s with loop, sockets := Function.update s.sockets sockfd (some s.connections)
                 connections := s.connections + 1 }
    else none

def SelectServer.close (s : SelectServer) (i : Slot) (loop : EventLoop Unit) : SelectServer :=
  { s with loop := { loop with pool := loop.pool.closeSlot i }
           sockets := Function.update s.sockets (s.loop.pool.clientfd i) none
           vars := Function.update s.vars i noVars, spent := Function.update s.spent i false }

def SelectServer.handled (s : SelectServer) (i : Slot) (c : Nat) (loop : EventLoop Unit) (entry : Entry)
    (h : SlotHandled) : SelectServer :=
  { s with loop, heap := h.heap, vars := Function.update s.vars i h.vars
           log := Function.update s.log c (s.log c ++ [entry])
           spent := Function.update s.spent i (s.spent i || h.freed) }

def SelectServer.serve (s : SelectServer) (i : Slot) (loop : EventLoop Unit) (read : SocketRead)
    (serverSendPkt serverRecvPkt : Block) (o : SelectOutcome) : Option SelectServer :=
  -- The handling of a slot in `handleClientFds`; a failing `read` ends the server.
  match read with
  | .failed => none
  | .closed => some (s.close i loop)
  | .packet packet => match s.sockets (s.loop.pool.clientfd i) with
    | none => none
    | some c =>
      if WellFormed packet then
        (handleClientRequest s.heap (s.vars i) serverSendPkt
          (receivePkt serverRecvPkt (headerLength + dataSize) packet) o).map fun h =>
            s.handled i c loop { packet, outcome := o.seenAlone, effects := h.effects } h
      else none

def SelectServer.step (s : SelectServer) : SelectEvent → Option SelectServer
  | .select ready => (s.loop.select ready).map fun loop => { s with loop }
  | .accept accepted => s.accept accepted
  | .scan read serverSendPkt serverRecvPkt o => match s.loop.scan with
    | none => none
    | some (none, loop) => some { s with loop }
    | some (some i, loop) => s.serve i loop read serverSendPkt serverRecvPkt o

structure SelectServer.Starts (s : SelectServer) : Prop where
  listens : 0 < s.serverSock
  loop : ∃ pool : FdPool Unit, pool.maxi < fdSetSize ∧
    s.loop = { pool := initPool s.serverSock pool, pc := .selecting }
  vars : s.vars = fun _ => noVars
  sockets : s.sockets = fun _ => none
  connections : s.connections = 0
  log : s.log = fun _ => []
  spent : s.spent = fun _ => false

def selectServer : System SelectServer SelectEvent where
  init := SelectServer.Starts
  step := SelectServer.step

end NetProg.P2
