import NetProg.Upload.Session

set_option autoImplicit false

namespace NetProg.P1

open Memory Upload

structure Client where
  clientSendPkt : Block
  clientRecvPkt : Block
  -- what `read(fd)` is going to return, `none` for a failure; 0 behind the last
  reads : List (Option (List UInt8))
  fileStored : Bool
  storedError : Bool
  -- the loop has been left behind a failed `read`
  readError : Bool

def Client.isOver (c : Client) : Bool := c.fileStored || c.storedError || c.readError

def Client.send (c : Client) (seqNum pktLen : Nat) (cmd : UInt16) : Client × List (List UInt8) :=
  let (pkt, sent) := sendDataPkt c.clientSendPkt seqNum pktLen cmd
  ({ c with clientSendPkt := pkt }, [sent])

def Client.start (sendUnwritten recvUnwritten : Block) (reads : List (Option (List UInt8))) (rand : Nat) :
    Client × List (List UInt8) :=
  -- The client when it has sent CLIENT_HELLO.
  Client.send { clientSendPkt := initPkt sendUnwritten, clientRecvPkt := recvUnwritten, reads, fileStored := false,
                storedError := false, readError := false } (rand % maxSequence) headerLength clientHello

def Client.readFile (c : Client) : Option (List UInt8) × Client :=
  match c.reads with
  | [] => (some [], c)
  | r :: rest => (r, { c with reads := rest })

def Client.sendNext (c : Client) (data : List UInt8) (cmd : UInt16) : Client × List (List UInt8) :=
  { c with clientSendPkt := store c.clientSendPkt dataAt data }.send (nextSeq c.clientSendPkt)
    (headerLength + data.length) cmd

def Client.handle (fileName : List UInt8) (c : Client) : Option (Client × List (List UInt8)) :=
  -- The `switch` on the command of the server; `none` when the file name does not fit into the
  -- packet.
  let command := load16 c.clientRecvPkt commandAt
  if command = serverHello then
    match c.readFile with
    | (none, c) => some (c.sendNext [] error)
    | (some bytes, c) => some (c.sendNext bytes dataDelivery)
  else if command = pktReceived then
    match c.readFile with
    | (some [], c) =>
      if fileName.length + 1 ≤ dataSize then some (c.sendNext (fileName ++ [0]) dataStore) else none
    | (none, c) => some (c.sendNext [] error)
    | (some bytes, c) => some (c.sendNext bytes dataDelivery)
  else if command = error ∨ command = Upload.storedError then some ({ c with storedError := true }, [])
  else if command = Upload.fileStored then some ({ c with fileStored := true }, [])
  else some (c, [])

def Client.iterate (fileName : List UInt8) (c : Client) (read : SocketRead) : Option (Client × List (List UInt8)) :=
  -- One round of `while(1)`.
  match read with
  | .failed =>
    let (c, packets) := c.sendNext [] error
    some ({ c with readError := true }, packets)
  | .closed => c.handle fileName
  | .packet bytes => { c with clientRecvPkt := receivePkt c.clientRecvPkt headerLength bytes }.handle fileName

structure Client.Sent (c : Client) (sequence : UInt16) : Prop where
  static : load c.clientSendPkt 0 2 = [staticVersion, staticUserId]
  last : load16 c.clientSendPkt sequenceAt = sequence

section Send

variable {c : Client} {last : UInt16}

theorem sendNext_eq (sent : c.Sent last) (data : List UInt8) (cmd : UInt16) :
    (c.sendNext data cmd).2 = [message (last + 1) cmd data] ∧ (c.sendNext data cmd).1.Sent (last + 1) := by
  have filled := load_store c.clientSendPkt dataAt data
  have static : load (store c.clientSendPkt dataAt data) 0 2 = [staticVersion, staticUserId] :=
    (load_store_apart _ (.inl (by decide))).trans sent.static
  have next : UInt16.ofNat (nextSeq c.clientSendPkt) = last + 1 := by
    rw [nextSeq, sent.last, UInt16.ofNat_add, UInt16.ofNat_toNat]
    rfl
  have bytes := sendPkt_message static filled (nextSeq c.clientSendPkt) cmd
  rw [next] at bytes
  refine ⟨?_, ?_, ?_⟩
  · simp only [Client.sendNext, Client.send, sendDataPkt, bytes]
  · exact (sendPkt_static (store c.clientSendPkt dataAt data) _ _ cmd).trans static
  · exact (sendPkt_next (store c.clientSendPkt dataAt data) _ _ cmd).trans next

theorem start_eq (sendUnwritten recvUnwritten : Block) (reads : List (Option (List UInt8))) (rand : Nat) :
    (Client.start sendUnwritten recvUnwritten reads rand).2 =
        [message (UInt16.ofNat (rand % maxSequence)) clientHello []] ∧
      (Client.start sendUnwritten recvUnwritten reads rand).1.Sent (UInt16.ofNat (rand % maxSequence)) := by
  have static := initPkt_static sendUnwritten
  have nothing : load (initPkt sendUnwritten) dataAt ([] : List UInt8).length = [] := rfl
  have bytes := sendPkt_message static nothing (rand % maxSequence) clientHello
  simp only [List.length_nil, Nat.add_zero] at bytes
  refine ⟨?_, ?_, ?_⟩
  · simp only [Client.start, Client.send, sendDataPkt, bytes]
  · exact (sendPkt_static _ _ _ _).trans static
  · exact sendPkt_next _ _ _ _

end Send

end NetProg.P1
