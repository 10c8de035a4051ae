import NetProg.Shared.Allocation
import NetProg.Upload.Packet

set_option autoImplicit false

namespace NetProg.Upload

open Memory

structure Outcome where
  -- How the calls that one packet leads to turn out.
  rand : Nat
  -- what the memory behind the old block holds when `realloc` succeeds
  realloc : Option Block
  malloc : Bool
  opens : Bool
  -- how many bytes `write` stores
  writes : Option Nat

structure Effects where
  -- What the handling of a packet does to the outside: the packets for the client, and the name and
  -- the bytes of a call of `write`.
  replies : List (List UInt8)
  written : Option (List UInt8 × List UInt8)

structure Session where
  serverSendPkt : Block
  serverRecvPkt : Block
  buffer : Option Buffer
  bytesRead : UInt32
  fileStored : Bool
  storedError : Bool
  communicationError : Bool
  -- the loop has been left behind a failed `read`
  readError : Bool

def Session.start (sendUnwritten recvUnwritten : Block) : Session where
  serverSendPkt := initPkt sendUnwritten
  serverRecvPkt := recvUnwritten
  buffer := none
  bytesRead := 0
  fileStored := false
  storedError := false
  communicationError := false
  readError := false

def Session.isOver (s : Session) : Bool := s.fileStored || s.storedError || s.communicationError || s.readError

-- `ntohs(serverRecvPkt.length) - HEADER_LENGTH`
def dataLen (pkt : Block) : UInt32 := UInt32.ofNat (load16 pkt lengthAt).toNat - 8

def Session.reply (s : Session) (seqNum : Nat) (cmd : UInt16) (written : Option (List UInt8 × List UInt8)) :
    Session × Effects :=
  let (pkt, sent) := sendCmdPkt s.serverSendPkt seqNum headerLength cmd
  ({ s with serverSendPkt := pkt }, { replies := [sent], written })

def Session.deliver (s : Session) (o : Outcome) : Option (Session × Effects) :=
  -- The DATA_DELIVERY case; `none` when it copies outside an object.
  let len := dataLen s.serverRecvPkt
  let size := s.bytesRead + len
  let seqNum := nextSeq s.serverSendPkt
  match realloc s.buffer size.toNat o.realloc with
  | none => some ({ s with buffer := none, storedError := true }.reply seqNum error none)
  | some b =>
    if len.toNat ≤ dataSize ∧ s.bytesRead.toNat + len.toNat ≤ b.size then
      let buffer := { b with bytes := store b.bytes s.bytesRead.toNat (load s.serverRecvPkt dataAt len.toNat) }
      some ({ s with buffer := some buffer, bytesRead := size }.reply seqNum pktReceived none)
    else none

def bytesToWrite (buffer : Option Buffer) (bytesRead : Nat) : Option (Option (List UInt8)) :=
  -- The bytes that `write(fd, buffer, bytes_read)` takes; `none` for a block that is too short.
  match buffer with
  | some b => if bytesRead ≤ b.size then some (some (load b.bytes 0 bytesRead)) else none
  -- there is nothing at a null pointer, and the call fails unless it takes no byte
  | none => some (if bytesRead = 0 then some [] else none)

def Session.store (s : Session) (o : Outcome) : Option (Session × Effects) :=
  -- The DATA_STORE case; `none` when the name does not end inside the packet.
  let len := dataLen s.serverRecvPkt
  let seqNum := nextSeq s.serverSendPkt
  if o.malloc ∧ len.toNat ≤ dataSize then
    match cstring (load s.serverRecvPkt dataAt len.toNat) with
    | none => none
    | some fileName =>
      if o.opens then
        match bytesToWrite s.buffer s.bytesRead.toNat with
        | none => none
        | some none => some ({ s with storedError := true }.reply seqNum Upload.storedError none)
        | some (some bytes) => match o.writes with
          | none => some ({ s with storedError := true }.reply seqNum Upload.storedError (some (fileName, bytes)))
          | some _ =>
            -- the buffer is freed, and the loop is left
            some ({ s with buffer := none, fileStored := true }.reply seqNum Upload.fileStored (some (fileName, bytes)))
      else some ({ s with storedError := true }.reply seqNum Upload.storedError none)
  else none

def Session.handle (s : Session) (o : Outcome) : Option (Session × Effects) :=
  -- The `switch` on the command of the packet.
  let command := load16 s.serverRecvPkt commandAt
  if command = clientHello then some (s.reply (o.rand % maxSequence) serverHello none)
  else if command = dataDelivery then s.deliver o
  else if command = dataStore then s.store o
  else if command = error then some ({ s with communicationError := true }, { replies := [], written := none })
  else some (s, { replies := [], written := none })

inductive SocketRead where
  | packet (bytes : List UInt8)
  | closed
  | failed

def Session.iterate (s : Session) (read : SocketRead) (o : Outcome) : Option (Session × Effects) :=
  match read with
  | .failed => some ({ s with readError := true }, { replies := [], written := none })
  | .closed => s.handle o
  | .packet bytes => { s with serverRecvPkt := receivePkt s.serverRecvPkt (headerLength + dataSize) bytes }.handle o

theorem bytesToWrite_content {buffer : Option Buffer} {bytes content : List UInt8} (null : buffer = none → bytes = [])
    (block : ∀ b, buffer = some b → bytes.length ≤ b.size ∧ load b.bytes 0 bytes.length = bytes)
    (found : bytesToWrite buffer bytes.length = some (some content)) : content = bytes := by
  cases buffer with
  | none =>
    obtain rfl := null rfl
    exact (Option.some.inj (Option.some.inj found)).symm
  | some b =>
    obtain ⟨inside, here⟩ := block b rfl
    rw [bytesToWrite, if_pos inside, here] at found
    exact (Option.some.inj (Option.some.inj found)).symm

-- A sum that has not come out too small has not wrapped.
theorem unwrapped_add {a b : UInt32} (wide : a.toNat + b.toNat ≤ (a + b).toNat) : (a + b).toNat = a.toNat + b.toNat := by
  have sum := UInt32.toNat_add a b
  omega

structure Session.Buffered (s : Session) (bytes : List UInt8) : Prop where
  count : s.bytesRead.toNat = bytes.length
  block : ∀ b, s.buffer = some b → bytes.length ≤ b.size ∧ load b.bytes 0 bytes.length = bytes
  null : s.buffer = none → bytes = []

structure Session.Sent (s : Session) (sequence : UInt16) : Prop where
  static : load s.serverSendPkt 0 2 = [staticVersion, staticUserId]
  last : load16 s.serverSendPkt sequenceAt = sequence

section Handle

variable {s : Session} {sequence command last : UInt16} {data bytes : List UInt8}

theorem Carries.dataLen {pkt : Block} (carries : Carries pkt sequence command data) (fits : data.length ≤ dataSize) :
    (dataLen pkt).toNat = data.length := by
  simp only [dataSize] at fits
  have total : (UInt16.ofNat (headerLength + data.length)).toNat = headerLength + data.length := by
    refine UInt16.toNat_ofNat_of_lt' ?_
    simp only [headerLength, UInt16.size]
    omega
  have wide : (UInt32.ofNat (headerLength + data.length)).toNat = headerLength + data.length := by
    refine UInt32.toNat_ofNat_of_lt' ?_
    simp only [headerLength, UInt32.size]
    omega
  rw [Upload.dataLen, carries.length, total, UInt32.toNat_sub_of_le, wide]
  · simp only [headerLength, UInt32.reduceToNat]
    omega
  · rw [UInt32.le_iff_toNat_le, wide]
    simp only [headerLength, UInt32.reduceToNat]
    omega

theorem reply_effects (static : load s.serverSendPkt 0 2 = [staticVersion, staticUserId]) (seqNum : Nat)
    (cmd : UInt16)
    (written : Option (List UInt8 × List UInt8)) :
    (s.reply seqNum cmd written).2 = { replies := [message (UInt16.ofNat seqNum) cmd []], written } := by
  have nothing : load s.serverSendPkt dataAt ([] : List UInt8).length = [] := rfl
  have sent := sendPkt_message static nothing seqNum cmd
  simp only [List.length_nil, Nat.add_zero] at sent
  simp only [Session.reply, sendCmdPkt, sent]

theorem reply_sent (static : load s.serverSendPkt 0 2 = [staticVersion, staticUserId]) (seqNum : Nat) (cmd : UInt16)
    (written : Option (List UInt8 × List UInt8)) : (s.reply seqNum cmd written).1.Sent (UInt16.ofNat seqNum) := by
  constructor
  · exact (sendPkt_static s.serverSendPkt seqNum headerLength cmd).trans static
  · exact sendPkt_next s.serverSendPkt seqNum headerLength cmd

theorem Session.Sent.next (sent : s.Sent last) : UInt16.ofNat (nextSeq s.serverSendPkt) = last + 1 := by
  rw [nextSeq, sent.last, UInt16.ofNat_add, UInt16.ofNat_toNat]
  rfl

theorem handle_hello (carries : Carries s.serverRecvPkt sequence clientHello data) (o : Outcome) :
    s.handle o = some (s.reply (o.rand % maxSequence) serverHello none) := by
  simp only [Session.handle, carries.command, if_true]

theorem Session.Buffered.realloc (buffered : s.Buffered bytes) (more : Nat) (fresh : Block)
    (kept : s.buffer = none ∨ 0 < bytes.length + more) :
    ∃ b, Memory.realloc s.buffer (bytes.length + more) (some fresh) = some b ∧ b.size = bytes.length + more ∧
      load b.bytes 0 bytes.length = bytes := by
  cases old : s.buffer with
  | none =>
    obtain rfl := buffered.null old
    exact ⟨{ size := 0 + more, bytes := fresh }, rfl, rfl, rfl⟩
  | some b =>
    obtain ⟨inside, here⟩ := buffered.block b old
    have positive : bytes.length + more ≠ 0 := by
      rcases kept with null | positive
      · simp [old] at null
      · omega
    refine ⟨_, if_neg positive, rfl, (load_congr fun i low high => ?_).trans here⟩
    exact if_pos (show i < b.size by omega)

theorem handle_delivery (carries : Carries s.serverRecvPkt sequence dataDelivery data) (fits : data.length ≤ dataSize)
    (sent : s.Sent last) (buffered : s.Buffered bytes) (room : bytes.length + data.length < 2 ^ 32) {o : Outcome}
    {fresh : Block} (allocates : o.realloc = some fresh) (kept : s.buffer = none ∨ 0 < bytes.length + data.length) :
    ∃ s', s.handle o = some (s', { replies := [message (last + 1) pktReceived []], written := none }) ∧
      s'.Sent (last + 1) ∧ s'.Buffered (bytes ++ data) ∧ s'.isOver = s.isOver := by
  have len := carries.dataLen fits
  have size : (s.bytesRead + dataLen s.serverRecvPkt).toNat = bytes.length + data.length := by
    rw [UInt32.toNat_add, buffered.count, len, Nat.mod_eq_of_lt room]
  obtain ⟨b, grown, wide, same⟩ := buffered.realloc data.length fresh kept
  let after := { s with buffer := some { b with bytes := store b.bytes bytes.length data }
                        bytesRead := s.bytesRead + dataLen s.serverRecvPkt }
  have handled : s.handle o = some (after.reply (nextSeq s.serverSendPkt) pktReceived none) := by
    have inside : data.length ≤ dataSize ∧ bytes.length + data.length ≤ b.size := ⟨fits, wide.ge⟩
    simp only [Session.handle, carries.command, dataDelivery, clientHello, Session.deliver, size, allocates, grown, len,
      buffered.count, carries.data, if_pos inside]
    rfl
  have effects := reply_effects (s := after) sent.static (nextSeq s.serverSendPkt) pktReceived none
  have next := reply_sent (s := after) sent.static (nextSeq s.serverSendPkt) pktReceived none
  rw [sent.next] at effects next
  refine ⟨_, handled.trans (congrArg some (Prod.ext rfl effects)), next, ?_, rfl⟩
  constructor
  case count => rw [List.length_append, ← size]; rfl
  case block =>
    intro b' held
    obtain rfl : { b with bytes := store b.bytes bytes.length data } = b' := Option.some.inj held
    refine ⟨?_, load_store_append same data⟩
    rw [List.length_append]
    exact wide.ge
  case null => simp [Session.reply, after]

theorem handle_store (carries : Carries s.serverRecvPkt sequence dataStore (bytes ++ [0]))
    (text : ∀ c ∈ bytes, c ≠ 0) (fits : bytes.length < dataSize) (sent : s.Sent last) (buffered : s.Buffered data)
    {o : Outcome} (succeeds : o.malloc = true ∧ o.opens = true) {stored : Nat} (writes : o.writes = some stored) :
    ∃ s', s.handle o = some (s',
      { replies := [message (last + 1) Upload.fileStored []], written := some (bytes, data) }) ∧ s'.fileStored = true := by
  have short : (bytes ++ [0]).length ≤ dataSize := by
    rw [List.length_append]
    exact fits
  have len := carries.dataLen short
  have name : cstring (load s.serverRecvPkt dataAt (bytes ++ [0]).length) = some bytes := by
    rw [carries.data]
    exact cstring_append_nul text []
  have content : bytesToWrite s.buffer data.length = some (some data) := by
    cases buffer : s.buffer with
    | none => rw [buffered.null buffer]; rfl
    | some b =>
      obtain ⟨inside, here⟩ := buffered.block b buffer
      simp only [bytesToWrite, if_pos inside, here]
  let after := { s with buffer := none, fileStored := true }
  have handled : s.handle o = some (after.reply (nextSeq s.serverSendPkt) Upload.fileStored (some (bytes, data))) := by
    have inside : o.malloc = true ∧ (bytes ++ [0]).length ≤ dataSize := ⟨succeeds.1, short⟩
    simp only [Session.handle, carries.command, dataStore, dataDelivery, clientHello, Session.store, len, name,
      if_pos inside, if_pos succeeds.2, buffered.count, content, writes]
    rfl
  have effects := reply_effects (s := after) sent.static (nextSeq s.serverSendPkt) Upload.fileStored (some (bytes, data))
  rw [sent.next] at effects
  exact ⟨_, handled.trans (congrArg some (Prod.ext rfl effects)), rfl⟩

end Handle

end NetProg.Upload
