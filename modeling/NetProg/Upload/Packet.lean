import NetProg.Shared.Memory

set_option autoImplicit false

namespace NetProg.Upload

open Memory

def clientHello : UInt16 := 0x0001
def serverHello : UInt16 := 0x0002
def dataDelivery : UInt16 := 0x0003
def dataStore : UInt16 := 0x0004
def error : UInt16 := 0x0005
def pktReceived : UInt16 := 0x0006
def fileStored : UInt16 := 0x0007
def storedError : UInt16 := 0x0008

abbrev maxSequence : Nat := 65535
def staticVersion : UInt8 := 0x04
def staticUserId : UInt8 := 0x08
abbrev dataSize : Nat := 4022
abbrev headerLength : Nat := 8

-- offsets of the fields of `cmd_pkt` and `data_pkt`
abbrev versionAt : Nat := 0
abbrev userIdAt : Nat := 1
abbrev sequenceAt : Nat := 2
abbrev lengthAt : Nat := 4
abbrev commandAt : Nat := 6
abbrev dataAt : Nat := 8

def initPkt (unwritten : Block) : Block := store (store unwritten versionAt [staticVersion]) userIdAt [staticUserId]

def sendPkt (pkt : Block) (seqNum pktLen : Nat) (cmd : UInt16) : Block × List UInt8 :=
  -- `sendCmdPkt` and `sendDataPkt`: the packet as it is left, and the bytes that are written.
  let sequenced := store pkt sequenceAt (net16 (UInt16.ofNat seqNum))
  let measured := store sequenced lengthAt (net16 (UInt16.ofNat pktLen))
  let pkt := store measured commandAt (net16 cmd)
  (pkt, load pkt 0 pktLen)

def sendCmdPkt : Block → Nat → Nat → UInt16 → Block × List UInt8 := sendPkt

def sendDataPkt : Block → Nat → Nat → UInt16 → Block × List UInt8 := sendPkt

def nextSeq (pkt : Block) : Nat := (load16 pkt sequenceAt).toNat + 1

-- A packet variable after `read` has returned these bytes.
def receivePkt (pkt : Block) (size : Nat) (sent : List UInt8) : Block := store pkt 0 (sent.take size)

def message (sequence command : UInt16) (data : List UInt8) : List UInt8 :=
  [staticVersion, staticUserId] ++ net16 sequence ++ net16 (UInt16.ofNat (headerLength + data.length)) ++
    net16 command ++ data

theorem message_length (sequence command : UInt16) (data : List UInt8) :
    (message sequence command data).length = headerLength + data.length := by
  simp only [message, List.length_append, List.length_cons, List.length_nil, length_net16]

theorem sendPkt_static (pkt : Block) (seqNum pktLen : Nat) (cmd : UInt16) :
    load (sendPkt pkt seqNum pktLen cmd).1 0 2 = load pkt 0 2 := by
  simp only [sendPkt]
  rw [load_store_apart _ (.inl (by decide)), load_store_apart _ (.inl (by decide)),
    load_store_apart _ (.inl (by decide))]

theorem sendPkt_data (pkt : Block) (seqNum pktLen len : Nat) (cmd : UInt16) :
    load (sendPkt pkt seqNum pktLen cmd).1 dataAt len = load pkt dataAt len := by
  have behind : ∀ (field : Nat) (value : UInt16), field + 2 ≤ dataAt → field + (net16 value).length ≤ dataAt := by
    simp only [length_net16, imp_self, implies_true]
  simp only [sendPkt]
  rw [load_store_apart _ (.inr (behind _ _ (by decide))), load_store_apart _ (.inr (behind _ _ (by decide))),
    load_store_apart _ (.inr (behind _ _ (by decide)))]

theorem sendPkt_sequence (pkt : Block) (seqNum pktLen : Nat) (cmd : UInt16) :
    load (sendPkt pkt seqNum pktLen cmd).1 sequenceAt 2 = net16 (UInt16.ofNat seqNum) := by
  simp only [sendPkt]
  rw [load_store_apart _ (.inl (by decide)), load_store_apart _ (.inl (by decide))]
  exact load_store _ _ _

theorem sendPkt_length (pkt : Block) (seqNum pktLen : Nat) (cmd : UInt16) :
    load (sendPkt pkt seqNum pktLen cmd).1 lengthAt 2 = net16 (UInt16.ofNat pktLen) := by
  simp only [sendPkt]
  rw [load_store_apart _ (.inl (by decide))]
  exact load_store _ _ _

theorem sendPkt_command (pkt : Block) (seqNum pktLen : Nat) (cmd : UInt16) :
    load (sendPkt pkt seqNum pktLen cmd).1 commandAt 2 = net16 cmd := load_store _ _ _

theorem sendPkt_next (pkt : Block) (seqNum pktLen : Nat) (cmd : UInt16) :
    load16 (sendPkt pkt seqNum pktLen cmd).1 sequenceAt = UInt16.ofNat seqNum :=
  load16_of (sendPkt_sequence pkt seqNum pktLen cmd)

theorem sendPkt_message {pkt : Block} {data : List UInt8} (static : load pkt 0 2 = [staticVersion, staticUserId])
    (filled : load pkt dataAt data.length = data) (seqNum : Nat) (cmd : UInt16) :
    (sendPkt pkt seqNum (headerLength + data.length) cmd).2 = message (UInt16.ofNat seqNum) cmd data := by
  have whole : headerLength + data.length = 2 + (2 + (2 + (2 + data.length))) := by
    simp only [headerLength]
    omega
  have sent : (sendPkt pkt seqNum (headerLength + data.length) cmd).2 =
      load (sendPkt pkt seqNum (headerLength + data.length) cmd).1 0 (2 + (2 + (2 + (2 + data.length)))) := by
    rw [← whole]
    rfl
  rw [sent, load_add, load_add, load_add, load_add, sendPkt_static, static, sendPkt_sequence, sendPkt_length,
    sendPkt_command, sendPkt_data, filled]
  simp only [message, List.append_assoc]

theorem initPkt_static (unwritten : Block) : load (initPkt unwritten) 0 2 = [staticVersion, staticUserId] := by
  have first : load (initPkt unwritten) 0 1 = [staticVersion] := by
    rw [initPkt, load_store_apart _ (by simp)]
    exact load_store _ _ _
  have second : load (initPkt unwritten) 1 1 = [staticUserId] := load_store _ _ _
  rw [show 2 = 1 + 1 from rfl, load_add, first]
  exact congrArg _ second

structure Carries (pkt : Block) (sequence command : UInt16) (data : List UInt8) : Prop where
  sequence : load16 pkt sequenceAt = sequence
  length : load16 pkt lengthAt = UInt16.ofNat (headerLength + data.length)
  command : load16 pkt commandAt = command
  data : load pkt dataAt data.length = data

theorem receivePkt_carries (pkt : Block) {size : Nat} (sequence command : UInt16) {data : List UInt8}
    (fits : headerLength + data.length ≤ size) :
    Carries (receivePkt pkt size (message sequence command data)) sequence command data := by
  have whole : (message sequence command data).take size = message sequence command data := by
    rw [List.take_of_length_le]
    rwa [message_length]
  have part := load_store_part pkt 0
  simp only [Nat.zero_add] at part
  rw [receivePkt, whole]
  constructor
  case sequence =>
    have field := part [staticVersion, staticUserId] (net16 sequence)
      (net16 (UInt16.ofNat (headerLength + data.length)) ++ (net16 command ++ data))
    refine load16_of (Eq.trans ?_ field)
    simp only [message, List.append_assoc, List.length_cons, List.length_nil, length_net16]
  case length =>
    have field := part ([staticVersion, staticUserId] ++ net16 sequence)
      (net16 (UInt16.ofNat (headerLength + data.length))) (net16 command ++ data)
    refine load16_of (Eq.trans ?_ field)
    simp only [message, List.append_assoc, List.length_append, List.length_cons, List.length_nil, length_net16]
  case command => exact load16_of (part _ (net16 command) data)
  case data =>
    have field := part ([staticVersion, staticUserId] ++ net16 sequence ++
      net16 (UInt16.ofNat (headerLength + data.length)) ++ net16 command) data []
    rwa [List.append_nil] at field

theorem message_command (sequence command : UInt16) (data : List UInt8) :
    load16 (ofBytes (message sequence command data)) commandAt = command := by
  have size := message_length sequence command data
  have whole : receivePkt (fun _ => 0) (headerLength + data.length) (message sequence command data) =
      ofBytes (message sequence command data) := by
    rw [receivePkt, ofBytes_eq, List.take_of_length_le size.le]
  have carries := receivePkt_carries (fun _ => 0) sequence command (le_refl (headerLength + data.length))
  rw [whole] at carries
  exact carries.command

theorem message_data (sequence command : UInt16) (data : List UInt8) :
    (message sequence command data).drop headerLength = data := by
  refine List.drop_left' ?_
  simp only [List.length_append, List.length_cons, List.length_nil, length_net16]

end NetProg.Upload
