import Mathlib.Data.List.Basic
import NetProg.Upload.Session

set_option autoImplicit false

namespace NetProg.P2

open Memory Upload

def ascii (chars : List Char) : List UInt8 := chars.map fun c => UInt8.ofNat c.toNat

def decimal (n : UInt32) : List UInt8 := ascii (Nat.toDigits 10 n.toNat)

-- `snprintf(threadNum, sizeof(threadNum), "%u", threadArg.threadNum)`, which leaves room for the NUL.
def printThreadNum (threadNum : UInt32) : List UInt8 := (decimal threadNum).take 6

def threadMessage (number : List UInt8) : List UInt8 :=
  ascii ['I', ' ', 'a', 'm', ' ', 't', 'h', 'r', 'e', 'a', 'd', ' ', '#'] ++ number

def threadFileName (number : List UInt8) : List UInt8 := number ++ ascii ['.', 't', 'x', 't']

theorem length_threadMessage (number : List UInt8) : (threadMessage number).length = number.length + 13 := by
  rw [threadMessage, List.length_append, Nat.add_comm]
  rfl

theorem length_threadFileName (number : List UInt8) : (threadFileName number).length = number.length + 4 :=
  List.length_append

theorem decimal_length (n : UInt32) : (decimal n).length ≤ 5 ↔ n.toNat < 100000 := by
  rw [decimal, ascii, List.length_map]
  exact Nat.length_toDigits_le_iff (by decide) (by decide)

theorem printThreadNum_eq {n : UInt32} (small : n.toNat < 100000) : printThreadNum n = decimal n :=
  List.take_of_length_le (((decimal_length n).mpr small).trans (by decide))

theorem digit_range {n : Nat} {c : Char} (digit : c ∈ Nat.toDigits 10 n) :
    48 ≤ c.toNat ∧ c.toNat ≤ 57 ∧ (UInt8.ofNat c.toNat).toNat = c.toNat := by
  have range := Nat.isDigit_of_mem_toDigits (by decide) (by decide) digit
  simp only [Char.isDigit, Bool.and_eq_true, decide_eq_true_eq, UInt32.le_iff_toNat_le] at range
  refine ⟨range.1, range.2, UInt8.toNat_ofNat_of_lt' ?_⟩
  exact lt_of_le_of_lt range.2 (by decide)

theorem decimal_text (n : UInt32) : ∀ c ∈ decimal n, c ≠ 0 := by
  rintro c member rfl
  obtain ⟨char, digit, nul⟩ := List.mem_map.mp member
  obtain ⟨low, -, value⟩ := digit_range digit
  rw [nul, UInt8.toNat_zero] at value
  omega

theorem decimal_injective {m n : UInt32} (same : decimal m = decimal n) : m = n := by
  -- the digits can be read off the bytes
  have digits (k : UInt32) : (decimal k).map (fun b => Char.ofNat b.toNat) = Nat.toDigits 10 k.toNat := by
    rw [decimal, ascii, List.map_map]
    refine (List.map_congr_left fun c digit => ?_).trans (List.map_id _)
    simp only [Function.comp_apply, (digit_range digit).2.2, Char.ofNat_toNat, id_eq]
  have value : Nat.toDigits 10 m.toNat = Nat.toDigits 10 n.toNat := by rw [← digits, ← digits, same]
  apply UInt32.toNat_inj.mp
  rw [← Nat.ofDigitChars_ten_toDigits (n := m.toNat), value, Nat.ofDigitChars_ten_toDigits]

theorem threadFileName_injective {m n : UInt32} (same : threadFileName (decimal m) = threadFileName (decimal n)) :
    m = n := decimal_injective (List.append_cancel_right same)

theorem threadFileName_text (n : UInt32) : ∀ c ∈ threadFileName (decimal n), c ≠ 0 := by
  intro c member
  have extension : ∀ c ∈ ascii ['.', 't', 'x', 't'], c ≠ 0 := by simp [ascii]
  rcases List.mem_append.mp member with digit | suffix
  · exact decimal_text n c digit
  · exact extension c suffix

structure Client where
  -- `char message[20]` and `char fileName[10]`
  message : List UInt8
  fileName : List UInt8
  clientSendPkt : Block
  clientRecvPkt : Block
  fileStored : Bool
  storedError : Bool
  -- the loop has been left behind a failed `read`
  readError : Bool

def Client.isOver (c : Client) : Bool := c.fileStored || c.storedError || c.readError

def Client.send (c : Client) (seqNum pktLen : Nat) (cmd : UInt16) : Client × List (List UInt8) :=
  let (pkt, sent) := sendDataPkt c.clientSendPkt seqNum pktLen cmd
  ({ c with clientSendPkt := pkt }, [sent])

def Client.start (threadNum : UInt32) (sendUnwritten recvUnwritten : Block) (rand : Nat) :
    Option (Client × List (List UInt8)) :=
  -- The thread when it has sent CLIENT_HELLO; `none` when a text does not fit into its array.
  let number := printThreadNum threadNum
  let message := threadMessage number
  let fileName := threadFileName number
  if message.length < 20 ∧ fileName.length < 10 then
    some (Client.send { message, fileName, clientSendPkt := initPkt sendUnwritten, clientRecvPkt := recvUnwritten
                        fileStored := false, storedError := false, readError := false }
      (rand % maxSequence) headerLength clientHello)
  else none

def Client.sendString (c : Client) (text : List UInt8) (len : Nat) (cmd : UInt16) : Client × List (List UInt8) :=
  -- `strcpy` into the packet, and the packet with `len` bytes of data.
  { c with clientSendPkt := storeString c.clientSendPkt dataAt text }.send (nextSeq c.clientSendPkt)
    (headerLength + len) cmd

def Client.handle (c : Client) : Client × List (List UInt8) :=
  -- The `switch` on the command of the server.
  let command := load16 c.clientRecvPkt commandAt
  if command = serverHello then c.sendString c.message c.message.length dataDelivery
  else if command = pktReceived then c.sendString c.fileName (c.fileName.length + 1) dataStore
  else if command = error then ({ c with storedError := true }, [])
  else if command = Upload.fileStored then ({ c with fileStored := true }, [])
  else if command = Upload.storedError then ({ c with storedError := true }, [])
  else (c, [])

def Client.iterate (c : Client) (read : SocketRead) : Client × List (List UInt8) :=
  -- One round of `while(1)`.
  match read with
  | .failed =>
    let (c, packets) := c.send (nextSeq c.clientSendPkt) headerLength error
    ({ c with readError := true }, packets)
  | .closed => c.handle
  | .packet bytes => { c with clientRecvPkt := receivePkt c.clientRecvPkt headerLength bytes }.handle

structure Client.Sent (c : Client) (threadNum : UInt32) (sequence : UInt16) : Prop where
  message : c.message = threadMessage (decimal threadNum)
  fileName : c.fileName = threadFileName (decimal threadNum)
  static : load c.clientSendPkt 0 2 = [staticVersion, staticUserId]
  last : load16 c.clientSendPkt sequenceAt = sequence

section Send

variable {c : Client} {threadNum : UInt32} {last : UInt16}

theorem send_header (sent : c.Sent threadNum last) (seqNum : Nat) (cmd : UInt16) :
    (c.send seqNum headerLength cmd).2 = [message (UInt16.ofNat seqNum) cmd []] ∧
      (c.send seqNum headerLength cmd).1.Sent threadNum (UInt16.ofNat seqNum) := by
  have nothing : load c.clientSendPkt dataAt ([] : List UInt8).length = [] := rfl
  have bytes := sendPkt_message sent.static nothing seqNum cmd
  simp only [List.length_nil, Nat.add_zero] at bytes
  refine ⟨?_, sent.message, sent.fileName, ?_, ?_⟩
  · simp only [Client.send, sendDataPkt, bytes]
  · exact (sendPkt_static c.clientSendPkt seqNum headerLength cmd).trans sent.static
  · exact sendPkt_next c.clientSendPkt seqNum headerLength cmd

theorem start_eq (small : threadNum.toNat < 100000) (sendUnwritten recvUnwritten : Block) (rand : Nat) :
    ∃ c, Client.start threadNum sendUnwritten recvUnwritten rand =
        some (c, [message (UInt16.ofNat (rand % maxSequence)) clientHello []]) ∧
      c.Sent threadNum (UInt16.ofNat (rand % maxSequence)) ∧ c.isOver = false := by
  have short := (decimal_length threadNum).mpr small
  have fits : (threadMessage (decimal threadNum)).length < 20 ∧ (threadFileName (decimal threadNum)).length < 10 := by
    rw [length_threadMessage, length_threadFileName]
    omega
  let first : Client :=
    { message := threadMessage (decimal threadNum), fileName := threadFileName (decimal threadNum)
      clientSendPkt := initPkt sendUnwritten, clientRecvPkt := recvUnwritten
      fileStored := false, storedError := false, readError := false }
  have ready : first.Sent threadNum (load16 (initPkt sendUnwritten) sequenceAt) :=
    ⟨rfl, rfl, initPkt_static sendUnwritten, rfl⟩
  obtain ⟨packets, sent⟩ := send_header ready (rand % maxSequence) clientHello
  refine ⟨(first.send (rand % maxSequence) headerLength clientHello).1, ?_, sent, rfl⟩
  simp only [Client.start, printThreadNum_eq small, if_pos fits]
  exact congrArg some (Prod.ext rfl packets)

theorem sendString_eq (sent : c.Sent threadNum last) {text data : List UInt8} (part : data <+: text ++ [0])
    (cmd : UInt16) :
    (c.sendString text data.length cmd).2 = [message (last + 1) cmd data] ∧
      (c.sendString text data.length cmd).1.Sent threadNum (last + 1) := by
  obtain ⟨rest, whole⟩ := part
  have filled : load (storeString c.clientSendPkt dataAt text) dataAt data.length = data := by
    have within := load_store_part c.clientSendPkt dataAt [] data rest
    rwa [List.nil_append, whole] at within
  have static : load (storeString c.clientSendPkt dataAt text) 0 2 = [staticVersion, staticUserId] :=
    (load_store_apart _ (.inl (by decide))).trans sent.static
  have next : UInt16.ofNat (nextSeq c.clientSendPkt) = last + 1 := by
    rw [nextSeq, sent.last, UInt16.ofNat_add, UInt16.ofNat_toNat]
    rfl
  have bytes := sendPkt_message static filled (nextSeq c.clientSendPkt) cmd
  rw [next] at bytes
  refine ⟨?_, sent.message, sent.fileName, ?_, ?_⟩
  · simp only [Client.sendString, Client.send, sendDataPkt, bytes]
  · exact (sendPkt_static _ _ _ cmd).trans static
  · exact (sendPkt_next _ _ _ cmd).trans next

theorem handle_greeted (sent : c.Sent threadNum last) (command : load16 c.clientRecvPkt commandAt = serverHello) :
    c.handle.2 = [message (last + 1) dataDelivery (threadMessage (decimal threadNum))] ∧
      c.handle.1.Sent threadNum (last + 1) ∧ c.handle.1.isOver = c.isOver := by
  have handled : c.handle = c.sendString c.message c.message.length dataDelivery := if_pos command
  obtain ⟨packets, next⟩ := sendString_eq sent (List.prefix_append c.message [0]) dataDelivery
  rw [handled]
  exact ⟨sent.message ▸ packets, next, rfl⟩

theorem handle_delivered (sent : c.Sent threadNum last) (command : load16 c.clientRecvPkt commandAt = pktReceived) :
    c.handle.2 = [message (last + 1) dataStore (threadFileName (decimal threadNum) ++ [0])] ∧
      c.handle.1.Sent threadNum (last + 1) ∧ c.handle.1.isOver = c.isOver := by
  have handled : c.handle = c.sendString c.fileName (c.fileName ++ [0]).length dataStore := by
    simp only [Client.handle, command, List.length_append]
    rfl
  obtain ⟨packets, next⟩ := sendString_eq sent (List.prefix_refl (c.fileName ++ [0])) dataStore
  rw [handled]
  exact ⟨sent.fileName ▸ packets, next, rfl⟩

theorem received_command (pkt : Block) (sequence command : UInt16) :
    load16 (receivePkt pkt headerLength (message sequence command [])) commandAt = command :=
  (receivePkt_carries pkt sequence command (show headerLength + 0 ≤ headerLength by decide)).command

variable (sent : c.Sent threadNum last)
include sent

theorem greeted (running : c.isOver = false) (sequence : UInt16) :
    ∃ c', c.iterate (.packet (message sequence serverHello [])) =
        (c', [message (last + 1) dataDelivery (threadMessage (decimal threadNum))]) ∧
      c'.Sent threadNum (last + 1) ∧ c'.isOver = false := by
  let received := { c with
    clientRecvPkt := receivePkt c.clientRecvPkt headerLength (message sequence serverHello []) }
  have ready : received.Sent threadNum last := ⟨sent.message, sent.fileName, sent.static, sent.last⟩
  have handled : c.iterate (.packet (message sequence serverHello [])) = received.handle := rfl
  obtain ⟨packets, next, same⟩ := handle_greeted ready (received_command ..)
  rw [handled, ← packets]
  exact ⟨received.handle.1, Prod.mk.eta.symm, next, same.trans running⟩

theorem delivered_data (running : c.isOver = false) (sequence : UInt16) :
    ∃ c', c.iterate (.packet (message sequence pktReceived [])) =
        (c', [message (last + 1) dataStore (threadFileName (decimal threadNum) ++ [0])]) ∧
      c'.Sent threadNum (last + 1) ∧ c'.isOver = false := by
  let received := { c with
    clientRecvPkt := receivePkt c.clientRecvPkt headerLength (message sequence pktReceived []) }
  have ready : received.Sent threadNum last := ⟨sent.message, sent.fileName, sent.static, sent.last⟩
  have handled : c.iterate (.packet (message sequence pktReceived [])) = received.handle := rfl
  obtain ⟨packets, next, same⟩ := handle_delivered ready (received_command ..)
  rw [handled, ← packets]
  exact ⟨received.handle.1, Prod.mk.eta.symm, next, same.trans running⟩

omit sent in
theorem stored_file (running : c.isOver = false) (sequence : UInt16) :
    ∃ c', c.iterate (.packet (message sequence fileStored [])) = (c', []) ∧
      c'.fileStored = true ∧ c'.storedError = false := by
  simp only [Client.isOver, Bool.or_eq_false_iff] at running
  let received := { c with
    clientRecvPkt := receivePkt c.clientRecvPkt headerLength (message sequence fileStored []) }
  refine ⟨{ received with fileStored := true }, ?_, rfl, running.1.2⟩
  simp only [Client.iterate, Client.handle, received_command, received]
  rfl

end Send

end NetProg.P2
