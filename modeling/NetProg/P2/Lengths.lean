import NetProg.P2.SelectServer
import NetProg.Upload.Lengths
import NetProg.Upload.Rounds

set_option autoImplicit false

namespace NetProg.P2

open Memory Upload

structure SafeSlotDelivery (heap : Heap) (v : SlotVars) (serverRecvPkt : Block) (received : Nat) : Prop where
  length : SafeLength serverRecvPkt received
  counter : v.bytesRead.toNat + (dataLen serverRecvPkt).toNat ≤ 2 ^ 32 - 1
  copies : ∀ serverSendPkt o, heap.realloc v.buffer (v.bytesRead + dataLen serverRecvPkt).toNat o.realloc ≠ none →
    deliver heap v serverSendPkt serverRecvPkt o ≠ none

def SafeSlotLengths (heap : Heap) (v : SlotVars) (serverRecvPkt : Block) (received : Nat) : Prop :=
  (load16 serverRecvPkt commandAt = dataDelivery → SafeSlotDelivery heap v serverRecvPkt received) ∧
    (load16 serverRecvPkt commandAt = dataStore → SafeStore serverRecvPkt received)

section Slots

variable {received : Nat} (short : received ≤ headerLength + dataSize)
include short

theorem slot_delivery_iff {heap : Heap} {v : SlotVars} {pkt : Block} : SafeSlotDelivery heap v pkt received ↔
    FieldFits pkt received ∧ v.bytesRead.toNat + ((load16 pkt lengthAt).toNat - headerLength) < 2 ^ 32 := by
  constructor
  · rintro ⟨length, counter, -⟩
    have fits := safeLength_iff.mp length
    rw [fits.len] at counter
    exact ⟨fits, by omega⟩
  · rintro ⟨fits, room⟩
    rw [← fits.len] at room
    refine ⟨safeLength_iff.mpr fits, by omega, fun serverSendPkt o possible => ?_⟩
    have size := wide_add room
    obtain ⟨⟨heap', buffer⟩, ran⟩ := Option.ne_none_iff_exists'.mp possible
    have grown := realloc_deref ran
    simp only [deliver, ran]
    cases block : heap'.deref buffer with
    | none => simp
    | some b =>
      rw [block] at grown
      have wide := realloc_size grown.symm
      rw [size] at wide
      simp [if_pos (And.intro (fits.source short) wide.ge)]

theorem slot_safe_iff {heap : Heap} {v : SlotVars} {pkt : Block} :
    SafeSlotLengths heap v pkt received ↔ LengthsFit pkt received v.bytesRead := by
  rw [SafeSlotLengths, LengthsFit, slot_delivery_iff short, store_iff short]

end Slots

theorem lengths_safe_iff (bytes : List UInt8) (short : bytes.length ≤ headerLength + dataSize) :
    (∀ s : Session, (s.receives bytes).SafeLengths bytes.length ↔
      LengthsFit (s.receives bytes).serverRecvPkt bytes.length s.bytesRead) ∧
    ∀ (heap : Heap) (v : SlotVars) (serverRecvPkt : Block),
      SafeSlotLengths heap v (receivePkt serverRecvPkt (headerLength + dataSize) bytes) bytes.length ↔
        LengthsFit (receivePkt serverRecvPkt (headerLength + dataSize) bytes) bytes.length v.bytesRead := by
  constructor
  · exact fun s => session_safe_iff short
  · exact fun heap v serverRecvPkt => slot_safe_iff short

theorem one_byte_safe : (newSession.receives (message 1 dataDelivery [7])).SafeLengths 9 ∧
    SafeSlotLengths (fun _ => none) noVars
      (receivePkt (fun _ => 0) (headerLength + dataSize) (message 2 dataStore [97, 0])) 10 := by
  constructor
  · exact ((lengths_safe_iff (message 1 dataDelivery [7]) (by decide)).1 newSession).mpr (by decide +kernel)
  · exact ((lengths_safe_iff (message 2 dataStore [97, 0]) (by decide)).2 _ _ _).mpr (by decide +kernel)

def withLength (length command : UInt16) (data : List UInt8) : List UInt8 :=
  [staticVersion, staticUserId] ++ net16 1 ++ net16 length ++ net16 command ++ data

def greetingReads : List (SocketRead × Outcome) := packetReads [(message 0 clientHello [], allSucceed)]

-- A length below that of the header, one above what has been read, and a name without its NUL.
theorem lengths_unchecked :
    (¬ ∀ (sendUnwritten recvUnwritten : Block) (reads : List (SocketRead × Outcome)) (s : Session)
        (effects : List Effects), (Session.start sendUnwritten recvUnwritten).rounds reads = some (s, effects) →
      ∀ bytes : List UInt8, bytes.length ≤ headerLength + dataSize → (s.receives bytes).SafeLengths bytes.length) ∧
    ∃ s effects, newSession.rounds greetingReads = some (s, effects) ∧
      ∀ bytes ∈ [withLength 7 dataDelivery [], withLength 4031 dataDelivery [1], withLength 9 dataStore [97]],
        ¬ (s.receives bytes).SafeLengths bytes.length := by
  have faults : ∃ s effects, newSession.rounds greetingReads = some (s, effects) ∧
      ∀ bytes ∈ [withLength 7 dataDelivery [], withLength 4031 dataDelivery [1], withLength 9 dataStore [97]],
        bytes.length ≤ headerLength + dataSize ∧ ¬ (s.receives bytes).SafeLengths bytes.length := by
    refine ⟨_, _, rfl, fun bytes member => ?_⟩
    have short : bytes.length ≤ headerLength + dataSize := by
      revert bytes
      decide +kernel
    rw [session_safe_iff short]
    revert bytes
    decide +kernel
  obtain ⟨s, effects, ran, fails⟩ := faults
  refine ⟨fun claimed => ?_, s, effects, ran, fun bytes member => (fails bytes member).2⟩
  obtain ⟨short, overruns⟩ := fails _ List.mem_cons_self
  exact overruns (claimed _ _ _ s effects ran _ short)

end NetProg.P2
