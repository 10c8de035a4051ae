import NetProg.Upload.Session

set_option autoImplicit false

namespace NetProg.Upload

open Memory

structure SafeLength (pkt : Block) (received : Nat) : Prop where
  noWrap : ((dataLen pkt).toNat : Int) = (load16 pkt lengthAt).toNat - (headerLength : Int)
  within : (dataLen pkt).toNat ≤ received - headerLength

def FieldFits (pkt : Block) (received : Nat) : Prop :=
  headerLength ≤ (load16 pkt lengthAt).toNat ∧ (load16 pkt lengthAt).toNat - headerLength ≤ received - headerLength

instance (pkt : Block) (received : Nat) : Decidable (FieldFits pkt received) := inferInstanceAs (Decidable (_ ∧ _))

section Length

variable {pkt : Block} {received : Nat}

theorem dataLen_eq (covers : headerLength ≤ (load16 pkt lengthAt).toNat) :
    (dataLen pkt).toNat = (load16 pkt lengthAt).toNat - headerLength := by
  have bound := (load16 pkt lengthAt).toNat_lt
  have wide : (UInt32.ofNat (load16 pkt lengthAt).toNat).toNat = (load16 pkt lengthAt).toNat := by
    refine UInt32.toNat_ofNat_of_lt' ?_
    simp only [UInt32.size]
    omega
  rw [dataLen, UInt32.toNat_sub_of_le, wide]
  · rfl
  · rw [UInt32.le_iff_toNat_le, wide]
    exact covers

theorem FieldFits.len (fits : FieldFits pkt received) :
    (dataLen pkt).toNat = (load16 pkt lengthAt).toNat - headerLength := dataLen_eq fits.1

theorem safeLength_iff : SafeLength pkt received ↔ FieldFits pkt received := by
  constructor
  · rintro ⟨noWrap, within⟩
    have covers : headerLength ≤ (load16 pkt lengthAt).toNat := by omega
    rw [dataLen_eq covers] at within
    exact ⟨covers, within⟩
  · intro fits
    have len := fits.len
    obtain ⟨covers, within⟩ := fits
    constructor
    case noWrap => omega
    case within => rwa [len]

end Length

structure Session.SafeDelivery (s : Session) (received : Nat) : Prop where
  length : SafeLength s.serverRecvPkt received
  counter : s.bytesRead.toNat + (dataLen s.serverRecvPkt).toNat ≤ 2 ^ 32 - 1
  -- `memcpy` stays inside the packet, and inside whatever block `realloc` returns
  copies : ∀ o, s.deliver o ≠ none

structure SafeStore (serverRecvPkt : Block) (received : Nat) : Prop where
  length : SafeLength serverRecvPkt received
  copies : (dataLen serverRecvPkt).toNat ≤ dataSize
  -- the name ends inside the block that has been allocated for it
  name : (cstring (load serverRecvPkt dataAt (dataLen serverRecvPkt).toNat)).isSome

def Session.SafeLengths (s : Session) (received : Nat) : Prop :=
  (load16 s.serverRecvPkt commandAt = dataDelivery → s.SafeDelivery received) ∧
    (load16 s.serverRecvPkt commandAt = dataStore → SafeStore s.serverRecvPkt received)

def LengthsFit (pkt : Block) (received : Nat) (bytesRead : UInt32) : Prop :=
  (load16 pkt commandAt = dataDelivery →
    FieldFits pkt received ∧ bytesRead.toNat + ((load16 pkt lengthAt).toNat - headerLength) < 2 ^ 32) ∧
  (load16 pkt commandAt = dataStore →
    FieldFits pkt received ∧ 0 ∈ load pkt dataAt ((load16 pkt lengthAt).toNat - headerLength))

instance (pkt : Block) (received : Nat) (bytesRead : UInt32) : Decidable (LengthsFit pkt received bytesRead) :=
  inferInstanceAs (Decidable (_ ∧ _))

theorem wide_add {a b : UInt32} (room : a.toNat + b.toNat < 2 ^ 32) : (a + b).toNat = a.toNat + b.toNat := by
  rw [UInt32.toNat_add, Nat.mod_eq_of_lt room]

section Branches

variable {received : Nat} (short : received ≤ headerLength + dataSize)
include short

theorem FieldFits.source {pkt : Block} (fits : FieldFits pkt received) : (dataLen pkt).toNat ≤ dataSize := by
  rw [fits.len]
  exact fits.2.trans (Nat.sub_le_iff_le_add'.mpr short)

theorem session_delivery_iff {s : Session} : s.SafeDelivery received ↔
    FieldFits s.serverRecvPkt received ∧
      s.bytesRead.toNat + ((load16 s.serverRecvPkt lengthAt).toNat - headerLength) < 2 ^ 32 := by
  constructor
  · rintro ⟨length, counter, -⟩
    have fits := safeLength_iff.mp length
    rw [fits.len] at counter
    exact ⟨fits, by omega⟩
  · rintro ⟨fits, room⟩
    rw [← fits.len] at room
    refine ⟨safeLength_iff.mpr fits, by omega, fun o => ?_⟩
    have size := wide_add room
    simp only [Session.deliver]
    split
    next => simp
    next b grown =>
      -- the size that has been asked for has not wrapped
      have wide := realloc_size grown
      rw [size] at wide
      rw [if_pos ⟨fits.source short, wide.ge⟩]
      simp

theorem store_iff {pkt : Block} : SafeStore pkt received ↔
    FieldFits pkt received ∧ 0 ∈ load pkt dataAt ((load16 pkt lengthAt).toNat - headerLength) := by
  constructor
  · rintro ⟨length, -, name⟩
    have fits := safeLength_iff.mp length
    rw [fits.len, cstring_isSome] at name
    exact ⟨fits, name⟩
  · rintro ⟨fits, ends⟩
    rw [← fits.len, ← cstring_isSome] at ends
    exact ⟨safeLength_iff.mpr fits, fits.source short, ends⟩

theorem session_safe_iff {s : Session} :
    s.SafeLengths received ↔ LengthsFit s.serverRecvPkt received s.bytesRead := by
  rw [Session.SafeLengths, LengthsFit, session_delivery_iff short, store_iff short]

end Branches

def Session.receives (s : Session) (bytes : List UInt8) : Session :=
  { s with serverRecvPkt := receivePkt s.serverRecvPkt (headerLength + dataSize) bytes }

end NetProg.Upload
