import Mathlib.Data.List.Basic

set_option autoImplicit false

namespace NetProg

structure InAddr where
  -- The IPv4 address of a `sockaddr_in`, first byte first as on the wire.
  a : UInt8
  b : UInt8
  c : UInt8
  d : UInt8
deriving DecidableEq, Repr

structure SockAddrIn where
  sinPort : UInt16
  sinAddr : InAddr
deriving DecidableEq, Repr

def decimalByte (b : UInt8) : List UInt8 :=
  (if b.toNat < 100 then [] else [48 + b / 100]) ++
    (if b.toNat < 10 then [] else [48 + b / 10 % 10]) ++ [48 + b % 10]

def inetNtoa (addr : InAddr) : List UInt8 :=
  decimalByte addr.a ++ [46] ++ decimalByte addr.b ++ [46] ++ decimalByte addr.c ++ [46] ++ decimalByte addr.d

theorem decimalByte_length (b : UInt8) : (decimalByte b).length ≤ 3 := by
  unfold decimalByte
  split_ifs <;> simp

theorem inetNtoa_length (addr : InAddr) : (inetNtoa addr).length ≤ 15 := by
  have ha := decimalByte_length addr.a
  have hb := decimalByte_length addr.b
  have hc := decimalByte_length addr.c
  have hd := decimalByte_length addr.d
  simp only [inetNtoa, List.length_append, List.length_cons, List.length_nil]
  omega

theorem digit_nonzero {d : UInt8} (small : d.toNat < 10) : 48 + d ≠ 0 := by
  intro zero
  have value := congrArg UInt8.toNat zero
  simp only [UInt8.toNat_add, UInt8.reduceToNat] at value
  omega

theorem decimalByte_nonzero (b : UInt8) : ∀ x ∈ decimalByte b, x ≠ 0 := by
  have bound := b.toNat_lt
  have hundreds : (b / 100).toNat < 10 := by simp only [UInt8.toNat_div, UInt8.reduceToNat]; omega
  have tens : (b / 10 % 10).toNat < 10 := by simp only [UInt8.toNat_mod, UInt8.reduceToNat]; omega
  have ones : (b % 10).toNat < 10 := by simp only [UInt8.toNat_mod, UInt8.reduceToNat]; omega
  intro x member
  simp only [decimalByte, List.mem_append, List.mem_singleton] at member
  rcases member with (first | second) | rfl
  · split_ifs at first
    · cases first
    · exact List.mem_singleton.mp first ▸ digit_nonzero hundreds
  · split_ifs at second
    · cases second
    · exact List.mem_singleton.mp second ▸ digit_nonzero tens
  · exact digit_nonzero ones

theorem inetNtoa_nonzero (addr : InAddr) : ∀ x ∈ inetNtoa addr, x ≠ 0 := by
  intro x member
  simp only [inetNtoa, List.mem_append, List.mem_singleton] at member
  rcases member with (((((h | h) | h) | h) | h) | h) | h
  case inl.inl.inl.inl.inl.inr | inl.inl.inl.inr | inl.inr => simp [h]
  all_goals exact decimalByte_nonzero _ x h

end NetProg
