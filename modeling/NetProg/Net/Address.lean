import Mathlib.Data.List.Basic
import NetProg.Net.Socket

set_option autoImplicit false

namespace NetProg

def isDigit (c : UInt8) : Bool := 48 ≤ c.toNat && c.toNat ≤ 57

def digitsValue (digits : List UInt8) : Nat := digits.foldl (fun value c => value * 10 + (c.toNat - 48)) 0

def decimalPart (part : List UInt8) : Option UInt8 :=
  match part with
  | [] => none
  | c :: rest =>
    -- a leading zero makes the number octal
    if (c = 48 ∧ rest ≠ []) ∨ ¬ (c :: rest).all isDigit ∨ 256 ≤ digitsValue (c :: rest) then none
    else some (UInt8.ofNat (digitsValue (c :: rest)))

def inetAddr (text : List UInt8) : Option InAddr :=
  match (text.splitOn 46).map decimalPart with
  | [some a, some b, some c, some d] => some ⟨a, b, c, d⟩
  | _ => none

-- Where `openClientSock` connects to: `htons` keeps 16 bits of the port.
def serverAddr (ipAddr : List UInt8) (portNum : UInt32) : Option SockAddrIn :=
  (inetAddr ipAddr).map fun sinAddr => { sinPort := portNum.toUInt16, sinAddr }

theorem decimalPart_decimalByte (b : UInt8) : decimalPart (decimalByte b) = some b := by
  have all : ∀ i : Fin 256, decimalPart (decimalByte (UInt8.ofNat i)) = some (UInt8.ofNat i) := by decide +kernel
  simpa using all ⟨b.toNat, b.toNat_lt⟩

theorem decimalByte_digits (b : UInt8) : (46 : UInt8) ∉ decimalByte b := by
  have all : ∀ i : Fin 256, (46 : UInt8) ∉ decimalByte (UInt8.ofNat i) := by decide +kernel
  simpa using all ⟨b.toNat, b.toNat_lt⟩

theorem inetAddr_inetNtoa (addr : InAddr) : inetAddr (inetNtoa addr) = some addr := by
  have parts : inetNtoa addr =
      [46].intercalate [decimalByte addr.a, decimalByte addr.b, decimalByte addr.c, decimalByte addr.d] := by
    simp [inetNtoa, List.intercalate]
  have clean : ∀ part ∈ [decimalByte addr.a, decimalByte addr.b, decimalByte addr.c, decimalByte addr.d],
      (46 : UInt8) ∉ part := by
    simp only [List.mem_cons, List.not_mem_nil, or_false, forall_eq_or_imp, forall_eq]
    exact ⟨decimalByte_digits _, decimalByte_digits _, decimalByte_digits _, decimalByte_digits _⟩
  rw [inetAddr, parts, List.splitOn_intercalate 46 clean (by simp)]
  simp only [List.map_cons, List.map_nil, decimalPart_decimalByte]

theorem inetNtoa_injective {addr addr' : InAddr} (same : inetNtoa addr = inetNtoa addr') : addr = addr' := by
  have read := congrArg inetAddr same
  rw [inetAddr_inetNtoa, inetAddr_inetNtoa] at read
  exact Option.some.inj read

theorem serverAddr_inetNtoa (addr : InAddr) (portNum : UInt32) :
    serverAddr (inetNtoa addr) portNum = some { sinPort := portNum.toUInt16, sinAddr := addr } := by
  rw [serverAddr, inetAddr_inetNtoa, Option.map_some]

end NetProg
