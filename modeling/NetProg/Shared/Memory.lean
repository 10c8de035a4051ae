import Mathlib.Data.List.Range
import Mathlib.Tactic.Ring

set_option autoImplicit false

-- A block of memory is a function from offsets to bytes. Integers are stored in network order, strings with the NUL
-- that ends them.

namespace Memory

abbrev Block := Nat → UInt8

def store (m : Block) (start : Nat) (bytes : List UInt8) : Block := fun i =>
  if start ≤ i ∧ i < start + bytes.length then bytes.getD (i - start) 0 else m i

def load (m : Block) (start len : Nat) : List UInt8 := (List.range len).map fun i => m (start + i)

@[simp] theorem length_load (m : Block) (start len : Nat) : (load m start len).length = len := by simp [load]

theorem store_outside (m : Block) {start i : Nat} {bytes : List UInt8}
    (outside : i < start ∨ start + bytes.length ≤ i) :
    store m start bytes i = m i := by
  have missed : ¬ (start ≤ i ∧ i < start + bytes.length) := by omega
  simp only [store, if_neg missed]

theorem store_load (m m' : Block) {start len i : Nat} (low : start ≤ i) (high : i < start + len) :
    store m start (load m' start len) i = m' i := by
  have inside : i - start < len := by omega
  simp [store, load, low, high, inside]

theorem store_comm (m : Block) {start start' : Nat} {bytes bytes' : List UInt8}
    (apart : start + bytes.length ≤ start' ∨ start' + bytes'.length ≤ start) :
    store (store m start bytes) start' bytes' = store (store m start' bytes') start bytes := by
  funext i
  by_cases first : start ≤ i ∧ i < start + bytes.length
  · have second : ¬ (start' ≤ i ∧ i < start' + bytes'.length) := by omega
    simp only [store, if_pos first, if_neg second]
  · simp only [store, if_neg first]

theorem load_add (m : Block) (start a b : Nat) : load m start (a + b) = load m start a ++ load m (start + a) b := by
  simp [load, List.range_add, Nat.add_assoc]

theorem load_congr {m m' : Block} {start len : Nat} (same : ∀ i, start ≤ i → i < start + len → m' i = m i) :
    load m' start len = load m start len := by
  apply List.map_congr_left
  intro i member
  exact same _ (by omega) (by simp at member; omega)

theorem load_take (m : Block) (start : Nat) {a b : Nat} (within : a ≤ b) :
    (load m start b).take a = load m start a := by
  obtain ⟨c, rfl⟩ := Nat.exists_eq_add_of_le within
  rw [load_add, List.take_left' (length_load m start a)]

theorem load_store (m : Block) (start : Nat) (bytes : List UInt8) :
    load (store m start bytes) start bytes.length = bytes := by
  apply List.ext_getElem (by simp)
  intro i bound inside
  simp [load, store, inside]

theorem load_store_apart (m : Block) {start offset len : Nat} {bytes : List UInt8}
    (apart : offset + len ≤ start ∨ start + bytes.length ≤ offset) :
    load (store m start bytes) offset len = load m offset len := by
  apply load_congr
  intro i low high
  exact store_outside m (by omega)

theorem load_store_append {m : Block} {bytes : List UInt8} (same : load m 0 bytes.length = bytes) (data : List UInt8) :
    load (store m bytes.length data) 0 (bytes ++ data).length = bytes ++ data := by
  rw [List.length_append, load_add, load_store_apart _ (by simp), same, Nat.zero_add, load_store]

theorem load_store_within (m : Block) {start off len : Nat} {bytes : List UInt8} (within : off + len ≤ bytes.length) :
    load (store m start bytes) (start + off) len = (bytes.drop off).take len := by
  have whole := load_store m start bytes
  obtain ⟨rest, size⟩ := Nat.exists_eq_add_of_le within
  rw [size, load_add, load_add] at whole
  conv_rhs => rw [← whole]
  rw [List.append_assoc, List.drop_left' (by simp), List.take_left' (by simp)]

theorem load_store_part (m : Block) (start : Nat) (before part after : List UInt8) :
    load (store m start (before ++ part ++ after)) (start + before.length) part.length = part := by
  rw [load_store_within m (by simp)]
  simp

def ofBytes (bytes : List UInt8) : Block := fun i => bytes.getD i 0

theorem ofBytes_eq (bytes : List UInt8) : ofBytes bytes = store (fun _ => 0) 0 bytes := by
  funext i
  by_cases inside : i < bytes.length
  · simp [ofBytes, store, inside]
  · simp [ofBytes, store, inside]

theorem ofBytes_load (m : Block) {len i : Nat} (inside : i < len) : ofBytes (load m 0 len) i = m i := by
  simp [ofBytes, load, inside]

def bigEndian : Nat → Nat → List UInt8
  | 0, _ => []
  | width + 1, value => bigEndian width (value / 256) ++ [UInt8.ofNat value]

def fromBigEndian (bytes : List UInt8) : Nat := bytes.foldl (fun value b => value * 256 + b.toNat) 0

@[simp] theorem length_bigEndian (width value : Nat) : (bigEndian width value).length = width := by
  induction width generalizing value with
  | zero => rfl
  | succ width ih => simp [bigEndian, ih]

theorem fromBigEndian_bigEndian (width value : Nat) :
    fromBigEndian (bigEndian width value) = value % 256 ^ width := by
  induction width generalizing value with
  | zero => simp [bigEndian, fromBigEndian, Nat.mod_one]
  | succ width ih =>
    have front := ih (value / 256)
    simp only [fromBigEndian] at front
    simp only [fromBigEndian, bigEndian, List.foldl_append, front, List.foldl_cons, List.foldl_nil]
    rw [pow_succ, Nat.mul_comm (256 ^ width) 256, Nat.mod_mul, UInt8.toNat_ofNat']
    ring_nf

theorem fromBigEndian_append (bytes : List UInt8) (b : UInt8) :
    fromBigEndian (bytes ++ [b]) = fromBigEndian bytes * 256 + b.toNat := by
  simp [fromBigEndian]

theorem bigEndian_fromBigEndian (bytes : List UInt8) : bigEndian bytes.length (fromBigEndian bytes) = bytes := by
  induction bytes using List.reverseRecOn with
  | nil => rfl
  | append_singleton bytes b ih =>
    have small := b.toNat_lt
    have high : (fromBigEndian bytes * 256 + b.toNat) / 256 = fromBigEndian bytes := by omega
    have low : UInt8.ofNat (fromBigEndian bytes * 256 + b.toNat) = b := by
      apply UInt8.toNat_inj.mp
      rw [UInt8.toNat_ofNat']
      omega
    rw [fromBigEndian_append, List.length_append, List.length_singleton, bigEndian, high, low, ih]

theorem fromBigEndian_lt (bytes : List UInt8) : fromBigEndian bytes < 256 ^ bytes.length := by
  have again := fromBigEndian_bigEndian bytes.length (fromBigEndian bytes)
  rw [bigEndian_fromBigEndian] at again
  rw [again]
  exact Nat.mod_lt _ (Nat.pow_pos (by decide))

def net16 (v : UInt16) : List UInt8 := bigEndian 2 v.toNat

def net32 (v : UInt32) : List UInt8 := bigEndian 4 v.toNat

def load16 (m : Block) (start : Nat) : UInt16 := UInt16.ofNat (fromBigEndian (load m start 2))

def load32 (m : Block) (start : Nat) : UInt32 := UInt32.ofNat (fromBigEndian (load m start 4))

@[simp] theorem length_net16 (v : UInt16) : (net16 v).length = 2 := length_bigEndian 2 _

@[simp] theorem length_net32 (v : UInt32) : (net32 v).length = 4 := length_bigEndian 4 _

theorem load16_of {m : Block} {start : Nat} {v : UInt16} (bytes : load m start 2 = net16 v) : load16 m start = v := by
  have bound := v.toNat_lt
  rw [load16, bytes, net16, fromBigEndian_bigEndian, Nat.mod_eq_of_lt (by omega), UInt16.ofNat_toNat]

theorem net16_load16 (m : Block) (start : Nat) : net16 (load16 m start) = load m start 2 := by
  have bound := fromBigEndian_lt (load m start 2)
  have whole := bigEndian_fromBigEndian (load m start 2)
  rw [length_load] at bound whole
  rw [net16, load16, UInt16.toNat_ofNat_of_lt' bound, whole]

theorem load16_inj {m m' : Block} {start start' : Nat} :
    load16 m start = load16 m' start' ↔ load m start 2 = load m' start' 2 := by
  constructor
  · intro same
    rw [← net16_load16, ← net16_load16, same]
  · intro same
    rw [load16, load16, same]

theorem load32_of {m : Block} {start : Nat} {v : UInt32} (bytes : load m start 4 = net32 v) : load32 m start = v := by
  have bound := v.toNat_lt
  rw [load32, bytes, net32, fromBigEndian_bigEndian, Nat.mod_eq_of_lt (by omega), UInt32.ofNat_toNat]

def cstring : List UInt8 → Option (List UInt8)
  -- The string that a byte sequence begins with; `none` when there is no NUL in it.
  | [] => none
  | c :: rest => if c = 0 then some [] else (cstring rest).map (c :: ·)

theorem cstring_append_nul {s : List UInt8} (text : ∀ c ∈ s, c ≠ 0) (rest : List UInt8) :
    cstring (s ++ 0 :: rest) = some s := by
  induction s with
  | nil => simp [cstring]
  | cons c s ih =>
    have tail := ih fun c' member => text c' (by simp [member])
    simp [cstring, text c (by simp), tail]

theorem cstring_some {bytes s : List UInt8} (found : cstring bytes = some s) :
    s.length < bytes.length ∧ ∀ c ∈ s, c ≠ 0 := by
  induction bytes generalizing s with
  | nil => simp [cstring] at found
  | cons c rest ih =>
    simp only [cstring] at found
    split_ifs at found with nul
    · obtain rfl : [] = s := Option.some.inj found
      simp
    · obtain ⟨tail, ended, rfl⟩ := Option.map_eq_some_iff.mp found
      obtain ⟨short, text⟩ := ih ended
      exact ⟨by simpa using short, by simpa [nul] using text⟩

theorem cstring_isSome (bytes : List UInt8) : (cstring bytes).isSome = true ↔ 0 ∈ bytes := by
  induction bytes with
  | nil => simp [cstring]
  | cons c rest ih =>
    by_cases nul : c = 0
    · simp [cstring, nul]
    · simp [cstring, nul, ih, Ne.symm nul]

theorem cstring_zeros (bytes : List UInt8) (m : Nat) :
    cstring (bytes ++ List.replicate m 0) =
      if 0 < m ∨ 0 ∈ bytes then some (bytes.takeWhile (· ≠ 0)) else none := by
  induction bytes with
  | nil => cases m <;> simp [cstring, List.replicate_succ]
  | cons c rest ih =>
    by_cases nul : c = 0
    · simp [cstring, nul]
    · rw [List.cons_append, cstring, if_neg nul, ih]
      by_cases ends : 0 < m ∨ 0 ∈ rest
      · simp [nul, ends, Ne.symm nul]
      · simp [ends, Ne.symm nul]

def storeString (m : Block) (start : Nat) (s : List UInt8) : Block := store m start (s ++ [0])

theorem load_storeString (m : Block) (start : Nat) (s : List UInt8) :
    load (storeString m start s) start (s.length + 1) = s ++ [0] := by
  have whole := load_store m start (s ++ [0])
  rwa [List.length_append] at whole

def loadString (m : Block) (start size : Nat) : Option (List UInt8) := cstring (load m start size)

theorem loadString_of {m : Block} {start size : Nat} {s : List UInt8} (text : ∀ c ∈ s, c ≠ 0)
    (fits : s.length < size) (bytes : load m start (s.length + 1) = s ++ [0]) : loadString m start size = some s := by
  obtain ⟨rest, rfl⟩ := Nat.exists_eq_add_of_le (show s.length + 1 ≤ size from fits)
  rw [loadString, load_add, bytes, List.append_assoc]
  exact cstring_append_nul text _

end Memory
