import Mathlib.Algebra.GroupWithZero.Nat
import NetProg.P4.FileTable

set_option autoImplicit false

namespace NetProg.P4

open Probing

structure FileName (name : List UInt8) : Prop where
  fits : name.length < fileNameLen
  noNul : ∀ c ∈ name, c ≠ 0

instance (name : List UInt8) : Decidable (FileName name) :=
  decidable_of_iff (name.length < fileNameLen ∧ name.all fun c => c != 0)
    ⟨fun ⟨fits, noNul⟩ => ⟨fits, by simpa using noNul⟩, fun valid => ⟨valid.fits, by simpa using valid.noNul⟩⟩

def charSum (read : List UInt8) : Int := read.foldl (fun sum c => sum + signedChar c) 0

theorem hashFunction_eq (name : List UInt8) : hashFunction name = (charSum name).tmod hashTableSize := rfl

def IsCell (index : Int) : Prop := 0 ≤ index ∧ index < hashTableSize

instance (index : Int) : Decidable (IsCell index) := inferInstanceAs (Decidable (_ ∧ _))

def HighByte (c : UInt8) : Bool := 128 ≤ c.toNat

-- Each byte from 128 on counts for 256 less: altogether not more than the bytes add up to, or a multiple of the
-- table's size more.
def HashesInside (name : List UInt8) : Prop :=
  256 * name.countP HighByte ≤ (name.map UInt8.toNat).sum ∨
    hashTableSize ∣ 256 * name.countP HighByte - (name.map UInt8.toNat).sum

instance (name : List UInt8) : Decidable (HashesInside name) := inferInstanceAs (Decidable (_ ∨ _))

theorem signedChar_eq (c : UInt8) : signedChar c = c.toNat - 256 * (if HighByte c then 1 else 0 : Nat) := by
  by_cases high : 128 ≤ c.toNat
  · rw [signedChar, if_neg (by omega), if_pos (by simpa [HighByte] using high)]
    rfl
  · rw [signedChar, if_pos (by omega), if_neg (by simpa [HighByte] using high)]
    omega

theorem foldl_signedChar (read : List UInt8) (sum : Int) :
    read.foldl (fun sum c => sum + signedChar c) sum =
      sum + (read.map UInt8.toNat).sum - 256 * read.countP HighByte := by
  induction read generalizing sum with
  | nil => simp
  | cons c rest ih =>
    rw [List.foldl_cons, ih, signedChar_eq, List.map_cons, List.sum_cons, List.countP_cons]
    omega

theorem charSum_eq (read : List UInt8) : charSum read = (read.map UInt8.toNat).sum - 256 * read.countP HighByte := by
  rw [charSum, foldl_signedChar, Int.zero_add]

theorem byteSum_bounds (read : List UInt8) :
    128 * read.countP HighByte ≤ (read.map UInt8.toNat).sum ∧
      (read.map UInt8.toNat).sum ≤ 127 * read.length + 128 * read.countP HighByte := by
  induction read with
  | nil => simp
  | cons c rest ih =>
    have byte := c.toNat_lt
    rw [List.map_cons, List.sum_cons, List.countP_cons, List.length_cons, HighByte]
    split_ifs with high <;> simp only [decide_eq_true_eq] at high <;> omega

theorem charSum_bounds (read : List UInt8) :
    -(128 * (read.length : Int)) ≤ charSum read ∧ charSum read ≤ 127 * (read.length : Int) := by
  obtain ⟨low, high⟩ := byteSum_bounds read
  have count := read.countP_le_length (p := HighByte)
  rw [charSum_eq]
  omega

theorem charSum_fits {name read : List UInt8} (valid : FileName name) (part : read <+: name) :
    -2 ^ 31 ≤ charSum read ∧ charSum read < 2 ^ 31 := by
  obtain ⟨low, high⟩ := charSum_bounds read
  have shorter := part.length_le
  have short := valid.fits
  simp only [fileNameLen] at short
  omega

theorem tmod_nonneg_iff (a b : Int) : 0 ≤ a.tmod b ↔ 0 ≤ a ∨ b ∣ a := by
  constructor
  · intro low
    by_contra! outside
    have negated := Int.tmod_nonneg b (Int.neg_nonneg_of_nonpos outside.1.le)
    rw [Int.neg_tmod] at negated
    exact outside.2 (Int.dvd_of_tmod_eq_zero (by omega))
  · rintro (low | divides)
    · exact Int.tmod_nonneg b low
    · exact (Int.tmod_eq_zero_of_dvd divides).ge

theorem hash_isCell_iff (name : List UInt8) : IsCell (hashFunction name) ↔ HashesInside name := by
  have high : hashFunction name < hashTableSize := Int.tmod_lt_of_pos _ (by decide)
  rw [IsCell, and_iff_left high, hashFunction_eq, tmod_nonneg_iff, HashesInside, charSum_eq]
  by_cases low : 256 * name.countP HighByte ≤ (name.map UInt8.toNat).sum
  · exact iff_of_true (.inl (by omega)) (.inl low)
  · have negative : ¬ (0 : Int) ≤ (name.map UInt8.toNat).sum - 256 * name.countP HighByte := by omega
    rw [or_iff_right negative, or_iff_right low, ← Int.natCast_dvd_natCast, ← Int.dvd_neg]
    have less : -(((name.map UInt8.toNat).sum : Int) - 256 * name.countP HighByte) =
        ((256 * name.countP HighByte - (name.map UInt8.toNat).sum : Nat) : Int) := by omega
    rw [less]

def nextIndex (index : Int) : Int := (index + 1).tmod hashTableSize

def probe (index : Int) : Nat → Int
  | 0 => index
  | d + 1 => nextIndex (probe index d)

def indexLoop (stop : Fin hashTableSize → Bool) (index : Int) : Nat → Run (Fin hashTableSize)
  -- The loop over `fileInfoList[index]` as it stands, with an `int`.
  | 0 => .error .endless
  | fuel + 1 => do
    let cell ← cellAt index
    if stop cell then .ok cell else indexLoop stop (nextIndex index) fuel

theorem cellAt_isCell {index : Int} (inside : IsCell index) :
    ∃ cell, cellAt index = .ok cell ∧ (cell.val : Int) = index := by
  refine ⟨_, dif_pos inside, ?_⟩
  exact Int.toNat_of_nonneg inside.1

theorem cellAt_outside {index : Int} (outside : ¬ IsCell index) : cellAt index = .error .fault := dif_neg outside

theorem nextIndex_cell (cell : Fin hashTableSize) : nextIndex cell = (next cell : Nat) := by
  rw [nextIndex, Int.tmod_eq_emod_of_nonneg (by omega)]
  exact (Int.natCast_emod (cell.val + 1) hashTableSize).symm

theorem nextIndex_isCell {index : Int} (inside : IsCell index) : IsCell (nextIndex index) := by
  obtain ⟨cell, -, rfl⟩ := cellAt_isCell inside
  have bound := (next cell).isLt
  rw [nextIndex_cell, IsCell]
  omega

theorem probe_isCell {index : Int} (inside : IsCell index) (d : Nat) : IsCell (probe index d) := by
  induction d with
  | zero => exact inside
  | succ d ih => exact nextIndex_isCell ih

theorem indexLoop_cell (stop : Fin hashTableSize → Bool) (cell : Fin hashTableSize) (fuel : Nat) :
    indexLoop stop cell fuel = match scan stop cell fuel with
      | some found => .ok found
      | none => .error .endless := by
  induction fuel generalizing cell with
  | zero => rfl
  | succ fuel ih =>
    have here : cellAt cell = .ok cell := by
      have inside : IsCell cell := ⟨by omega, by omega⟩
      obtain ⟨cell', found, same⟩ := cellAt_isCell inside
      rw [found, Fin.ext (Int.ofNat.inj same)]
    simp only [indexLoop, here, bind, Except.bind, scan]
    split_ifs
    · rfl
    · rw [nextIndex_cell, ih]

theorem indexLoop_eq (stop : Fin hashTableSize → Bool) (index : Int) :
    indexLoop stop index hashTableSize = (cellAt index).bind (walk stop) := by
  by_cases inside : IsCell index
  · obtain ⟨cell, found, rfl⟩ := cellAt_isCell inside
    rw [found, indexLoop_cell]
    rfl
  · rw [cellAt_outside inside]
    simp only [indexLoop, cellAt_outside inside, bind, Except.bind]

theorem indexLoop_fault_iff (stop : Fin hashTableSize → Bool) (index : Int) :
    indexLoop stop index hashTableSize = .error .fault ↔ ¬ IsCell index := by
  rw [indexLoop_eq]
  by_cases inside : IsCell index
  · obtain ⟨cell, found, -⟩ := cellAt_isCell inside
    rw [found]
    refine iff_of_false (fun faults => ?_) (not_not_intro inside)
    simp only [Except.bind, walk] at faults
    split at faults <;> cases faults
  · exact iff_of_true (by rw [cellAt_outside inside]; rfl) inside

theorem insertFileInfo_loop {fileInfo : FileInfoStore} {fileInfoTable : FileInformationTable}
    (room : fileInfoTable.len ≠ hashTableSize) :
    insertFileInfo fileInfo fileInfoTable =
      (indexLoop (fun index => (fileInfoTable.fileInfoList index).isNone) (hashFunction fileInfo.fileName)
        hashTableSize).bind fun index =>
          .ok (0, { len := fileInfoTable.len + 1
                    fileInfoList := Function.update fileInfoTable.fileInfoList index (some fileInfo) }) := by
  rw [insertFileInfo, if_neg room, indexLoop_eq]
  cases cellAt (hashFunction fileInfo.fileName) <;> rfl

theorem searchFileInfo_loop (name : List UInt8) (fileInfoList : FileInfoList) :
    searchFileInfo name fileInfoList =
      (indexLoop (matchesName fileInfoList name) (hashFunction name) hashTableSize).bind fun index =>
        .ok (fileInfoList index) := by
  rw [searchFileInfo, indexLoop_eq]
  cases cellAt (hashFunction name) <;> rfl

theorem bind_fault_iff {α β : Type} {ran : Run α} {rest : α → β} :
    (ran.bind fun a => .ok (rest a)) = .error .fault ↔ ran = .error .fault := by
  cases ran <;> simp [Except.bind]

theorem searchFileInfo_fault_iff (name : List UInt8) (fileInfoList : FileInfoList) :
    searchFileInfo name fileInfoList = .error .fault ↔ ¬ IsCell (hashFunction name) := by
  rw [searchFileInfo_loop, bind_fault_iff, indexLoop_fault_iff]

theorem insertFileInfo_fault_iff (fileInfo : FileInfoStore) (fileInfoTable : FileInformationTable) :
    insertFileInfo fileInfo fileInfoTable = .error .fault ↔
      fileInfoTable.len ≠ hashTableSize ∧ ¬ IsCell (hashFunction fileInfo.fileName) := by
  by_cases full : fileInfoTable.len = hashTableSize
  · rw [insertFileInfo, if_pos full]
    simp [full]
  · rw [insertFileInfo_loop full, bind_fault_iff, indexLoop_fault_iff, and_iff_right full]

structure HashesToCell (name : List UInt8) : Prop where
  hash : IsCell (hashFunction name)
  probes : ∀ d, IsCell (probe (hashFunction name) d)
  insert : ∀ (fileInfo : FileInfoStore) (fileInfoTable : FileInformationTable), fileInfo.fileName = name →
    insertFileInfo fileInfo fileInfoTable ≠ .error .fault
  search : ∀ fileInfoList, searchFileInfo name fileInfoList ≠ .error .fault

theorem hashesToCell_iff (name : List UInt8) : HashesToCell name ↔ IsCell (hashFunction name) := by
  refine ⟨HashesToCell.hash, fun inside => ⟨inside, probe_isCell inside, ?_, fun fileInfoList faults => ?_⟩⟩
  · rintro fileInfo fileInfoTable rfl faults
    exact ((insertFileInfo_fault_iff fileInfo fileInfoTable).mp faults).2 inside
  · exact (searchFileInfo_fault_iff name fileInfoList).mp faults inside

theorem hash_is_cell_iff (name : List UInt8) (valid : FileName name) :
    (∀ read, read <+: name → -2 ^ 31 ≤ charSum read ∧ charSum read < 2 ^ 31) ∧
      (HashesToCell name ↔ HashesInside name) := by
  refine ⟨fun read part => charSum_fits valid part, ?_⟩
  rw [hashesToCell_iff, hash_isCell_iff]

-- `wie-é` has two bytes from 128 on.
theorem accented_name_hashes : HashesToCell [119, 105, 101, 45, 195, 169] :=
  (hash_is_cell_iff [119, 105, 101, 45, 195, 169] (by decide)).2.mpr (by decide)

-- `é` alone adds up to -148.
theorem accented_letter_outside : ¬ ∀ name, FileName name → HashesToCell name := by
  intro claimed
  have inside := (claimed [195, 169] (by decide)).hash
  revert inside
  decide

end NetProg.P4
