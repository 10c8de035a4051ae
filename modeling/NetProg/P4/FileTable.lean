import NetProg.Shared.Probing

set_option autoImplicit false

-- C strings are lists of their bytes without the NUL.

namespace NetProg.P4

open Probing

-- Why a call does not return: it has left an object, or its loop does not end.
inductive Stuck where
  | fault
  | endless
deriving DecidableEq, Repr

abbrev Run := Except Stuck

abbrev hashTableSize : Nat := 1000

abbrev fileNameLen : Nat := 96

structure FileInfoStore where
  fileName : List UInt8
  fileSize : UInt32
  ipAddr : List UInt8
  portNum : UInt32
deriving DecidableEq, Repr

abbrev FileInfoList := Fin hashTableSize → Option FileInfoStore

structure FileInformationTable where
  len : Nat
  fileInfoList : FileInfoList

def initFileInfoTable : FileInformationTable := { len := 0, fileInfoList := fun _ => none }

-- `char` is signed.
def signedChar (c : UInt8) : Int := if c.toNat < 128 then c.toNat else c.toNat - 256

-- The remainder of a negative sum is negative.
def hashFunction (key : List UInt8) : Int := (key.foldl (fun sum c => sum + signedChar c) 0).tmod hashTableSize

def cellAt (index : Int) : Run (Fin hashTableSize) :=
  if inside : 0 ≤ index ∧ index < hashTableSize then .ok ⟨index.toNat, by omega⟩ else .error .fault

def walk (stop : Fin hashTableSize → Bool) (index : Fin hashTableSize) : Run (Fin hashTableSize) :=
  -- The loop `while (...) { index += 1; index %= HASH_TABLE_SIZE; }`
  match scan stop index hashTableSize with
  | some index => .ok index
  | none => .error .endless

def insertFileInfo (fileInfo : FileInfoStore) (fileInfoTable : FileInformationTable) :
    Run (Int × FileInformationTable) :=
  if fileInfoTable.len = hashTableSize then .ok (-1, fileInfoTable)
  else do
    let home ← cellAt (hashFunction fileInfo.fileName)
    let index ← walk (fun index => (fileInfoTable.fileInfoList index).isNone) home
    .ok (0, { len := fileInfoTable.len + 1
              fileInfoList := Function.update fileInfoTable.fileInfoList index (some fileInfo) })

def strncmpZero : List UInt8 → List UInt8 → Nat → Bool
  | _, _, 0 => true
  | [], [], _ + 1 => true
  | a :: s, b :: t, n + 1 => a == b && strncmpZero s t n
  | _, _, _ + 1 => false

def matchesName (fileInfoList : FileInfoList) (fileName : List UInt8) (index : Fin hashTableSize) : Bool :=
  (fileInfoList index).all fun stored => strncmpZero stored.fileName fileName fileName.length

def searchFileInfo (fileName : List UInt8) (fileInfoList : FileInfoList) : Run (Option FileInfoStore) := do
  let home ← cellAt (hashFunction fileName)
  let index ← walk (matchesName fileInfoList fileName) home
  .ok (fileInfoList index)

def insertAll (fileInfoTable : FileInformationTable) : List FileInfoStore → Run FileInformationTable
  | [] => .ok fileInfoTable
  | fileInfo :: rest => do
    let (_, fileInfoTable) ← insertFileInfo fileInfo fileInfoTable
    insertAll fileInfoTable rest

structure AsciiName (name : List UInt8) : Prop where
  fits : name.length < fileNameLen
  ascii : ∀ c ∈ name, 1 ≤ c.toNat ∧ c.toNat ≤ 127

instance (name : List UInt8) : Decidable (AsciiName name) :=
  decidable_of_iff (name.length < fileNameLen ∧ name.all fun c => 1 ≤ c.toNat ∧ c.toNat ≤ 127)
    ⟨fun ⟨fits, ascii⟩ => ⟨fits, by simpa using ascii⟩, fun valid => ⟨valid.fits, by simpa using valid.ascii⟩⟩

def homeCell (name : List UInt8) : Fin hashTableSize :=
  ⟨(hashFunction name).toNat % hashTableSize, Nat.mod_lt _ (by decide)⟩

theorem char_sum_nonnegative (name : List UInt8) (ascii : ∀ c ∈ name, 1 ≤ c.toNat ∧ c.toNat ≤ 127) (sum : Int)
    (start : 0 ≤ sum) : 0 ≤ name.foldl (fun sum c => sum + signedChar c) sum := by
  induction name generalizing sum with
  | nil => exact start
  | cons c rest ih =>
    have small := (ascii c (by simp)).2
    have next : 0 ≤ signedChar c := by
      simp only [signedChar]
      split_ifs <;> omega
    exact ih (fun c' member => ascii c' (by simp [member])) _ (Int.add_nonneg start next)

theorem AsciiName.hash {name : List UInt8} (valid : AsciiName name) : 0 ≤ hashFunction name :=
  Int.tmod_nonneg _ (char_sum_nonnegative name valid.ascii 0 (le_refl 0))

theorem cellAt_home {name : List UInt8} (low : 0 ≤ hashFunction name) :
    cellAt (hashFunction name) = .ok (homeCell name) := by
  have high : hashFunction name < hashTableSize := Int.tmod_lt_of_pos _ (by decide)
  have small : (hashFunction name).toNat < hashTableSize := by omega
  simp only [cellAt, dif_pos (And.intro low high), homeCell, Nat.mod_eq_of_lt small]

structure Stores (entries : List FileInfoStore) (table : FileInformationTable) : Prop where
  built : Built FileInfoStore.fileName homeCell entries table.fileInfoList
  len : table.len = entries.length

theorem initFileInfoTable_stores : Stores [] initFileInfoTable := ⟨.empty, rfl⟩

theorem insertFileInfo_stores {entries : List FileInfoStore} {table : FileInformationTable}
    (stores : Stores entries table) {fileInfo : FileInfoStore} (valid : 0 ≤ hashFunction fileInfo.fileName)
    (room : entries.length < hashTableSize) :
    ∃ table', insertFileInfo fileInfo table = .ok (0, table') ∧ Stores (entries ++ [fileInfo]) table' := by
  obtain ⟨c, free⟩ := stores.built.can_store room fileInfo
  have notFull : table.len ≠ hashTableSize := by rw [stores.len]; omega
  refine ⟨{ len := table.len + 1, fileInfoList := Function.update table.fileInfoList c (some fileInfo) }, ?_, ?_, ?_⟩
  · simp [insertFileInfo, notFull, cellAt_home valid, walk, free, bind, Except.bind]
  · exact .store _ _ _ _ stores.built free
  · simp [stores.len]

theorem insertFileInfo_full {entries : List FileInfoStore} {table : FileInformationTable}
    (stores : Stores entries table) (full : entries.length = hashTableSize) (fileInfo : FileInfoStore) :
    insertFileInfo fileInfo table = .ok (-1, table) := by
  simp [insertFileInfo, stores.len, full]

theorem insertFileInfo_cases {entries : List FileInfoStore} {table table' : FileInformationTable}
    {fileInfo : FileInfoStore} {code : Int} (stores : Stores entries table)
    (ran : insertFileInfo fileInfo table = .ok (code, table')) :
    entries.length < hashTableSize ∧ 0 ≤ hashFunction fileInfo.fileName ∧ Stores (entries ++ [fileInfo]) table' ∨
      entries.length = hashTableSize ∧ table' = table := by
  by_cases room : entries.length < hashTableSize
  · have low : 0 ≤ hashFunction fileInfo.fileName := by
      by_contra negative
      have notFull : table.len ≠ hashTableSize := by
        rw [stores.len]
        omega
      simp [insertFileInfo, notFull, cellAt, negative, bind, Except.bind] at ran
    obtain ⟨mid, inserted, stored⟩ := insertFileInfo_stores stores low room
    obtain ⟨-, rfl⟩ := Prod.mk.inj (Except.ok.inj (ran.symm.trans inserted))
    exact .inl ⟨room, low, stored⟩
  · have full : entries.length = hashTableSize := Nat.le_antisymm stores.built.length_le (by omega)
    obtain ⟨-, rfl⟩ := Prod.mk.inj (Except.ok.inj (ran.symm.trans (insertFileInfo_full stores full fileInfo)))
    exact .inr ⟨full, rfl⟩

section InsertAll

variable {entries rest : List FileInfoStore} {table table' : FileInformationTable}

theorem free_cells (room : entries.length < hashTableSize) (r : FileInfoStore) :
    hashTableSize - entries.length = hashTableSize - (entries ++ [r]).length + 1 := by
  rw [List.length_append, List.length_singleton]
  omega

theorem insertAll_stored (stores : Stores entries table) (ran : insertAll table rest = .ok table') :
    Stores (entries ++ rest.take (hashTableSize - entries.length)) table' := by
  induction rest generalizing entries table with
  | nil =>
    obtain rfl : table = table' := by simpa [insertAll] using ran
    simpa using stores
  | cons r rest ih =>
    simp only [insertAll, bind, Except.bind] at ran
    split at ran
    next => cases ran
    next inserted first =>
      rcases insertFileInfo_cases stores first with ⟨room, -, stored⟩ | ⟨full, same⟩
      · rw [free_cells room r, List.take_succ_cons]
        simpa using ih stored ran
      · have final := ih (same ▸ stores) ran
        rw [Nat.sub_eq_zero_of_le full.ge] at final ⊢
        exact final

theorem insertAll_ok_iff (stores : Stores entries table) :
    (∃ table', insertAll table rest = .ok table') ↔
      ∀ r ∈ rest.take (hashTableSize - entries.length), 0 ≤ hashFunction r.fileName := by
  induction rest generalizing entries table with
  | nil => simp [insertAll]
  | cons r rest ih =>
    by_cases room : entries.length < hashTableSize
    · rw [free_cells room r, List.take_succ_cons, List.forall_mem_cons]
      by_cases low : 0 ≤ hashFunction r.fileName
      · obtain ⟨mid, inserted, stored⟩ := insertFileInfo_stores stores low room
        rw [← ih stored, and_iff_right low]
        simp [insertAll, inserted, bind, Except.bind]
      · refine iff_of_false (fun ⟨table', ran⟩ => ?_) fun valid => low valid.1
        simp only [insertAll, bind, Except.bind] at ran
        split at ran
        next => cases ran
        next inserted first =>
          rcases insertFileInfo_cases stores first with ⟨-, valid, -⟩ | ⟨full, -⟩
          · exact low valid
          · omega
    · have full : entries.length = hashTableSize := Nat.le_antisymm stores.built.length_le (by omega)
      have later := ih stores
      rw [Nat.sub_eq_zero_of_le full.ge] at later ⊢
      simpa [insertAll, insertFileInfo_full stores full r, bind, Except.bind] using later

theorem insertAll_first (stores : Stores entries table) (valid : ∀ r ∈ rest, 0 ≤ hashFunction r.fileName) :
    ∃ table', insertAll table rest = .ok table' ∧
      Stores (entries ++ rest.take (hashTableSize - entries.length)) table' := by
  obtain ⟨table', ran⟩ := (insertAll_ok_iff stores).mpr fun r taken => valid r (List.mem_of_mem_take taken)
  exact ⟨table', ran, insertAll_stored stores ran⟩

theorem insertAll_stores (stores : Stores entries table) (valid : ∀ r ∈ rest, 0 ≤ hashFunction r.fileName)
    (room : entries.length + rest.length ≤ hashTableSize) :
    ∃ table', insertAll table rest = .ok table' ∧ Stores (entries ++ rest) table' := by
  obtain ⟨table', ran, stored⟩ := insertAll_first stores valid
  rw [List.take_of_length_le (by omega)] at stored
  exact ⟨table', ran, stored⟩

theorem insertAll_hashes (stores : Stores entries table) (room : entries.length + rest.length ≤ hashTableSize)
    (ran : insertAll table rest = .ok table') : ∀ r ∈ rest, 0 ≤ hashFunction r.fileName := by
  have taken := (insertAll_ok_iff stores).mp ⟨table', ran⟩
  rwa [List.take_of_length_le (by omega)] at taken

end InsertAll

theorem strncmpZero_length (s t : List UInt8) : strncmpZero s t t.length = true ↔ t <+: s := by
  induction t generalizing s with
  | nil => simp [strncmpZero]
  | cons b t ih =>
    cases s with
    | nil => simp [strncmpZero]
    | cons a s =>
      simp only [strncmpZero, List.length_cons, Bool.and_eq_true, beq_iff_eq, ih, List.cons_prefix_cons]
      exact and_congr_left fun _ => eq_comm

-- From the home of `name` on, a name that goes on after `name` is met before an empty cell and before `name`
-- itself.
def LongerMet (fileInfoList : FileInfoList) (name : List UInt8) : Prop :=
  ∃ d, (∀ e ≤ d, ∃ r, fileInfoList (ahead (homeCell name) e) = some r ∧ r.fileName ≠ name) ∧
    ∃ r, fileInfoList (ahead (homeCell name) d) = some r ∧ name <+: r.fileName

theorem matchesName_iff (fileInfoList : FileInfoList) (name : List UInt8) (index : Fin hashTableSize) :
    matchesName fileInfoList name index = true ↔ ∀ r, fileInfoList index = some r → name <+: r.fileName := by
  cases stored : fileInfoList index with
  | none => simp [matchesName, stored]
  | some r => simp [matchesName, stored, strncmpZero_length]

theorem searchFileInfo_eq {name : List UInt8} (low : 0 ≤ hashFunction name) {fileInfoList : FileInfoList}
    {c : Fin hashTableSize} (hit : scan (matchesName fileInfoList name) (homeCell name) hashTableSize = some c) :
    searchFileInfo name fileInfoList = .ok (fileInfoList c) := by
  simp [searchFileInfo, cellAt_home low, walk, hit, bind, Except.bind]

theorem searchFileInfo_returns {name : List UInt8} (low : 0 ≤ hashFunction name) (fileInfoList : FileInfoList) :
    (∃ found, searchFileInfo name fileInfoList = .ok found) ∨ searchFileInfo name fileInfoList = .error .endless := by
  cases hit : scan (matchesName fileInfoList name) (homeCell name) hashTableSize with
  | some c => exact .inl ⟨_, searchFileInfo_eq low hit⟩
  | none => exact .inr (by simp [searchFileInfo, cellAt_home low, walk, hit, bind, Except.bind])

theorem searchFileInfo_longer {name : List UInt8} (low : 0 ≤ hashFunction name) {fileInfoList : FileInfoList}
    (met : LongerMet fileInfoList name) :
    ∃ r, searchFileInfo name fileInfoList = .ok (some r) ∧ r.fileName ≠ name := by
  obtain ⟨d, held, r, longer, begins⟩ := met
  have stopped : matchesName fileInfoList name (ahead (homeCell name) d) = true := by
    rw [matchesName_iff]
    intro r' stored
    obtain rfl : r = r' := Option.some.inj (longer.symm.trans stored)
    exact begins
  obtain ⟨e, within, hit⟩ := scan_within stopped
  obtain ⟨r', stored, different⟩ := held e within
  exact ⟨r', stored ▸ searchFileInfo_eq low hit, different⟩

theorem searchFileInfo_exact {name : List UInt8} (low : 0 ≤ hashFunction name) {fileInfoList : FileInfoList}
    (never : ¬ LongerMet fileInfoList name) {c : Fin hashTableSize}
    (found : scan (stopsAt FileInfoStore.fileName fileInfoList name) (homeCell name) hashTableSize = some c) :
    searchFileInfo name fileInfoList = .ok (fileInfoList c) := by
  obtain ⟨d, bound, reached, stops, clear⟩ := scan_eq_some_iff.mp found
  have passed : ∀ e < d, ∃ r, fileInfoList (ahead (homeCell name) e) = some r ∧ r.fileName ≠ name := by
    intro e earlier
    have here := clear e earlier
    cases stored : fileInfoList (ahead (homeCell name) e) with
    | none => simp [stopsAt, stored] at here
    | some r => exact ⟨r, rfl, by simpa [stopsAt, stored] using here⟩
  refine searchFileInfo_eq low (scan_eq_some_iff.mpr ⟨d, bound, reached, ?_, fun e earlier => ?_⟩)
  · rw [matchesName_iff]
    intro r stored
    have same : r.fileName = name := by simpa [stopsAt, stored] using stops
    rw [same]
  · by_contra met
    rw [Bool.not_eq_false, matchesName_iff] at met
    obtain ⟨r, stored, -⟩ := passed e earlier
    exact never ⟨e, fun e' upto => passed e' (by omega), r, stored, met r stored⟩

theorem search_exact_iff (entries : List FileInfoStore) (valid : ∀ r ∈ entries, AsciiName r.fileName)
    (room : entries.length < hashTableSize) (name : List UInt8) (asked : AsciiName name) :
    ∃ table, insertAll initFileInfoTable entries = .ok table ∧
      (searchFileInfo name table.fileInfoList = .ok (entries.find? fun r => decide (r.fileName = name)) ↔
        ¬ LongerMet table.fileInfoList name) := by
  obtain ⟨table, ran, stores⟩ := insertAll_stores initFileInfoTable_stores (fun r member => (valid r member).hash)
    (by simpa using room.le)
  rw [List.nil_append] at stores
  refine ⟨table, ran, ?_⟩
  obtain ⟨c, found, content⟩ := stores.built.lookup (stores.built.exists_empty room) name
  constructor
  · intro answered met
    obtain ⟨r, longer, different⟩ := searchFileInfo_longer asked.hash met
    rw [longer, Except.ok.injEq] at answered
    have same := List.find?_some answered.symm
    exact different (by simpa using same)
  · intro never
    rw [searchFileInfo_exact asked.hash never found, content]

def oneFile : FileInfoStore where
  fileName := [97, 100, 100, 100, 100, 100, 100, 100, 100, 100, 100]
  fileSize := 5
  ipAddr := [49, 48, 46, 48, 46, 48, 46, 49]
  portNum := 9000

theorem search_exact_one : ∃ table, insertAll initFileInfoTable [oneFile] = .ok table ∧
    (searchFileInfo oneFile.fileName table.fileInfoList =
      .ok ([oneFile].find? fun r => decide (r.fileName = oneFile.fileName)) ↔
        ¬ LongerMet table.fileInfoList oneFile.fileName) :=
  search_exact_iff [oneFile] (by decide) (by decide) oneFile.fileName (by decide)

-- `a` hashes to the cell of `adddddddddd`, which begins with it.
theorem search_finds_longer_name :
    ¬ ∀ (entries : List FileInfoStore), (∀ r ∈ entries, AsciiName r.fileName) → entries.length < hashTableSize →
      ∀ name, AsciiName name → ∀ table, insertAll initFileInfoTable entries = .ok table →
        searchFileInfo name table.fileInfoList = .ok (entries.find? fun r => decide (r.fileName = name)) := by
  intro claimed
  have answer := claimed [oneFile] (by decide) (by decide) [97] (by decide) _ rfl
  cases answer

end NetProg.P4
