import NetProg.P4.FileTable

set_option autoImplicit false

namespace NetProg.P4

open Probing

structure Represented (table : FileInformationTable) : Prop where
  counts : table.len = (Finset.univ.filter fun c => (table.fileInfoList c).isSome).card
  bounded : table.len ≤ hashTableSize
  noGap : ∀ c r, table.fileInfoList c = some r → ∃ (home : Fin hashTableSize) (d : Nat),
    hashFunction r.fileName = home.val ∧ ahead home d = c ∧ ∀ e ≤ d, table.fileInfoList (ahead home e) ≠ none

inductive Inserts (fileInfo : FileInfoStore) (table : FileInformationTable) : Int → FileInformationTable → Prop where
  | fills (c : Fin hashTableSize) (room : table.len < hashTableSize) (empty : table.fileInfoList c = none) :
      Inserts fileInfo table 0
        { len := table.len + 1, fileInfoList := Function.update table.fileInfoList c (some fileInfo) }
  | refuses (full : table.len = hashTableSize) : Inserts fileInfo table (-1) table

def FileInformationTable.Has (table : FileInformationTable) (info : FileInfoStore) : Prop :=
  ∃ cell, table.fileInfoList cell = some info

def SearchEnds (name : List UInt8) (fileInfoList : FileInfoList) : Prop :=
  ∃ steps, (scan (matchesName fileInfoList name) (homeCell name) steps).isSome

theorem homeCell_hash {name : List UInt8} (low : 0 ≤ hashFunction name) :
    hashFunction name = (homeCell name).val := by
  have high : hashFunction name < hashTableSize := Int.tmod_lt_of_pos _ (by decide)
  have small : (hashFunction name).toNat < hashTableSize := by omega
  simp only [homeCell, Nat.mod_eq_of_lt small]
  omega

section Runs

variable {entries rest : List FileInfoStore} {table : FileInformationTable}

theorem Stores.has_iff (stores : Stores entries table) (info : FileInfoStore) : table.Has info ↔ info ∈ entries :=
  (stores.built.mem_iff info).symm

theorem insertAll_has {table' : FileInformationTable} (stores : Stores entries table)
    (ran : insertAll table rest = .ok table') (info : FileInfoStore) :
    table'.Has info ↔ table.Has info ∨ info ∈ rest.take (hashTableSize - table.len) := by
  rw [(insertAll_stored stores ran).has_iff, List.mem_append, stores.has_iff, stores.len]

theorem Stores.represented (stores : Stores entries table) (valid : ∀ r ∈ entries, 0 ≤ hashFunction r.fileName) :
    Represented table := by
  constructor
  case counts => rw [stores.len, stores.built.count]
  case bounded =>
    rw [stores.len]
    exact stores.built.length_le
  case noGap =>
    intro c r stored
    obtain ⟨d, -, reached, passed⟩ := stores.built.noGap stored
    have low := valid r ((stores.built.mem_iff r).mpr ⟨c, stored⟩)
    exact ⟨homeCell r.fileName, d, homeCell_hash low, reached, passed⟩

theorem Stores.inserts (stores : Stores entries table) {fileInfo : FileInfoStore}
    (valid : 0 ≤ hashFunction fileInfo.fileName) :
    ∃ result table', insertFileInfo fileInfo table = .ok (result, table') ∧ Inserts fileInfo table result table' := by
  by_cases full : table.len = hashTableSize
  · exact ⟨-1, table, if_pos full, .refuses full⟩
  · have room : entries.length < hashTableSize := by
      have bound := stores.built.length_le
      have len := stores.len
      omega
    obtain ⟨c, free⟩ := stores.built.can_store room fileInfo
    refine ⟨0, _, ?_, .fills c ?_ ?_⟩
    · simp [insertFileInfo, full, cellAt_home valid, walk, free, bind, Except.bind]
    · rw [stores.len]
      exact room
    · simpa using scan_stops free

theorem Stores.found (stores : Stores entries table) {r : FileInfoStore} (stored : r ∈ entries)
    (valid : 0 ≤ hashFunction r.fileName) : ∃ r', searchFileInfo r.fileName table.fileInfoList = .ok (some r') := by
  obtain ⟨c, there⟩ := (stores.built.mem_iff r).mp stored
  obtain ⟨d, -, reached, passed⟩ := stores.built.noGap there
  have stops : matchesName table.fileInfoList r.fileName (ahead (homeCell r.fileName) d) = true := by
    rw [matchesName_iff, reached]
    intro r' same
    obtain rfl : r = r' := Option.some.inj (there.symm.trans same)
    exact List.prefix_rfl
  -- the search may end earlier, at a record whose name begins with this one
  obtain ⟨e, upto, hit⟩ := scan_within stops
  obtain ⟨r', here⟩ := Option.ne_none_iff_exists'.mp (passed e upto)
  exact ⟨r', here ▸ searchFileInfo_eq valid hit⟩

theorem Stores.searchEnds_iff (stores : Stores entries table) (name : List UInt8) :
    SearchEnds name table.fileInfoList ↔
      entries.length < hashTableSize ∨ ∃ r ∈ entries, name <+: r.fileName := by
  have stopping : (∃ c, matchesName table.fileInfoList name c = true) ↔
      entries.length < hashTableSize ∨ ∃ r ∈ entries, name <+: r.fileName := by
    rw [stores.built.hasRoom_iff]
    constructor
    · rintro ⟨c, stops⟩
      rw [matchesName_iff] at stops
      cases stored : table.fileInfoList c with
      | none => exact .inl ⟨c, stored⟩
      | some r => exact .inr ⟨r, (stores.built.mem_iff r).mpr ⟨c, stored⟩, stops r stored⟩
    · rintro (⟨c, hole⟩ | ⟨r, listed, begins⟩)
      · exact ⟨c, by simp [matchesName, hole]⟩
      · obtain ⟨c, stored⟩ := (stores.built.mem_iff r).mp listed
        refine ⟨c, (matchesName_iff _ _ _).mpr fun r' same => ?_⟩
        obtain rfl : r = r' := Option.some.inj (stored.symm.trans same)
        exact begins
  rw [← stopping]
  constructor
  · rintro ⟨steps, ended⟩
    obtain ⟨c, found⟩ := Option.isSome_iff_exists.mp ended
    exact ⟨c, scan_stops found⟩
  · rintro ⟨c, stops⟩
    obtain ⟨k, found⟩ := scan_finds _ (homeCell name) stops
    exact ⟨hashTableSize, by simp [found]⟩

end Runs

theorem searchEnds_returns {name : List UInt8} (low : 0 ≤ hashFunction name) (fileInfoList : FileInfoList) :
    SearchEnds name fileInfoList ↔ ∃ found, searchFileInfo name fileInfoList = .ok found := by
  constructor
  · intro ⟨steps, ended⟩
    cases whole : scan (matchesName fileInfoList name) (homeCell name) hashTableSize with
    | none => simp [scan_endless whole] at ended
    | some c => exact ⟨_, searchFileInfo_eq low whole⟩
  · intro ⟨found, ran⟩
    cases whole : scan (matchesName fileInfoList name) (homeCell name) hashTableSize with
    | none => simp [searchFileInfo, cellAt_home low, walk, whole, bind, Except.bind] at ran
    | some c => exact ⟨hashTableSize, by simp [whole]⟩

def Inserted (infos : List FileInfoStore) (fileInfo : FileInfoStore) : Prop :=
  ∃ before after table table', infos = before ++ fileInfo :: after ∧ insertAll initFileInfoTable before = .ok table ∧
    insertFileInfo fileInfo table = .ok (0, table')

theorem init_first {infos : List FileInfoStore} (valid : ∀ r ∈ infos, AsciiName r.fileName) :
    ∃ table, insertAll initFileInfoTable infos = .ok table ∧ Stores (infos.take hashTableSize) table := by
  obtain ⟨table, ran, stores⟩ := insertAll_first initFileInfoTable_stores fun r member => (valid r member).hash
  exact ⟨table, ran, by simpa using stores⟩

theorem Inserted.first {infos : List FileInfoStore} (valid : ∀ r ∈ infos, AsciiName r.fileName)
    {fileInfo : FileInfoStore} (inserted : Inserted infos fileInfo) : fileInfo ∈ infos.take hashTableSize := by
  obtain ⟨before, after, table, table', rfl, ran, stored⟩ := inserted
  obtain ⟨other, ran', stores⟩ := @init_first before fun r member => valid r (by simp [member])
  obtain rfl := Except.ok.inj (ran.symm.trans ran')
  have notFull : table.len ≠ hashTableSize := by
    intro full
    simp [insertFileInfo, full] at stored
  have room : before.length < hashTableSize := by
    have len := stores.len
    rw [List.length_take] at len
    omega
  rw [List.take_append, List.take_of_length_le room.le]
  obtain ⟨left, more⟩ := Nat.exists_eq_succ_of_ne_zero (Nat.sub_ne_zero_of_lt room)
  simp [more]

theorem insertions_represented (infos : List FileInfoStore) (valid : ∀ r ∈ infos, AsciiName r.fileName) :
    ∃ table, insertAll initFileInfoTable infos = .ok table ∧ Represented table ∧
      (∀ fileInfo : FileInfoStore, AsciiName fileInfo.fileName → ∃ result table',
        insertFileInfo fileInfo table = .ok (result, table') ∧ Inserts fileInfo table result table') ∧
      ∀ fileInfo, Inserted infos fileInfo →
        ∃ r, searchFileInfo fileInfo.fileName table.fileInfoList = .ok (some r) := by
  obtain ⟨table, ran, stores⟩ := init_first valid
  have hashes : ∀ r ∈ infos.take hashTableSize, 0 ≤ hashFunction r.fileName := fun r member =>
    (valid r (List.mem_of_mem_take member)).hash
  refine ⟨table, ran, stores.represented hashes, fun fileInfo ascii => stores.inserts ascii.hash, ?_⟩
  intro fileInfo inserted
  have stored := inserted.first valid
  exact stores.found stored (hashes fileInfo stored)

theorem two_insertions_represented : ∃ table, insertAll initFileInfoTable [oneFile, oneFile] = .ok table ∧
    table.len = 2 ∧ Represented table := by
  obtain ⟨table, ran, represented, -⟩ := insertions_represented [oneFile, oneFile] (by decide)
  refine ⟨table, ran, ?_, represented⟩
  obtain rfl := Except.ok.inj ran
  rfl

theorem search_ends_iff (infos : List FileInfoStore) (valid : ∀ r ∈ infos, AsciiName r.fileName) (name : List UInt8)
    (asked : AsciiName name) :
    ∃ table, insertAll initFileInfoTable infos = .ok table ∧
      (SearchEnds name table.fileInfoList ↔ ∃ found, searchFileInfo name table.fileInfoList = .ok found) ∧
      (SearchEnds name table.fileInfoList ↔
        infos.length < hashTableSize ∨ ∃ r ∈ infos.take hashTableSize, name <+: r.fileName) := by
  obtain ⟨table, ran, stores⟩ := init_first valid
  refine ⟨table, ran, searchEnds_returns asked.hash _, ?_⟩
  rw [stores.searchEnds_iff, List.length_take]
  simp

theorem search_of_few_ends : ∃ table, insertAll initFileInfoTable [oneFile] = .ok table ∧
    SearchEnds [98] table.fileInfoList := by
  obtain ⟨table, ran, -, exactly⟩ := search_ends_iff [oneFile] (by decide) [98] (by decide)
  exact ⟨table, ran, exactly.mpr (.inl (by decide))⟩

-- In a full table of one name, the search for another one goes round for ever.
theorem full_table_searched_forever :
    ¬ ∀ infos : List FileInfoStore, (∀ r ∈ infos, AsciiName r.fileName) → ∀ table,
      insertAll initFileInfoTable infos = .ok table → ∀ name, AsciiName name → SearchEnds name table.fileInfoList := by
  intro claimed
  have valid : ∀ r ∈ List.replicate hashTableSize oneFile, AsciiName r.fileName := by
    intro r member
    obtain rfl := List.eq_of_mem_replicate member
    decide
  obtain ⟨table, ran, stores⟩ := init_first valid
  rw [List.take_replicate, Nat.min_self] at stores
  rcases (stores.searchEnds_iff [98]).mp (claimed _ valid table ran [98] (by decide)) with room | ⟨r, stored, begins⟩
  · rw [List.length_replicate] at room
    omega
  · obtain rfl := List.eq_of_mem_replicate stored
    exact absurd begins (by decide)

end NetProg.P4
