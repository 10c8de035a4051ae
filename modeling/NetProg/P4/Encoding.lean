import NetProg.P4.Sharing

set_option autoImplicit false

namespace NetProg.P4

open Memory

def skips (ent : FileInformation) : Bool := ent.fileName == [46] || ent.fileName == [46, 46]

def readDirectory : List FileInformation → Nat → Block → Run (Block × Nat)
  -- The loop over the entries of the directory, each with what `getFileSize` says about it.
  | [], fileCnt, fileInfoPkt => .ok (fileInfoPkt, fileCnt)
  | ent :: rest, fileCnt, fileInfoPkt =>
    if skips ent then readDirectory rest fileCnt fileInfoPkt
    else if fileCnt < maxFiles ∧ ent.fileName.length < fileNameLen then
      readDirectory rest (fileCnt + 1) (storeFileInformation fileInfoPkt (filesAt + fileInformationSize * fileCnt) ent)
    else .error .fault

def buildFileInfo (unwritten : Block) (id : UInt32) (entries : List FileInformation) : Run (List UInt8) := do
  -- What the child writes; the packet is a local variable and is not cleared.
  let fileInfoPkt := store (store unwritten 4 (net32 id)) 8 (net32 fileInfo)
  let (fileInfoPkt, fileCnt) ← readDirectory entries 0 fileInfoPkt
  let fileInfoPkt := store fileInfoPkt fileNumAt (net32 (UInt32.ofNat fileCnt))
  let pktLen := UInt32.ofNat (headerLen + 4 + fileCnt * fileInformationSize)
  .ok (load (store fileInfoPkt 0 (net32 pktLen)) 0 pktLen.toNat)

def listed (entries : List FileInformation) : List FileInformation := entries.filter fun ent => !skips ent

structure Whole (size count : Nat) (packet : List UInt8) : Prop where
  totalLen : (loadHeader (ofBytes packet)).totalLen.toNat = packet.length
  covers : ∀ k < count, filesAt + size * (k + 1) ≤ packet.length

structure Recovers (read : Nat → Run FileInfoStore) (fileNum : UInt32) (infos : List FileInfoStore) : Prop where
  count : fileNum.toNat = infos.length
  reads : ∀ k (inside : k < infos.length), read k = .ok infos[k]
  runs : ∀ put fileInfoTable out, copyFiles read put fileNum.toNat 0 fileInfoTable out =
    (insertAll fileInfoTable infos).map fun after => (after, putAll put out 0 infos)

def recordWith (ipAddr : List UInt8) (portNum : UInt32) (file : FileInformation) : FileInfoStore :=
  { fileName := file.fileName, fileSize := file.fileSize, ipAddr, portNum }

theorem readDirectory_listed {entries : List FileInformation} {fileCnt : Nat} (pkt : Block)
    (fit : ∀ file ∈ listed entries, file.Fits) (few : fileCnt + (listed entries).length ≤ maxFiles) :
    readDirectory entries fileCnt pkt =
      .ok (storeEntries fileInformationSize storeFileInformation pkt fileCnt (listed entries),
        fileCnt + (listed entries).length) := by
  induction entries generalizing fileCnt pkt with
  | nil => rfl
  | cons ent rest ih =>
    cases skipped : skips ent with
    | true =>
      have same : listed (ent :: rest) = listed rest := by simp [listed, skipped]
      rw [same] at fit few ⊢
      rw [readDirectory, if_pos skipped]
      exact ih pkt fit few
    | false =>
      have more : listed (ent :: rest) = ent :: listed rest := by simp [listed, skipped]
      rw [more] at fit few ⊢
      rw [List.length_cons] at few ⊢
      have fits := fit ent (by simp)
      have later := ih (storeFileInformation pkt (filesAt + fileInformationSize * fileCnt) ent)
        (fun file member => fit file (by simp [member])) (show fileCnt + 1 + (listed rest).length ≤ maxFiles by omega)
      rw [readDirectory, if_neg (by simp [skipped]), if_pos ⟨by omega, fits.short⟩, later, storeEntries,
        Nat.add_assoc, Nat.add_comm 1]

theorem storeFileInformation_store (pkt : Block) {start start' : Nat} {bytes : List UInt8}
    (before : start + bytes.length ≤ start') (file : FileInformation) :
    storeFileInformation (store pkt start bytes) start' file =
      store (storeFileInformation pkt start' file) start bytes := by
  simp only [storeFileInformation, storeString]
  rw [store_comm _ (.inl before), store_comm _ (.inl (by omega))]

theorem storeEntries_store {size start : Nat} {bytes : List UInt8} (before : start + bytes.length ≤ filesAt)
    (pkt : Block) (i : Nat) (files : List FileInformation) :
    storeEntries size storeFileInformation (store pkt start bytes) i files =
      store (storeEntries size storeFileInformation pkt i files) start bytes := by
  induction files generalizing pkt i with
  | nil => rfl
  | cons file rest ih =>
    rw [storeEntries, storeFileInformation_store pkt (Nat.le_add_right_of_le before) file, ih, storeEntries]

theorem buildFileInfo_eq (unwritten : Block) (id : UInt32) {entries : List FileInformation}
    (fit : ∀ file ∈ listed entries, file.Fits) (few : (listed entries).length ≤ maxFiles) :
    buildFileInfo unwritten id entries = .ok (fileInfoPacket unwritten id (listed entries)) := by
  have total := fileInfoPacket_totalLen id few
  simp only [entriesHeader] at total
  simp only [buildFileInfo, readDirectory_listed _ fit (show 0 + (listed entries).length ≤ maxFiles by omega), bind,
    Except.bind, Nat.zero_add, total]
  have ordered (len own type : List UInt8) (lenFits : len.length = 4) (ownFits : own.length = 4) :
      store (store (store unwritten 4 own) 8 type) 0 len = store (store (store unwritten 0 len) 4 own) 8 type := by
    rw [store_comm _ (.inr (by omega)), store_comm unwritten (.inr (by omega))]
  have counted (pkt : Block) (num len : List UInt8) (numFits : num.length = 4) (lenFits : len.length = 4) :
      store (store (storeEntries fileInformationSize storeFileInformation pkt 0 (listed entries)) fileNumAt num) 0 len =
        storeEntries fileInformationSize storeFileInformation (store (store pkt 0 len) fileNumAt num) 0
          (listed entries) := by
    rw [store_comm _ (.inr (by simp only [fileNumAt]; omega)),
      storeEntries_store (by simp only [fileNumAt, filesAt]; omega),
      storeEntries_store (by simp only [filesAt]; omega)]
  rw [counted _ _ _ (length_net32 _) (length_net32 _), ordered _ _ _ (length_net32 _) (length_net32 _)]
  rfl

section Decoding

variable {infos : List FileInfoStore} {read : Nat → Run FileInfoStore} {fileNum : UInt32}

theorem recovers_of (count : fileNum.toNat = infos.length) (few : infos.length ≤ maxFiles)
    (reads : ∀ k (inside : k < infos.length), read k = .ok infos[k]) : Recovers read fileNum infos := by
  refine ⟨count, reads, fun put table out => ?_⟩
  rw [count]
  refine copyFiles_run put (.inr (by omega)) (fun k inside => ?_) table out
  rw [Nat.zero_add, reads k inside]

theorem entries_whole {α : Type} {size : Nat} {write : Block → Nat → α → Block} {values : List α}
    (confined : ∀ value ∈ values, Confined size write value) (unwritten : Block) (id msgType : UInt32)
    (total : (entriesHeader size id msgType values.length).totalLen.toNat = headerLen + 4 + values.length * size) :
    Whole size values.length
      (load (entriesPacket size write unwritten id msgType values) 0 (headerLen + 4 + values.length * size)) := by
  have read := entriesPacket_read confined unwritten id msgType fun j inside => ofBytes_load _ inside
  constructor
  case totalLen => rw [read.header, total, length_load]
  case covers =>
    intro k inside
    have room : size * (k + 1) ≤ values.length * size := by
      rw [Nat.mul_comm values.length]
      exact Nat.mul_le_mul_left size inside
    rw [length_load]
    simp only [filesAt, headerLen]
    omega

theorem fileInfo_recovered (childUnwritten : Block) (childId : UInt32) {files : List FileInformation}
    (fit : ∀ file ∈ files, file.Fits) (few : files.length ≤ maxFiles) (ipAddr : List UInt8) (portNum : UInt32)
    (rest : Block) :
    Recovers (readEntry (store rest 0 (fileInfoPacket childUnwritten childId files)) ipAddr portNum)
      (load32 (store rest 0 (fileInfoPacket childUnwritten childId files)) fileNumAt)
      (files.map (recordWith ipAddr portNum)) := by
  have read : EntriesRead fileInformationSize storeFileInformation childId fileInfo files
      (store rest 0 (fileInfoPacket childUnwritten childId files)) :=
    entriesPacket_read (fun file member => storeFileInformation_confined (fit file member)) childUnwritten childId
      fileInfo fun j inside => store_load _ _ (Nat.zero_le j) (by simpa using inside)
  simp only [maxFiles] at few
  apply recovers_of
  case count =>
    rw [read.fileNum, UInt32.toNat_ofNat_of_lt' (by simp only [UInt32.size]; omega), List.length_map]
  case few => simpa using few
  case reads =>
    intro k inside
    have bound : k < files.length := by simpa using inside
    obtain ⟨before, same⟩ := read.entry k bound
    obtain ⟨name, size⟩ := fileInformation_read (fit files[k] (List.getElem_mem bound)) same
    simp [readEntry, recordWith, field, name, size, bind, Except.bind]

theorem share_recovered (unwritten : Block) (id : UInt32) (fit : ∀ info ∈ infos, info.Fits)
    (few : infos.length ≤ maxFiles) (rest : Block) :
    Recovers (readFileInfo (store rest 0 (sharePacket unwritten id infos)))
      (load32 (store rest 0 (sharePacket unwritten id infos)) fileNumAt) infos := by
  have read : EntriesRead fileInfoStoreSize storeFileInfo id fileInfoShare infos
      (store rest 0 (sharePacket unwritten id infos)) :=
    entriesPacket_read (fun info member => storeFileInfo_confined (fit info member)) unwritten id fileInfoShare
      fun j inside => store_load _ _ (Nat.zero_le j) (by simpa using inside)
  simp only [maxFiles] at few
  apply recovers_of
  case count => rw [read.fileNum, UInt32.toNat_ofNat_of_lt' (by simp only [UInt32.size]; omega)]
  case few => exact few
  case reads =>
    intro k inside
    obtain ⟨before, same⟩ := read.entry k inside
    exact readFileInfo_ok (fit infos[k] (List.getElem_mem inside)) same

end Decoding

theorem registration_decodes (childUnwritten : Block) (childId : UInt32) (entries : List FileInformation)
    (fit : ∀ file ∈ listed entries, file.Fits) (few : (listed entries).length ≤ maxFiles) (ipAddr : List UInt8)
    (ipShort : ipAddr.length ≤ 19) (ipText : ∀ c ∈ ipAddr, c ≠ 0) (portNum : UInt32) :
    ∃ packet, buildFileInfo childUnwritten childId entries = .ok packet ∧
      Whole fileInformationSize (listed entries).length packet ∧ ∀ rest : Block,
        Recovers (readEntry (store rest 0 packet) ipAddr portNum) (load32 (store rest 0 packet) fileNumAt)
          ((listed entries).map (recordWith ipAddr portNum)) ∧
        ∀ (node : SuperNode) (unwritten : Unwritten), ∃ reply share,
          registerFiles node ipAddr portNum (store rest 0 packet) unwritten =
            (insertAll node.fileInfoTable ((listed entries).map (recordWith ipAddr portNum))).map (fun fileInfoTable =>
              { node := { node with fileInfoTable }, replies := [reply], share := some share }) ∧
          Whole fileInfoStoreSize (listed entries).length share ∧ ∀ shareRest : Block,
            Recovers (readFileInfo (store shareRest 0 share)) (load32 (store shareRest 0 share) fileNumAt)
              ((listed entries).map (recordWith ipAddr portNum)) := by
  have infosFit : ∀ info ∈ (listed entries).map (recordWith ipAddr portNum), info.Fits := by
    intro info member
    obtain ⟨file, inside, rfl⟩ := List.mem_map.mp member
    exact ⟨(fit file inside).short, (fit file inside).text, Nat.lt_succ_of_le ipShort, ipText⟩
  have count : ((listed entries).map (recordWith ipAddr portNum)).length = (listed entries).length := List.length_map _
  refine ⟨_, buildFileInfo_eq childUnwritten childId fit few, ?_, fun rest => ?_⟩
  · exact entries_whole (fun file member => storeFileInformation_confined (fit file member)) childUnwritten childId
      fileInfo (fileInfoPacket_totalLen childId few)
  have recovered := fileInfo_recovered childUnwritten childId fit few ipAddr portNum rest
  refine ⟨recovered, fun node unwritten => ?_⟩
  refine ⟨_, _, registerFiles_run unwritten recovered.count.symm (by omega) recovered.reads, ?_, fun shareRest => ?_⟩
  · rw [← count]
    exact entries_whole (fun info member => storeFileInfo_confined (infosFit info member))
      unwritten.fileInfoSharePkt node.id fileInfoShare (sharePacket_totalLen node.id (by omega))
  · exact share_recovered unwritten.fileInfoSharePkt node.id infosFit (by omega) shareRest

theorem one_entry_decodes : ∃ packet, buildFileInfo (fun _ => 255) 7 [⟨[46], 0⟩, ⟨[97], 5⟩, ⟨[46, 46], 0⟩] = .ok packet ∧
    packet.length = 116 ∧ Recovers (readEntry (store (fun _ => 255) 0 packet) [49] 9000)
      (load32 (store (fun _ => 255) 0 packet) fileNumAt) [⟨[97], 5, [49], 9000⟩] := by
  have fit : ∀ file ∈ listed [⟨[46], 0⟩, ⟨[97], 5⟩, ⟨[46, 46], 0⟩], file.Fits := by
    intro file member
    obtain rfl : file = ⟨[97], 5⟩ := by simpa [listed, skips] using member
    exact ⟨by simp, by simp⟩
  obtain ⟨packet, built, whole, decodes⟩ := registration_decodes (fun _ => 255) 7
    [⟨[46], 0⟩, ⟨[97], 5⟩, ⟨[46, 46], 0⟩] fit (by decide) [49] (by simp) (by simp) 9000
  refine ⟨packet, built, ?_, (decodes fun _ => 255).1⟩
  rw [buildFileInfo_eq _ _ fit (by decide)] at built
  rw [← Except.ok.inj built, fileInfoPacket, length_load]
  rfl

end NetProg.P4
