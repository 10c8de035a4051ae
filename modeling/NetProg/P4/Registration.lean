import NetProg.Net.Address
import NetProg.P4.CopyLoop

set_option autoImplicit false

namespace NetProg.P4

open Memory Probing

def record (clientAddr : InAddr) (portNum : UInt32) (file : FileInformation) : FileInfoStore :=
  { fileName := file.fileName, fileSize := file.fileSize, ipAddr := inetNtoa clientAddr, portNum }

def records (clientAddr : InAddr) (portNum : UInt32) (files : List FileInformation) : List FileInfoStore :=
  files.map (record clientAddr portNum)

structure ListsNames (reply : List UInt8) (id : UInt32) (names : List (List UInt8)) : Prop where
  length : reply.length = headerLen + 4 + names.length * fileNameLen
  header : loadHeader (ofBytes reply) = entriesHeader fileNameLen id fileInfoRecvSuccess names.length
  fileNum : load32 (ofBytes reply) fileNumAt = UInt32.ofNat names.length
  name : ∀ k (inside : k < names.length),
    loadString (ofBytes reply) (filesAt + fileNameLen * k) fileNameLen = some names[k]

structure Registered (node : SuperNode) (childAddr : InAddr) (portNum : UInt32) (files : List FileInformation)
    (h : Handled) : Prop where
  inserted : contents h.node.fileInfoTable.fileInfoList =
    contents node.fileInfoTable.fileInfoList + (records childAddr portNum files : Multiset FileInfoStore)
  answered : ∃ reply, h.replies = [reply] ∧ ListsNames reply node.id (files.map FileInformation.fileName)

structure RegularFile (file : FileInformation) : Prop where
  named : file.fileName ≠ []
  ascii : AsciiName file.fileName

instance (file : FileInformation) : Decidable (RegularFile file) :=
  decidable_of_iff (file.fileName ≠ [] ∧ AsciiName file.fileName)
    ⟨fun ⟨named, ascii⟩ => ⟨named, ascii⟩, fun regular => ⟨regular.named, regular.ascii⟩⟩

theorem AsciiName.text {name : List UInt8} (valid : AsciiName name) : ∀ c ∈ name, c ≠ 0 := by
  rintro c member rfl
  have low := (valid.ascii 0 member).1
  simp at low

structure SoundName (name : List UInt8) : Prop where
  -- The name is a string of its field, and the table is not indexed with a negative number.
  short : name.length < fileNameLen
  text : ∀ c ∈ name, c ≠ 0
  hashed : 0 ≤ hashFunction name

instance (name : List UInt8) : Decidable (SoundName name) :=
  decidable_of_iff (name.length < fileNameLen ∧ name.all (· ≠ 0) ∧ 0 ≤ hashFunction name)
    ⟨fun ⟨short, text, hashed⟩ => ⟨short, by simpa using text, hashed⟩,
      fun sound => ⟨sound.short, by simpa using sound.text, sound.hashed⟩⟩

theorem SoundName.fits {file : FileInformation} (sound : SoundName file.fileName) : file.Fits :=
    ⟨sound.short, sound.text⟩

theorem RegularFile.sound {file : FileInformation} (regular : RegularFile file) : SoundName file.fileName :=
  ⟨regular.ascii.fits, regular.ascii.text, regular.ascii.hash⟩

theorem fits_sound {files : List FileInformation} (sound : ∀ file ∈ files, SoundName file.fileName) :
    ∀ file ∈ files, file.Fits := fun file listed => (sound file listed).fits

theorem records_fit (clientAddr : InAddr) (portNum : UInt32) {files : List FileInformation}
    (fit : ∀ file ∈ files, file.Fits) : ∀ info ∈ records clientAddr portNum files, info.Fits := by
  intro info member
  obtain ⟨file, listed, rfl⟩ := List.mem_map.mp member
  have fits := fit file listed
  have ip := inetNtoa_length clientAddr
  exact ⟨fits.short, fits.text, by simp only [record]; omega, inetNtoa_nonzero clientAddr⟩

section Received

variable (childUnwritten : Block) (childId : UInt32) {files : List FileInformation}

theorem fileInfoPacket_header (fit : ∀ file ∈ files, file.Fits) :
    loadHeader (receiveBuffer (readRecvBuff (fileInfoPacket childUnwritten childId files))) =
      entriesHeader fileInformationSize childId fileInfo files.length := by
  refine (entriesPacket_front (fun file listed => storeFileInformation_confined (fit file listed))
    childUnwritten childId fileInfo fun j below => ?_).1
  simp only [filesAt] at below
  exact receiveBuffer_load _ (by simp only [headerLen]; omega) (by simp only [recvBuffSize]; omega)

theorem fileInfoPacket_totalLen (count : files.length ≤ maxFiles) :
    (entriesHeader fileInformationSize childId fileInfo files.length).totalLen.toNat =
      headerLen + 4 + files.length * fileInformationSize := by
  simp only [maxFiles] at count
  refine UInt32.toNat_ofNat_of_lt' ?_
  simp only [headerLen, fileInformationSize, UInt32.size]
  omega

theorem fileInfo_refused (fit : ∀ file ∈ files, file.Fits) (count : files.length ≤ maxFiles)
    (many : 10 < files.length) (node : SuperNode) (clientAddr : InAddr) (unwritten : Unwritten) :
    handleClientRequest node clientAddr (readRecvBuff (fileInfoPacket childUnwritten childId files)) unwritten =
      .ok (.reply node (headerPacket { totalLen := 12, id := node.id, msgType := fileInfoRecvError })) := by
  have header := fileInfoPacket_header childUnwritten childId fit
  have cut := readRecvBuff_short (fileInfoPacket childUnwritten childId files)
  rw [handleClientRequest_fileInfo (by rw [header]; rfl), handleFileInfo, header,
    fileInfoPacket_totalLen childId count, if_pos]
  simp only [headerLen, fileInformationSize, recvBuffSize] at cut ⊢
  omega

theorem fileInfo_ignored (fit : ∀ file ∈ files, file.Fits) (few : files.length ≤ 10)
    {node : SuperNode}
    (unknown : findChildPort node.childPorts childId = 0) (clientAddr : InAddr) (unwritten : Unwritten) :
    handleClientRequest node clientAddr (readRecvBuff (fileInfoPacket childUnwritten childId files)) unwritten =
      .ok (.silent node) := by
  have header := fileInfoPacket_header childUnwritten childId fit
  have whole : (readRecvBuff (fileInfoPacket childUnwritten childId files)).length =
      headerLen + 4 + files.length * fileInformationSize := by
    rw [readRecvBuff_length, fileInfoPacket, length_load]
    simp only [headerLen, fileInformationSize, recvBuffSize]
    omega
  rw [handleClientRequest_fileInfo (by rw [header]; rfl), handleFileInfo, header,
    fileInfoPacket_totalLen childId (by simp only [maxFiles]; omega), whole, if_neg (Nat.lt_irrefl _)]
  exact if_pos unknown

theorem readFileInformation_ok {pkt before : Block} {k : Nat} {file : FileInformation} (fits : file.Fits)
    (same : SameEntry pkt (storeFileInformation before (filesAt + fileInformationSize * k) file)
      (filesAt + fileInformationSize * k) fileInformationSize) (clientAddr : InAddr) (portNum : UInt32) :
    readFileInformation pkt clientAddr portNum k = .ok (record clientAddr portNum file) := by
  obtain ⟨name, size⟩ := fileInformation_read fits same
  simp [readFileInformation, record, field, name, size, bind, Except.bind]

theorem fileInfoPacket_copied (fit : ∀ file ∈ files, file.Fits) (few : files.length ≤ 10)
    (m : Block) :
    EntriesRead fileInformationSize storeFileInformation childId fileInfo files
      (store m 0 (load (receiveBuffer (readRecvBuff (fileInfoPacket childUnwritten childId files))) 0
        (headerLen + 4 + files.length * fileInformationSize))) := by
  refine entriesPacket_read (fun file listed => storeFileInformation_confined (fit file listed))
    childUnwritten childId fileInfo fun j inside => ?_
  rw [store_load _ _ (Nat.zero_le j) (by simpa using inside)]
  refine receiveBuffer_load _ inside ?_
  simp only [headerLen, fileInformationSize, recvBuffSize] at inside ⊢
  omega

theorem fileInfo_run (fit : ∀ file ∈ files, file.Fits) (few : files.length ≤ 10) (node : SuperNode)
    (clientAddr : InAddr) (unwritten : Unwritten) (known : findChildPort node.childPorts childId ≠ 0) :
    handleClientRequest node clientAddr (readRecvBuff (fileInfoPacket childUnwritten childId files)) unwritten =
      (insertAll node.fileInfoTable (records clientAddr (findChildPort node.childPorts childId) files)).map
        (accepted node unwritten (records clientAddr (findChildPort node.childPorts childId) files)) := by
  have header := fileInfoPacket_header childUnwritten childId fit
  have total : (entriesHeader fileInformationSize childId fileInfo files.length).totalLen.toNat =
      headerLen + 4 + files.length * fileInformationSize :=
    fileInfoPacket_totalLen childId (by simp only [maxFiles]; omega)
  have read := fileInfoPacket_copied childUnwritten childId fit few unwritten.fileInfoPkt
  have size : headerLen + 4 + files.length * fileInformationSize ≤ recvBuffSize := by
    simp only [headerLen, fileInformationSize, recvBuffSize]
    omega
  rw [handleClientRequest_fileInfo (by rw [header]; rfl)]
  have whole : (loadHeader (receiveBuffer (readRecvBuff (fileInfoPacket childUnwritten childId files)))).totalLen.toNat ≤
      (readRecvBuff (fileInfoPacket childUnwritten childId files)).length := by
    rw [header, total, readRecvBuff_length, fileInfoPacket, length_load]
    omega
  have copied : copyPacket unwritten.fileInfoPkt (receiveBuffer (readRecvBuff (fileInfoPacket childUnwritten childId files)))
      (loadHeader (receiveBuffer (readRecvBuff (fileInfoPacket childUnwritten childId files)))).totalLen.toNat 10016 =
      .ok (store unwritten.fileInfoPkt 0 (load (receiveBuffer (readRecvBuff
        (fileInfoPacket childUnwritten childId files))) 0 (headerLen + 4 + files.length * fileInformationSize))) := by
    rw [header, total, copyPacket, if_pos ⟨size, by simp only [recvBuffSize] at size; omega⟩]
  have count : (records clientAddr (findChildPort node.childPorts childId) files).length =
      (load32 (store unwritten.fileInfoPkt 0 (load (receiveBuffer (readRecvBuff
        (fileInfoPacket childUnwritten childId files))) 0 (headerLen + 4 + files.length * fileInformationSize)))
          fileNumAt).toNat := by
    rw [read.fileNum, UInt32.toNat_ofNat_of_lt' (by simp only [UInt32.size]; omega)]
    simp [records]
  have id : (loadHeader (receiveBuffer (readRecvBuff (fileInfoPacket childUnwritten childId files)))).id = childId := by
    rw [header]
    rfl
  apply handleFileInfo_run whole (by rwa [id]) copied count (by simp only [records, List.length_map, maxFiles]; omega)
  intro k inside
  have listed : k < files.length := by simpa [records] using inside
  obtain ⟨before, same⟩ := read.entry k listed
  rw [id, readFileInformation_ok (fit files[k] (List.getElem_mem listed)) same]
  simp [records]

theorem fileInfo_accepts (fit : ∀ file ∈ files, file.Fits) (few : files.length ≤ 10)
    (node : SuperNode) (clientAddr : InAddr) (unwritten : Unwritten)
    (known : findChildPort node.childPorts childId ≠ 0)
    {table : FileInformationTable} (inserted : insertAll node.fileInfoTable
      (records clientAddr (findChildPort node.childPorts childId) files) = .ok table) :
    handleClientRequest node clientAddr (readRecvBuff (fileInfoPacket childUnwritten childId files)) unwritten =
      .ok (accepted node unwritten (records clientAddr (findChildPort node.childPorts childId) files) table) := by
  rw [fileInfo_run childUnwritten childId fit few node clientAddr unwritten known, inserted]
  rfl

theorem records_hash {files : List FileInformation} (sound : ∀ file ∈ files, SoundName file.fileName)
    (clientAddr : InAddr)
    (portNum : UInt32) : ∀ info ∈ records clientAddr portNum files, 0 ≤ hashFunction info.fileName := by
  intro info member
  obtain ⟨file, listed, rfl⟩ := List.mem_map.mp member
  exact (sound file listed).hashed

theorem fileInfo_registers (sound : ∀ file ∈ files, SoundName file.fileName) (few : files.length ≤ 10)
    (node : SuperNode) (clientAddr : InAddr) (unwritten : Unwritten)
    (known : findChildPort node.childPorts childId ≠ 0)
    {entries : List FileInfoStore} (stores : Stores entries node.fileInfoTable)
    (room : entries.length + files.length ≤ hashTableSize) :
    ∃ table, Stores (entries ++ records clientAddr (findChildPort node.childPorts childId) files) table ∧
      handleClientRequest node clientAddr (readRecvBuff (fileInfoPacket childUnwritten childId files)) unwritten =
        .ok (accepted node unwritten (records clientAddr (findChildPort node.childPorts childId) files) table) := by
  obtain ⟨table, inserted, stored⟩ := insertAll_stores stores (records_hash sound clientAddr _)
    (by simpa [records] using room)
  exact ⟨table, stored, fileInfo_accepts childUnwritten childId (fits_sound sound) few node clientAddr unwritten known inserted⟩

end Received

theorem storeName_confined {info : FileInfoStore} (fits : info.Fits) : Confined fileNameLen storeName info := by
  intro pkt start j outside
  have short := fits.short
  simp only [fileNameLen] at short outside
  exact store_outside _ (by simp; omega)

theorem recvSuccessPacket_lists {infos : List FileInfoStore} (fit : ∀ info ∈ infos, info.Fits) (unwritten : Block)
    (id : UInt32) : ListsNames (recvSuccessPacket unwritten id infos) id (infos.map FileInfoStore.fileName) := by
  have read : EntriesRead fileNameLen storeName id fileInfoRecvSuccess infos
      (ofBytes (recvSuccessPacket unwritten id infos)) :=
    entriesPacket_read (fun info member => storeName_confined (fit info member)) unwritten id fileInfoRecvSuccess
      fun j inside => ofBytes_load _ inside
  constructor
  case length => simp [recvSuccessPacket]
  case header => rw [read.header, List.length_map]
  case fileNum => rw [read.fileNum, List.length_map]
  case name =>
    intro k inside
    have bound : k < infos.length := by simpa using inside
    obtain ⟨before, same⟩ := read.entry k bound
    have fits := fit infos[k] (List.getElem_mem bound)
    rw [List.getElem_map]
    refine loadString_of fits.text fits.short ?_
    have whole := same.load 0 (infos[k].fileName.length + 1) (by have short := fits.short; omega)
    rw [Nat.add_zero] at whole
    rw [whole]
    exact load_storeString _ _ _

theorem accepted_registered (node : SuperNode) {clientAddr : InAddr} {portNum : UInt32} {files : List FileInformation}
    (sound : ∀ file ∈ files, SoundName file.fileName) {entries : List FileInfoStore}
    (stores : Stores entries node.fileInfoTable) {table : FileInformationTable}
    (stored : Stores (entries ++ records clientAddr portNum files) table) (unwritten : Unwritten) :
    Registered node clientAddr portNum files (accepted node unwritten (records clientAddr portNum files) table) := by
  constructor
  · simp only [accepted]
    rw [stored.built.contents_eq, stores.built.contents_eq, Multiset.coe_add]
  · have lists := recvSuccessPacket_lists (records_fit clientAddr portNum (fits_sound sound))
      unwritten.fileInfoRecvSuccessPkt node.id
    refine ⟨_, rfl, ?_⟩
    simpa [records, record, Function.comp_def] using lists

theorem registered_few {node : SuperNode} {clientAddr childAddr : InAddr} {childId portNum : UInt32}
    {files : List FileInformation} (sound : ∀ file ∈ files, SoundName file.fileName) (count : files.length ≤ maxFiles)
    {childUnwritten : Block} {unwritten : Unwritten} {h : Handled}
    (ran : handleClientRequest node clientAddr (readRecvBuff (fileInfoPacket childUnwritten childId files)) unwritten =
      .ok h) (registered : Registered node childAddr portNum files h) : files.length ≤ 10 := by
  by_contra many
  rw [fileInfo_refused childUnwritten childId (fits_sound sound) count (by omega)] at ran
  obtain rfl := Except.ok.inj ran
  obtain ⟨reply, answered, lists⟩ := registered.answered
  obtain rfl := List.singleton_inj.mp answered
  have length := lists.length
  simp only [headerPacket, length_load, headerLen, List.length_map, fileNameLen] at length
  omega

-- `clientAddr` is what the child's slot says, `childAddr` where the child is.
theorem registered_iff (node : SuperNode) {entries : List FileInfoStore} (stores : Stores entries node.fileInfoTable)
    (clientAddr childAddr : InAddr) (childId portNum : UInt32) (files : List FileInformation)
    (regular : ∀ file ∈ files, RegularFile file) (count : files.length ≤ maxFiles)
    (room : entries.length + files.length ≤ hashTableSize) (childUnwritten : Block) (unwritten : Unwritten) :
    (∃ h, handleClientRequest node clientAddr (readRecvBuff (fileInfoPacket childUnwritten childId files)) unwritten =
        .ok h ∧ Registered node childAddr portNum files h) ↔
      files.length ≤ 10 ∧ findChildPort node.childPorts childId ≠ 0 ∧
        (files = [] ∨ findChildPort node.childPorts childId = portNum ∧ clientAddr = childAddr) := by
  have sound : ∀ file ∈ files, SoundName file.fileName := fun file listed => (regular file listed).sound
  constructor
  · rintro ⟨h, ran, registered⟩
    have few := registered_few sound count ran registered
    have known : findChildPort node.childPorts childId ≠ 0 := by
      intro unknown
      rw [fileInfo_ignored childUnwritten childId (fits_sound sound) few unknown] at ran
      obtain rfl := Except.ok.inj ran
      obtain ⟨reply, answered, -⟩ := registered.answered
      cases answered
    refine ⟨few, known, ?_⟩
    obtain ⟨table, stored, ran'⟩ := fileInfo_registers childUnwritten childId sound few node clientAddr unwritten known
      stores room
    obtain rfl := Except.ok.inj (ran.symm.trans ran')
    have both := registered.inserted
    rw [(accepted_registered node sound stores stored unwritten).inserted] at both
    have same := Multiset.add_right_inj.mp both
    cases files with
    | nil => exact .inl rfl
    | cons file rest =>
      have member : record clientAddr (findChildPort node.childPorts childId) file ∈
          (records childAddr portNum (file :: rest) : Multiset FileInfoStore) := by
        rw [← same]
        simp [records]
      obtain ⟨other, -, equal⟩ := List.mem_map.mp (Multiset.mem_coe.mp member)
      exact .inr ⟨(congrArg FileInfoStore.portNum equal).symm,
        (inetNtoa_injective (congrArg FileInfoStore.ipAddr equal)).symm⟩
  · rintro ⟨few, known, announced⟩
    obtain ⟨table, stored, ran⟩ := fileInfo_registers childUnwritten childId sound few node clientAddr unwritten known
      stores room
    refine ⟨_, ran, ?_⟩
    have same : records clientAddr (findChildPort node.childPorts childId) files = records childAddr portNum files := by
      rcases announced with rfl | ⟨found, there⟩
      · rfl
      · rw [found, there]
    rw [same] at stored ⊢
    exact accepted_registered node sound stores stored unwritten

def zeroed : Unwritten where
  fileInfoPkt := fun _ => 0
  fileInfoSharePkt := fun _ => 0
  fileInfoRecvSuccessPkt := fun _ => 0
  searchQueryPkt := fun _ => 0
  searchAnsSuccessPkt := fun _ => 0
  fileInfoShareSuccessPkt := fun _ => 0
  stack := fun _ => 0

def oneChild : SuperNode :=
  { startUp 3 (fun _ => 0) with childPorts := Function.update (startUp 3 fun _ => 0).childPorts 0 ⟨7, 9000⟩ }

theorem one_file_registered :
    ∃ h, handleClientRequest oneChild ⟨10, 0, 0, 1⟩ (readRecvBuff (fileInfoPacket (fun _ => 0) 7 [⟨[97], 5⟩])) zeroed =
      .ok h ∧ Registered oneChild ⟨10, 0, 0, 1⟩ 9000 [⟨[97], 5⟩] h :=
  (registered_iff oneChild initFileInfoTable_stores ⟨10, 0, 0, 1⟩ ⟨10, 0, 0, 1⟩ 7 9000 [⟨[97], 5⟩] (by decide)
    (by decide) (by decide) (fun _ => 0) zeroed).mpr ⟨by decide, by decide, .inr ⟨by decide, rfl⟩⟩

-- A child that has been welcomed sends eleven files: the packet is 1116 bytes long.
theorem eleven_files_refused :
    ¬ ∀ (node : SuperNode) (entries : List FileInfoStore), Stores entries node.fileInfoTable →
      ∀ (clientAddr : InAddr) (childId portNum : UInt32), portNum ≠ 0 → ∀ (welcomed : Handled),
        handleClientRequest node clientAddr (readRecvBuff (helloFromChildPacket childId portNum)) zeroed = .ok welcomed →
        ∀ files : List FileInformation, (∀ file ∈ files, RegularFile file) → files.length ≤ maxFiles →
          entries.length + files.length ≤ hashTableSize →
          ∃ h, handleClientRequest welcomed.node clientAddr
              (readRecvBuff (fileInfoPacket (fun _ => 0) childId files)) zeroed = .ok h ∧
            Registered welcomed.node clientAddr portNum files h := by
  intro claimed
  let files : List FileInformation := (List.range 11).map fun i => ⟨[UInt8.ofNat (97 + i)], 5⟩
  have regular : ∀ file ∈ files, RegularFile file := by decide
  obtain ⟨h, ran, registered⟩ := claimed (startUp 3 fun _ => 0) [] initFileInfoTable_stores ⟨10, 0, 0, 1⟩ 7 9000
    (by decide) _ rfl files regular (by decide) (by decide)
  have few := registered_few (fun file listed => (regular file listed).sound) (by decide) ran registered
  exact absurd few (by decide)

end NetProg.P4
