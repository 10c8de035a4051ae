import NetProg.P4.NodeRuns

set_option autoImplicit false

namespace NetProg.P4

open Memory Transition Probing

inductive Answered (m : Delivery) (reply : List UInt8) : Prop where
  | registration (type : m.header.msgType = fileInfo)
      (success : (loadHeader (ofBytes reply)).msgType = fileInfoRecvSuccess)
  | share (type : m.header.msgType = fileInfoShare)
      (success : (loadHeader (ofBytes reply)).msgType = fileInfoShareSuccess)

def recordOf (node : SuperNode) (m : Delivery) (k : Nat) : Run FileInfoStore :=
  -- The record that is made of an entry of the message.
  if m.header.msgType = fileInfo then
    readFileInformation (requestPacket m.unwritten.fileInfoPkt m.received) m.clientAddr
      (findChildPort node.childPorts m.header.id) k
  else readFileInfo (requestPacket m.unwritten.fileInfoSharePkt m.received) k

inductive Acknowledges (node : SuperNode) (m : Delivery) (reply : List UInt8) (k : Nat) (info : FileInfoStore) :
    Prop where
  | registration (type : m.header.msgType = fileInfo) (counted : k < (load32 (ofBytes reply) fileNumAt).toNat)
      (named : loadString (ofBytes reply) (filesAt + fileNameLen * k) fileNameLen = some info.fileName)
      (record : recordOf node m k = .ok info)
  | share (type : m.header.msgType = fileInfoShare) (counted : k < (load32 (ofBytes reply) fileNumAt).toNat)
      (whole : filesAt + fileInfoStoreSize * (k + 1) ≤ reply.length) (record : readFileInfo (ofBytes reply) k = .ok info)

def Delivery.listed (m : Delivery) : Nat :=
  -- How many of its entries the acknowledgement of a message lists.
  if m.header.totalLen.toNat > m.received.length then 0
  else if m.header.msgType = fileInfo then
    (load32 (requestPacket m.unwritten.fileInfoPkt m.received) fileNumAt).toNat
  else
    let fileInfoSharePkt := requestPacket m.unwritten.fileInfoSharePkt m.received
    min (load32 fileInfoSharePkt fileNumAt).toNat (((load32 fileInfoSharePkt 0).toNat - filesAt) / fileInfoStoreSize)

-- Each listed record is in the table already, or there is still a cell for it at the first place where the message
-- has it.
def FindsRoom (node : SuperNode) (m : Delivery) : Prop :=
  ∀ k < m.listed, ∀ info, recordOf node m k = .ok info →
    node.fileInfoTable.Has info ∨ ∃ j ≤ k, recordOf node m j = .ok info ∧ node.fileInfoTable.len + j < hashTableSize

section Listed

variable {node : SuperNode} {m : Delivery} {h : Handled} {reply : List UInt8}

theorem copyPacket_request {unwritten pkt : Block} {size : Nat}
    (copied : copyPacket unwritten (receiveBuffer m.received) m.header.totalLen.toNat size = .ok pkt) :
    pkt = requestPacket unwritten m.received := by
  simp only [copyPacket] at copied
  split_ifs at copied
  exact (Except.ok.inj copied).symm

theorem registration_accepts (type : m.header.msgType = fileInfo) (ran : m.handle node = .ok h)
    (sent : reply ∈ h.replies) (success : (loadHeader (ofBytes reply)).msgType = fileInfoRecvSuccess) :
    ∃ infos table, Accepts node m.clientAddr (receiveBuffer m.received) m.received.length m.unwritten infos table
        (requestPacket m.unwritten.fileInfoPkt m.received) ∧ h = accepted node m.unwritten infos table := by
  rw [Delivery.handle, handleClientRequest_fileInfo type] at ran
  by_cases short : m.header.totalLen.toNat > m.received.length
  · rw [handleFileInfo, if_pos short] at ran
    obtain rfl := Except.ok.inj ran
    obtain rfl := List.mem_singleton.mp sent
    rw [headerPacket, loadHeader_congr fun j below => ofBytes_load _ below, loadHeader_storeHeader] at success
    simp [fileInfoRecvError, fileInfoRecvSuccess] at success
  by_cases unknown : findChildPort node.childPorts m.header.id = 0
  · rw [handleFileInfo, if_neg short] at ran
    rw [if_pos unknown] at ran
    obtain rfl := Except.ok.inj ran
    cases sent
  · obtain ⟨infos, table, pkt, accepts⟩ := handleFileInfo_copies ran short unknown
    obtain rfl := copyPacket_request accepts.copied
    exact ⟨infos, table, accepts, Except.ok.inj (ran.symm.trans (handleFileInfo_accepts accepts))⟩

def shareSuccess (node : SuperNode) (m : Delivery) (infos : List FileInfoStore) : Block :=
  let fileInfoSharePkt := requestPacket m.unwritten.fileInfoSharePkt m.received
  storeEntries fileInfoStoreSize storeFileInfo (storeCount m.unwritten.fileInfoShareSuccessPkt
    { totalLen := load32 fileInfoSharePkt 0, id := node.id, msgType := fileInfoShareSuccess }
    (load32 fileInfoSharePkt fileNumAt)) 0 infos

theorem putAll_fileInfo (out : Outgoing) (i : Nat) (infos : List FileInfoStore) :
    putAll putFileInfo out i infos = { out with reply := storeEntries fileInfoStoreSize storeFileInfo out.reply i infos } := by
  induction infos generalizing out i with
  | nil => rfl
  | cons info rest ih => exact ih _ _

theorem share_cases (type : m.header.msgType = fileInfoShare) (ran : m.handle node = .ok h)
    (sent : reply ∈ h.replies) :
    m.header.totalLen.toNat > m.received.length ∧ reply = load m.unwritten.stack 0 headerLen ∨
      ¬ m.header.totalLen.toNat > m.received.length ∧ ∃ infos,
        infos.length = (load32 (requestPacket m.unwritten.fileInfoSharePkt m.received) fileNumAt).toNat ∧
        Copies (readFileInfo (requestPacket m.unwritten.fileInfoSharePkt m.received)) 0 infos node.fileInfoTable
          h.node.fileInfoTable ∧
        reply = load (shareSuccess node m infos) 0
          (load32 (requestPacket m.unwritten.fileInfoSharePkt m.received) 0).toNat := by
  rw [Delivery.handle, handleClientRequest_share type] at ran
  by_cases short : m.header.totalLen.toNat > m.received.length
  · rw [handleFileInfoShare, if_pos short] at ran
    obtain rfl := Except.ok.inj ran
    obtain rfl := List.mem_singleton.mp sent
    exact .inl ⟨short, rfl⟩
  · simp only [handleFileInfoShare, if_neg short, bind, Except.bind] at ran
    split at ran
    next => cases ran
    next pkt copied =>
      obtain rfl := copyPacket_request copied
      split at ran
      next => cases ran
      next result loop =>
        obtain rfl := Except.ok.inj ran
        obtain rfl := List.mem_singleton.mp sent
        obtain ⟨infos, count, copies, same⟩ := copyFiles_copies loop
        exact .inr ⟨short, infos, count, copies, by rw [same, putAll_fileInfo]; rfl⟩

theorem Copies.fits_share {pkt : Block} {infos : List FileInfoStore} {before after : FileInformationTable}
    (copies : Copies (readFileInfo pkt) 0 infos before after) : ∀ info ∈ infos, info.Fits := by
  intro info member
  obtain ⟨k, bound, rfl⟩ := List.getElem_of_mem member
  exact readFileInfo_fits (copies.reads k bound)

theorem shareSuccess_read (node : SuperNode) (m : Delivery) {infos : List FileInfoStore}
    (fit : ∀ info ∈ infos, info.Fits) {len k : Nat} (whole : filesAt + fileInfoStoreSize * (k + 1) ≤ len) :
    load32 (ofBytes (load (shareSuccess node m infos) 0 len)) fileNumAt =
        load32 (requestPacket m.unwritten.fileInfoSharePkt m.received) fileNumAt ∧
      ∀ inside : k < infos.length, readFileInfo (ofBytes (load (shareSuccess node m infos) 0 len)) k = .ok infos[k] := by
  have confined : ∀ info ∈ infos, Confined fileInfoStoreSize storeFileInfo info := fun info member =>
    storeFileInfo_confined (fit info member)
  simp only [fileInfoStoreSize, filesAt] at whole
  constructor
  · refine (storeCount_read m.unwritten.fileInfoShareSuccessPkt
      { totalLen := load32 (requestPacket m.unwritten.fileInfoSharePkt m.received) 0, id := node.id,
        msgType := fileInfoShareSuccess } _ fun j below => ?_).2
    have front : shareSuccess node m infos j = _ := storeEntries_below confined _ (by simpa using below)
    simp only [filesAt] at below
    rw [ofBytes_load _ (by omega)]
    exact front
  · intro inside
    obtain ⟨before, entry⟩ := storeEntries_at confined _ 0 k inside
    rw [Nat.zero_add] at entry
    refine @readFileInfo_ok _ before _ _ (fit infos[k] (List.getElem_mem inside)) fun j low high => ?_
    simp only [fileInfoStoreSize, filesAt] at high
    rw [ofBytes_load _ (by omega)]
    exact entry j low (by simpa using high)

theorem registration_reads (type : m.header.msgType = fileInfo) {infos : List FileInfoStore}
    {table : FileInformationTable}
    (accepts : Accepts node m.clientAddr (receiveBuffer m.received) m.received.length m.unwritten infos table
      (requestPacket m.unwritten.fileInfoPkt m.received)) :
    m.listed = infos.length ∧ ∀ k (inside : k < infos.length), recordOf node m k = .ok infos[k] := by
  constructor
  · rw [Delivery.listed, if_neg (Nat.not_lt.mpr accepts.whole), if_pos type, accepts.count]
  · intro k inside
    have read := accepts.copies.reads k inside
    rw [Nat.zero_add] at read
    rw [recordOf, if_pos type]
    exact read

theorem share_other (type : m.header.msgType = fileInfoShare) : ¬ m.header.msgType = fileInfo := by
  rw [type]
  decide

theorem share_reads (type : m.header.msgType = fileInfoShare) {infos : List FileInfoStore}
    {before after : FileInformationTable}
    (copies : Copies (readFileInfo (requestPacket m.unwritten.fileInfoSharePkt m.received)) 0 infos before after)
    {k : Nat} (inside : k < infos.length) : recordOf node m k = .ok infos[k] := by
  have read := copies.reads k inside
  rw [Nat.zero_add] at read
  rw [recordOf, if_neg (share_other type), read]

theorem acknowledges_iff (ran : m.handle node = .ok h) (sent : reply ∈ h.replies) (answered : Answered m reply)
    (k : Nat) (info : FileInfoStore) :
    Acknowledges node m reply k info ↔ k < m.listed ∧ recordOf node m k = .ok info := by
  cases answered with
  | registration type success =>
    obtain ⟨infos, table, accepts, rfl⟩ := registration_accepts type ran sent success
    obtain rfl := List.mem_singleton.mp sent
    obtain ⟨listed, reads⟩ := registration_reads type accepts
    have fit : ∀ info ∈ infos, info.Fits := by
      intro info member
      obtain ⟨j, bound, rfl⟩ := List.getElem_of_mem member
      exact readFileInformation_fits (accepts.copies.reads j bound)
    have lists := recvSuccessPacket_lists fit m.unwritten.fileInfoRecvSuccessPkt node.id
    have count : (load32 (ofBytes (recvSuccessPacket m.unwritten.fileInfoRecvSuccessPkt node.id infos)) fileNumAt).toNat =
        infos.length := by
      rw [lists.fileNum, List.length_map, ← (outgoing_lengths accepts.count accepts.copies.count).1, accepts.count]
    rw [listed]
    constructor
    · intro acknowledges
      cases acknowledges with
      | registration _ counted _ record => exact ⟨count ▸ counted, record⟩
      | share other => exact absurd (type.symm.trans other) (by decide)
    · intro ⟨inside, record⟩
      refine .registration type (count.symm ▸ inside) ?_ record
      obtain rfl : infos[k] = info := Except.ok.inj ((reads k inside).symm.trans record)
      have named := lists.name k (by simpa using inside)
      rwa [List.getElem_map] at named
  | share type success =>
    have other := share_other type
    rcases share_cases type ran sent with ⟨short, rfl⟩ | ⟨whole, infos, count, copies, rfl⟩
    · rw [Delivery.listed, if_pos short]
      constructor
      · intro acknowledges
        cases acknowledges with
        | registration same => exact absurd same other
        | share _ _ inside =>
          simp only [filesAt, headerLen, length_load] at inside
          omega
      · intro ⟨inside, _⟩
        omega
    · have read (inside : filesAt + fileInfoStoreSize * (k + 1) ≤
          (load32 (requestPacket m.unwritten.fileInfoSharePkt m.received) 0).toNat) :=
        shareSuccess_read node m copies.fits_share inside
      rw [Delivery.listed, if_neg whole, if_neg other, lt_min_iff, ← count]
      constructor
      · intro acknowledges
        cases acknowledges with
        | registration same => exact absurd same other
        | share _ counted inside record =>
          rw [length_load] at inside
          obtain ⟨num, entry⟩ := read inside
          rw [num, ← count] at counted
          refine ⟨⟨counted, ?_⟩, ?_⟩
          · simp only [filesAt, fileInfoStoreSize] at inside ⊢
            omega
          · rw [share_reads type copies counted, ← entry counted, record]
      · intro ⟨⟨counted, covered⟩, record⟩
        have inside : filesAt + fileInfoStoreSize * (k + 1) ≤
            (load32 (requestPacket m.unwritten.fileInfoSharePkt m.received) 0).toNat := by
          simp only [filesAt, fileInfoStoreSize] at covered ⊢
          omega
        obtain ⟨num, entry⟩ := read inside
        refine .share type (by rwa [num, ← count]) (by rwa [length_load]) ?_
        rw [entry counted, ← share_reads type copies counted, record]

theorem mem_take_iff {infos : List FileInfoStore} {k r : Nat} (inside : k < infos.length) :
    infos[k] ∈ infos.take r ↔ ∃ j, ∃ before : j ≤ k, infos[j] = infos[k] ∧ j < r := by
  rw [List.mem_take_iff_getElem]
  constructor
  · intro ⟨j, bound, same⟩
    by_cases before : j ≤ k
    · exact ⟨j, before, same, by omega⟩
    · exact ⟨k, le_rfl, rfl, by omega⟩
  · intro ⟨j, before, same, early⟩
    exact ⟨j, by omega, same⟩

theorem handled_records (ran : m.handle node = .ok h) (sent : reply ∈ h.replies) (answered : Answered m reply) :
    m.listed = 0 ∨ ∃ infos : List FileInfoStore, m.listed ≤ infos.length ∧
      (∀ k (inside : k < infos.length), recordOf node m k = .ok infos[k]) ∧
      insertAll node.fileInfoTable infos = .ok h.node.fileInfoTable := by
  cases answered with
  | registration type success =>
    obtain ⟨infos, table, accepts, rfl⟩ := registration_accepts type ran sent success
    obtain ⟨listed, reads⟩ := registration_reads type accepts
    exact .inr ⟨infos, listed.le, reads, accepts.copies.stored⟩
  | share type success =>
    rcases share_cases type ran sent with ⟨short, -⟩ | ⟨whole, infos, count, copies, -⟩
    · exact .inl (if_pos short)
    · refine .inr ⟨infos, ?_, fun k inside => share_reads type copies inside, copies.stored⟩
      rw [Delivery.listed, if_neg whole, if_neg (share_other type), count]
      exact Nat.min_le_left _ _

theorem acknowledged_has_iff {entries : List FileInfoStore} (stores : Stores entries node.fileInfoTable)
    (ran : m.handle node = .ok h) (sent : reply ∈ h.replies) (answered : Answered m reply) :
    (∀ k info, Acknowledges node m reply k info → h.node.fileInfoTable.Has info) ↔ FindsRoom node m := by
  simp only [acknowledges_iff ran sent answered, FindsRoom, and_imp]
  refine forall_congr' fun k => ?_
  rcases handled_records ran sent answered with nothing | ⟨infos, count, reads, inserted⟩
  · simp [nothing]
  have has (info : FileInfoStore) := insertAll_has stores inserted info
  constructor
  · intro all listed info record
    have inside : k < infos.length := Nat.lt_of_lt_of_le listed count
    refine ((has info).mp (all info listed record)).imp_right fun taken => ?_
    obtain rfl : infos[k] = info := Except.ok.inj ((reads k inside).symm.trans record)
    obtain ⟨j, before, same, early⟩ := (mem_take_iff inside).mp taken
    exact ⟨j, before, by rw [reads j (by omega), same], by omega⟩
  · intro finds info listed record
    have inside : k < infos.length := Nat.lt_of_lt_of_le listed count
    refine (has info).mpr ((finds listed info record).imp_right fun ⟨j, before, same, early⟩ => ?_)
    obtain rfl : infos[k] = info := Except.ok.inj ((reads k inside).symm.trans record)
    rw [reads j (by omega)] at same
    exact (mem_take_iff inside).mpr ⟨j, before, Except.ok.inj same, by omega⟩

theorem acknowledged_stored_iff (reached : superNode.Reachable node) (ran : m.handle node = .ok h)
    (sent : reply ∈ h.replies) (answered : Answered m reply) :
    (∀ k info, Acknowledges node m reply k info → h.node.fileInfoTable.Has info) ↔ FindsRoom node m := by
  obtain ⟨entries, stores⟩ := table_stores reached
  exact acknowledged_has_iff stores ran sent answered

end Listed

def hello (childId portNum : UInt32) : Delivery :=
  { clientAddr := ⟨10, 0, 0, 1⟩, received := readRecvBuff (helloFromChildPacket childId portNum), unwritten := zeroed }

def registration (childId : UInt32) (files : List FileInformation) : Delivery :=
  { clientAddr := ⟨10, 0, 0, 1⟩, received := readRecvBuff (fileInfoPacket (fun _ => 0) childId files), unwritten := zeroed }

theorem hello_handle (childId portNum : UInt32) (node : SuperNode) : (hello childId portNum).handle node =
    handleClientRequest node ⟨10, 0, 0, 1⟩ (readRecvBuff (helloFromChildPacket childId portNum)) zeroed := rfl

theorem registration_handle (childId : UInt32) (files : List FileInformation) (node : SuperNode) :
    (registration childId files).handle node = handleClientRequest node ⟨10, 0, 0, 1⟩
      (readRecvBuff (fileInfoPacket (fun _ => 0) childId files)) zeroed := rfl

section Registration

variable (childId : UInt32) {files : List FileInformation}

theorem registration_type (fit : ∀ file ∈ files, file.Fits) : (registration childId files).header.msgType = fileInfo := by
  have header := fileInfoPacket_header (fun _ => 0) childId fit
  rw [Delivery.header, registration, header]
  rfl

theorem registration_answered (fit : ∀ file ∈ files, file.Fits) {infos : List FileInfoStore}
    (infosFit : ∀ info ∈ infos, info.Fits) (id : UInt32) :
    Answered (registration childId files) (recvSuccessPacket zeroed.fileInfoRecvSuccessPkt id infos) := by
  have lists := recvSuccessPacket_lists infosFit zeroed.fileInfoRecvSuccessPkt id
  exact .registration (registration_type childId fit) (by rw [lists.header]; rfl)

theorem registration_listed (fit : ∀ file ∈ files, file.Fits) (few : files.length ≤ 10) :
    (registration childId files).listed = files.length := by
  have header := fileInfoPacket_header (fun _ => 0) childId fit
  have read := fileInfoPacket_copied (fun _ => 0) childId fit few zeroed.fileInfoPkt
  have total : (entriesHeader fileInformationSize childId fileInfo files.length).totalLen.toNat =
      headerLen + 4 + files.length * fileInformationSize :=
    fileInfoPacket_totalLen childId (by simp only [maxFiles]; omega)
  have whole : ¬ (registration childId files).header.totalLen.toNat > (registration childId files).received.length := by
    rw [Delivery.header, registration, header, total, readRecvBuff_length, fileInfoPacket, length_load]
    simp only [headerLen, fileInformationSize, recvBuffSize]
    omega
  have counted : load32 (requestPacket zeroed.fileInfoPkt (registration childId files).received) fileNumAt =
      UInt32.ofNat files.length := by
    rw [requestPacket, registration, header, total]
    exact read.fileNum
  have unwritten : (registration childId files).unwritten = zeroed := rfl
  rw [Delivery.listed, if_neg whole, if_pos (registration_type childId fit), unwritten, counted]
  exact UInt32.toNat_ofNat_of_lt' (by simp only [UInt32.size]; omega)

theorem registration_record (fit : ∀ file ∈ files, file.Fits) (few : files.length ≤ 10) (node : SuperNode) {k : Nat}
    (inside : k < files.length) :
    recordOf node (registration childId files) k =
      .ok (record ⟨10, 0, 0, 1⟩ (findChildPort node.childPorts childId) files[k]) := by
  have header := fileInfoPacket_header (fun _ => 0) childId fit
  have read := fileInfoPacket_copied (fun _ => 0) childId fit few zeroed.fileInfoPkt
  have total : (entriesHeader fileInformationSize childId fileInfo files.length).totalLen.toNat =
      headerLen + 4 + files.length * fileInformationSize :=
    fileInfoPacket_totalLen childId (by simp only [maxFiles]; omega)
  obtain ⟨before, same⟩ := read.entry k inside
  rw [recordOf, if_pos (registration_type childId fit), requestPacket, Delivery.header, registration, header, total]
  exact readFileInformation_ok (fit files[k] (List.getElem_mem inside)) same _ _

end Registration

theorem oneChild_reachable : superNode.Reachable oneChild := by
  have started : superNode.Reachable (startUp 3 fun _ => 0) := .initial _ ⟨3, fun _ => 0, [], 0, rfl⟩
  have handled := hello_handled (startUp 3 fun _ => 0) ⟨10, 0, 0, 1⟩ 7 9000 zeroed
  have stored : storeChild (startUp 3 fun _ => 0).childPorts ⟨7, 9000⟩ = oneChild.childPorts := rfl
  rw [stored, ← hello_handle] at handled
  exact .next _ (hello 7 9000) _ started trivial (superNode_handles (readRecvBuff_short _) handled)

theorem one_file_acknowledged : ∃ h reply, (registration 7 [⟨[97], 5⟩]).handle oneChild = .ok h ∧ reply ∈ h.replies ∧
    ∀ k info, Acknowledges oneChild (registration 7 [⟨[97], 5⟩]) reply k info → h.node.fileInfoTable.Has info := by
  have regular : ∀ file ∈ [(⟨[97], 5⟩ : FileInformation)], RegularFile file := by decide
  have sound := fun file listed => (regular file listed).sound
  obtain ⟨table, -, ran⟩ := fileInfo_registers (fun _ => 0) 7 sound (by decide) oneChild ⟨10, 0, 0, 1⟩ zeroed
    (by decide) initFileInfoTable_stores (by decide)
  have answered := registration_answered 7 (fits_sound sound)
    (records_fit ⟨10, 0, 0, 1⟩ (findChildPort oneChild.childPorts 7) (fits_sound sound)) oneChild.id
  have room : FindsRoom oneChild (registration 7 [⟨[97], 5⟩]) := by
    intro k listed info made
    rw [registration_listed 7 (fits_sound sound) (by decide)] at listed
    have empty : oneChild.fileInfoTable.len = 0 := rfl
    refine .inr ⟨k, le_rfl, made, ?_⟩
    simp only [List.length_singleton] at listed
    rw [empty]
    simp only [hashTableSize]
    omega
  rw [← registration_handle] at ran
  exact ⟨_, _, ran, List.mem_singleton.mpr rfl,
    (acknowledged_stored_iff oneChild_reachable ran (List.mem_singleton.mpr rfl) answered).mpr room⟩

theorem table_fills_up {n : Nat} (bound : n ≤ hashTableSize) :
    ∃ node, superNode.Reachable node ∧ node.childPorts = oneChild.childPorts ∧
      Stores (List.replicate n (record ⟨10, 0, 0, 1⟩ 9000 ⟨[97], 5⟩)) node.fileInfoTable := by
  induction n with
  | zero => exact ⟨oneChild, oneChild_reachable, rfl, initFileInfoTable_stores⟩
  | succ n ih =>
    obtain ⟨node, reached, ports, stores⟩ := ih (by omega)
    have regular : ∀ file ∈ [(⟨[97], 5⟩ : FileInformation)], RegularFile file := by decide
    have announced : findChildPort node.childPorts 7 = 9000 := by
      rw [ports]
      decide
    obtain ⟨table, stored, ran⟩ := fileInfo_registers (fun _ => 0) 7 (fun file listed => (regular file listed).sound)
      (by decide) node ⟨10, 0, 0, 1⟩ zeroed (by rw [announced]; decide) stores (by simpa using bound)
    rw [← registration_handle] at ran
    refine ⟨_, .next node (registration 7 [⟨[97], 5⟩]) _ reached trivial
      (superNode_handles (readRecvBuff_short _) ran), ports, ?_⟩
    rw [announced] at stored
    rw [List.replicate_succ']
    exact stored

-- The thousand and first file is acknowledged, and it is not in the table.
theorem full_table_acknowledges :
    ¬ ∀ node, superNode.Reachable node → ∀ (m : Delivery) (h : Handled), m.handle node = .ok h →
      ∀ reply ∈ h.replies, Answered m reply → ∀ k info, Acknowledges node m reply k info →
        h.node.fileInfoTable.Has info := by
  intro claimed
  obtain ⟨node, reached, ports, stores⟩ := table_fills_up (le_refl hashTableSize)
  have regular : ∀ file ∈ [(⟨[98], 5⟩ : FileInformation)], RegularFile file := by decide
  have sound := fun file listed => (regular file listed).sound
  have announced : findChildPort node.childPorts 7 = 9000 := by
    rw [ports]
    decide
  have known : findChildPort node.childPorts 7 ≠ 0 := by
    rw [announced]
    decide
  obtain ⟨table, inserted, -⟩ := insertAll_first stores (records_hash sound ⟨10, 0, 0, 1⟩ (findChildPort node.childPorts 7))
  have ran := fileInfo_accepts (fun _ => 0) 7 (fits_sound sound) (by decide) node ⟨10, 0, 0, 1⟩ zeroed known inserted
  rw [← registration_handle] at ran
  have answered := registration_answered 7 (fits_sound sound)
    (records_fit ⟨10, 0, 0, 1⟩ (findChildPort node.childPorts 7) (fits_sound sound)) node.id
  have room := (acknowledged_has_iff stores ran (List.mem_singleton.mpr rfl)
    answered).mp (claimed node reached _ _ ran _ (List.mem_singleton.mpr rfl) answered)
  have few : ([⟨[98], 5⟩] : List FileInformation).length ≤ 10 := by decide
  have made := registration_record 7 (fits_sound sound) few node (Nat.zero_lt_one)
  rcases room 0 (by rw [registration_listed 7 (fits_sound sound) few]; decide) _ made with ⟨cell, there⟩ | ⟨j, -, -, left⟩
  · have stored := (stores.built.mem_iff _).mpr ⟨cell, there⟩
    have name : ([98] : List UInt8) = [97] := congrArg FileInfoStore.fileName (List.eq_of_mem_replicate stored)
    exact absurd name (by decide)
  · rw [stores.len, List.length_replicate] at left
    omega

end NetProg.P4
