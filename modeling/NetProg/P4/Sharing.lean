import NetProg.P4.Registration
import NetProg.Shared.Transition

set_option autoImplicit false

namespace NetProg.P4

open Memory Probing Transition

theorem field_ok {pkt : Block} {start size : Nat} {s : List UInt8} (read : field pkt start size = .ok s) :
    s.length < size ∧ ∀ c ∈ s, c ≠ 0 := by
  simp only [field] at read
  split at read
  next found =>
    obtain rfl := Except.ok.inj read
    simpa using cstring_some found
  next => cases read

theorem readFileInformation_fits {pkt : Block} {clientAddr : InAddr} {portNum : UInt32} {i : Nat}
    {info : FileInfoStore}
    (read : readFileInformation pkt clientAddr portNum i = .ok info) : info.Fits := by
  simp only [readFileInformation, bind, Except.bind] at read
  split at read
  next => cases read
  next name found =>
    obtain rfl := Except.ok.inj read
    obtain ⟨short, text⟩ := field_ok found
    have ip := inetNtoa_length clientAddr
    exact ⟨short, text, by simp only []; omega, inetNtoa_nonzero clientAddr⟩

section Share

variable (unwritten : Block) (id : UInt32) {infos : List FileInfoStore}

theorem sharePacket_header (fit : ∀ info ∈ infos, info.Fits) :
    loadHeader (receiveBuffer (readRecvBuff (sharePacket unwritten id infos))) =
      entriesHeader fileInfoStoreSize id fileInfoShare infos.length := by
  refine (entriesPacket_front (fun info member => storeFileInfo_confined (fit info member))
    unwritten id fileInfoShare fun j below => ?_).1
  simp only [filesAt] at below
  exact receiveBuffer_load _ (by simp only [headerLen]; omega) (by simp only [recvBuffSize]; omega)

theorem sharePacket_totalLen (count : infos.length ≤ maxFiles) :
    (entriesHeader fileInfoStoreSize id fileInfoShare infos.length).totalLen.toNat =
      headerLen + 4 + infos.length * fileInfoStoreSize := by
  simp only [maxFiles] at count
  refine UInt32.toNat_ofNat_of_lt' ?_
  simp only [headerLen, fileInfoStoreSize, UInt32.size]
  omega

theorem share_refused (fit : ∀ info ∈ infos, info.Fits) (count : infos.length ≤ maxFiles) (many : 8 < infos.length)
    (node : SuperNode) (clientAddr : InAddr) (own : Unwritten) :
    handleClientRequest node clientAddr (readRecvBuff (sharePacket unwritten id infos)) own =
      .ok (.reply node (load own.stack 0 headerLen)) := by
  have header := sharePacket_header unwritten id fit
  have cut := readRecvBuff_short (sharePacket unwritten id infos)
  rw [handleClientRequest_share (by rw [header]; rfl), handleFileInfoShare, header, sharePacket_totalLen id count,
    if_pos]
  simp only [headerLen, fileInfoStoreSize, recvBuffSize] at cut ⊢
  omega

theorem readFileInfo_ok {pkt before : Block} {k : Nat} {info : FileInfoStore} (fits : info.Fits)
    (same : SameEntry pkt (storeFileInfo before (filesAt + fileInfoStoreSize * k) info)
      (filesAt + fileInfoStoreSize * k) fileInfoStoreSize) : readFileInfo pkt k = .ok info := by
  obtain ⟨name, size, ip, port⟩ := fileInfo_read fits same
  simp [readFileInfo, field, name, size, ip, port, bind, Except.bind]

theorem share_accepted (fit : ∀ info ∈ infos, info.Fits) (few : infos.length ≤ 8) {node : SuperNode}
    (clientAddr : InAddr) (own : Unwritten) {table : FileInformationTable}
    (inserted : insertAll node.fileInfoTable infos = .ok table) :
    ∃ reply, handleClientRequest node clientAddr (readRecvBuff (sharePacket unwritten id infos)) own =
      .ok (.reply { node with fileInfoTable := table } reply) := by
  have header := sharePacket_header unwritten id fit
  have total : (entriesHeader fileInfoStoreSize id fileInfoShare infos.length).totalLen.toNat =
      headerLen + 4 + infos.length * fileInfoStoreSize := sharePacket_totalLen id (by simp only [maxFiles]; omega)
  have fits : headerLen + 4 + infos.length * fileInfoStoreSize ≤ recvBuffSize := by
    simp only [headerLen, fileInfoStoreSize, recvBuffSize]
    omega
  let recvBuff := receiveBuffer (readRecvBuff (sharePacket unwritten id infos))
  let pkt := store own.fileInfoSharePkt 0 (load recvBuff 0 (headerLen + 4 + infos.length * fileInfoStoreSize))
  have read : EntriesRead fileInfoStoreSize storeFileInfo id fileInfoShare infos pkt := by
    refine entriesPacket_read (fun info member => storeFileInfo_confined (fit info member))
      unwritten id fileInfoShare fun j inside => ?_
    have here : pkt j = recvBuff j := store_load _ recvBuff (Nat.zero_le j) (by simpa using inside)
    exact here.trans (receiveBuffer_load _ inside (by omega))
  have copied : copyPacket own.fileInfoSharePkt recvBuff (headerLen + 4 + infos.length * fileInfoStoreSize) 12416 =
      .ok pkt := by
    rw [copyPacket, if_pos ⟨fits, by simp only [recvBuffSize] at fits; omega⟩]
  have fileNum : (load32 pkt fileNumAt).toNat = infos.length := by
    rw [read.fileNum, UInt32.toNat_ofNat_of_lt' (by simp only [UInt32.size]; omega)]
  have copies : Copies (readFileInfo pkt) 0 infos node.fileInfoTable table := by
    refine ⟨.inr (by simp only [maxFiles]; omega), fun k inside => ?_, inserted⟩
    obtain ⟨before, same⟩ := read.entry k inside
    rw [Nat.zero_add]
    exact readFileInfo_ok (fit infos[k] (List.getElem_mem inside)) same
  have whole : (readRecvBuff (sharePacket unwritten id infos)).length =
      headerLen + 4 + infos.length * fileInfoStoreSize := by
    rw [readRecvBuff_length, sharePacket, length_load]
    omega
  let success := storeCount own.fileInfoShareSuccessPkt
    { totalLen := load32 pkt 0, id := node.id, msgType := fileInfoShareSuccess } (load32 pkt fileNumAt)
  let out := putAll putFileInfo { share := pkt, reply := success } 0 infos
  refine ⟨load out.reply 0 (load32 pkt 0).toNat, ?_⟩
  rw [handleClientRequest_share (by rw [header]; rfl), handleFileInfoShare, header, total, whole,
    if_neg (Nat.lt_irrefl _)]
  simp only [bind, Except.bind, show receiveBuffer (readRecvBuff (sharePacket unwritten id infos)) = recvBuff from rfl,
    copied, fileNum, copyFiles_ok putFileInfo copies]
  rfl

end Share

def fileNumOf (received : List UInt8) (unwritten : Unwritten) : Nat :=
  let recvBuff := receiveBuffer received
  (load32 (store unwritten.fileInfoPkt 0 (load recvBuff 0 (loadHeader recvBuff).totalLen.toNat)) fileNumAt).toNat

theorem fileNumOf_fileInfoPacket {files : List FileInformation} (sound : ∀ file ∈ files, SoundName file.fileName)
    (few : files.length ≤ 10) (childUnwritten : Block) (childId : UInt32) (unwritten : Unwritten) :
    fileNumOf (readRecvBuff (fileInfoPacket childUnwritten childId files)) unwritten = files.length := by
  have read := fileInfoPacket_copied childUnwritten childId (fits_sound sound) few unwritten.fileInfoPkt
  have total : (entriesHeader fileInformationSize childId fileInfo files.length).totalLen.toNat =
      headerLen + 4 + files.length * fileInformationSize :=
    fileInfoPacket_totalLen childId (by simp only [maxFiles]; omega)
  simp only [fileNumOf, fileInfoPacket_header childUnwritten childId (fits_sound sound), total, read.fileNum]
  exact UInt32.toNat_ofNat_of_lt' (by simp only [UInt32.size]; omega)

section Registration

variable {node : SuperNode} {clientAddr : InAddr} {received : List UInt8} {unwritten : Unwritten} {h : Handled}
  {packet : List UInt8}

theorem handleClientRequest_shared
    (ran : handleClientRequest node clientAddr received unwritten = .ok h) (shared : h.share = some packet) :
    handleFileInfo node clientAddr (receiveBuffer received) received.length unwritten = .ok h := by
  rcases handleClientRequest_cases ran with handled | ⟨-, quiet⟩ | ⟨-, quiet⟩
  · exact handled
  · simp [quiet] at shared
  · simp [quiet] at shared

theorem accepted_records {entries : List FileInfoStore} (stores : Stores entries node.fileInfoTable)
    (ran : handleClientRequest node clientAddr received unwritten = .ok h) (shared : h.share = some packet)
    (room : entries.length + fileNumOf received unwritten ≤ hashTableSize) :
    ∃ infos : List FileInfoStore, infos.length = fileNumOf received unwritten ∧ infos.length ≤ maxFiles ∧
      (∀ info ∈ infos, info.Fits) ∧ (∀ info ∈ infos, 0 ≤ hashFunction info.fileName) ∧
      Stores (entries ++ infos) h.node.fileInfoTable ∧
      packet = sharePacket unwritten.fileInfoSharePkt node.id infos := by
  have handled := handleClientRequest_shared ran shared
  obtain ⟨infos, table, fileInfoPkt, accepts⟩ := handleFileInfo_shared handled shared
  obtain rfl := Except.ok.inj (handled.symm.trans (handleFileInfo_accepts accepts))
  have copied := accepts.copied
  simp only [copyPacket] at copied
  split_ifs at copied with inside
  obtain rfl := Except.ok.inj copied
  have count : infos.length = fileNumOf received unwritten := accepts.count
  rw [← count] at room
  have hashes := insertAll_hashes stores room accepts.copies.stored
  obtain ⟨table', inserted, stored⟩ := insertAll_stores stores hashes room
  obtain rfl := Except.ok.inj (accepts.copies.stored.symm.trans inserted)
  refine ⟨infos, count, accepts.copies.count, fun info member => ?_, hashes, stored, (Option.some.inj shared).symm⟩
  obtain ⟨k, bound, rfl⟩ := List.getElem_of_mem member
  exact readFileInformation_fits (accepts.copies.reads k bound)

theorem handleClientRequest_quiet
    (ran : handleClientRequest node clientAddr received unwritten = .ok h) (quiet : h.share = none)
    (other : (loadHeader (receiveBuffer received)).msgType ≠ fileInfoShare) :
    h.node.fileInfoTable = node.fileInfoTable := by
  rcases handleClientRequest_cases ran with handled | ⟨share, -⟩ | ⟨same, -⟩
  · rw [handleFileInfo_quiet handled quiet]
  · exact absurd share other
  · exact same

end Registration

theorem shared_registration {a b : SuperNode} {entriesA entriesB : List FileInfoStore}
    (storesA : Stores entriesA a.fileInfoTable) (storesB : Stores entriesB b.fileInfoTable) {clientAddr : InAddr}
    {received : List UInt8} {unwritten : Unwritten} {h : Handled} {packet : List UInt8}
    (ran : handleClientRequest a clientAddr received unwritten = .ok h) (shared : h.share = some packet)
    (roomA : entriesA.length + fileNumOf received unwritten ≤ hashTableSize)
    (roomB : entriesB.length + fileNumOf received unwritten ≤ hashTableSize) (superAddr : InAddr) (own : Unwritten) :
    ∃ infos : List FileInfoStore, Stores (entriesA ++ infos) h.node.fileInfoTable ∧
      ∃ h', handleClientRequest b superAddr (readRecvBuff packet) own = .ok h' ∧
        (fileNumOf received unwritten ≤ 8 → Stores (entriesB ++ infos) h'.node.fileInfoTable) ∧
        (8 < fileNumOf received unwritten → h'.node = b) := by
  obtain ⟨infos, count, few, fit, hashes, stored, rfl⟩ := accepted_records storesA ran shared roomA
  rw [← count] at roomB ⊢
  refine ⟨infos, stored, ?_⟩
  by_cases short : infos.length ≤ 8
  · obtain ⟨table, inserted, storedB⟩ := insertAll_stores storesB hashes roomB
    obtain ⟨reply, handled⟩ := share_accepted unwritten.fileInfoSharePkt a.id fit short superAddr own inserted
    exact ⟨_, handled, fun _ => storedB, fun long => by omega⟩
  · exact ⟨_, share_refused unwritten.fileInfoSharePkt a.id fit few (by omega) b superAddr own,
      fun small => absurd small short, fun _ => rfl⟩

inductive Side where
  | first
  | second
deriving DecidableEq, Repr

def Side.other : Side → Side
  | .first => .second
  | .second => .first

abbrev Pair := Side → SuperNode

structure Arrival where
  -- A message that arrives at one node, and what the other needs to handle its share packet.
  host : Side
  clientAddr : InAddr
  received : List UInt8
  unwritten : Unwritten
  superAddr : InAddr
  own : Unwritten

def exchange (nodes : Pair) (m : Arrival) : Option Pair :=
  match handleClientRequest (nodes m.host) m.clientAddr m.received m.unwritten with
  | .error _ => none
  | .ok h =>
    let nodes := Function.update nodes m.host h.node
    match h.share with
    | none => some nodes
    | some packet => match handleClientRequest (nodes m.host.other) m.superAddr (readRecvBuff packet) m.own with
      | .error _ => none
      | .ok h' => some (Function.update nodes m.host.other h'.node)

def pair : System Pair Arrival where
  init nodes := ∀ side, (nodes side).fileInfoTable = initFileInfoTable
  step := exchange

-- The message comes from a child, and an accepted list has at most eight files and finds room in both tables.
def Shareable (nodes : Pair) (m : Arrival) (_ : Pair) : Prop :=
  (loadHeader (receiveBuffer m.received)).msgType ≠ fileInfoShare ∧
    ∀ h, handleClientRequest (nodes m.host) m.clientAddr m.received m.unwritten = .ok h → h.share ≠ none →
      fileNumOf m.received m.unwritten ≤ 8 ∧
        ∀ side, (nodes side).fileInfoTable.len + fileNumOf m.received m.unwritten ≤ hashTableSize

structure Replicated (nodes : Pair) (entries : Side → List FileInfoStore) : Prop where
  stores : ∀ side, Stores (entries side) (nodes side).fileInfoTable
  same : (entries .first : Multiset FileInfoStore) = entries .second

theorem Side.other_ne (side : Side) : side.other ≠ side := by cases side <;> simp [Side.other]

theorem Side.eq_or_other (side host : Side) : side = host ∨ side = host.other := by
  cases side <;> cases host <;> simp [Side.other]

theorem exchange_replicated {nodes nodes' : Pair} {m : Arrival} {entries : Side → List FileInfoStore}
    (replicated : Replicated nodes entries) (shareable : Shareable nodes m nodes')
    (stepped : exchange nodes m = some nodes') : ∃ entries', Replicated nodes' entries' := by
  obtain ⟨child, accepts⟩ := shareable
  simp only [exchange] at stepped
  cases ran : handleClientRequest (nodes m.host) m.clientAddr m.received m.unwritten with
  | error stuck => simp [ran] at stepped
  | ok h =>
    simp only [ran] at stepped
    cases shared : h.share with
    | none =>
      simp only [shared, Option.some.injEq] at stepped
      subst stepped
      refine ⟨entries, fun side => ?_, replicated.same⟩
      by_cases here : side = m.host
      · subst here
        simpa [handleClientRequest_quiet ran shared child] using replicated.stores _
      · simpa [here] using replicated.stores side
    | some packet =>
      obtain ⟨few, room⟩ := accepts h ran (by simp [shared])
      have total : ∀ side, (entries side).length + fileNumOf m.received m.unwritten ≤ hashTableSize := fun side => by
        rw [← (replicated.stores side).len]
        exact room side
      obtain ⟨infos, stored, h', handled, storedOther, -⟩ := shared_registration (replicated.stores m.host)
        (replicated.stores m.host.other) ran shared (total _) (total _) m.superAddr m.own
      simp only [shared, Function.update_of_ne (Side.other_ne m.host), handled, Option.some.injEq] at stepped
      subst stepped
      refine ⟨fun side => entries side ++ infos, fun side => ?_, ?_⟩
      · rcases Side.eq_or_other side m.host with rfl | rfl
        · simpa [(Side.other_ne m.host).symm] using stored
        · simpa using storedOther few
      · simp only [← Multiset.coe_add, replicated.same]

theorem pair_replicated {nodes : Pair} (reached : pair.ReachableWhile Shareable nodes) :
    ∃ entries, Replicated nodes entries := by
  refine reached.invariant (P := fun nodes => ∃ entries, Replicated nodes entries) (fun nodes start => ?_)
    fun nodes m nodes' _ known shareable stepped => ?_
  · exact ⟨fun _ => [], fun side => (start side) ▸ initFileInfoTable_stores, rfl⟩
  · obtain ⟨entries, replicated⟩ := known
    exact exchange_replicated replicated shareable stepped

theorem registrations_replicate {a b : SuperNode} {entriesA entriesB : List FileInfoStore}
    (storesA : Stores entriesA a.fileInfoTable) (storesB : Stores entriesB b.fileInfoTable) {clientAddr : InAddr}
    {received : List UInt8} {unwritten : Unwritten} {h : Handled} {packet : List UInt8}
    (ran : handleClientRequest a clientAddr received unwritten = .ok h) (shared : h.share = some packet)
    (roomA : entriesA.length + fileNumOf received unwritten ≤ hashTableSize)
    (roomB : entriesB.length + fileNumOf received unwritten ≤ hashTableSize) (superAddr : InAddr) (own : Unwritten)
    {nodes : Pair} (reached : pair.ReachableWhile Shareable nodes) :
    (∃ h', handleClientRequest b superAddr (readRecvBuff packet) own = .ok h' ∧
      ∀ infos : Multiset FileInfoStore,
        contents h.node.fileInfoTable.fileInfoList = contents a.fileInfoTable.fileInfoList + infos →
        ((∀ info ∈ infos, info ∈ contents h'.node.fileInfoTable.fileInfoList) ↔
          fileNumOf received unwritten ≤ 8 ∨ ∀ info ∈ infos, info ∈ contents b.fileInfoTable.fileInfoList)) ∧
      contents (nodes .first).fileInfoTable.fileInfoList = contents (nodes .second).fileInfoTable.fileInfoList := by
  constructor
  · obtain ⟨infos, stored, h', handled, small, large⟩ := shared_registration storesA storesB ran shared roomA roomB
      superAddr own
    refine ⟨h', handled, fun added grown => ?_⟩
    rw [stored.built.contents_eq, storesA.built.contents_eq, ← Multiset.coe_add, Multiset.add_right_inj] at grown
    subst grown
    by_cases few : fileNumOf received unwritten ≤ 8
    · refine iff_of_true (fun info member => ?_) (.inl few)
      rw [(small few).built.contents_eq, ← Multiset.coe_add]
      exact Multiset.mem_add.mpr (.inr member)
    · rw [large (by omega)]
      simp [few]
  · obtain ⟨entries, replicated⟩ := pair_replicated reached
    rw [(replicated.stores .first).built.contents_eq, (replicated.stores .second).built.contents_eq, replicated.same]

theorem one_file_shared : ∃ h packet h',
    handleClientRequest oneChild ⟨10, 0, 0, 1⟩ (readRecvBuff (fileInfoPacket (fun _ => 0) 7 [⟨[97], 5⟩])) zeroed =
      .ok h ∧ h.share = some packet ∧
    handleClientRequest (startUp 4 fun _ => 0) ⟨10, 0, 0, 2⟩ (readRecvBuff packet) zeroed = .ok h' ∧
    record ⟨10, 0, 0, 1⟩ 9000 ⟨[97], 5⟩ ∈ contents h'.node.fileInfoTable.fileInfoList := by
  have regular : ∀ file ∈ [(⟨[97], 5⟩ : FileInformation)], RegularFile file := by decide
  have sound := fun file listed => (regular file listed).sound
  obtain ⟨table, stored, ran⟩ := fileInfo_registers (fun _ => 0) 7 sound (by decide) oneChild ⟨10, 0, 0, 1⟩ zeroed
    (by decide) initFileInfoTable_stores (by decide)
  have one := fileNumOf_fileInfoPacket sound (by decide) (fun _ => 0) 7 zeroed
  have started : (startUp 4 fun _ => 0).fileInfoTable = initFileInfoTable := rfl
  obtain ⟨⟨h', handled, exactly⟩, -⟩ := registrations_replicate (b := startUp 4 fun _ => 0) initFileInfoTable_stores
    (started ▸ initFileInfoTable_stores) ran rfl (by simp [one]) (by simp [one]) ⟨10, 0, 0, 2⟩ zeroed
    (.initial (fun _ => startUp 4 fun _ => 0) fun _ => rfl)
  have inserted := (accepted_registered oneChild sound initFileInfoTable_stores stored zeroed).inserted
  exact ⟨_, _, h', ran, rfl, handled, (exactly _ inserted).mpr (.inl (by simp [one])) _ (by decide)⟩

-- Nine files are accepted, and the packet that shares them is 1132 bytes long.
theorem nine_files_not_shared :
    ¬ ∀ (a b : SuperNode) (entriesA entriesB : List FileInfoStore), Stores entriesA a.fileInfoTable →
      Stores entriesB b.fileInfoTable → entriesA.length + maxFiles ≤ hashTableSize →
      entriesB.length + maxFiles ≤ hashTableSize → ∀ (clientAddr : InAddr) (received : List UInt8)
      (unwritten : Unwritten) (h : Handled) (packet : List UInt8),
      handleClientRequest a clientAddr received unwritten = .ok h → h.share = some packet →
      ∀ (superAddr : InAddr) (own : Unwritten),
      ∃ h', handleClientRequest b superAddr (readRecvBuff packet) own = .ok h' ∧
        ∀ infos : Multiset FileInfoStore,
          contents h.node.fileInfoTable.fileInfoList = contents a.fileInfoTable.fileInfoList + infos →
          ∀ info ∈ infos, info ∈ contents h'.node.fileInfoTable.fileInfoList := by
  intro claimed
  let files : List FileInformation := (List.range 9).map fun i => ⟨[UInt8.ofNat (97 + i)], 5⟩
  have regular : ∀ file ∈ files, RegularFile file := by decide
  have sound := fun file listed => (regular file listed).sound
  obtain ⟨table, stored, ran⟩ := fileInfo_registers (fun _ => 0) 7 sound (by decide) oneChild ⟨10, 0, 0, 1⟩ zeroed
    (by decide) initFileInfoTable_stores (by decide)
  obtain ⟨h', handled, shared⟩ := claimed oneChild (startUp 4 fun _ => 0) [] [] initFileInfoTable_stores
    initFileInfoTable_stores (by decide) (by decide) ⟨10, 0, 0, 1⟩ _ zeroed _ _ ran rfl ⟨10, 0, 0, 2⟩ zeroed
  rw [share_refused _ _ (records_fit _ _ (fits_sound sound)) (by decide) (by decide)] at handled
  obtain rfl := Except.ok.inj handled
  have missing := shared _ (accepted_registered oneChild sound initFileInfoTable_stores stored zeroed).inserted
    (record ⟨10, 0, 0, 1⟩ 9000 ⟨[97], 5⟩) (by decide)
  have empty : contents (startUp 4 fun _ => 0).fileInfoTable.fileInfoList = 0 :=
    initFileInfoTable_stores.built.contents_eq
  simp [Handled.reply, empty] at missing

end NetProg.P4
