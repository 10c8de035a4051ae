import NetProg.P4.PeerAddress
import NetProg.P4.Sharing

set_option autoImplicit false

namespace NetProg.P4

open Memory Transition

inductive Access where
  -- `n` bytes from an object to another one, of these sizes
  | memcpy (n source dest : Nat)
  -- `files[i]` of a request, up to byte `stop` of it; `received` of its bytes have been received
  | requestFile (i stop received : Nat)
  -- `files[i]` or `fileNames[i]` of an answer
  | answerFile (i : Nat)
  -- a string from a field of `size` bytes; `none` when there is no NUL in it
  | strcpy (source : Option (List UInt8)) (size : Nat)
deriving DecidableEq, Repr

def Access.InObject : Access → Prop
  | .memcpy n source dest => n ≤ source ∧ n ≤ dest
  | .requestFile i _ _ => i < maxFiles
  | .answerFile i => i < maxFiles
  | .strcpy source size => ∃ text ∈ source, text.length < size

def Access.InReceived : Access → Prop
  | .requestFile _ stop received => stop ≤ received
  | _ => True

def Access.InBounds (access : Access) : Prop := access.InObject ∧ access.InReceived

def copied (pkt recvBuff : Block) (n size : Nat) (next : Block → List Access) : List Access :=
  .memcpy n recvBuffSize size :: match copyPacket pkt recvBuff n size with
    | .ok pkt => next pkt
    | .error _ => []

def recordAccesses (i : Nat) (info : FileInfoStore) : List Access :=
  [.answerFile i, .strcpy (some info.fileName) fileNameLen, .strcpy (some info.ipAddr) 20]

def fileInformationAccesses (fileInfoPkt : Block) (clientAddr : InAddr) (childPort : UInt32) (received i : Nat) :
    List Access :=
  let start := filesAt + fileInformationSize * i
  [.requestFile i (start + fileInformationSize) received, .strcpy (loadString fileInfoPkt start fileNameLen) fileNameLen,
    .strcpy (some (inetNtoa clientAddr)) 16] ++
  match readFileInformation fileInfoPkt clientAddr childPort i with
  | .ok info => recordAccesses i info ++ [.strcpy (some info.fileName) fileNameLen]
  | .error _ => []

def fileInfoAccesses (fileInfoSharePkt : Block) (received i : Nat) : List Access :=
  let start := filesAt + fileInfoStoreSize * i
  [.requestFile i (start + fileInfoStoreSize) received,
    .strcpy (loadString fileInfoSharePkt start fileNameLen) fileNameLen,
    .strcpy (loadString fileInfoSharePkt (start + 100) 20) 20] ++
  match readFileInfo fileInfoSharePkt i with
  | .ok info => recordAccesses i info
  | .error _ => []

def requestAccesses (node : SuperNode) (clientAddr : InAddr) (received : List UInt8) (unwritten : Unwritten) :
    List Access :=
  let recvBuff := receiveBuffer received
  let hdr := loadHeader recvBuff
  let totalLen := hdr.totalLen.toNat
  if hdr.msgType = helloFromChild then [.memcpy 16 recvBuffSize 16]
  else if hdr.msgType = helloSuperToSuper then [.memcpy 16 recvBuffSize 16, .strcpy (some (inetNtoa clientAddr)) 16]
  else if hdr.msgType = fileInfo then
    let childPort := findChildPort node.childPorts hdr.id
    if totalLen > received.length then []
    else if childPort = 0 then []
    else
      copied unwritten.fileInfoPkt recvBuff totalLen 10016 (fun fileInfoPkt =>
        (List.range (load32 fileInfoPkt fileNumAt).toNat).flatMap
          (fileInformationAccesses fileInfoPkt clientAddr childPort totalLen)) ++
      -- the header of the reply from the other super node
      [.memcpy headerLen 1260 headerLen]
  else if hdr.msgType = searchQuery then
    copied unwritten.searchQueryPkt recvBuff totalLen 108 fun searchQueryPkt =>
      match field searchQueryPkt 12 fileNameLen >>= (searchFileInfo · node.fileInfoTable.fileInfoList) with
      | .ok (some info) => [.strcpy (some info.ipAddr) 20]
      | _ => []
  else if hdr.msgType = fileInfoShare then
    if totalLen > received.length then []
    else
      copied unwritten.fileInfoSharePkt recvBuff totalLen 12416 fun fileInfoSharePkt =>
        (List.range (load32 fileInfoSharePkt fileNumAt).toNat).flatMap (fileInfoAccesses fileInfoSharePkt totalLen)
  else []

def accesses (node : SuperNode) (clientAddr : InAddr) (received : List UInt8) (unwritten : Unwritten) : List Access :=
  .memcpy headerLen recvBuffSize headerLen :: requestAccesses node clientAddr received unwritten

def FilesInside (pkt : Block) (total size : Nat) (fields : List (Nat × Nat)) : Prop :=
  let fileNum := (load32 pkt fileNumAt).toNat
  fileNum = 0 ∨ filesAt + size * fileNum ≤ total ∧
    ∀ i < fileNum, ∀ place ∈ fields, 0 ∈ load pkt (filesAt + size * i + place.1) place.2

def requestPacket (unwritten : Block) (received : List UInt8) : Block :=
  let recvBuff := receiveBuffer received
  store unwritten 0 (load recvBuff 0 (loadHeader recvBuff).totalLen.toNat)

structure StaysInside (node : SuperNode) (received : List UInt8) (unwritten : Unwritten) : Prop where
  fileInfo : (loadHeader (receiveBuffer received)).msgType = fileInfo →
    (loadHeader (receiveBuffer received)).totalLen.toNat ≤ received.length →
    findChildPort node.childPorts (loadHeader (receiveBuffer received)).id ≠ 0 →
    FilesInside (requestPacket unwritten.fileInfoPkt received) (loadHeader (receiveBuffer received)).totalLen.toNat
      fileInformationSize [(0, fileNameLen)]
  searchQuery : (loadHeader (receiveBuffer received)).msgType = searchQuery →
    (loadHeader (receiveBuffer received)).totalLen.toNat ≤ 108
  fileInfoShare : (loadHeader (receiveBuffer received)).msgType = fileInfoShare →
    (loadHeader (receiveBuffer received)).totalLen.toNat ≤ received.length →
    FilesInside (requestPacket unwritten.fileInfoSharePkt received) (loadHeader (receiveBuffer received)).totalLen.toNat
      fileInfoStoreSize [(0, fileNameLen), (100, 20)]

section Entries

variable {pkt : Block} {clientAddr : InAddr} {childPort : UInt32} {total size n i : Nat}

theorem loadString_ends (pkt : Block) (start size : Nat) :
    (∃ text ∈ loadString pkt start size, text.length < size) ↔ 0 ∈ load pkt start size := by
  rw [← cstring_isSome, Option.isSome_iff_exists]
  constructor
  · intro ⟨text, found, _⟩
    exact ⟨text, found⟩
  · intro ⟨text, found⟩
    exact ⟨text, found, by simpa using (cstring_some found).1⟩

theorem fileInformationAccesses_inBounds :
    (∀ access ∈ fileInformationAccesses pkt clientAddr childPort total i, access.InBounds) ↔
      (i < maxFiles ∧ filesAt + fileInformationSize * i + fileInformationSize ≤ total) ∧
        ∀ place ∈ [(0, fileNameLen)], 0 ∈ load pkt (filesAt + fileInformationSize * i + place.1) place.2 := by
  have address : (inetNtoa clientAddr).length < 16 := Nat.lt_succ_of_le (inetNtoa_length clientAddr)
  have ends := loadString_ends pkt (filesAt + fileInformationSize * i) fileNameLen
  simp only [List.forall_mem_singleton, Nat.add_zero, ← ends]
  cases found : loadString pkt (filesAt + fileInformationSize * i) fileNameLen with
  | none => simp [fileInformationAccesses, found, Access.InBounds, Access.InObject]
  | some fileName =>
    have short : (inetNtoa clientAddr).length < 20 := address.trans (by decide)
    simp +contextual [fileInformationAccesses, found, readFileInformation, field, recordAccesses, Access.InBounds,
      Access.InObject, Access.InReceived, bind, Except.bind, address, short]

theorem fileInfoAccesses_inBounds :
    (∀ access ∈ fileInfoAccesses pkt total i, access.InBounds) ↔
      (i < maxFiles ∧ filesAt + fileInfoStoreSize * i + fileInfoStoreSize ≤ total) ∧
        ∀ place ∈ [(0, fileNameLen), (100, 20)], 0 ∈ load pkt (filesAt + fileInfoStoreSize * i + place.1) place.2 := by
  have name := loadString_ends pkt (filesAt + fileInfoStoreSize * i) fileNameLen
  have address := loadString_ends pkt (filesAt + fileInfoStoreSize * i + 100) 20
  simp only [List.forall_mem_cons, Nat.add_zero, ← name, ← address]
  cases found : loadString pkt (filesAt + fileInfoStoreSize * i) fileNameLen with
  | none => simp [fileInfoAccesses, found, Access.InBounds, Access.InObject]
  | some fileName =>
    cases found' : loadString pkt (filesAt + fileInfoStoreSize * i + 100) 20 with
    | none => simp [fileInfoAccesses, found, found', Access.InBounds, Access.InObject]
    | some ipAddr =>
      simp +contextual [fileInfoAccesses, found, found', readFileInfo, field, recordAccesses, Access.InBounds,
        Access.InObject, Access.InReceived, bind, Except.bind]

-- The buffer is too short for more than `maxFiles` entries.
theorem entries_inside (fields : List (Nat × Nat)) (few : total ≤ recvBuffSize) (large : fileInformationSize ≤ size)
    (count : n = (load32 pkt fileNumAt).toNat) :
    (∀ i < n, (i < maxFiles ∧ filesAt + size * i + size ≤ total) ∧
        ∀ place ∈ fields, 0 ∈ load pkt (filesAt + size * i + place.1) place.2) ↔
      FilesInside pkt total size fields := by
  simp only [FilesInside, ← count]
  constructor
  · intro each
    cases n with
    | zero => exact .inl rfl
    | succ last =>
      refine .inr ⟨?_, fun i inside => (each i inside).2⟩
      rw [Nat.mul_succ, ← Nat.add_assoc]
      exact (each last (Nat.lt_succ_self last)).1.2
  · intro inside i low
    rcases inside with none | ⟨all, strings⟩
    · omega
    · have entry : size * i + size ≤ size * n := by
        rw [← Nat.mul_succ]
        exact Nat.mul_le_mul_left size low
      have wide : fileInformationSize * i ≤ size * i := Nat.mul_le_mul_right i large
      simp only [recvBuffSize, filesAt, fileInformationSize, maxFiles] at *
      exact ⟨⟨by omega, by omega⟩, strings i low⟩

end Entries

def RecordsFit (table : FileInformationTable) : Prop :=
  ∀ cell stored, table.fileInfoList cell = some stored → stored.Fits

section Records

variable {node : SuperNode} {clientAddr : InAddr} {received : List UInt8} {unwritten : Unwritten} {h : Handled}

theorem RecordsFit.fills {infos : List FileInfoStore} {before after : FileInformationTable} (fit : RecordsFit before)
    (fills : Fills infos before after) (new : ∀ info ∈ infos, info.Fits) : RecordsFit after := by
  intro cell stored here
  rcases fills.new cell stored here with earlier | ⟨-, listed⟩
  · exact fit cell stored earlier
  · exact new stored listed

theorem readFileInfo_fits {pkt : Block} {i : Nat} {info : FileInfoStore} (read : readFileInfo pkt i = .ok info) :
    info.Fits := by
  simp only [readFileInfo, bind, Except.bind] at read
  split at read
  next => cases read
  next name found =>
    split at read
    next => cases read
    next ipAddr found' =>
      obtain rfl := Except.ok.inj read
      obtain ⟨short, text⟩ := field_ok found
      obtain ⟨ipShort, ipText⟩ := field_ok found'
      exact ⟨short, text, ipShort, ipText⟩

theorem Copies.fit {read : Nat → Run FileInfoStore} {infos : List FileInfoStore} {before after : FileInformationTable}
    (copies : Copies read 0 infos before after) (fits : ∀ i info, read i = .ok info → info.Fits)
    (fit : RecordsFit before) : RecordsFit after := by
  apply fit.fills (insertAll_fills copies.stored)
  intro info member
  obtain ⟨k, inside, rfl⟩ := List.getElem_of_mem member
  exact fits _ _ (copies.reads k inside)

theorem handleFileInfoShare_cases {recvBuff : Block} {bytesRead : Nat}
    (ran : handleFileInfoShare node recvBuff bytesRead unwritten = .ok h) :
    (loadHeader recvBuff).totalLen.toNat > bytesRead ∧ h.node = node ∨
      ∃ pkt infos, copyPacket unwritten.fileInfoSharePkt recvBuff (loadHeader recvBuff).totalLen.toNat 12416 = .ok pkt ∧
        infos.length = (load32 pkt fileNumAt).toNat ∧
        Copies (readFileInfo pkt) 0 infos node.fileInfoTable h.node.fileInfoTable := by
  simp only [handleFileInfoShare, bind, Except.bind] at ran
  split_ifs at ran with short
  · obtain rfl := Except.ok.inj ran
    exact .inl ⟨short, rfl⟩
  · split at ran
    next => cases ran
    next pkt copy =>
      split at ran
      next => cases ran
      next result loop =>
        obtain rfl := Except.ok.inj ran
        obtain ⟨infos, count, copies, -⟩ := copyFiles_copies loop
        exact .inr ⟨pkt, infos, copy, count, copies⟩

theorem RecordsFit.handled (fit : RecordsFit node.fileInfoTable)
    (ran : handleClientRequest node clientAddr received unwritten = .ok h) : RecordsFit h.node.fileInfoTable := by
  rcases handleClientRequest_cases ran with list | ⟨type, -⟩ | ⟨same, -⟩
  · cases shared : h.share with
    | none => rwa [handleFileInfo_quiet list shared]
    | some packet =>
      obtain ⟨infos, table, fileInfoPkt, accepts⟩ := handleFileInfo_shared list shared
      obtain rfl := Except.ok.inj (list.symm.trans (handleFileInfo_accepts accepts))
      exact accepts.copies.fit (fun _ _ read => readFileInformation_fits read) fit
  · rw [handleClientRequest_share type] at ran
    rcases handleFileInfoShare_cases ran with ⟨-, same⟩ | ⟨pkt, infos, -, -, copies⟩
    · rwa [same]
    · exact copies.fit (fun _ _ read => readFileInfo_fits read) fit
  · rwa [same]

theorem recordsFit_reachable {s : SuperLoop} (reached : superLoop.Reachable s) : RecordsFit s.node.fileInfoTable := by
  apply System.ReachableWhile.invariant _ _ reached
  · intro s starts cell stored here
    obtain ⟨id, ids, ip, port, started⟩ := starts.node
    rw [started] at here
    cases here
  · intro s e s' _ fit _ stepped
    cases SuperLoop.step_moves stepped with
    | handles received unwritten i c loop h scans socket ran => exact fit.handled ran
    | _ => exact fit

end Records

section Requests

variable {node : SuperNode} {clientAddr : InAddr} {received : List UInt8} {unwritten : Unwritten}

theorem field_loads {pkt : Block} {start size : Nat} {text : List UInt8} (read : field pkt start size = .ok text) :
    loadString pkt start size = some text := by
  simp only [field] at read
  split at read
  next loaded => rw [loaded, Except.ok.inj read]
  next => cases read

theorem fileInformationAccesses_inObject {pkt : Block} {childPort : UInt32} {i : Nat} {info : FileInfoStore}
    (read : readFileInformation pkt clientAddr childPort i = .ok info) (inside : i < maxFiles) (total : Nat) :
    ∀ access ∈ fileInformationAccesses pkt clientAddr childPort total i, access.InObject := by
  have fits := readFileInformation_fits read
  have address : (inetNtoa clientAddr).length < 16 := Nat.lt_succ_of_le (inetNtoa_length clientAddr)
  have name : loadString pkt (filesAt + fileInformationSize * i) fileNameLen = some info.fileName := by
    simp only [readFileInformation, bind, Except.bind] at read
    split at read
    next => cases read
    next fileName found =>
      obtain rfl := Except.ok.inj read
      exact field_loads found
  simp [fileInformationAccesses, read, name, recordAccesses, Access.InObject, fits.short, fits.ipShort, inside, address]

theorem fileInfoAccesses_inObject {pkt : Block} {i : Nat} {info : FileInfoStore} (read : readFileInfo pkt i = .ok info)
    (inside : i < maxFiles) (total : Nat) : ∀ access ∈ fileInfoAccesses pkt total i, access.InObject := by
  have fits := readFileInfo_fits read
  have strings : loadString pkt (filesAt + fileInfoStoreSize * i) fileNameLen = some info.fileName ∧
      loadString pkt (filesAt + fileInfoStoreSize * i + 100) 20 = some info.ipAddr := by
    simp only [readFileInfo, bind, Except.bind] at read
    split at read
    next => cases read
    next fileName found =>
      split at read
      next => cases read
      next ipAddr found' =>
        obtain rfl := Except.ok.inj read
        exact ⟨field_loads found, field_loads found'⟩
  simp [fileInfoAccesses, read, strings, recordAccesses, Access.InObject, fits.short, fits.ipShort, inside]

theorem Copies.inObject {read : Nat → Run FileInfoStore} {entry : Nat → List Access} {infos : List FileInfoStore}
    {before after : FileInformationTable} (copies : Copies read 0 infos before after)
    (each : ∀ i info, read i = .ok info → i < maxFiles → ∀ access ∈ entry i, access.InObject) :
    ∀ access ∈ (List.range infos.length).flatMap entry, access.InObject := by
  intro access member
  obtain ⟨i, inside, here⟩ := List.mem_flatMap.mp member
  have inside : i < infos.length := List.mem_range.mp inside
  have read := copies.reads i inside
  rw [Nat.zero_add] at read
  exact each i _ read (inside.trans_le copies.count) access here

theorem copied_inObject {pkt pkt' recvBuff : Block} {n size : Nat} {next : Block → List Access}
    (copy : copyPacket pkt recvBuff n size = .ok pkt') (later : ∀ access ∈ next pkt', access.InObject) :
    ∀ access ∈ copied pkt recvBuff n size next, access.InObject := by
  have fits : n ≤ recvBuffSize ∧ n ≤ size := by
    by_contra large
    simp [copyPacket, large] at copy
  simpa [copied, copy, Access.InObject, fits] using later

theorem query_stored {name : Run (List UInt8)} {fileInfoList : FileInfoList} {info : FileInfoStore}
    (found : (name >>= (searchFileInfo · fileInfoList)) = .ok (some info)) : ∃ cell, fileInfoList cell = some info := by
  cases name with
  | error => cases found
  | ok fileName =>
    simp only [searchFileInfo, bind, Except.bind] at found
    split at found
    next => cases found
    next home _ =>
      split at found
      next => cases found
      next cell _ => exact ⟨cell, Except.ok.inj found⟩

theorem copied_inBounds {pkt recvBuff : Block} {n size : Nat} {next : Block → List Access} :
    (∀ access ∈ copied pkt recvBuff n size next, access.InBounds) ↔
      (n ≤ recvBuffSize ∧ n ≤ size) ∧ ∀ access ∈ next (store pkt 0 (load recvBuff 0 n)), access.InBounds := by
  by_cases fits : n ≤ recvBuffSize ∧ n ≤ size
  · simp [copied, copyPacket, fits, Access.InBounds, Access.InObject, Access.InReceived]
  · simp only [copied, List.forall_mem_cons, Access.InBounds, Access.InObject, fits, false_and]

theorem files_inBounds {pkt : Block} {total size : Nat} {fields : List (Nat × Nat)} {entry : Nat → List Access}
    (few : total ≤ recvBuffSize) (large : fileInformationSize ≤ size)
    (each : ∀ i, (∀ access ∈ entry i, access.InBounds) ↔ (i < maxFiles ∧ filesAt + size * i + size ≤ total) ∧
      ∀ place ∈ fields, 0 ∈ load pkt (filesAt + size * i + place.1) place.2) :
    (∀ access ∈ (List.range (load32 pkt fileNumAt).toNat).flatMap entry, access.InBounds) ↔
      FilesInside pkt total size fields := by
  rw [← entries_inside fields few large rfl]
  simp only [List.mem_flatMap, List.mem_range, ← each]
  constructor
  · intro all i inside access member
    exact all access ⟨i, inside, member⟩
  · intro all access ⟨i, inside, member⟩
    exact all i inside access member

theorem fileInfo_inBounds (type : (loadHeader (receiveBuffer received)).msgType = fileInfo)
    (short : received.length ≤ recvBuffSize) :
    (∀ access ∈ requestAccesses node clientAddr received unwritten, access.InBounds) ↔
      ((loadHeader (receiveBuffer received)).totalLen.toNat ≤ received.length →
        findChildPort node.childPorts (loadHeader (receiveBuffer received)).id ≠ 0 →
        FilesInside (requestPacket unwritten.fileInfoPkt received) (loadHeader (receiveBuffer received)).totalLen.toNat
          fileInformationSize [(0, fileNameLen)]) := by
  simp only [requestAccesses, type, show fileInfo ≠ helloFromChild by decide,
    show fileInfo ≠ helloSuperToSuper by decide, if_false, if_true]
  by_cases whole : (loadHeader (receiveBuffer received)).totalLen.toNat ≤ received.length
  · by_cases known : findChildPort node.childPorts (loadHeader (receiveBuffer received)).id = 0
    · simp [known]
    · have few := whole.trans short
      rw [if_neg (Nat.not_lt.mpr whole), if_neg known, List.forall_mem_append, copied_inBounds,
        files_inBounds few le_rfl fun _ => fileInformationAccesses_inBounds]
      simp only [requestPacket, whole, known, not_false_eq_true, true_implies, ne_eq]
      have room : (loadHeader (receiveBuffer received)).totalLen.toNat ≤ 10016 := few.trans (by decide)
      simp [few, room, headerLen, Access.InBounds, Access.InObject, Access.InReceived]
  · simp [Nat.not_le.mp whole, whole]

theorem share_inBounds (type : (loadHeader (receiveBuffer received)).msgType = fileInfoShare)
    (short : received.length ≤ recvBuffSize) :
    (∀ access ∈ requestAccesses node clientAddr received unwritten, access.InBounds) ↔
      ((loadHeader (receiveBuffer received)).totalLen.toNat ≤ received.length →
        FilesInside (requestPacket unwritten.fileInfoSharePkt received)
          (loadHeader (receiveBuffer received)).totalLen.toNat fileInfoStoreSize [(0, fileNameLen), (100, 20)]) := by
  simp only [requestAccesses, type, show fileInfoShare ≠ helloFromChild by decide,
    show fileInfoShare ≠ helloSuperToSuper by decide, show fileInfoShare ≠ fileInfo by decide,
    show fileInfoShare ≠ searchQuery by decide, if_false, if_true]
  by_cases whole : (loadHeader (receiveBuffer received)).totalLen.toNat ≤ received.length
  · have few := whole.trans short
    have room : (loadHeader (receiveBuffer received)).totalLen.toNat ≤ 12416 := few.trans (by decide)
    rw [if_neg (Nat.not_lt.mpr whole), copied_inBounds,
      files_inBounds few (by decide) fun _ => fileInfoAccesses_inBounds]
    simp [requestPacket, whole, few, room]
  · simp [Nat.not_le.mp whole, whole]

theorem query_inBounds (type : (loadHeader (receiveBuffer received)).msgType = searchQuery)
    (fit : RecordsFit node.fileInfoTable) :
    (∀ access ∈ requestAccesses node clientAddr received unwritten, access.InBounds) ↔
      (loadHeader (receiveBuffer received)).totalLen.toNat ≤ 108 := by
  simp only [requestAccesses, type, show searchQuery ≠ helloFromChild by decide,
    show searchQuery ≠ helloSuperToSuper by decide, show searchQuery ≠ fileInfo by decide, if_false, if_true]
  rw [copied_inBounds]
  constructor
  · intro inside
    exact inside.1.2
  · intro few
    refine ⟨⟨few.trans (by decide), few⟩, ?_⟩
    split
    next info found =>
      obtain ⟨cell, here⟩ := query_stored found
      simpa [Access.InBounds, Access.InObject, Access.InReceived] using (fit cell info here).ipShort
    next => simp

theorem handleFileInfo_copies {recvBuff : Block} {bytesRead : Nat} {h : Handled}
    (ran : handleFileInfo node clientAddr recvBuff bytesRead unwritten = .ok h)
    (whole : ¬ (loadHeader recvBuff).totalLen.toNat > bytesRead)
    (known : ¬ findChildPort node.childPorts (loadHeader recvBuff).id = 0) :
    ∃ infos table pkt, Accepts node clientAddr recvBuff bytesRead unwritten infos table pkt := by
  cases shared : h.share with
  | some packet => exact handleFileInfo_shared ran shared
  | none =>
    simp only [handleFileInfo, if_neg whole, if_neg known, bind, Except.bind] at ran
    split at ran
    next => cases ran
    next =>
      split at ran
      next => cases ran
      next =>
        obtain rfl := Except.ok.inj ran
        cases shared

theorem requestAccesses_inObject {h : Handled} (fit : RecordsFit node.fileInfoTable)
    (ran : handleClientRequest node clientAddr received unwritten = .ok h) :
    ∀ access ∈ requestAccesses node clientAddr received unwritten, access.InObject := by
  have address : (inetNtoa clientAddr).length < 16 := Nat.lt_succ_of_le (inetNtoa_length clientAddr)
  simp only [handleClientRequest] at ran
  simp only [requestAccesses]
  split_ifs at ran ⊢ with hello superHello list short unknown query share refused
  · simp [Access.InObject, recvBuffSize]
  · simp [Access.InObject, recvBuffSize, address]
  · simp
  · simp
  · obtain ⟨infos, table, pkt, accepts⟩ := handleFileInfo_copies ran short unknown
    rw [List.forall_mem_append]
    constructor
    · apply copied_inObject accepts.copied
      rw [← accepts.count]
      exact accepts.copies.inObject fun i info read inside => fileInformationAccesses_inObject read inside _
    · simp [Access.InObject, headerLen]
  · simp only [handleSearchQuery, bind, Except.bind] at ran
    split at ran
    next => cases ran
    next pkt copy =>
      apply copied_inObject copy
      split
      next info found =>
        obtain ⟨cell, here⟩ := query_stored found
        simpa [Access.InObject] using (fit cell info here).ipShort
      next => simp
  · simp
  · rcases handleFileInfoShare_cases ran with ⟨short, -⟩ | ⟨pkt, infos, copy, count, copies⟩
    · exact absurd short refused
    · apply copied_inObject copy
      rw [← count]
      exact copies.inObject fun i info read inside => fileInfoAccesses_inObject read inside _
  · simp

theorem handled_inObject {s : SuperLoop} (reached : superLoop.Reachable s) {h : Handled}
    (ran : handleClientRequest s.node clientAddr received unwritten = .ok h) :
    ∀ access ∈ accesses s.node clientAddr received unwritten, access.InObject := by
  rw [accesses, List.forall_mem_cons]
  exact ⟨⟨by decide, le_rfl⟩, requestAccesses_inObject (recordsFit_reachable reached) ran⟩

theorem accesses_inBounds_iff {s : SuperLoop} (reached : superLoop.Reachable s) (clientAddr : InAddr)
    (short : received.length ≤ recvBuffSize) (unwritten : Unwritten) :
    (∀ access ∈ accesses s.node clientAddr received unwritten, access.InBounds) ↔
      StaysInside s.node received unwritten := by
  have header : Access.InBounds (.memcpy headerLen recvBuffSize headerLen) := ⟨⟨by decide, le_rfl⟩, trivial⟩
  simp only [accesses, List.forall_mem_cons, header, true_and]
  by_cases list : (loadHeader (receiveBuffer received)).msgType = fileInfo
  · rw [fileInfo_inBounds list short]
    constructor
    · intro inside
      exact ⟨fun _ => inside, fun query => absurd (list.symm.trans query) (by decide),
        fun share => absurd (list.symm.trans share) (by decide)⟩
    · intro stays
      exact stays.fileInfo list
  by_cases query : (loadHeader (receiveBuffer received)).msgType = searchQuery
  · rw [query_inBounds query (recordsFit_reachable reached)]
    constructor
    · intro inside
      exact ⟨fun type => absurd type list, fun _ => inside, fun share => absurd (query.symm.trans share) (by decide)⟩
    · intro stays
      exact stays.searchQuery query
  by_cases share : (loadHeader (receiveBuffer received)).msgType = fileInfoShare
  · rw [share_inBounds share short]
    constructor
    · intro inside
      exact ⟨fun type => absurd type list, fun type => absurd type query, fun _ => inside⟩
    · intro stays
      exact stays.fileInfoShare share
  · have address : (inetNtoa clientAddr).length < 16 := Nat.lt_succ_of_le (inetNtoa_length clientAddr)
    have stays : StaysInside s.node received unwritten :=
      ⟨fun type => absurd type list, fun type => absurd type query, fun type => absurd type share⟩
    simp only [stays, iff_true, requestAccesses, list, query, share, if_false]
    split_ifs <;> simp [Access.InBounds, Access.InObject, Access.InReceived, recvBuffSize, address]

end Requests

def longQuery : List UInt8 := headerPacket { totalLen := 2000, id := 7, msgType := searchQuery }

def emptyShare : List UInt8 := headerPacket { totalLen := 16, id := 7, msgType := fileInfoShare } ++ net32 1

theorem query_stays_inside : StaysInside (newLoop noAddr).node (searchQueryPacket (fun _ => 0) 7 [97]) zeroed ∧
    ∀ access ∈ accesses (newLoop noAddr).node ⟨10, 0, 0, 1⟩ (searchQueryPacket (fun _ => 0) 7 [97]) zeroed,
      access.InBounds := by
  have start : superLoop.Reachable (newLoop noAddr) := .initial _ (newLoop_starts noAddr)
  have stays : StaysInside (newLoop noAddr).node (searchQueryPacket (fun _ => 0) 7 [97]) zeroed := by
    refine ⟨fun type => ?_, fun _ => by decide +kernel, fun type => ?_⟩
    · exact absurd type (by decide +kernel)
    · exact absurd type (by decide +kernel)
  exact ⟨stays, (accesses_inBounds_iff start ⟨10, 0, 0, 1⟩ (by decide) zeroed).mpr stays⟩

-- A query of 12 bytes is copied with the 2000 that it states, and the entry that 16 bytes count is read behind
-- them.
theorem stated_length_copied :
    (¬ ∀ s : SuperLoop, superLoop.Reachable s → ∀ (clientAddr : InAddr) (received : List UInt8) (unwritten : Unwritten),
      received.length ≤ recvBuffSize →
      ∀ access ∈ accesses s.node clientAddr received unwritten, access.InBounds) ∧
    .memcpy 2000 1020 108 ∈ accesses (newLoop noAddr).node ⟨10, 0, 0, 1⟩ longQuery zeroed ∧
    .requestFile 0 140 16 ∈ accesses (newLoop noAddr).node ⟨10, 0, 0, 1⟩ emptyShare zeroed := by
  have start : superLoop.Reachable (newLoop noAddr) := .initial _ (newLoop_starts noAddr)
  have copy : .memcpy 2000 1020 108 ∈ accesses (newLoop noAddr).node ⟨10, 0, 0, 1⟩ longQuery zeroed := by decide
  refine ⟨fun claimed => ?_, copy, by decide⟩
  have inside := claimed _ start ⟨10, 0, 0, 1⟩ longQuery zeroed (by decide) _ copy
  exact absurd inside.1.1 (by decide)

end NetProg.P4
