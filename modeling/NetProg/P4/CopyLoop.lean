import NetProg.P4.SuperNode

set_option autoImplicit false

namespace NetProg.P4

open Memory

def putAll (put : Outgoing → Nat → FileInfoStore → Outgoing) : Outgoing → Nat → List FileInfoStore → Outgoing
  | out, _, [] => out
  | out, i, info :: rest => putAll put (put out i info) (i + 1) rest

structure Copies (read : Nat → Run FileInfoStore) (i : Nat) (infos : List FileInfoStore)
    (before after : FileInformationTable) : Prop where
  bound : infos = [] ∨ i + infos.length ≤ maxFiles
  reads : ∀ k (inside : k < infos.length), read (i + k) = .ok infos[k]
  stored : insertAll before infos = .ok after

variable {read : Nat → Run FileInfoStore} {put : Outgoing → Nat → FileInfoStore → Outgoing}
  {before after : FileInformationTable}

theorem copyFiles_run (put : Outgoing → Nat → FileInfoStore → Outgoing) {infos : List FileInfoStore} {i : Nat}
    (bound : infos = [] ∨ i + infos.length ≤ maxFiles)
    (reads : ∀ k (inside : k < infos.length), read (i + k) = .ok infos[k]) (before : FileInformationTable)
    (out : Outgoing) :
    copyFiles read put infos.length i before out =
      (insertAll before infos).map fun after => (after, putAll put out i infos) := by
  induction infos generalizing i before out with
  | nil => rfl
  | cons info rest ih =>
    have total : i + (rest.length + 1) ≤ maxFiles := by simpa using bound
    have first : read i = .ok info := reads 0 (by simp)
    have later : ∀ k (inside : k < rest.length), read (i + 1 + k) = .ok rest[k] := by
      intro k inside
      rw [show i + 1 + k = i + (k + 1) by omega]
      exact reads (k + 1) (by simpa using inside)
    simp only [List.length_cons, copyFiles, if_pos (show i < maxFiles by omega), bind, Except.bind, first, insertAll]
    cases insertFileInfo info before with
    | error stuck => rfl
    | ok inserted => exact ih (.inr (by omega)) later inserted.2 (put out i info)

theorem copyFiles_ok (put : Outgoing → Nat → FileInfoStore → Outgoing) {infos : List FileInfoStore} {i : Nat}
    (copies : Copies read i infos before after)
    (out : Outgoing) : copyFiles read put infos.length i before out = .ok (after, putAll put out i infos) := by
  rw [copyFiles_run put copies.bound copies.reads, copies.stored]
  rfl

theorem copyFiles_copies {n i : Nat} {out out' : Outgoing}
    (ran : copyFiles read put n i before out = .ok (after, out')) :
    ∃ infos, infos.length = n ∧ Copies read i infos before after ∧ out' = putAll put out i infos := by
  induction n generalizing i before out with
  | zero =>
    simp only [copyFiles, Except.ok.injEq, Prod.mk.injEq] at ran
    obtain ⟨rfl, rfl⟩ := ran
    exact ⟨[], rfl, ⟨.inl rfl, by simp, rfl⟩, rfl⟩
  | succ n ih =>
    simp only [copyFiles, bind, Except.bind] at ran
    split_ifs at ran with inside
    split at ran
    next => cases ran
    next info first =>
      split at ran
      next => cases ran
      next inserted here =>
        obtain ⟨rest, count, copies, same⟩ := ih ran
        refine ⟨info :: rest, by simp [count], ⟨.inr ?_, fun k bound => ?_, ?_⟩, same⟩
        · rcases copies.bound with rfl | bound
          · exact inside
          · simp only [List.length_cons]
            omega
        · cases k with
          | zero => exact first
          | succ k =>
            rw [show i + (k + 1) = i + 1 + k by omega]
            exact copies.reads k (by simpa using bound)
        · simp only [insertAll, bind, Except.bind, here]
          exact copies.stored

def storeName (pkt : Block) (start : Nat) (info : FileInfoStore) : Block := storeString pkt start info.fileName

def sharePacket (unwritten : Block) (id : UInt32) (infos : List FileInfoStore) : List UInt8 :=
  load (entriesPacket fileInfoStoreSize storeFileInfo unwritten id fileInfoShare infos) 0
    (headerLen + 4 + infos.length * fileInfoStoreSize)

def recvSuccessPacket (unwritten : Block) (id : UInt32) (infos : List FileInfoStore) : List UInt8 :=
  load (entriesPacket fileNameLen storeName unwritten id fileInfoRecvSuccess infos) 0
    (headerLen + 4 + infos.length * fileNameLen)

theorem putAll_fileInformation (out : Outgoing) (i : Nat) (infos : List FileInfoStore) :
    putAll putFileInformation out i infos =
      { share := storeEntries fileInfoStoreSize storeFileInfo out.share i infos
        reply := storeEntries fileNameLen storeName out.reply i infos } := by
  induction infos generalizing out i with
  | nil => rfl
  | cons info rest ih => exact ih _ _

theorem Copies.count {i : Nat} {infos : List FileInfoStore} (copies : Copies read i infos before after) :
    infos.length ≤ maxFiles := by
  rcases copies.bound with rfl | bound
  · simp
  · omega

def accepted (node : SuperNode) (unwritten : Unwritten) (infos : List FileInfoStore) (table : FileInformationTable) :
    Handled where
  node := { node with fileInfoTable := table }
  replies := [recvSuccessPacket unwritten.fileInfoRecvSuccessPkt node.id infos]
  share := some (sharePacket unwritten.fileInfoSharePkt node.id infos)

structure Accepts (node : SuperNode) (clientAddr : InAddr) (recvBuff : Block) (bytesRead : Nat)
    (unwritten : Unwritten)
    (infos : List FileInfoStore) (table : FileInformationTable) (fileInfoPkt : Block) : Prop where
  -- The records that a FILE_INFO makes the node store.
  whole : (loadHeader recvBuff).totalLen.toNat ≤ bytesRead
  port : findChildPort node.childPorts (loadHeader recvBuff).id ≠ 0
  copied : copyPacket unwritten.fileInfoPkt recvBuff (loadHeader recvBuff).totalLen.toNat 10016 = .ok fileInfoPkt
  count : infos.length = (load32 fileInfoPkt fileNumAt).toNat
  copies : Copies (readFileInformation fileInfoPkt clientAddr (findChildPort node.childPorts (loadHeader recvBuff).id))
    0 infos node.fileInfoTable table

theorem outgoing_lengths {infos : List FileInfoStore} {fileNum : UInt32} (count : infos.length = fileNum.toNat)
    (few : infos.length ≤ maxFiles) : fileNum = UInt32.ofNat infos.length ∧
      (UInt32.ofNat (headerLen + 4 + infos.length * fileInfoStoreSize)).toNat =
        headerLen + 4 + infos.length * fileInfoStoreSize ∧
      (UInt32.ofNat (headerLen + 4 + infos.length * fileNameLen)).toNat =
        headerLen + 4 + infos.length * fileNameLen := by
  simp only [maxFiles] at few
  refine ⟨by rw [count, UInt32.ofNat_toNat], UInt32.toNat_ofNat_of_lt' ?_, UInt32.toNat_ofNat_of_lt' ?_⟩ <;>
    simp only [headerLen, fileInfoStoreSize, fileNameLen, UInt32.size] <;> omega

def readEntry (fileInfoPkt : Block) (ipAddr : List UInt8) (childPort : UInt32) (i : Nat) : Run FileInfoStore := do
  -- `readFileInformation` for any text in the place of the child's address.
  let start := filesAt + fileInformationSize * i
  let fileName ← field fileInfoPkt start fileNameLen
  .ok { fileName, fileSize := load32 fileInfoPkt (start + 96), ipAddr, portNum := childPort }

def registerFiles (node : SuperNode) (ipAddr : List UInt8) (childPort : UInt32) (fileInfoPkt : Block)
    (unwritten : Unwritten) : Run Handled := do
  let fileNum := load32 fileInfoPkt fileNumAt
  let pktLen := UInt32.ofNat (headerLen + 4 + fileNum.toNat * fileInfoStoreSize)
  let share := storeCount unwritten.fileInfoSharePkt
    { totalLen := pktLen, id := node.id, msgType := fileInfoShare } fileNum
  let replyLen := UInt32.ofNat (headerLen + 4 + fileNum.toNat * fileNameLen)
  let reply := storeCount unwritten.fileInfoRecvSuccessPkt
    { totalLen := replyLen, id := node.id, msgType := fileInfoRecvSuccess } fileNum
  let (fileInfoTable, out) ← copyFiles (readEntry fileInfoPkt ipAddr childPort) putFileInformation
    fileNum.toNat 0 node.fileInfoTable { share, reply }
  .ok { node := { node with fileInfoTable }
        replies := [load out.reply 0 replyLen.toNat]
        share := some (load out.share 0 pktLen.toNat) }

theorem handleFileInfo_registers {node : SuperNode} {clientAddr : InAddr} {recvBuff : Block} {bytesRead : Nat}
    {unwritten : Unwritten} {fileInfoPkt : Block} (whole : (loadHeader recvBuff).totalLen.toNat ≤ bytesRead)
    (port : findChildPort node.childPorts (loadHeader recvBuff).id ≠ 0)
    (copied : copyPacket unwritten.fileInfoPkt recvBuff (loadHeader recvBuff).totalLen.toNat 10016 = .ok fileInfoPkt) :
    handleFileInfo node clientAddr recvBuff bytesRead unwritten =
      registerFiles node (inetNtoa clientAddr) (findChildPort node.childPorts (loadHeader recvBuff).id) fileInfoPkt
        unwritten := by
  simp only [handleFileInfo, if_neg (Nat.not_lt.mpr whole), if_neg port, copied, bind, Except.bind]
  rfl

theorem registerFiles_run {node : SuperNode} {ipAddr : List UInt8} {childPort : UInt32} {fileInfoPkt : Block}
    (unwritten : Unwritten) {infos : List FileInfoStore} (count : infos.length = (load32 fileInfoPkt fileNumAt).toNat)
    (few : infos.length ≤ maxFiles)
    (reads : ∀ k (inside : k < infos.length), readEntry fileInfoPkt ipAddr childPort k = .ok infos[k]) :
    registerFiles node ipAddr childPort fileInfoPkt unwritten =
      (insertAll node.fileInfoTable infos).map (accepted node unwritten infos) := by
  obtain ⟨num, shareLen, replyLen⟩ := outgoing_lengths count few
  have bound : infos = [] ∨ 0 + infos.length ≤ maxFiles := .inr (by omega)
  have readsHere (k : Nat) (inside : k < infos.length) : readEntry fileInfoPkt ipAddr childPort (0 + k) = .ok infos[k] := by
    rw [Nat.zero_add, reads k inside]
  have loop := copyFiles_run putFileInformation bound readsHere node.fileInfoTable
    { share := storeCount unwritten.fileInfoSharePkt
        (entriesHeader fileInfoStoreSize node.id fileInfoShare infos.length) (UInt32.ofNat infos.length)
      reply := storeCount unwritten.fileInfoRecvSuccessPkt
        (entriesHeader fileNameLen node.id fileInfoRecvSuccess infos.length) (UInt32.ofNat infos.length) }
  rw [putAll_fileInformation] at loop
  simp only [entriesHeader] at loop
  have exact_count : (UInt32.ofNat infos.length).toNat = infos.length := by rw [← num, count]
  simp only [registerFiles, bind, Except.bind, num, exact_count, loop, shareLen, replyLen]
  cases insertAll node.fileInfoTable infos <;> rfl

theorem handleFileInfo_run {node : SuperNode} {clientAddr : InAddr} {recvBuff : Block} {bytesRead : Nat}
    {unwritten : Unwritten} {infos : List FileInfoStore} {fileInfoPkt : Block}
    (whole : (loadHeader recvBuff).totalLen.toNat ≤ bytesRead)
    (port : findChildPort node.childPorts (loadHeader recvBuff).id ≠ 0)
    (copied : copyPacket unwritten.fileInfoPkt recvBuff (loadHeader recvBuff).totalLen.toNat 10016 = .ok fileInfoPkt)
    (count : infos.length = (load32 fileInfoPkt fileNumAt).toNat) (few : infos.length ≤ maxFiles)
    (reads : ∀ k (inside : k < infos.length),
      readFileInformation fileInfoPkt clientAddr (findChildPort node.childPorts (loadHeader recvBuff).id) k =
        .ok infos[k]) :
    handleFileInfo node clientAddr recvBuff bytesRead unwritten =
      (insertAll node.fileInfoTable infos).map (accepted node unwritten infos) := by
  rw [handleFileInfo_registers whole port copied]
  exact registerFiles_run unwritten count few reads

theorem handleFileInfo_accepts {node : SuperNode} {clientAddr : InAddr} {recvBuff : Block} {bytesRead : Nat}
    {unwritten : Unwritten} {infos : List FileInfoStore} {table : FileInformationTable} {fileInfoPkt : Block}
    (accepts : Accepts node clientAddr recvBuff bytesRead unwritten infos table fileInfoPkt) :
    handleFileInfo node clientAddr recvBuff bytesRead unwritten = .ok (accepted node unwritten infos table) := by
  have reads (k : Nat) (inside : k < infos.length) := accepts.copies.reads k inside
  simp only [Nat.zero_add] at reads
  rw [handleFileInfo_run accepts.whole accepts.port accepts.copied accepts.count accepts.copies.count reads,
    accepts.copies.stored]
  rfl

theorem handleFileInfo_shared {node : SuperNode} {clientAddr : InAddr} {recvBuff : Block} {bytesRead : Nat}
    {unwritten : Unwritten} {h : Handled} {packet : List UInt8}
    (ran : handleFileInfo node clientAddr recvBuff bytesRead unwritten = .ok h) (shared : h.share = some packet) :
    ∃ infos table fileInfoPkt, Accepts node clientAddr recvBuff bytesRead unwritten infos table fileInfoPkt := by
  simp only [handleFileInfo, bind, Except.bind] at ran
  split_ifs at ran with short unknown
  · simp only [Except.ok.injEq] at ran
    simp [← ran, Handled.reply] at shared
  · simp only [Except.ok.injEq] at ran
    simp [← ran, Handled.silent] at shared
  · split at ran
    next => cases ran
    next fileInfoPkt copied =>
      split at ran
      next => cases ran
      next result loop =>
        obtain ⟨infos, count, copies, -⟩ := copyFiles_copies loop
        exact ⟨infos, _, fileInfoPkt, Nat.not_lt.mp short, unknown, copied, count, copies⟩

end NetProg.P4
