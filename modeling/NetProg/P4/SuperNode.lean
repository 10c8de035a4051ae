import NetProg.Net.Socket
import NetProg.P4.Packets

set_option autoImplicit false

-- Blocks that `malloc` returns hold unknown bytes.

namespace NetProg.P4

open Memory

abbrev childNumber : Nat := 50

abbrev recvBuffSize : Nat := 1020

structure ChildListeningPort where
  id : UInt32
  portNum : UInt32
deriving DecidableEq, Repr

structure SuperNode where
  id : UInt32
  fileInfoTable : FileInformationTable
  childPorts : Fin childNumber → ChildListeningPort
  otherSuperIpAddr : List UInt8
  otherSuperPortNum : UInt32

def startUp (id : UInt32) (ids : Fin childNumber → UInt32) : SuperNode where
  -- A super node that has just started; `ids` is what its stack held where the ids of the children
  -- are.
  id := id
  fileInfoTable := initFileInfoTable
  childPorts := fun i => { id := ids i, portNum := 0 }
  otherSuperIpAddr := []
  otherSuperPortNum := 0

structure Unwritten where
  -- What the blocks of one call hold before anything is written to them.
  fileInfoPkt : Block
  fileInfoSharePkt : Block
  fileInfoRecvSuccessPkt : Block
  searchQueryPkt : Block
  searchAnsSuccessPkt : Block
  fileInfoShareSuccessPkt : Block
  -- the stack around `fileInfoShareErrorPkt`
  stack : Block

structure Handled where
  -- What a call leaves: the node, the bytes of each `write` to the client, and the packet for the
  -- other super node, whose reply it then waits for.
  node : SuperNode
  replies : List (List UInt8)
  share : Option (List UInt8)

def Handled.silent (node : SuperNode) : Handled := { node, replies := [], share := none }

def Handled.reply (node : SuperNode) (packet : List UInt8) : Handled := { node, replies := [packet], share := none }

def copyPacket (pkt recvBuff : Block) (n size : Nat) : Run Block :=
  -- The first `n` bytes of the receive buffer, copied to a packet of `size` bytes.
  if n ≤ recvBuffSize ∧ n ≤ size then .ok (store pkt 0 (load recvBuff 0 n)) else .error .fault

def field (pkt : Block) (start size : Nat) : Run (List UInt8) :=
  match loadString pkt start size with
  | some s => .ok s
  | none => .error .fault

def findChildSlot (childPorts : Fin childNumber → ChildListeningPort) : Option (Fin childNumber) :=
  (List.finRange childNumber).find? fun i => (childPorts i).portNum = 0

def findChildPort (childPorts : Fin childNumber → ChildListeningPort) (id : UInt32) : UInt32 :=
  match (List.finRange childNumber).find? fun i => (childPorts i).id = id with
  | some i => (childPorts i).portNum
  | none => 0

def handleHelloFromChild (node : SuperNode) (recvBuff : Block) : Run Handled :=
  let child := { id := load32 recvBuff 4, portNum := load32 recvBuff 12 }
  let childPorts := match findChildSlot node.childPorts with
    | some i => Function.update node.childPorts i child
    | none => node.childPorts
  let reply := headerPacket { totalLen := 12, id := node.id, msgType := helloFromSuper }
  .ok (.reply { node with childPorts } reply)

def handleHelloSuperToSuper (node : SuperNode) (clientAddr : InAddr) (recvBuff : Block) : Run Handled :=
  let reply := headerPacket { totalLen := 12, id := node.id, msgType := helloSuperToSuper }
  .ok (.reply { node with otherSuperPortNum := load32 recvBuff 12, otherSuperIpAddr := inetNtoa clientAddr } reply)

structure Outgoing where
  share : Block
  reply : Block

def copyFiles (read : Nat → Run FileInfoStore) (put : Outgoing → Nat → FileInfoStore → Outgoing) :
    Nat → Nat → FileInformationTable → Outgoing → Run (FileInformationTable × Outgoing)
  -- The loop over the entries: `read i` makes the record of entry `i`, `put` copies it on.
  | 0, _, fileInfoTable, out => .ok (fileInfoTable, out)
  | left + 1, i, fileInfoTable, out =>
    if i < maxFiles then do
      let fileInfoStore ← read i
      let (_, fileInfoTable) ← insertFileInfo fileInfoStore fileInfoTable
      copyFiles read put left (i + 1) fileInfoTable (put out i fileInfoStore)
    else .error .fault

def readFileInformation (fileInfoPkt : Block) (clientAddr : InAddr) (childPort : UInt32) (i : Nat) :
    Run FileInfoStore := do
  let start := filesAt + fileInformationSize * i
  let fileName ← field fileInfoPkt start fileNameLen
  .ok { fileName, fileSize := load32 fileInfoPkt (start + 96), ipAddr := inetNtoa clientAddr, portNum := childPort }

def putFileInformation (out : Outgoing) (i : Nat) (info : FileInfoStore) : Outgoing where
  share := storeFileInfo out.share (filesAt + fileInfoStoreSize * i) info
  reply := storeString out.reply (filesAt + fileNameLen * i) info.fileName

def handleFileInfo (node : SuperNode) (clientAddr : InAddr) (recvBuff : Block) (bytesRead : Nat)
    (unwritten : Unwritten) : Run Handled := do
  let hdr := loadHeader recvBuff
  if hdr.totalLen.toNat > bytesRead then
    .ok (.reply node (headerPacket { totalLen := 12, id := node.id, msgType := fileInfoRecvError }))
  else
    let childPort := findChildPort node.childPorts hdr.id
    if childPort = 0 then .ok (.silent node)
    else
      let fileInfoPkt ← copyPacket unwritten.fileInfoPkt recvBuff hdr.totalLen.toNat 10016
      let fileNum := load32 fileInfoPkt fileNumAt
      let pktLen := UInt32.ofNat (headerLen + 4 + fileNum.toNat * fileInfoStoreSize)
      let share := storeCount unwritten.fileInfoSharePkt
        { totalLen := pktLen, id := node.id, msgType := fileInfoShare } fileNum
      let replyLen := UInt32.ofNat (headerLen + 4 + fileNum.toNat * fileNameLen)
      let reply := storeCount unwritten.fileInfoRecvSuccessPkt
        { totalLen := replyLen, id := node.id, msgType := fileInfoRecvSuccess } fileNum
      let (fileInfoTable, out) ← copyFiles (readFileInformation fileInfoPkt clientAddr childPort) putFileInformation
        fileNum.toNat 0 node.fileInfoTable { share, reply }
      .ok { node := { node with fileInfoTable }
            replies := [load out.reply 0 replyLen.toNat]
            share := some (load out.share 0 pktLen.toNat) }

def handleSearchQuery (node : SuperNode) (recvBuff : Block) (unwritten : Unwritten) : Run Handled := do
  let hdr := loadHeader recvBuff
  let searchQueryPkt ← copyPacket unwritten.searchQueryPkt recvBuff hdr.totalLen.toNat 108
  let fileName ← field searchQueryPkt 12 fileNameLen
  let found ← searchFileInfo fileName node.fileInfoTable.fileInfoList
  match found with
  | none => .ok (.reply node (headerPacket { totalLen := 12, id := node.id, msgType := searchAnsFail }))
  | some info =>
    let header := storeHeader unwritten.searchAnsSuccessPkt { totalLen := 40, id := node.id, msgType := searchAnsSuccess }
    let answer := store (store (storeString header 12 info.ipAddr) 32 (net32 info.portNum)) 36 (net32 info.fileSize)
    .ok (.reply node (load answer 0 40))

def readFileInfo (fileInfoSharePkt : Block) (i : Nat) : Run FileInfoStore := do
  let start := filesAt + fileInfoStoreSize * i
  let fileName ← field fileInfoSharePkt start fileNameLen
  let ipAddr ← field fileInfoSharePkt (start + 100) 20
  .ok { fileName, fileSize := load32 fileInfoSharePkt (start + 96), ipAddr, portNum := load32 fileInfoSharePkt (start + 120) }

def putFileInfo (out : Outgoing) (i : Nat) (info : FileInfoStore) : Outgoing :=
  { out with reply := storeFileInfo out.reply (filesAt + fileInfoStoreSize * i) info }

def handleFileInfoShare (node : SuperNode) (recvBuff : Block) (bytesRead : Nat) (unwritten : Unwritten) :
    Run Handled := do
  let hdr := loadHeader recvBuff
  if hdr.totalLen.toNat > bytesRead then
    -- `write(clientSock, &fileInfoShareErrorPkt, ...)` sends the pointer and what lies behind it
    .ok (.reply node (load unwritten.stack 0 headerLen))
  else
    let fileInfoSharePkt ← copyPacket unwritten.fileInfoSharePkt recvBuff hdr.totalLen.toNat 12416
    let fileNum := load32 fileInfoSharePkt fileNumAt
    -- the length field is copied as it is in the packet
    let totalLen := load32 fileInfoSharePkt 0
    let reply := storeCount unwritten.fileInfoShareSuccessPkt
      { totalLen, id := node.id, msgType := fileInfoShareSuccess } fileNum
    let (fileInfoTable, out) ← copyFiles (readFileInfo fileInfoSharePkt) putFileInfo fileNum.toNat 0
      node.fileInfoTable { share := fileInfoSharePkt, reply }
    .ok (.reply { node with fileInfoTable } (load out.reply 0 totalLen.toNat))

def receiveBuffer (received : List UInt8) : Block := store (fun _ => 0) 0 received

def handleClientRequest (node : SuperNode) (clientAddr : InAddr) (received : List UInt8) (unwritten : Unwritten) :
    Run Handled :=
  let recvBuff := receiveBuffer received
  let msgType := (loadHeader recvBuff).msgType
  if msgType = helloFromChild then handleHelloFromChild node recvBuff
  else if msgType = helloSuperToSuper then handleHelloSuperToSuper node clientAddr recvBuff
  else if msgType = fileInfo then handleFileInfo node clientAddr recvBuff received.length unwritten
  else if msgType = searchQuery then handleSearchQuery node recvBuff unwritten
  else if msgType = fileInfoShare then handleFileInfoShare node recvBuff received.length unwritten
  else .ok (.silent node)

def readRecvBuff (sent : List UInt8) : List UInt8 := sent.take recvBuffSize

theorem readRecvBuff_length (sent : List UInt8) : (readRecvBuff sent).length = min recvBuffSize sent.length := by
  simp [readRecvBuff]

theorem readRecvBuff_short (sent : List UInt8) : (readRecvBuff sent).length ≤ recvBuffSize := by
  rw [readRecvBuff_length]
  exact Nat.min_le_left _ _

theorem receiveBuffer_load (pkt : Block) {len j : Nat} (inside : j < len) (fits : j < recvBuffSize) :
    receiveBuffer (readRecvBuff (load pkt 0 len)) j = pkt j := by
  by_cases whole : len ≤ recvBuffSize
  · rw [receiveBuffer, readRecvBuff, List.take_of_length_le (by simpa using whole)]
    exact store_load _ pkt (Nat.zero_le j) (by simpa using inside)
  · rw [receiveBuffer, readRecvBuff, load_take _ _ (by omega)]
    exact store_load _ pkt (Nat.zero_le j) (by simpa using fits)

section Dispatch

variable {node : SuperNode} {clientAddr : InAddr} {received : List UInt8} {unwritten : Unwritten}

theorem handleClientRequest_hello (type : (loadHeader (receiveBuffer received)).msgType = helloFromChild) :
    handleClientRequest node clientAddr received unwritten = handleHelloFromChild node (receiveBuffer received) := by
  simp [handleClientRequest, type]

theorem handleClientRequest_fileInfo (type : (loadHeader (receiveBuffer received)).msgType = fileInfo) :
    handleClientRequest node clientAddr received unwritten =
      handleFileInfo node clientAddr (receiveBuffer received) received.length unwritten := by
  simp [handleClientRequest, type, fileInfo, helloFromChild, helloSuperToSuper]

theorem handleClientRequest_share (type : (loadHeader (receiveBuffer received)).msgType = fileInfoShare) :
    handleClientRequest node clientAddr received unwritten =
      handleFileInfoShare node (receiveBuffer received) received.length unwritten := by
  simp [handleClientRequest, type, fileInfoShare, searchQuery, fileInfo, helloFromChild, helloSuperToSuper]

variable {h : Handled}

theorem handleHelloFromChild_quiet {recvBuff : Block} (ran : handleHelloFromChild node recvBuff = .ok h) :
    h.node.fileInfoTable = node.fileInfoTable ∧ h.share = none := by
  obtain rfl := Except.ok.inj ran
  exact ⟨rfl, rfl⟩

theorem handleHelloSuperToSuper_quiet {recvBuff : Block}
    (ran : handleHelloSuperToSuper node clientAddr recvBuff = .ok h) :
    h.node.fileInfoTable = node.fileInfoTable ∧ h.share = none := by
  obtain rfl := Except.ok.inj ran
  exact ⟨rfl, rfl⟩

theorem handleSearchQuery_quiet {recvBuff : Block} (ran : handleSearchQuery node recvBuff unwritten = .ok h) :
    h.node = node ∧ h.share = none := by
  simp only [handleSearchQuery, bind, Except.bind] at ran
  split at ran
  next => cases ran
  next =>
    split at ran
    next => cases ran
    next =>
      split at ran
      next => cases ran
      next => split at ran <;> (obtain rfl := Except.ok.inj ran; exact ⟨rfl, rfl⟩)

theorem handleFileInfoShare_quiet {recvBuff : Block} {bytesRead : Nat}
    (ran : handleFileInfoShare node recvBuff bytesRead unwritten = .ok h) : h.share = none := by
  simp only [handleFileInfoShare, bind, Except.bind] at ran
  split_ifs at ran
  · obtain rfl := Except.ok.inj ran
    rfl
  · split at ran
    next => cases ran
    next =>
      split at ran
      next => cases ran
      next =>
        obtain rfl := Except.ok.inj ran
        rfl

theorem handleFileInfo_quiet {recvBuff : Block} {bytesRead : Nat}
    (ran : handleFileInfo node clientAddr recvBuff bytesRead unwritten = .ok h) (quiet : h.share = none) :
    h.node = node := by
  simp only [handleFileInfo, bind, Except.bind] at ran
  split_ifs at ran
  · obtain rfl := Except.ok.inj ran
    rfl
  · obtain rfl := Except.ok.inj ran
    rfl
  · split at ran
    next => cases ran
    next =>
      split at ran
      next => cases ran
      next =>
        obtain rfl := Except.ok.inj ran
        cases quiet

theorem handleClientRequest_cases (ran : handleClientRequest node clientAddr received unwritten = .ok h) :
    handleFileInfo node clientAddr (receiveBuffer received) received.length unwritten = .ok h ∨
      (loadHeader (receiveBuffer received)).msgType = fileInfoShare ∧ h.share = none ∨
        h.node.fileInfoTable = node.fileInfoTable ∧ h.share = none := by
  simp only [handleClientRequest] at ran
  split_ifs at ran with hello superHello info query share
  · exact .inr (.inr (handleHelloFromChild_quiet ran))
  · exact .inr (.inr (handleHelloSuperToSuper_quiet ran))
  · exact .inl ran
  · obtain ⟨same, quiet⟩ := handleSearchQuery_quiet ran
    exact .inr (.inr ⟨by rw [same], quiet⟩)
  · exact .inr (.inl ⟨share, handleFileInfoShare_quiet ran⟩)
  · obtain rfl := Except.ok.inj ran
    exact .inr (.inr ⟨rfl, rfl⟩)

end Dispatch

end NetProg.P4
