import NetProg.P4.Welcomed

set_option autoImplicit false

namespace NetProg.P4

open Memory

def searchAnsSuccessPacket (unwritten : Block) (id : UInt32) (info : FileInfoStore) : List UInt8 :=
  let header := storeHeader unwritten { totalLen := 40, id, msgType := searchAnsSuccess }
  load (store (store (storeString header 12 info.ipAddr) 32 (net32 info.portNum)) 36 (net32 info.fileSize)) 0 40

def searchAnswer (unwritten : Block) (id : UInt32) : Option FileInfoStore → List UInt8
  | none => headerPacket { totalLen := 12, id, msgType := searchAnsFail }
  | some info => searchAnsSuccessPacket unwritten id info

theorem handleSearchQuery_whole {node : SuperNode} {recvBuff : Block} (whole : (loadHeader recvBuff).totalLen = 108)
    (unwritten : Unwritten) : handleSearchQuery node recvBuff unwritten =
      (field recvBuff 12 fileNameLen).bind fun fileName =>
        (searchFileInfo fileName node.fileInfoTable.fileInfoList).map fun found =>
          .reply node (searchAnswer unwritten.searchAnsSuccessPkt node.id found) := by
  have length : (108 : UInt32).toNat = 108 := rfl
  have copied : copyPacket unwritten.searchQueryPkt recvBuff 108 108 =
      .ok (store unwritten.searchQueryPkt 0 (load recvBuff 0 108)) := if_pos (by decide)
  have named : field (store unwritten.searchQueryPkt 0 (load recvBuff 0 108)) 12 fileNameLen =
      field recvBuff 12 fileNameLen := by
    have same : load (store unwritten.searchQueryPkt 0 (load recvBuff 0 108)) 12 fileNameLen =
        load recvBuff 12 fileNameLen :=
      load_congr fun j low high => store_load _ recvBuff (Nat.zero_le j) (by simp only [fileNameLen] at high; omega)
    simp only [field, loadString, same]
  simp only [handleSearchQuery, whole, length, copied, named, bind, Except.bind]
  cases field recvBuff 12 fileNameLen with
  | error stuck => rfl
  | ok fileName =>
    cases searched : searchFileInfo fileName node.fileInfoTable.fileInfoList with
    | error stuck => simp only [searched, Except.map]
    | ok found => cases found <;> simp only [searched, Except.map, searchAnswer, searchAnsSuccessPacket]

theorem query_handled (node : SuperNode) (clientAddr : InAddr) (buff : Block) (id : UInt32)
    {fileName : List UInt8} (short : fileName.length < fileNameLen) (text : ∀ c ∈ fileName, c ≠ 0) (own : Unwritten) :
    handleClientRequest node clientAddr (readRecvBuff (searchQueryPacket buff id fileName)) own =
      (searchFileInfo fileName node.fileInfoTable.fileInfoList).map fun found =>
        .reply node (searchAnswer own.searchAnsSuccessPkt node.id found) := by
  have header := searchQueryPacket_header buff id fileName
  let recvBuff := receiveBuffer (readRecvBuff (searchQueryPacket buff id fileName))
  have handled : handleClientRequest node clientAddr (readRecvBuff (searchQueryPacket buff id fileName)) own =
      handleSearchQuery node recvBuff own := by
    simp [handleClientRequest, recvBuff, header, searchQuery, fileInfo, helloFromChild, helloSuperToSuper]
  have named : loadString recvBuff 12 fileNameLen = some fileName := by
    simp only [fileNameLen] at short
    refine loadString_of text short ((load_congr fun j low high => ?_).trans
      (load_storeString (storeHeader buff { totalLen := 108, id, msgType := searchQuery }) 12 fileName))
    exact receiveBuffer_load _ (by omega) (by simp only [recvBuffSize]; omega)
  rw [handled, handleSearchQuery_whole (congrArg Header.totalLen header), field, named]
  rfl

theorem headerPacket_header (hdr : Header) : loadHeader (ofBytes (headerPacket hdr)) = hdr := by
  rw [headerPacket, loadHeader_congr fun j below => ofBytes_load _ below, loadHeader_storeHeader]

structure AnswerRead (searchAnsSuccessPkt : Block) (id : UInt32) (info : FileInfoStore) : Prop where
  header : loadHeader searchAnsSuccessPkt = { totalLen := 40, id, msgType := searchAnsSuccess }
  ipAddr : loadString searchAnsSuccessPkt 12 20 = some info.ipAddr
  portNum : load32 searchAnsSuccessPkt 32 = info.portNum
  fileSize : load32 searchAnsSuccessPkt 36 = info.fileSize

theorem answer_header (pkt unwritten : Block) (id : UInt32) (info : FileInfoStore) :
    loadHeader (store pkt 0 (searchAnsSuccessPacket unwritten id info)) =
      { totalLen := 40, id, msgType := searchAnsSuccess } := by
  refine Eq.trans (loadHeader_congr fun j below => ?_) (loadHeader_storeHeader unwritten _)
  simp only [headerLen] at below
  refine (store_load pkt _ (Nat.zero_le j) (by omega)).trans ?_
  simp only [storeString]
  rw [store_outside _ (.inl (by omega)), store_outside _ (.inl (by omega)), store_outside _ (.inl (by omega))]

theorem answer_read (pkt unwritten : Block) (id : UInt32) {info : FileInfoStore} (short : info.ipAddr.length < 20)
    (text : ∀ c ∈ info.ipAddr, c ≠ 0) : AnswerRead (store pkt 0 (searchAnsSuccessPacket unwritten id info)) id info := by
  let header := storeHeader unwritten { totalLen := 40, id, msgType := searchAnsSuccess }
  let named := storeString header 12 info.ipAddr
  let placed := store named 32 (net32 info.portNum)
  let answer := store placed 36 (net32 info.fileSize)
  have sent (start len : Nat) (inside : start + len ≤ 40) :
      load (store pkt 0 (searchAnsSuccessPacket unwritten id info)) start len = load answer start len :=
    load_congr fun j low high => store_load pkt answer (Nat.zero_le j) (by omega)
  have apart {len : Nat} (start : Nat) (before : start + len ≤ 32) : load answer start len = load named start len := by
    simp only [answer, placed]
    rw [load_store_apart _ (by omega), load_store_apart _ (by omega)]
  constructor
  case header => exact answer_header pkt unwritten id info
  case ipAddr =>
    refine loadString_of text short ?_
    rw [sent _ _ (by omega), apart _ (by omega)]
    exact load_storeString header 12 info.ipAddr
  case portNum =>
    refine load32_of ?_
    rw [sent _ _ (by omega)]
    simp only [answer]
    rw [load_store_apart _ (by simp)]
    exact load_store named 32 (net32 info.portNum)
  case fileSize =>
    refine load32_of ?_
    rw [sent _ _ (by omega)]
    exact load_store placed 36 (net32 info.fileSize)

end NetProg.P4
