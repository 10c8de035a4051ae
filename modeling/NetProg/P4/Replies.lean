import NetProg.P4.Acknowledged

set_option autoImplicit false

namespace NetProg.P4

open Memory

structure WellFormed (id msgType : UInt32) (packet : List UInt8) : Prop where
  header : headerLen ≤ packet.length
  totalLen : (loadHeader (ofBytes packet)).totalLen.toNat = packet.length
  id : (loadHeader (ofBytes packet)).id = id
  msgType : (loadHeader (ofBytes packet)).msgType = msgType

def Delivery.search (m : Delivery) (node : SuperNode) : Run (Option FileInfoStore) := do
  let searchQueryPkt ← copyPacket m.unwritten.searchQueryPkt (receiveBuffer m.received) m.header.totalLen.toNat 108
  let fileName ← field searchQueryPkt 12 fileNameLen
  searchFileInfo fileName node.fileInfoTable.fileInfoList

inductive ReplyFor (node : SuperNode) (m : Delivery) : UInt32 → Prop where
  | child (type : m.header.msgType = helloFromChild) : ReplyFor node m helloFromSuper
  | super (type : m.header.msgType = helloSuperToSuper) : ReplyFor node m helloSuperToSuper
  | refused (type : m.header.msgType = fileInfo) (truncated : m.header.totalLen.toNat > m.received.length) :
      ReplyFor node m fileInfoRecvError
  | registered (type : m.header.msgType = fileInfo) (whole : m.header.totalLen.toNat ≤ m.received.length) :
      ReplyFor node m fileInfoRecvSuccess
  | found (type : m.header.msgType = searchQuery) (info : FileInfoStore) (search : m.search node = .ok (some info)) :
      ReplyFor node m searchAnsSuccess
  | missing (type : m.header.msgType = searchQuery) (search : m.search node = .ok none) : ReplyFor node m searchAnsFail
  | shareRefused (type : m.header.msgType = fileInfoShare) (truncated : m.header.totalLen.toNat > m.received.length) :
      ReplyFor node m fileInfoShareError
  | shared (type : m.header.msgType = fileInfoShare) (whole : m.header.totalLen.toNat ≤ m.received.length) :
      ReplyFor node m fileInfoShareSuccess

structure WritesWell (node : SuperNode) (m : Delivery) (h : Handled) : Prop where
  replies : ∀ packet ∈ h.replies, ∃ msgType, ReplyFor node m msgType ∧ WellFormed node.id msgType packet
  share : ∀ packet, h.share = some packet → m.header.msgType = fileInfo ∧ WellFormed node.id fileInfoShare packet

-- Only the answers to FILE_INFO_SHARE go wrong: one is read from the stack, the other has the length of the
-- request.
def AnswersFit (id : UInt32) (m : Delivery) : Prop :=
  m.header.msgType = fileInfoShare →
    if m.header.totalLen.toNat > m.received.length then
      loadHeader m.unwritten.stack = { totalLen := 12, id, msgType := fileInfoShareError }
    else headerLen ≤ (load32 (requestPacket m.unwritten.fileInfoSharePkt m.received) 0).toNat

theorem header_of_load (pkt : Block) {n : Nat} (long : headerLen ≤ n) :
    loadHeader (ofBytes (load pkt 0 n)) = loadHeader pkt :=
  loadHeader_congr fun _ below => ofBytes_load _ (Nat.lt_of_lt_of_le below long)

theorem wellFormed_load {pkt : Block} {totalLen id msgType : UInt32} (header : loadHeader pkt = { totalLen, id, msgType })
    {n : Nat} (length : totalLen.toNat = n) : WellFormed id msgType (load pkt 0 n) ↔ headerLen ≤ n := by
  constructor
  · intro formed
    simpa using formed.header
  · intro long
    constructor
    case header => simpa using long
    case totalLen => rw [header_of_load pkt long, header, length, length_load]
    case id => rw [header_of_load pkt long, header]
    case msgType => rw [header_of_load pkt long, header]

theorem wellFormed_header (id msgType : UInt32) : WellFormed id msgType (headerPacket { totalLen := 12, id, msgType }) :=
  (wellFormed_load (loadHeader_storeHeader _ _) rfl).mpr le_rfl

def Behind (write : Block → Nat → FileInfoStore → Block) : Prop :=
  ∀ pkt start info j, j < start → write pkt start info j = pkt j

theorem storeFileInfo_behind : Behind storeFileInfo := by
  intro pkt start info j before
  simp only [storeFileInfo, storeString]
  rw [store_outside _ (by omega), store_outside _ (by omega), store_outside _ (by omega), store_outside _ (by omega)]

theorem storeName_behind : Behind storeName := fun _ _ _ _ before => store_outside _ (.inl before)

theorem storeEntries_behind {write : Block → Nat → FileInfoStore → Block} (behind : Behind write) (size : Nat) (pkt : Block)
    (i : Nat) (infos : List FileInfoStore) {j : Nat} (front : j < filesAt) :
    storeEntries size write pkt i infos j = pkt j := by
  induction infos generalizing pkt i with
  | nil => rfl
  | cons info rest ih => exact (ih _ _).trans (behind _ _ _ _ (Nat.lt_add_right _ front))

theorem header_storeEntries {write : Block → Nat → FileInfoStore → Block} (behind : Behind write) (size : Nat)
    (unwritten : Block) (hdr : Header) (fileNum : UInt32) (infos : List FileInfoStore) :
    loadHeader (storeEntries size write (storeCount unwritten hdr fileNum) 0 infos) = hdr :=
  (storeCount_read unwritten hdr fileNum fun _ front => storeEntries_behind behind size _ 0 infos front).1

theorem wellFormed_entries {write : Block → Nat → FileInfoStore → Block} (behind : Behind write) (size : Nat)
    (unwritten : Block) (id msgType : UInt32) (infos : List FileInfoStore)
    (length : (UInt32.ofNat (headerLen + 4 + infos.length * size)).toNat = headerLen + 4 + infos.length * size) :
    WellFormed id msgType (load (entriesPacket size write unwritten id msgType infos) 0
      (headerLen + 4 + infos.length * size)) :=
  (wellFormed_load (header_storeEntries behind size unwritten (entriesHeader size id msgType infos.length) _ infos)
    length).mpr (by omega)

section Branches

variable {node : SuperNode} {m : Delivery} {h : Handled}

theorem writesWell_reply {msgType : UInt32} {packet : List UInt8} (after : SuperNode) (reply : ReplyFor node m msgType)
    (formed : WellFormed node.id msgType packet) : WritesWell node m (.reply after packet) where
  replies := by
    intro packet' sent
    obtain rfl := List.mem_singleton.mp sent
    exact ⟨msgType, reply, formed⟩
  share := fun _ shared => nomatch shared

theorem writesWell_silent (after : SuperNode) : WritesWell node m (.silent after) where
  replies := fun _ sent => nomatch sent
  share := fun _ shared => nomatch shared

theorem handleFileInfo_writes (type : m.header.msgType = fileInfo)
    (ran : handleFileInfo node m.clientAddr (receiveBuffer m.received) m.received.length m.unwritten = .ok h) :
    WritesWell node m h := by
  by_cases short : m.header.totalLen.toNat > m.received.length
  · rw [handleFileInfo, if_pos short] at ran
    obtain rfl := Except.ok.inj ran
    exact writesWell_reply node (.refused type short) (wellFormed_header _ _)
  by_cases unknown : findChildPort node.childPorts m.header.id = 0
  · rw [handleFileInfo, if_neg short, if_pos unknown] at ran
    obtain rfl := Except.ok.inj ran
    exact writesWell_silent node
  · obtain ⟨infos, table, pkt, accepts⟩ := handleFileInfo_copies ran short unknown
    obtain rfl := Except.ok.inj (ran.symm.trans (handleFileInfo_accepts accepts))
    obtain ⟨-, shareLen, replyLen⟩ := outgoing_lengths accepts.count accepts.copies.count
    constructor
    case replies =>
      intro packet sent
      obtain rfl := List.mem_singleton.mp sent
      exact ⟨fileInfoRecvSuccess, .registered type (Nat.not_lt.mp short),
        wellFormed_entries storeName_behind _ _ _ _ infos replyLen⟩
    case share =>
      intro packet shared
      obtain rfl := Option.some.inj shared
      exact ⟨type, wellFormed_entries storeFileInfo_behind _ _ _ _ infos shareLen⟩

theorem handleSearchQuery_writes (type : m.header.msgType = searchQuery)
    (ran : handleSearchQuery node (receiveBuffer m.received) m.unwritten = .ok h) : WritesWell node m h := by
  have search : m.search node = .ok none ∧
        h = .reply node (headerPacket { totalLen := 12, id := node.id, msgType := searchAnsFail }) ∨
      ∃ info, m.search node = .ok (some info) ∧
        h = .reply node (load (store (store (storeString (storeHeader m.unwritten.searchAnsSuccessPkt
          { totalLen := 40, id := node.id, msgType := searchAnsSuccess }) 12 info.ipAddr) 32 (net32 info.portNum)) 36
          (net32 info.fileSize)) 0 40) := by
    simp only [handleSearchQuery, bind, Except.bind] at ran
    simp only [Delivery.search, bind, Except.bind]
    split at ran
    next => cases ran
    next pkt copied =>
      rw [copied]
      split at ran
      next => cases ran
      next fileName named =>
        simp only [named]
        split at ran
        next => cases ran
        next found searched =>
          cases found with
          | none => exact .inl ⟨searched, (Except.ok.inj ran).symm⟩
          | some info => exact .inr ⟨info, searched, (Except.ok.inj ran).symm⟩
  rcases search with ⟨searched, rfl⟩ | ⟨info, searched, rfl⟩
  · exact writesWell_reply node (.missing type searched) (wellFormed_header _ _)
  · have header : loadHeader (store (store (storeString (storeHeader m.unwritten.searchAnsSuccessPkt
        { totalLen := 40, id := node.id, msgType := searchAnsSuccess }) 12 info.ipAddr) 32 (net32 info.portNum)) 36
        (net32 info.fileSize)) = { totalLen := 40, id := node.id, msgType := searchAnsSuccess } := by
      refine Eq.trans (loadHeader_congr fun j below => ?_) (loadHeader_storeHeader m.unwritten.searchAnsSuccessPkt _)
      simp only [headerLen] at below
      rw [store_outside _ (by omega), store_outside _ (by omega), storeString, store_outside _ (by omega)]
    exact writesWell_reply node (.found type info searched) ((wellFormed_load header rfl).mpr (by decide))

theorem share_replyFor {msgType : UInt32} (type : m.header.msgType = fileInfoShare) (reply : ReplyFor node m msgType) :
    msgType = if m.header.totalLen.toNat > m.received.length then fileInfoShareError else fileInfoShareSuccess := by
  cases reply with
  | shareRefused _ truncated => exact (if_pos truncated).symm
  | shared _ whole => exact (if_neg (Nat.not_lt.mpr whole)).symm
  | child other | super other | refused other | registered other | found other | missing other =>
    exact absurd (type.symm.trans other) (by decide)

theorem handleFileInfoShare_reply
    (ran : handleFileInfoShare node (receiveBuffer m.received) m.received.length m.unwritten = .ok h) :
    ∃ packet, h = .reply h.node packet := by
  simp only [handleFileInfoShare, bind, Except.bind] at ran
  split_ifs at ran
  · obtain rfl := Except.ok.inj ran
    exact ⟨_, rfl⟩
  · split at ran
    next => cases ran
    next =>
      split at ran
      next => cases ran
      next =>
        obtain rfl := Except.ok.inj ran
        exact ⟨_, rfl⟩

theorem handleFileInfoShare_writes (type : m.header.msgType = fileInfoShare) (ran : m.handle node = .ok h) :
    WritesWell node m h ↔ AnswersFit node.id m := by
  obtain ⟨packet, same⟩ : ∃ packet, h = .reply h.node packet := by
    rw [Delivery.handle, handleClientRequest_share type] at ran
    exact handleFileInfoShare_reply ran
  have sent : packet ∈ h.replies := by
    rw [same]
    exact List.mem_singleton.mpr rfl
  have well {msgType : UInt32} (reply : ReplyFor node m msgType) :
      WritesWell node m h ↔ WellFormed node.id msgType packet := by
    constructor
    · intro writes
      obtain ⟨msgType', reply', formed⟩ := writes.replies packet sent
      rwa [share_replyFor type reply, ← share_replyFor type reply']
    · intro formed
      rw [same]
      exact writesWell_reply h.node reply formed
  have fit : AnswersFit node.id m ↔ if m.header.totalLen.toNat > m.received.length then
      loadHeader m.unwritten.stack = { totalLen := 12, id := node.id, msgType := fileInfoShareError }
      else headerLen ≤ (load32 (requestPacket m.unwritten.fileInfoSharePkt m.received) 0).toNat := by
    simp only [AnswersFit, type, true_imp_iff]
  rw [fit]
  rcases share_cases type ran sent with ⟨short, rfl⟩ | ⟨whole, infos, -, -, rfl⟩
  · rw [well (.shareRefused type short), if_pos short]
    constructor
    · intro formed
      have total := formed.totalLen
      have id := formed.id
      have msgType := formed.msgType
      rw [header_of_load _ le_rfl] at total id msgType
      rw [length_load] at total
      have twelve : (loadHeader m.unwritten.stack).totalLen = 12 := UInt32.toNat_inj.mp total
      rw [← twelve, ← id, ← msgType]
    · intro header
      exact (wellFormed_load header (by decide)).mpr le_rfl
  · rw [well (.shared type (Nat.not_lt.mp whole)), if_neg whole]
    exact wellFormed_load (header_storeEntries storeFileInfo_behind _ _ _ _ infos) rfl

end Branches

theorem packets_well_formed_iff (node : SuperNode) (m : Delivery) (h : Handled) (ran : m.handle node = .ok h) :
    WritesWell node m h ↔ AnswersFit node.id m := by
  by_cases share : m.header.msgType = fileInfoShare
  · exact handleFileInfoShare_writes share ran
  refine iff_of_true ?_ fun type => absurd type share
  simp only [Delivery.handle, handleClientRequest] at ran
  split_ifs at ran with hello superHello info query
  · obtain rfl := Except.ok.inj ran
    exact writesWell_reply _ (.child hello) (wellFormed_header _ _)
  · obtain rfl := Except.ok.inj ran
    exact writesWell_reply _ (.super superHello) (wellFormed_header _ _)
  · exact handleFileInfo_writes info ran
  · exact handleSearchQuery_writes query ran
  · obtain rfl := Except.ok.inj ran
    exact writesWell_silent node

def childHello : Delivery where
  clientAddr := ⟨10, 0, 0, 9⟩
  received := helloFromChildPacket 3 40000
  unwritten := zeroed

theorem hello_answered_well :
    ∃ h, childHello.handle (startUp 7 fun _ => 0) = .ok h ∧ WritesWell (startUp 7 fun _ => 0) childHello h := by
  have type : childHello.header.msgType = helloFromChild := by decide +kernel
  obtain ⟨h, ran⟩ : ∃ h, childHello.handle (startUp 7 fun _ => 0) = .ok h :=
    ⟨_, by rw [Delivery.handle, handleClientRequest_hello type]; rfl⟩
  refine ⟨h, ran, (packets_well_formed_iff _ _ _ ran).mpr fun other => ?_⟩
  exact absurd (type.symm.trans other) (by decide)

def cutShare : Delivery where
  -- The header of a FILE_INFO_SHARE of 16 bytes, and no more of it.
  clientAddr := ⟨10, 0, 0, 9⟩
  received := headerPacket { totalLen := 16, id := 3, msgType := fileInfoShare }
  unwritten := zeroed

-- A truncated FILE_INFO_SHARE is answered with what the stack holds.
theorem stack_sent : ¬ ∀ (node : SuperNode) (m : Delivery) (h : Handled), superNode.Reachable node →
    m.received.length ≤ recvBuffSize → m.handle node = .ok h → WritesWell node m h := by
  intro claimed
  have short : cutShare.header.totalLen.toNat > cutShare.received.length := by decide +kernel
  have type : cutShare.header.msgType = fileInfoShare := by decide +kernel
  have ran : cutShare.handle (startUp 7 fun _ => 0) =
      .ok (.reply (startUp 7 fun _ => 0) (load cutShare.unwritten.stack 0 headerLen)) := by
    rw [Delivery.handle, handleClientRequest_share type, handleFileInfoShare, if_pos short]
  have start : superNode.Reachable (startUp 7 fun _ => 0) := .initial _ ⟨7, fun _ => 0, [], 0, rfl⟩
  obtain ⟨msgType, reply, formed⟩ := (claimed _ cutShare _ start (by decide +kernel) ran).replies _
    (List.mem_singleton.mpr rfl)
  have sent := formed.msgType
  rw [share_replyFor type reply, if_pos short] at sent
  revert sent
  decide +kernel

end NetProg.P4
