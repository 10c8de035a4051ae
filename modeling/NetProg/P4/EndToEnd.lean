import NetProg.Net.Address
import NetProg.P4.Answers
import NetProg.P4.ChildServer
import NetProg.P4.Get
import NetProg.P4.NodeRuns
import NetProg.P4.Replication

set_option autoImplicit false

namespace NetProg.P4

open Memory Probing Transition Files

structure Asking where
  -- A child that runs `get`, as its super node sees it, and what its blocks of memory hold before.
  id : UInt32
  clientAddr : InAddr
  searchQueryPkt : Block
  searchAnsSuccessPkt : Block
  fileReqPkt : Block
  fileResSuccessPkt : Block
  fileBuffer : Block

abbrev Listening := SockAddrIn → Option ChildNode

def peerOf (listening : Listening) (searchAnsSuccessPkt : Block) : Option ChildNode :=
  -- Who is behind `openClientSock(peerIp, peerPort)`.
  match loadString searchAnsSuccessPkt 12 20 with
  | some peerIp => (serverAddr peerIp (load32 searchAnsSuccessPkt 32)).bind listening
  | none => none

-- A `get` command none of whose calls fails; each `read` returns one packet.
def Asking.get (asking : Asking) (node : SuperNode) (own : Unwritten) (listening : Listening) (reqFile : List UInt8)
    (destFile : File UInt8) : Run (File UInt8) := do
  let query := searchQueryPacket asking.searchQueryPkt asking.id reqFile
  let h ← handleClientRequest node asking.clientAddr (readRecvBuff query) own
  let searchAnsSuccessPkt := store asking.searchAnsSuccessPkt 0 (h.replies.flatten.take 40)
  let peer := peerOf listening searchAnsSuccessPkt
  let (packets, _) ← match peer with
    | some peer => peer.handleClientRequest (some (fileReqPacket asking.fileReqPkt asking.id reqFile))
    | none => .ok ([], true)
  let run : GetRun := {
    superConnects := true
    searchAnsSuccessPkt
    peerConnects := peer.isSome
    fileResSuccessPkt := asking.fileResSuccessPkt
    fileBuffer := asking.fileBuffer
    reads := packets.map .packet
    opens := true
    writes := true }
  run.get destFile

-- Every record that a search for the name can find is of a child that listens and has the file.
def Offered (listening : Listening) (node : SuperNode) (fileName content : List UInt8) : Prop :=
  ∀ info, node.fileInfoTable.Has info → fileName <+: info.fileName →
    info.fileSize.toNat = content.length ∧ ∃ sinAddr peer, info.ipAddr = inetNtoa sinAddr ∧
      listening { sinPort := info.portNum.toUInt16, sinAddr } = some peer ∧ peer.Holds fileName content

theorem searchFileInfo_found {fileName : List UInt8} (hashed : 0 ≤ hashFunction fileName) {table : FileInformationTable}
    {info : FileInfoStore} (found : searchFileInfo fileName table.fileInfoList = .ok (some info)) :
    table.Has info ∧ fileName <+: info.fileName := by
  simp only [searchFileInfo, cellAt_home hashed, walk, bind, Except.bind] at found
  cases ended : scan (matchesName table.fileInfoList fileName) (homeCell fileName) hashTableSize with
  | none => simp [ended] at found
  | some cell =>
    simp only [ended, Except.ok.injEq] at found
    exact ⟨⟨cell, found⟩, (matchesName_iff _ _ _).mp (scan_stops ended) info found⟩

theorem receiveLoop_whole (id : UInt32) {chunks : List (List UInt8)} (cut : ∀ bytes ∈ chunks, Chunk bytes)
    (nonempty : chunks.flatten ≠ []) {fileSize : UInt32} (size : fileSize.toNat = chunks.flatten.length)
    (small : chunks.flatten.length < 2 ^ 31) (pkt buffer : Block) :
    ∃ r, receiveLoop fileSize (Receiving.start pkt buffer) ((chunks.map (resSuccessPacket id)).map .packet) =
      .ok (.complete r) ∧ load r.fileBuffer 0 chunks.flatten.length = chunks.flatten := by
  rcases List.eq_nil_or_concat chunks with rfl | ⟨before, last, rfl⟩
  · simp at nonempty
  · rw [List.concat_eq_append] at *
    obtain ⟨r, stored, -, loop⟩ := receiveLoop_cut id cut size (by omega) pkt buffer
    have ran := loop 0
    have whole : before.length + 1 = ((before ++ [last]).map (resSuccessPacket id)).length := by simp
    rw [cutReads, whole, List.take_length, List.replicate_zero, List.append_nil, if_pos List.flatten_nil] at ran
    exact ⟨r, ran, by simpa using stored.kept⟩

section Download

variable {listening : Listening} {node : SuperNode} {reqFile content : List UInt8}

theorem get_stores (sound : SoundName reqFile) (nonempty : content ≠ []) (small : content.length < 2 ^ 31)
    (offered : Offered listening node reqFile content) {info : FileInfoStore}
    (found : searchFileInfo reqFile node.fileInfoTable.fileInfoList = .ok (some info)) (asking : Asking)
    (own : Unwritten) (destFile : File UInt8) :
    asking.get node own listening reqFile destFile = .ok (some (overwrite (openCreate destFile) content)) := by
  obtain ⟨has, begins⟩ := searchFileInfo_found sound.hashed found
  obtain ⟨size, sinAddr, peer, ip, there, holds⟩ := offered info has begins
  have asked := query_handled node asking.clientAddr asking.searchQueryPkt asking.id sound.short sound.text own
  rw [found] at asked
  have short := inetNtoa_length sinAddr
  have read : AnswerRead (store asking.searchAnsSuccessPkt 0
      (searchAnsSuccessPacket own.searchAnsSuccessPkt node.id info)) node.id info :=
    answer_read _ _ _ (by rw [ip]; omega) (by rw [ip]; exact inetNtoa_nonzero sinAddr)
  have whole : (searchAnsSuccessPacket own.searchAnsSuccessPkt node.id info).take 40 =
      searchAnsSuccessPacket own.searchAnsSuccessPkt node.id info :=
    List.take_of_length_le (by rw [searchAnsSuccessPacket, length_load])
  generalize answer : store asking.searchAnsSuccessPkt 0
    (searchAnsSuccessPacket own.searchAnsSuccessPkt node.id info) = pkt at read
  have peers : peerOf listening pkt = some peer := by
    rw [peerOf, read.ipAddr, read.portNum, ip]
    simp only [serverAddr_inetNtoa, Option.bind_some, there]
  obtain ⟨chunks, cut, rfl, served⟩ := fileReq_served holds sound.short sound.text small asking.fileReqPkt asking.id
  obtain ⟨r, loop, stored⟩ := receiveLoop_whole peer.id cut nonempty (read.fileSize ▸ size) small
    asking.fileResSuccessPkt asking.fileBuffer
  have sizes : (load32 pkt 36).toNat = chunks.flatten.length := read.fileSize ▸ size
  simp only [Asking.get, asked, bind, Except.bind, Except.map, Handled.reply, searchAnswer, List.flatten_singleton, whole,
    answer, peers, served, GetRun.get, GetRun.transfer, GetRun.fileSize, GetRun.start, read.header, Option.isSome_some,
    field, read.ipAddr, loop]
  simp only [reduceCtorEq, ne_eq, not_true_eq_false, or_self, if_false, Option.bind_some, Received.storing,
    GetRun.store, GetRun.fileSize, sizes, stored]

end Download

section Runs

variable {s s' : Network}

inductive NodesMove (s s' : Network) : Prop where
  | kept (same : ∀ side, (s' side).node = (s side).node) : NodesMove s s'
  | handled (host : Side) (m : Delivery) (h : Handled) (ran : m.handle (s host).node = .ok h)
      (there : (s' host).node = h.node) (other : (s' host.other).node = (s host.other).node) : NodesMove s s'

theorem handleRead_moves {host : Side} {children : List ChildMessage} {rests : List (List UInt8)} {m : Delivery}
    {connects : Bool}
    (stepped : handleRead s host children rests m.clientAddr m.received m.unwritten connects = some s') :
    NodesMove s s' := by
  simp only [handleRead] at stepped
  split at stepped
  next h ran =>
    split at stepped
    all_goals
      obtain rfl := Option.some.inj stepped
      exact .handled host m h ran (by cases host <;> rfl) (by cases host <;> rfl)
  next =>
    obtain rfl := Option.some.inj stepped
    exact .kept fun side => by cases host <;> cases side <;> rfl
  next => cases stepped

theorem networkStep_moves {e : NetworkEvent} (stepped : networkStep s e = some s') : NodesMove s s' := by
  cases e with
  | arrive host m =>
    simp only [networkStep, arrive] at stepped
    split_ifs at stepped
    obtain rfl := Option.some.inj stepped
    exact .kept fun side => by cases host <;> cases side <;> rfl
  | child host i clientAddr unwritten connects =>
    simp only [networkStep, handleChild] at stepped
    split at stepped
    next m _ _ => exact handleRead_moves (m := ⟨clientAddr, readRecvBuff m.packet, unwritten⟩) stepped
    next => cases stepped
  | rest host i clientAddr unwritten connects =>
    simp only [networkStep, handleRest] at stepped
    split at stepped
    next bytes _ _ => exact handleRead_moves (m := ⟨clientAddr, readRecvBuff bytes, unwritten⟩) stepped
    next => cases stepped
  | peer host clientAddr unwritten =>
    simp only [networkStep, handlePeer] at stepped
    split at stepped
    next packet _ _ =>
      split at stepped
      next h ran =>
        obtain rfl := Option.some.inj stepped
        exact .handled host ⟨clientAddr, readRecvBuff packet, unwritten⟩ h ran (by cases host <;> rfl)
          (by cases host <;> rfl)
      next =>
        obtain rfl := Option.some.inj stepped
        exact .kept fun side => by cases host <;> cases side <;> rfl
      next => cases stepped
    next => cases stepped
  | resume host =>
    simp only [networkStep] at stepped
    split_ifs at stepped
    obtain rfl := Option.some.inj stepped
    exact .kept fun side => by cases host <;> cases side <;> rfl
  | spin host =>
    simp only [networkStep] at stepped
    split_ifs at stepped
    obtain rfl := Option.some.inj stepped
    exact .kept fun side => rfl

theorem networkStep_keeps {e : NetworkEvent} (stepped : networkStep s e = some s') {side : Side}
    (sane : (s side).node.Sane) {info : FileInfoStore} (has : (s side).node.fileInfoTable.Has info) :
    (s' side).node.Sane ∧ (s' side).node.fileInfoTable.Has info := by
  cases networkStep_moves stepped with
  | kept same => exact (same side).symm ▸ ⟨sane, has⟩
  | handled host m h ran there other =>
    rcases Side.eq_or_other side host with rfl | rfl
    · obtain ⟨entries, stores⟩ := sane
      obtain ⟨infos, inserted⟩ := handle_inserts ran
      exact there.symm ▸ ⟨⟨_, insertAll_stored stores inserted⟩, (insertAll_has stores inserted info).mpr (.inl has)⟩
    · exact other.symm ▸ ⟨sane, has⟩

theorem records_kept {events : List NetworkEvent} (ran : network.exec s events = some s') {side : Side}
    (sane : (s side).node.Sane) {info : FileInfoStore} (has : (s side).node.fileInfoTable.Has info) :
    (s' side).node.fileInfoTable.Has info :=
  (System.exec_invariant (P := fun s => (s side).node.Sane ∧ (s side).node.fileInfoTable.Has info)
    (fun _ _ _ known stepped => networkStep_keeps stepped known.1 known.2) ⟨sane, has⟩ ran).2

theorem records_replicated (reached : network.ReachableWhile Replicates s) {host side : Side} (quiet : (s side).share = none)
    {info : FileInfoStore} (has : (s host).node.fileInfoTable.Has info) : (s side).node.fileInfoTable.Has info := by
  obtain ⟨r, mirrors, mirrored⟩ := network_simulates.reachable reached
  have equal := Replication.totals_equal mirrors host side
  rw [Replication.Replicas.total, Replication.Replicas.total, mirrored.held, mirrored.held,
    (mirrored.coming side).of_none quiet, add_zero] at equal
  obtain ⟨entries, stores⟩ := (mirrored.fine host).sane
  obtain ⟨entries', stores'⟩ := (mirrored.fine side).sane
  rw [stores'.has_iff, ← Multiset.mem_coe, ← stores'.records, ← equal, stores.records]
  exact Multiset.mem_add.mpr (.inl (Multiset.mem_coe.mpr ((stores.has_iff info).mp has)))

theorem list_registers (reached : network.ReachableWhile Replicates s) {host : Side} {i : Nat} {clientAddr : InAddr}
    {unwritten : Unwritten} {connects : Bool} {buff : Block} {id : UInt32} {files : List FileInformation}
    (listed : (s host).children[i]? = some (.fileInfo buff id files))
    (accepting : (s host).node.Accepting (.fileInfo buff id files))
    (allowed : Replicates s (.child host i clientAddr unwritten connects) s')
    (stepped : networkStep s (.child host i clientAddr unwritten connects) = some s') {file : FileInformation}
    (member : file ∈ files) : (s' host).node.Sane ∧
      (s' host).node.fileInfoTable.Has (record clientAddr (findChildPort (s host).node.childPorts id) file) := by
  obtain ⟨r, -, mirrored⟩ := network_simulates.reachable reached
  have fine := mirrored.fine host
  obtain ⟨entries, stores⟩ := fine.sane
  have wellFormed := fine.wellFormed _ (List.mem_of_getElem? listed)
  obtain ⟨connected, -, room⟩ := allowed _ listed accepting
  rw [stores.len] at room
  obtain ⟨table, stored, handled⟩ := fileInfo_registers buff id wellFormed.2 accepting.1 (s host).node clientAddr
    unwritten accepting.2 stores room
  have selecting : (s host).pc = .selecting := by
    simp only [networkStep, handleChild] at stepped
    split at stepped
    next selecting _ => exact selecting
    next => cases stepped
  simp only [networkStep, handleChild, handleRead, selecting, listed, ChildMessage.packet, handled, connected, accepted,
    Option.some.injEq] at stepped
  have there : (s' host).node.fileInfoTable = table := by
    rw [← stepped, Function.update_of_ne (Side.other_ne host).symm, Function.update_self]
  rw [SuperNode.Sane, there]
  exact ⟨⟨_, stored⟩, (stored.has_iff _).mpr (List.mem_append_right _ (List.mem_map_of_mem member))⟩

theorem registered_file_downloaded {s₁ s : Network} (reached : network.ReachableWhile Replicates s₁)
    {host side : Side} {i : Nat} {clientAddr : InAddr} {unwritten : Unwritten} {connects : Bool} {buff : Block}
    {id : UInt32} {files : List FileInformation} {later : List NetworkEvent}
    (listed : (s₁ host).children[i]? = some (.fileInfo buff id files))
    (accepting : (s₁ host).node.Accepting (.fileInfo buff id files))
    (ran : network.execWhile Replicates s₁ (.child host i clientAddr unwritten connects :: later) = some s)
    (quiet : (s side).share = none) {file : FileInformation} (member : file ∈ files) {content : List UInt8}
    (nonempty : content ≠ []) (small : content.length < 2 ^ 31) {listening : Listening}
    (offered : Offered listening (s side).node file.fileName content) (asking : Asking) (own : Unwritten)
    (destFile : File UInt8) :
    asking.get (s side).node own listening file.fileName destFile =
      .ok (some (overwrite (openCreate destFile) content)) := by
  have whole := System.execWhile_reachable reached ran
  obtain ⟨s₂, stepped, allowed, rest⟩ := System.execWhile_cons.mp ran
  obtain ⟨sane, has⟩ := list_registers reached listed accepting allowed stepped member
  have known := records_replicated whole quiet (records_kept (System.execWhile_exec rest) sane has)
  obtain ⟨r, -, mirrored⟩ := network_simulates.reachable reached
  have sound := ((mirrored.fine host).wellFormed _ (List.mem_of_getElem? listed)).2 file member
  obtain ⟨r', -, mirrored'⟩ := network_simulates.reachable whole
  obtain ⟨entries, stores⟩ := (mirrored'.fine side).sane
  obtain ⟨info, found⟩ := stores.found ((stores.has_iff _).mp known) (show 0 ≤ hashFunction file.fileName from sound.hashed)
  exact get_stores sound nonempty small offered found asking own destFile

end Runs

-- The file `a` with five bytes.
def onePeer : ChildNode where
  id := 7
  files := {
    stat := fun path => if path = dataDir ++ [97] then some 5 else none
    opens := fun _ => true
    reads := fun _ => fileReads [[104, 101, 108, 108, 111]] }
  fileReqPkt := fun _ => 0
  fileResSuccessPkt := fun _ => 0

def oneListening : Listening := fun addr => if addr = ⟨9000, ⟨10, 0, 0, 1⟩⟩ then some onePeer else none

def oneAsking : Asking := ⟨8, ⟨10, 0, 0, 2⟩, fun _ => 0, fun _ => 0, fun _ => 0, fun _ => 0, fun _ => 0⟩

theorem list_and_share_run : ∃ s₁ s : Network, network.ReachableWhile Replicates s₁ ∧
    (s₁ .first).children = [oneList] ∧ (s₁ .first).node.Accepting oneList ∧
    network.execWhile Replicates s₁ [.child .first 0 ⟨10, 0, 0, 1⟩ zeroed true, .peer .second ⟨10, 0, 0, 9⟩ zeroed] = some s ∧
    (s .second).share = none ∧ Stores (records ⟨10, 0, 0, 1⟩ 9000 [⟨[97], 5⟩]) (s .second).node.fileInfoTable := by
  obtain ⟨s₁, ran, selecting, queue, table, known, selecting', table'⟩ : ∃ s, network.execWhile Replicates newNetwork
      [.arrive .first (.hello 7 9000), .child .first 0 ⟨10, 0, 0, 1⟩ zeroed true, .arrive .first oneList] = some s ∧
      (s .first).pc = .selecting ∧ (s .first).children = [oneList] ∧
        (s .first).node.fileInfoTable = initFileInfoTable ∧ findChildPort (s .first).node.childPorts 7 = 9000 ∧
        (s .second).pc = .selecting ∧ (s .second).node.fileInfoTable = initFileInfoTable :=
    ⟨_, rfl, rfl, rfl, rfl, rfl, rfl, rfl⟩
  have reached := System.execWhile_reachable (.initial newNetwork fun _ => ⟨rfl, rfl, rfl, rfl, rfl, rfl⟩) ran
  have sound : ∀ file ∈ [(⟨[97], 5⟩ : FileInformation)], SoundName file.fileName := by decide
  have accepting : (s₁ .first).node.Accepting oneList := ⟨by decide, by rw [known]; decide⟩
  let infos := records ⟨10, 0, 0, 1⟩ 9000 [⟨[97], 5⟩]
  have hashes := records_hash sound ⟨10, 0, 0, 1⟩ 9000
  have fits := records_fit ⟨10, 0, 0, 1⟩ 9000 (fits_sound sound)
  obtain ⟨first, -, handled⟩ := fileInfo_registers (fun _ => 0) 7 sound (by decide) (s₁ .first).node ⟨10, 0, 0, 1⟩ zeroed
    accepting.2 (table ▸ initFileInfoTable_stores) (by decide)
  obtain ⟨second, inserted, stored⟩ := insertAll_stores (table' ▸ initFileInfoTable_stores) hashes (by decide)
  obtain ⟨reply, shared⟩ := share_accepted zeroed.fileInfoSharePkt (s₁ .first).node.id fits (by decide) ⟨10, 0, 0, 9⟩ zeroed
    inserted
  rw [known] at handled
  let packet := sharePacket zeroed.fileInfoSharePkt (s₁ .first).node.id infos
  let s₂ : Network := Function.update (Function.update s₁ .first
    { s₁ .first with
      node := { (s₁ .first).node with fileInfoTable := first }
      pc := .awaiting
      children := []
      rests := (s₁ .first).rests ++ unreadRest oneList.packet
      answered := false })
    .second { s₁ .second with share := some packet }
  let s : Network := Function.update (Function.update s₂ .second
    { s₂ .second with
      node := { (s₁ .second).node with fileInfoTable := second }
      share := none
      rests := (s₁ .second).rests ++ unreadRest packet })
    .first { s₂ .first with answered := true }
  have taken : networkStep s₁ (.child .first 0 ⟨10, 0, 0, 1⟩ zeroed true) = some s₂ := by
    simp [networkStep, handleChild, handleRead, selecting, queue, oneList, ChildMessage.packet, handled, accepted, s₂, packet, infos,
      Side.other]
  have arrived : networkStep s₂ (.peer .second ⟨10, 0, 0, 9⟩ zeroed) = some s := by
    have there : s₂ .second = { s₁ .second with share := some packet } := Function.update_self _ _ _
    simp [networkStep, handlePeer, there, selecting', packet, infos, shared, Handled.reply, s, Side.other]
  have few : Replicates s₁ (.child .first 0 ⟨10, 0, 0, 1⟩ zeroed true) s₂ := by
    intro m found _
    obtain rfl : oneList = m := by simpa [queue] using found
    exact ⟨rfl, by decide, by rw [table]; decide⟩
  have room : Replicates s₂ (.peer .second ⟨10, 0, 0, 9⟩ zeroed) s := by
    intro packet' found
    obtain rfl : packet = packet' := by simpa [s₂] using found
    rw [show (s₂ .second).node.fileInfoTable = initFileInfoTable by simpa [s₂] using table',
      shareCount_packet _ _ fits (by decide)]
    decide
  exact ⟨s₁, s, reached, queue, accepting, System.execWhile_cons.mpr ⟨s₂, taken, few, System.execWhile_cons.mpr
    ⟨s, arrived, room, rfl⟩⟩, rfl, stored⟩

theorem onePeer_holds : onePeer.Holds [97] [104, 101, 108, 108, 111] :=
  ⟨rfl, rfl, [[104, 101, 108, 108, 111]], by decide, rfl, rfl⟩

theorem file_reaches_other_side : ∃ s : Network, oneAsking.get (s .second).node zeroed oneListening [97] none =
    .ok (some [104, 101, 108, 108, 111]) := by
  obtain ⟨s₁, s, reached, queue, accepting, ran, quiet, stored⟩ := list_and_share_run
  have offered : Offered oneListening (s .second).node [97] [104, 101, 108, 108, 111] := by
    intro info has _
    obtain rfl := List.mem_singleton.mp ((stored.has_iff info).mp has)
    exact ⟨rfl, ⟨10, 0, 0, 1⟩, onePeer, rfl, rfl, onePeer_holds⟩
  have listed : (⟨[97], 5⟩ : FileInformation) ∈ [(⟨[97], 5⟩ : FileInformation)] := List.mem_singleton.mpr rfl
  exact ⟨s, registered_file_downloaded reached (by rw [queue]; rfl) accepting ran quiet listed (by decide) (by decide)
    offered oneAsking zeroed none⟩

end NetProg.P4
