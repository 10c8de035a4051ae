import NetProg.P4.Answers

set_option autoImplicit false

namespace NetProg.P4

open Memory Transition Probing

def Delivery.child (m : Delivery) : ChildListeningPort :=
  -- The place that a HELLO_FROM_CHILD asks for.
  { id := load32 (receiveBuffer m.received) 4, portNum := load32 (receiveBuffer m.received) 12 }

inductive Delivery.Moves (m : Delivery) (node : SuperNode) : SuperNode → Prop where
  | greets (type : m.header.msgType = helloFromChild) :
      m.Moves node { node with childPorts := storeChild node.childPorts m.child }
  | names (type : m.header.msgType = helloSuperToSuper) :
      m.Moves node { node with otherSuperPortNum := load32 (receiveBuffer m.received) 12
                               otherSuperIpAddr := inetNtoa m.clientAddr }
  | lists (infos : List FileInfoStore) (table : FileInformationTable) (fileInfoPkt : Block)
      (type : m.header.msgType = fileInfo)
      (accepts : Accepts node m.clientAddr (receiveBuffer m.received) m.received.length m.unwritten infos table
        fileInfoPkt) : m.Moves node { node with fileInfoTable := table }
  | shares (infos : List FileInfoStore) (table : FileInformationTable) (fileInfoSharePkt : Block)
      (type : m.header.msgType = fileInfoShare)
      (copied : copyPacket m.unwritten.fileInfoSharePkt (receiveBuffer m.received) m.header.totalLen.toNat 12416 =
        .ok fileInfoSharePkt)
      (count : infos.length = (load32 fileInfoSharePkt fileNumAt).toNat)
      (copies : Copies (readFileInfo fileInfoSharePkt) 0 infos node.fileInfoTable table) :
      m.Moves node { node with fileInfoTable := table }
  | stays (type : m.header.msgType ≠ helloFromChild) : m.Moves node node

theorem handleFileInfoShare_table {node : SuperNode} {recvBuff : Block} {bytesRead : Nat} {unwritten : Unwritten}
    {h : Handled} (ran : handleFileInfoShare node recvBuff bytesRead unwritten = .ok h) :
    h.node = { node with fileInfoTable := h.node.fileInfoTable } := by
  simp only [handleFileInfoShare, bind, Except.bind] at ran
  split_ifs at ran
  · obtain rfl := Except.ok.inj ran
    rfl
  · split at ran
    next => cases ran
    next =>
      split at ran
      next => cases ran
      next =>
        obtain rfl := Except.ok.inj ran
        rfl

theorem Delivery.handle_moves {m : Delivery} {node : SuperNode} {h : Handled} (ran : m.handle node = .ok h) :
    m.Moves node h.node := by
  simp only [Delivery.handle, handleClientRequest] at ran
  split_ifs at ran with hello superHello list query share
  · obtain rfl := Except.ok.inj ran
    exact .greets hello
  · obtain rfl := Except.ok.inj ran
    exact .names superHello
  · cases shared : h.share with
    | none =>
      rw [handleFileInfo_quiet ran shared]
      exact .stays hello
    | some packet =>
      obtain ⟨infos, table, fileInfoPkt, accepts⟩ := handleFileInfo_shared ran shared
      obtain rfl := Except.ok.inj (ran.symm.trans (handleFileInfo_accepts accepts))
      exact .lists infos table fileInfoPkt list accepts
  · rw [(handleSearchQuery_quiet ran).1]
    exact .stays hello
  · rcases handleFileInfoShare_cases ran with ⟨-, same⟩ | ⟨pkt, infos, copied, count, copies⟩
    · rw [same]
      exact .stays hello
    · rw [handleFileInfoShare_table ran]
      exact .shares infos _ pkt share copied count copies
  · obtain rfl := Except.ok.inj ran
    exact .stays hello

theorem superNode_moves {node node' : SuperNode} {m : Delivery} (stepped : superNode.step node m = some node') :
    m.Moves node node' := by
  obtain ⟨-, h, ran, rfl⟩ := superNode_step stepped
  exact Delivery.handle_moves ran

def Delivery.greeting (m : Delivery) : Option ChildListeningPort :=
  if m.header.msgType = helloFromChild then some m.child else none

-- The children that have got a place, in the order of their greetings; port 0 is an empty place.
def seats (messages : List Delivery) : List ChildListeningPort :=
  ((messages.filterMap Delivery.greeting).filter fun child => child.portNum ≠ 0).take childNumber

def portOf (children : List ChildListeningPort) (id : UInt32) : UInt32 :=
  match children.find? fun child => child.id = id with
  | some child => child.portNum
  | none => 0

structure SeatedAs (childPorts : Fin childNumber → ChildListeningPort) (children : List ChildListeningPort) : Prop where
  count : children.length ≤ childNumber
  taken : ∀ (i : Fin childNumber) (inside : i.val < children.length), childPorts i = children[i.val]
  free : ∀ i : Fin childNumber, children.length ≤ i.val → (childPorts i).portNum = 0
  ports : ∀ child ∈ children, child.portNum ≠ 0

section Seats

variable {childPorts : Fin childNumber → ChildListeningPort} {children : List ChildListeningPort}

theorem SeatedAs.port (seated : SeatedAs childPorts children) (id : UInt32) :
    findChildPort childPorts id = portOf children id := by
  have count := seated.count
  cases found : (List.finRange childNumber).find? fun i => (childPorts i).id = id with
  | none =>
    have absent : children.find? (fun child => child.id = id) = none := by
      rw [List.find?_eq_none]
      intro child member own
      obtain ⟨k, inside, rfl⟩ := List.getElem_of_mem member
      have here := seated.taken ⟨k, by omega⟩ inside
      have nowhere := List.find?_eq_none.mp found ⟨k, by omega⟩ (List.mem_finRange _)
      simp only [here] at nowhere
      exact nowhere own
    simp only [findChildPort, found, portOf, absent]
  | some i =>
    obtain ⟨own, before⟩ := find_first.mp found
    simp only [findChildPort, found]
    by_cases inside : i.val < children.length
    · have first : children.find? (fun child => child.id = id) = some children[i.val] := by
        rw [List.find?_eq_some_iff_getElem]
        refine ⟨?_, i.val, inside, rfl, fun j earlier => ?_⟩
        · rwa [seated.taken i inside] at own
        · have other := before ⟨j, by omega⟩ earlier
          rw [seated.taken ⟨j, by omega⟩ (by simp only []; omega)] at other
          simpa using other
      simp only [portOf, first, seated.taken i inside]
    · have absent : children.find? (fun child => child.id = id) = none := by
        rw [List.find?_eq_none]
        intro child member
        obtain ⟨k, bound, rfl⟩ := List.getElem_of_mem member
        have other := before ⟨k, by omega⟩ (Fin.mk_lt_of_lt_val (by omega))
        rw [seated.taken ⟨k, by omega⟩ bound] at other
        simpa using other
      simp only [portOf, absent, seated.free i (by omega)]

theorem SeatedAs.slot (seated : SeatedAs childPorts children) :
    findChildSlot childPorts = if room : children.length < childNumber then some ⟨children.length, room⟩ else none := by
  have occupied (j : Fin childNumber) (inside : j.val < children.length) : (childPorts j).portNum ≠ 0 := by
    rw [seated.taken j inside]
    exact seated.ports _ (List.getElem_mem inside)
  split_ifs with room
  · refine find_first.mpr ⟨by simpa using seated.free _ (le_refl _), fun j earlier => ?_⟩
    simpa using occupied j earlier
  · rw [findChildSlot, List.find?_eq_none]
    intro j _
    simpa using occupied j (by omega)

theorem SeatedAs.greet (seated : SeatedAs childPorts children) (child : ChildListeningPort) :
    SeatedAs (storeChild childPorts child)
      (if child.portNum ≠ 0 then (children ++ [child]).take childNumber else children) := by
  rw [storeChild, seated.slot]
  by_cases room : children.length < childNumber
  · simp only [dif_pos room]
    have others (j : Fin childNumber) (other : j.val ≠ children.length) :
        Function.update childPorts ⟨children.length, room⟩ child j = childPorts j :=
      Function.update_of_ne (fun same => other (congrArg Fin.val same)) _ _
    split_ifs with known
    · have whole : (children ++ [child]).length ≤ childNumber := by
        rw [List.length_append, List.length_singleton]
        omega
      rw [List.take_of_length_le whole]
      constructor
      case count => exact whole
      case taken =>
        intro i inside
        by_cases last : i.val = children.length
        · obtain rfl : i = ⟨children.length, room⟩ := Fin.ext last
          simp
        · rw [List.length_append, List.length_singleton] at inside
          rw [others i last, seated.taken i (by omega), List.getElem_append_left]
      case free =>
        intro i beyond
        rw [List.length_append, List.length_singleton] at beyond
        rw [others i (by omega)]
        exact seated.free i (by omega)
      case ports =>
        intro c member
        rcases List.mem_append.mp member with earlier | last
        · exact seated.ports c earlier
        · rwa [List.mem_singleton.mp last]
    · constructor
      case count => exact seated.count
      case taken =>
        intro i inside
        rw [others i (by omega)]
        exact seated.taken i inside
      case free =>
        intro i beyond
        by_cases last : i.val = children.length
        · obtain rfl : i = ⟨children.length, room⟩ := Fin.ext last
          simpa using known
        · rw [others i last]
          exact seated.free i beyond
      case ports => exact seated.ports
  · have full : children.length = childNumber := Nat.le_antisymm seated.count (by omega)
    simp only [dif_neg room]
    rw [← full, List.take_left, ite_id]
    exact seated

end Seats

theorem seats_append (messages later : List Delivery) : seats messages <+: seats (messages ++ later) := by
  simp only [seats, List.filterMap_append, List.filter_append]
  exact (List.prefix_append _ _).take childNumber

theorem seats_concat (messages : List Delivery) (m : Delivery) :
    seats (messages ++ [m]) = match m.greeting with
      | some child => if child.portNum ≠ 0 then (seats messages ++ [child]).take childNumber else seats messages
      | none => seats messages := by
  have again (children : List ChildListeningPort) (child : ChildListeningPort) :
      (children.take childNumber ++ [child]).take childNumber = (children ++ [child]).take childNumber := by
    have left : childNumber - min childNumber children.length = childNumber - children.length := by omega
    rw [List.take_append, List.take_append, List.take_take, Nat.min_self, List.length_take, left]
  cases greeted : m.greeting with
  | none => simp [seats, greeted]
  | some child =>
    by_cases known : child.portNum = 0
    · simp [seats, greeted, known]
    · simp [seats, greeted, known, again]

theorem portOf_prefix {children later : List ChildListeningPort} (more : children <+: later) {id : UInt32}
    (known : portOf children id ≠ 0) : portOf later id = portOf children id := by
  obtain ⟨rest, rfl⟩ := more
  cases found : children.find? fun child => child.id = id with
  | none => simp [portOf, found] at known
  | some child => simp [portOf, found, List.find?_append]

-- The record is one of those that the message brings, if the sender of a list is known by `port`.
inductive Delivery.Brings (m : Delivery) (port : UInt32) (info : FileInfoStore) : Prop where
  | list (fileInfoPkt : Block) (i : Nat) (type : m.header.msgType = fileInfo) (known : port ≠ 0)
      (copied : copyPacket m.unwritten.fileInfoPkt (receiveBuffer m.received) m.header.totalLen.toNat 10016 =
        .ok fileInfoPkt)
      (inside : i < (load32 fileInfoPkt fileNumAt).toNat)
      (entry : readFileInformation fileInfoPkt m.clientAddr port i = .ok info) : m.Brings port info
  | share (fileInfoSharePkt : Block) (i : Nat) (type : m.header.msgType = fileInfoShare)
      (copied : copyPacket m.unwritten.fileInfoSharePkt (receiveBuffer m.received) m.header.totalLen.toNat 12416 =
        .ok fileInfoSharePkt)
      (inside : i < (load32 fileInfoSharePkt fileNumAt).toNat)
      (entry : readFileInfo fileInfoSharePkt i = .ok info) : m.Brings port info

section Insertions

variable {before after : FileInformationTable} {infos : List FileInfoStore}

theorem insertFileInfo_effect {fileInfo : FileInfoStore} {code : Int}
    (ran : insertFileInfo fileInfo before = .ok (code, after)) :
    after = before ∨ ∃ cell, before.fileInfoList cell = none ∧
      after.fileInfoList = Function.update before.fileInfoList cell (some fileInfo) := by
  simp only [insertFileInfo, bind, Except.bind] at ran
  split_ifs at ran
  · exact .inl (Prod.mk.inj (Except.ok.inj ran)).2.symm
  · split at ran
    next => cases ran
    next home located =>
      split at ran
      next => cases ran
      next cell walked =>
        obtain ⟨-, rfl⟩ := Prod.mk.inj (Except.ok.inj ran)
        simp only [walk] at walked
        split at walked
        next c found =>
          obtain rfl := Except.ok.inj walked
          exact .inr ⟨c, by simpa using scan_stops found, rfl⟩
        next => cases walked

structure Adds (infos : List FileInfoStore) (before after : FileInformationTable) : Prop where
  kept : ∀ cell info, before.fileInfoList cell = some info → after.fileInfoList cell = some info
  new : ∀ info, after.Has info → before.Has info ∨ info ∈ infos

theorem Adds.refl (infos : List FileInfoStore) (table : FileInformationTable) : Adds infos table table :=
  ⟨fun _ _ stored => stored, fun _ has => .inl has⟩

theorem insertAll_adds (ran : insertAll before infos = .ok after) : Adds infos before after := by
  induction infos generalizing before with
  | nil =>
    obtain rfl : before = after := Except.ok.inj ran
    exact .refl [] before
  | cons fileInfo rest ih =>
    simp only [insertAll, bind, Except.bind] at ran
    split at ran
    next => cases ran
    next inserted first =>
      have later := ih ran
      rcases insertFileInfo_effect first with same | ⟨cell, empty, stored⟩
      · rw [same] at later
        exact ⟨later.kept, fun info has => (later.new info has).imp_right (List.mem_cons_of_mem _)⟩
      · constructor
        case kept =>
          intro c info here
          have other : c ≠ cell := by
            rintro rfl
            simp [empty] at here
          exact later.kept c info (by rw [stored, Function.update_of_ne other, here])
        case new =>
          intro info has
          rcases later.new info has with ⟨c, here⟩ | member
          · rw [stored] at here
            by_cases last : c = cell
            · subst last
              obtain rfl : fileInfo = info := by simpa using here
              exact .inr (by simp)
            · exact .inl ⟨c, by rwa [Function.update_of_ne last] at here⟩
          · exact .inr (List.mem_cons_of_mem _ member)

end Insertions

theorem Delivery.Moves.adds {m : Delivery} {node node' : SuperNode} (moves : m.Moves node node') :
    ∃ infos, Adds infos node.fileInfoTable node'.fileInfoTable ∧
      ∀ info ∈ infos, m.Brings (findChildPort node.childPorts m.header.id) info := by
  cases moves with
  | lists infos table fileInfoPkt type accepts =>
    refine ⟨infos, insertAll_adds accepts.copies.stored, fun info member => ?_⟩
    obtain ⟨i, inside, rfl⟩ := List.getElem_of_mem member
    have entry := accepts.copies.reads i inside
    rw [Nat.zero_add] at entry
    exact .list fileInfoPkt i type accepts.port accepts.copied (accepts.count ▸ inside) entry
  | shares infos table fileInfoSharePkt type copied count copies =>
    refine ⟨infos, insertAll_adds copies.stored, fun info member => ?_⟩
    obtain ⟨i, inside, rfl⟩ := List.getElem_of_mem member
    have entry := copies.reads i inside
    rw [Nat.zero_add] at entry
    exact .share fileInfoSharePkt i type copied (count ▸ inside) entry
  | greets type => exact ⟨[], .refl [] _, by simp⟩
  | names type => exact ⟨[], .refl [] _, by simp⟩
  | stays type => exact ⟨[], .refl [] _, by simp⟩

theorem Delivery.Moves.seated {m : Delivery} {node node' : SuperNode} (moves : m.Moves node node')
    {messages : List Delivery} (seated : SeatedAs node.childPorts (seats messages)) :
    SeatedAs node'.childPorts (seats (messages ++ [m])) := by
  have quiet (type : m.header.msgType ≠ helloFromChild) : seats (messages ++ [m]) = seats messages := by
    rw [seats_concat, Delivery.greeting, if_neg type]
  cases moves with
  | greets type =>
    rw [seats_concat, Delivery.greeting, if_pos type]
    exact seated.greet m.child
  | names type => rwa [quiet (by rw [type]; decide)]
  | lists infos table fileInfoPkt type accepts => rwa [quiet (by rw [type]; decide)]
  | shares infos table fileInfoSharePkt type copied count copies => rwa [quiet (by rw [type]; decide)]
  | stays type => rwa [quiet type]

section Runs

variable {start node : SuperNode} {messages : List Delivery}

theorem run_seats (starts : superNode.init start) (ran : superNode.exec start messages = some node) :
    SeatedAs node.childPorts (seats messages) := by
  refine System.exec_induction (P := fun messages node => SeatedAs node.childPorts (seats messages)) ?_ ?_ ran
  · obtain ⟨id, ids, ip, port, rfl⟩ := starts
    exact ⟨by simp [seats], by simp [seats], by simp [startUp], by simp [seats]⟩
  · intro messages mid m next seated stepped
    exact (superNode_moves stepped).seated seated

theorem records_have_senders (starts : superNode.init start) (ran : superNode.exec start messages = some node) :
    (∀ id, findChildPort node.childPorts id = portOf (seats messages) id) ∧
      ∀ info, node.fileInfoTable.Has info → ∃ before m after, messages = before ++ m :: after ∧
        m.Brings (portOf (seats before) m.header.id) info := by
  refine ⟨fun id => (run_seats starts ran).port id, ?_⟩
  have sent : SeatedAs node.childPorts (seats messages) ∧ ∀ info, node.fileInfoTable.Has info →
      ∃ before m after, messages = before ++ m :: after ∧ m.Brings (portOf (seats before) m.header.id) info := by
    refine System.exec_induction (P := fun messages node => SeatedAs node.childPorts (seats messages) ∧
      ∀ info, node.fileInfoTable.Has info → ∃ before m after, messages = before ++ m :: after ∧
        m.Brings (portOf (seats before) m.header.id) info) ?_ ?_ ran
    · refine ⟨run_seats starts rfl, fun info ⟨cell, stored⟩ => ?_⟩
      obtain ⟨id, ids, ip, port, rfl⟩ := starts
      cases stored
    · rintro earlier mid m next ⟨seated, senders⟩ stepped
      have moves := superNode_moves stepped
      obtain ⟨infos, adds, brought⟩ := moves.adds
      refine ⟨moves.seated seated, fun info has => ?_⟩
      rcases adds.new info has with old | member
      · obtain ⟨before, m', after, rfl, brings⟩ := senders info old
        exact ⟨before, m', after ++ [m], by simp, brings⟩
      · have brings := brought info member
        rw [seated.port] at brings
        exact ⟨earlier, m, [], rfl, brings⟩
  exact sent.2

end Runs

def oneHello : Delivery := ⟨⟨10, 0, 0, 1⟩, readRecvBuff (helloFromChildPacket 7 9000), zeroed⟩

def oneFileList : Delivery := ⟨⟨10, 0, 0, 1⟩, readRecvBuff (fileInfoPacket (fun _ => 0) 7 [⟨[97], 5⟩]), zeroed⟩

theorem one_list_runs : ∃ node, superNode.exec (startUp 3 fun _ => 0) [oneHello, oneFileList] = some node ∧
    Stores (records ⟨10, 0, 0, 1⟩ 9000 [⟨[97], 5⟩]) node.fileInfoTable := by
  let greeted : SuperNode := { startUp 3 (fun _ => 0) with
    childPorts := storeChild (startUp 3 fun _ => 0).childPorts { id := 7, portNum := 9000 } }
  have hello : oneHello.handle (startUp 3 fun _ => 0) = .ok _ := hello_handled _ _ 7 9000 _
  have welcomed : superNode.step (startUp 3 fun _ => 0) oneHello = some greeted :=
    superNode_handles (readRecvBuff_short _) hello
  have port : findChildPort greeted.childPorts 7 = 9000 := by decide
  have sound : ∀ file ∈ [(⟨[97], 5⟩ : FileInformation)], SoundName file.fileName := by decide
  obtain ⟨table, stored, handled⟩ := fileInfo_registers (fun _ => 0) 7 sound (by decide) greeted ⟨10, 0, 0, 1⟩ zeroed
    (by rw [port]; decide) initFileInfoTable_stores (by decide)
  rw [port, List.nil_append] at stored
  rw [port] at handled
  have listed : superNode.step greeted oneFileList = some { greeted with fileInfoTable := table } :=
    superNode_handles (m := oneFileList) (readRecvBuff_short _) handled
  refine ⟨{ greeted with fileInfoTable := table }, ?_, stored⟩
  rw [System.exec_cons welcomed, System.exec_cons listed]
  rfl

theorem one_record_has_sender : ∃ (node : SuperNode) (info : FileInfoStore), node.fileInfoTable.Has info ∧
    ∃ before m after, [oneHello, oneFileList] = before ++ m :: after ∧
      m.Brings (portOf (seats before) m.header.id) info := by
  obtain ⟨node, ran, stored⟩ := one_list_runs
  have has : node.fileInfoTable.Has (record ⟨10, 0, 0, 1⟩ 9000 ⟨[97], 5⟩) := (stored.has_iff _).mpr (by simp [records])
  exact ⟨node, _, has, (records_have_senders ⟨3, fun _ => 0, [], 0, rfl⟩ ran).2 _ has⟩

theorem searchFileInfo_kept {fileName : List UInt8} {cells cells' : FileInfoList} {info : FileInfoStore}
    (kept : ∀ cell info, cells cell = some info → cells' cell = some info)
    (found : searchFileInfo fileName cells = .ok (some info)) : searchFileInfo fileName cells' = .ok (some info) := by
  simp only [searchFileInfo, bind, Except.bind] at found ⊢
  cases located : cellAt (hashFunction fileName) with
  | error stuck => simp [located] at found
  | ok home =>
    simp only [located, walk] at found ⊢
    cases ended : scan (matchesName cells fileName) home hashTableSize with
    | none => simp [ended] at found
    | some cell =>
      simp only [ended, Except.ok.injEq] at found
      have hit : matchesName cells' fileName cell = true := by
        have matched := scan_stops ended
        rw [matchesName, found] at matched
        rw [matchesName, kept cell info found]
        exact matched
      have passed (k : Fin hashTableSize) (goesOn : matchesName cells fileName k = false) :
          matchesName cells' fileName k = false := by
        cases stored : cells k with
        | none => simp [matchesName, stored] at goesOn
        | some other =>
          rw [matchesName, stored] at goesOn
          rw [matchesName, kept k other stored]
          exact goesOn
      rw [scan_congr _ ended hit passed]
      simp only [kept cell info found]

def Handled.Found (h : Handled) : Prop :=
  ∀ reply ∈ h.replies, (loadHeader (ofBytes reply)).msgType = searchAnsSuccess

theorem searchFileInfo_stored {fileName : List UInt8} {cells : FileInfoList} {info : FileInfoStore}
    (found : searchFileInfo fileName cells = .ok (some info)) : ∃ cell, cells cell = some info := by
  simp only [searchFileInfo, bind, Except.bind] at found
  cases located : cellAt (hashFunction fileName) with
  | error stuck => simp [located] at found
  | ok home =>
    simp only [located, walk] at found
    cases ended : scan (matchesName cells fileName) home hashTableSize with
    | none => simp [ended] at found
    | some cell =>
      simp only [ended, Except.ok.injEq] at found
      exact ⟨cell, found⟩

theorem answer_bytes (unwritten : Block) (id : UInt32) {info : FileInfoStore} (fits : info.Fits) :
    AnswerRead (ofBytes (searchAnsSuccessPacket unwritten id info)) id info := by
  rw [ofBytes_eq]
  exact answer_read _ _ _ fits.ipShort fits.ipText

theorem query_found {node : SuperNode} {recvBuff : Block} (whole : (loadHeader recvBuff).totalLen = 108)
    {unwritten : Unwritten} {h : Handled} (ran : handleSearchQuery node recvBuff unwritten = .ok h) (found : h.Found) :
    ∃ fileName info, field recvBuff 12 fileNameLen = .ok fileName ∧
      searchFileInfo fileName node.fileInfoTable.fileInfoList = .ok (some info) ∧
      h.replies = [searchAnsSuccessPacket unwritten.searchAnsSuccessPkt node.id info] := by
  rw [handleSearchQuery_whole whole] at ran
  cases named : field recvBuff 12 fileNameLen with
  | error stuck => simp [named, Except.bind] at ran
  | ok fileName =>
    simp only [named, Except.bind] at ran
    cases searched : searchFileInfo fileName node.fileInfoTable.fileInfoList with
    | error stuck => simp [searched, Except.map] at ran
    | ok answer =>
      simp only [searched, Except.map, Except.ok.injEq] at ran
      subst ran
      cases answer with
      | none =>
        have fails := found _ (List.mem_singleton.mpr rfl)
        rw [searchAnswer, headerPacket_header] at fails
        cases fails
      | some info => exact ⟨fileName, info, rfl, searched, rfl⟩

structure SuperNode.Later (node node' : SuperNode) : Prop where
  id : node'.id = node.id
  cells : ∀ cell info, node.fileInfoTable.fileInfoList cell = some info →
    node'.fileInfoTable.fileInfoList cell = some info

theorem superNode_later {node node' : SuperNode} {messages : List Delivery}
    (ran : superNode.exec node messages = some node') : node.Later node' := by
  refine System.exec_invariant (P := node.Later) ?_ ⟨rfl, fun _ _ stored => stored⟩ ran
  intro mid m next later stepped
  have moves := superNode_moves stepped
  obtain ⟨infos, adds, -⟩ := moves.adds
  constructor
  case id =>
    rw [← later.id]
    cases moves <;> rfl
  case cells => exact fun cell info stored => adds.kept cell info (later.cells cell info stored)

theorem superNode_fits {start node : SuperNode} {messages : List Delivery} (starts : superNode.init start)
    (ran : superNode.exec start messages = some node) : RecordsFit node.fileInfoTable := by
  refine System.exec_invariant (P := fun node => RecordsFit node.fileInfoTable) ?_ ?_ ran
  · intro mid m next fit stepped
    obtain ⟨-, h, handled, rfl⟩ := superNode_step stepped
    exact fit.handled handled
  · obtain ⟨id, ids, ip, port, rfl⟩ := starts
    intro cell stored here
    cases here

-- The later query comes in blocks of its own, and the bytes of a reply that nobody writes may differ.
theorem answers_kept {start node node' : SuperNode} {messages later : List Delivery} (starts : superNode.init start)
    (ran : superNode.exec start messages = some node) (onward : superNode.exec node later = some node') :
    (∀ (m m' : Delivery) (h : Handled), m.header.msgType = searchQuery → m.header.totalLen = 108 →
      m'.received = m.received → m.handle node = .ok h → h.Found →
      ∃ info reply reply', h.replies = [reply] ∧ AnswerRead (ofBytes reply) node.id info ∧
        m'.handle node' = .ok (.reply node' reply') ∧ AnswerRead (ofBytes reply') node.id info) ∧
    ∀ id, findChildPort node.childPorts id ≠ 0 → findChildPort node'.childPorts id = findChildPort node.childPorts id := by
  constructor
  · intro m m' h type whole same handled found
    have grown := superNode_later onward
    have query (d : Delivery) (receiver : SuperNode) (same : d.received = m.received) :
        d.handle receiver = handleSearchQuery receiver (receiveBuffer m.received) d.unwritten := by
      simp [Delivery.handle, handleClientRequest, same, type, searchQuery, fileInfo, helloFromChild, helloSuperToSuper]
    rw [query m node rfl] at handled
    obtain ⟨fileName, info, named, searched, answered⟩ := query_found whole handled found
    obtain ⟨cell, stored⟩ := searchFileInfo_stored searched
    have fits := superNode_fits starts ran cell info stored
    refine ⟨info, _, _, answered, answer_bytes _ _ fits, ?_, answer_bytes m'.unwritten.searchAnsSuccessPkt _ fits⟩
    rw [query m' node' same, handleSearchQuery_whole whole, named]
    simp only [Except.bind, searchFileInfo_kept grown.cells searched, Except.map, grown.id, searchAnswer]
  · intro id known
    have whole : superNode.exec start (messages ++ later) = some node' := by rw [System.exec_append ran, onward]
    rw [(run_seats starts ran).port] at known
    rw [(run_seats starts whole).port, (run_seats starts ran).port]
    exact portOf_prefix (seats_append messages later) known

def oneQuery : Delivery := ⟨⟨10, 0, 0, 2⟩, readRecvBuff (searchQueryPacket (fun _ => 0) 8 [97]), zeroed⟩

-- The same query in blocks that hold something else.
def sameQuery : Delivery :=
  { oneQuery with clientAddr := ⟨10, 0, 0, 3⟩, unwritten := { zeroed with searchAnsSuccessPkt := fun _ => 255 } }

theorem one_answer_kept : ∃ (node node' : SuperNode) (h : Handled), superNode.step node oneHello = some node' ∧
    h.Found ∧ oneQuery.handle node = .ok h ∧ ∃ info reply reply', h.replies = [reply] ∧
      AnswerRead (ofBytes reply) node.id info ∧ sameQuery.handle node' = .ok (.reply node' reply') ∧
      AnswerRead (ofBytes reply') node.id info := by
  obtain ⟨node, ran, stored⟩ := one_list_runs
  have sound : SoundName [97] := by decide
  obtain ⟨info, searched⟩ := stored.found (r := record ⟨10, 0, 0, 1⟩ 9000 ⟨[97], 5⟩) (by simp [records]) sound.hashed
  have handled := query_handled node ⟨10, 0, 0, 2⟩ (fun _ => 0) 8 sound.short sound.text zeroed
  rw [show searchFileInfo [97] node.fileInfoTable.fileInfoList = .ok (some info) from searched] at handled
  have answered : oneQuery.handle node = .ok _ := handled
  have again : superNode.step node oneHello = some _ :=
    superNode_handles (m := oneHello) (readRecvBuff_short _) (hello_handled node _ 7 9000 _)
  have found : (Handled.reply node (searchAnswer zeroed.searchAnsSuccessPkt node.id (some info))).Found := by
    intro reply member
    obtain rfl := List.mem_singleton.mp member
    rw [ofBytes_eq, searchAnswer, answer_header]
  have later := System.exec_cons again []
  have header := searchQueryPacket_header (fun _ => 0) 8 [97]
  exact ⟨node, _, _, again, found, answered, (answers_kept ⟨3, fun _ => 0, [], 0, rfl⟩ ran later).1 oneQuery sameQuery _
    (congrArg Header.msgType header) (congrArg Header.totalLen header) rfl answered found⟩

end NetProg.P4
