import NetProg.P4.NodeRuns

set_option autoImplicit false

namespace NetProg.P4

open Memory Transition Probing

structure Children where
  -- A super node and the children that have got a HELLO_FROM_SUPER.
  node : SuperNode
  welcomed : List UInt32

inductive FromChild where
  | hello (clientAddr : InAddr) (id : UInt32) (unwritten : Unwritten)
  | message (m : Delivery)

def greets (reply : List UInt8) : Bool := (loadHeader (ofBytes reply)).msgType == helloFromSuper

def children (announced : UInt32 → UInt32) : System Children FromChild where
  init s := superNode.init s.node ∧ s.welcomed = []
  step
    | s, .hello clientAddr id unwritten =>
      if announced id = 0 then none
      else match handleClientRequest s.node clientAddr (readRecvBuff (helloFromChildPacket id (announced id))) unwritten with
        | .ok h => some { node := h.node, welcomed := if h.replies.any greets then id :: s.welcomed else s.welcomed }
        | .error _ => none
    | s, .message m =>
      if m.header.msgType = helloFromChild then none
      else (superNode.step s.node m).map fun node => { s with node }

-- There is an empty place for the port of a child, or the child has one already.
def HasPlace (s : Children) : FromChild → Children → Prop
  | .hello _ id _, _ => ∃ i, (s.node.childPorts i).portNum = 0 ∨ (s.node.childPorts i).id = id
  | .message _, _ => True

structure RegisteredAs (node : SuperNode) (clientAddr : InAddr) (portNum : UInt32) (files : List FileInformation)
    (h : Handled) : Prop where
  answered : ∃ reply, h.replies = [reply] ∧ ListsNames reply node.id (files.map FileInformation.fileName)
  stored : ∀ info ∈ records clientAddr portNum files, h.node.fileInfoTable.Has info
  nothingElse : ∀ info, h.node.fileInfoTable.Has info →
    node.fileInfoTable.Has info ∨ info ∈ records clientAddr portNum files

structure TableTakes (table : FileInformationTable) (infos : List FileInfoStore) : Prop where
  -- `signed char`s can make the hash of a name negative.
  hashed : ∀ info ∈ infos.take (hashTableSize - table.len), 0 ≤ hashFunction info.fileName
  room : ∀ info ∈ infos, table.Has info ∨ info ∈ infos.take (hashTableSize - table.len)

section Places

variable {announced : UInt32 → UInt32} {childPorts : Fin childNumber → ChildListeningPort}

structure Places (announced : UInt32 → UInt32) (childPorts : Fin childNumber → ChildListeningPort) : Prop where
  announced : ∀ i, (childPorts i).portNum ≠ 0 → (childPorts i).portNum = announced (childPorts i).id
  fromFront : ∀ i, (childPorts i).portNum ≠ 0 → ∀ j < i, (childPorts j).portNum ≠ 0

def Seated (childPorts : Fin childNumber → ChildListeningPort) (id : UInt32) : Prop :=
  ∃ i, (childPorts i).id = id ∧ (childPorts i).portNum ≠ 0

theorem find_first {n : Nat} {p : Fin n → Bool} {i : Fin n} :
    (List.finRange n).find? p = some i ↔ p i = true ∧ ∀ j < i, p j = false := by
  rw [List.find?_eq_some_iff_getElem]
  constructor
  · intro ⟨holds, k, inside, here, before⟩
    obtain rfl : (⟨k, by simpa using inside⟩ : Fin n) = i := by simpa using here
    exact ⟨holds, fun j earlier => by simpa using before j.val earlier⟩
  · intro ⟨holds, before⟩
    refine ⟨holds, i.val, by simp, by simp, fun j earlier => ?_⟩
    simpa using before ⟨j, by omega⟩ earlier

theorem findChildPort_seated (places : Places announced childPorts) {id : UInt32} (seated : Seated childPorts id) :
    findChildPort childPorts id = announced id := by
  obtain ⟨i, own, taken⟩ := seated
  cases first : (List.finRange childNumber).find? fun j => (childPorts j).id = id with
  | none =>
    have absent := List.find?_eq_none.mp first i (List.mem_finRange i)
    simp [own] at absent
  | some j =>
    obtain ⟨found, before⟩ := find_first.mp first
    -- a place that only happens to hold this id is behind the ones that are taken
    have filled : (childPorts j).portNum ≠ 0 := by
      rcases lt_trichotomy j i with earlier | rfl | later
      · exact places.fromFront i taken j earlier
      · exact taken
      · simpa [own] using before i later
    simp only [decide_eq_true_eq] at found
    rw [findChildPort, first, ← found]
    exact places.announced j filled

theorem storeChild_places (places : Places announced childPorts) {id : UInt32} (portNum : announced id ≠ 0) :
    Places announced (storeChild childPorts { id, portNum := announced id }) := by
  rw [storeChild]
  cases free : findChildSlot childPorts with
  | none => exact places
  | some slot =>
    obtain ⟨empty, before⟩ := find_first.mp free
    dsimp only
    constructor
    case announced =>
      intro i taken
      by_cases here : i = slot
      · subst here
        simp
      · simp only [Function.update_of_ne here] at taken ⊢
        exact places.announced i taken
    case fromFront =>
      intro i taken j earlier
      by_cases there : j = slot
      · subst there
        simpa using portNum
      · rw [Function.update_of_ne there]
        by_cases here : i = slot
        · subst here
          simpa using before j earlier
        · rw [Function.update_of_ne here] at taken
          exact places.fromFront i taken j earlier

theorem storeChild_seats {id portNum : UInt32} (known : portNum ≠ 0)
    (place : ∃ i, (childPorts i).portNum = 0 ∨ (childPorts i).id = id) :
    Seated (storeChild childPorts { id, portNum }) id := by
  rw [storeChild]
  cases free : findChildSlot childPorts with
  | none =>
    obtain ⟨i, empty | own⟩ := place
    all_goals have taken := List.find?_eq_none.mp free i (List.mem_finRange i)
    · simp [empty] at taken
    · exact ⟨i, own, by simpa using taken⟩
  | some slot => exact ⟨slot, by simp, by simpa using known⟩

theorem storeChild_keeps {id : UInt32} (seated : Seated childPorts id) (child : ChildListeningPort) :
    Seated (storeChild childPorts child) id := by
  obtain ⟨i, own, taken⟩ := seated
  rw [storeChild]
  cases free : findChildSlot childPorts with
  | none => exact ⟨i, own, taken⟩
  | some slot =>
    have other : i ≠ slot := by
      rintro rfl
      exact taken (by simpa using (find_first.mp free).1)
    exact ⟨i, by simpa [other] using own, by simpa [other] using taken⟩

theorem storeChild_full {id : UInt32} (child : ChildListeningPort)
    (noPlace : ¬ ∃ i, (childPorts i).portNum = 0 ∨ (childPorts i).id = id) :
    findChildPort (storeChild childPorts child) id = 0 := by
  have full : findChildSlot childPorts = none := by
    rw [findChildSlot, List.find?_eq_none]
    intro i _ empty
    exact noPlace ⟨i, .inl (by simpa using empty)⟩
  have absent : (List.finRange childNumber).find? (fun i => (childPorts i).id = id) = none := by
    rw [List.find?_eq_none]
    intro i _ own
    exact noPlace ⟨i, .inr (by simpa using own)⟩
  rw [storeChild, full]
  simp only [findChildPort, absent]

end Places

theorem handleFileInfoShare_childPorts {node : SuperNode} {recvBuff : Block} {bytesRead : Nat} {unwritten : Unwritten}
    {h : Handled} (ran : handleFileInfoShare node recvBuff bytesRead unwritten = .ok h) :
    h.node.childPorts = node.childPorts := by
  simp only [handleFileInfoShare, bind, Except.bind] at ran
  split_ifs at ran with short
  · obtain rfl := Except.ok.inj ran
    rfl
  · split at ran
    next => cases ran
    next pkt copied =>
      split at ran
      next => cases ran
      next result loop =>
        obtain rfl := Except.ok.inj ran
        rfl

theorem handleClientRequest_childPorts {node : SuperNode} {clientAddr : InAddr} {received : List UInt8}
    {unwritten : Unwritten} {h : Handled} (ran : handleClientRequest node clientAddr received unwritten = .ok h)
    (other : (loadHeader (receiveBuffer received)).msgType ≠ helloFromChild) : h.node.childPorts = node.childPorts := by
  simp only [handleClientRequest, if_neg other] at ran
  split_ifs at ran with superHello info query share
  · obtain rfl := Except.ok.inj ran
    rfl
  · cases shared : h.share with
    | none => rw [handleFileInfo_quiet ran shared]
    | some packet =>
      obtain ⟨infos, table, fileInfoPkt, accepts⟩ := handleFileInfo_shared ran shared
      obtain rfl := Except.ok.inj (ran.symm.trans (handleFileInfo_accepts accepts))
      rfl
  · rw [(handleSearchQuery_quiet ran).1]
  · exact handleFileInfoShare_childPorts ran
  · obtain rfl := Except.ok.inj ran
    rfl

theorem greeting_greets (id : UInt32) : greets (headerPacket { totalLen := 12, id, msgType := helloFromSuper }) = true := by
  rw [greets, headerPacket, loadHeader_congr fun j below => ofBytes_load _ below, loadHeader_storeHeader]
  rfl

section Runs

variable {announced : UInt32 → UInt32} {s s' : Children}

theorem children_hello (clientAddr : InAddr) {id : UInt32} (unwritten : Unwritten) (known : announced id ≠ 0)
    (s : Children) : (children announced).step s (.hello clientAddr id unwritten) =
      some { node := { s.node with childPorts := storeChild s.node.childPorts { id, portNum := announced id } },
             welcomed := id :: s.welcomed } := by
  simp only [children, if_neg known, hello_handled, Handled.reply, List.any_cons, greeting_greets, Bool.true_or,
    if_true]

inductive FromChild.Moves (announced : UInt32 → UInt32) (s : Children) : FromChild → Children → Prop where
  | hello (clientAddr : InAddr) (id : UInt32) (unwritten : Unwritten) (known : announced id ≠ 0) :
      Moves announced s (.hello clientAddr id unwritten)
        { node := { s.node with childPorts := storeChild s.node.childPorts { id, portNum := announced id } },
          welcomed := id :: s.welcomed }
  | message (m : Delivery) (h : Handled) (ran : m.handle s.node = .ok h) (short : m.received.length ≤ recvBuffSize)
      (other : m.header.msgType ≠ helloFromChild) : Moves announced s (.message m) { s with node := h.node }

theorem children_moves {e : FromChild} (stepped : (children announced).step s e = some s') :
    e.Moves announced s s' := by
  cases e with
  | hello clientAddr id unwritten =>
    by_cases known : announced id = 0
    · simp [children, known] at stepped
    · rw [children_hello clientAddr unwritten known] at stepped
      obtain rfl := Option.some.inj stepped
      exact .hello clientAddr id unwritten known
  | message m =>
    simp only [children] at stepped
    split_ifs at stepped with other
    obtain ⟨node, moved, rfl⟩ := Option.map_eq_some_iff.mp stepped
    obtain ⟨short, h, ran, rfl⟩ := superNode_step moved
    exact .message m h ran short other

theorem children_refine :
    (children announced).Refines (fun _ _ _ => True) superNode (fun _ _ _ => True) Children.node := by
  constructor
  · intro s starts
    exact starts.1
  · intro s e s' _ stepped
    cases children_moves stepped with
    | hello clientAddr id unwritten known =>
      let m : Delivery := ⟨clientAddr, readRecvBuff (helloFromChildPacket id (announced id)), unwritten⟩
      have handled : m.handle s.node = .ok _ := hello_handled s.node clientAddr id (announced id) unwritten
      have short : m.received.length ≤ recvBuffSize := readRecvBuff_short _
      exact .inr ⟨m, trivial, superNode_handles short handled⟩
    | message m h ran short => exact .inr ⟨m, trivial, superNode_handles short ran⟩

structure Children.Known (announced : UInt32 → UInt32) (s : Children) : Prop where
  places : Places announced s.node.childPorts
  seated : ∀ id ∈ s.welcomed, Seated s.node.childPorts id ∧ announced id ≠ 0

theorem children_known (reached : (children announced).ReachableWhile HasPlace s) : s.Known announced := by
  apply System.ReachableWhile.invariant _ _ reached
  · rintro s ⟨⟨id, ids, ip, port, started⟩, nobody⟩
    have ports : s.node.childPorts = (startUp id ids).childPorts := by rw [started]
    refine ⟨⟨?_, ?_⟩, by simp [nobody]⟩ <;> simp [ports, startUp]
  · intro s e s' _ known allowed stepped
    cases children_moves stepped with
    | hello clientAddr id unwritten announces =>
      constructor
      case places => exact storeChild_places known.places announces
      case seated =>
        intro id' member
        rcases List.mem_cons.mp member with rfl | earlier
        · exact ⟨storeChild_seats announces allowed, announces⟩
        · exact ⟨storeChild_keeps (known.seated id' earlier).1 _, (known.seated id' earlier).2⟩
    | message m h ran short other =>
      have same := handleClientRequest_childPorts ran other
      exact ⟨same ▸ known.places, same ▸ known.seated⟩

end Runs

section Registers

variable (childUnwritten : Block) {id : UInt32} {files : List FileInformation} {node : SuperNode}

theorem registeredAs_iff (reached : superNode.Reachable node) (fit : ∀ file ∈ files, file.Fits) (few : files.length ≤ 10)
    (clientAddr : InAddr) (unwritten : Unwritten) (known : findChildPort node.childPorts id ≠ 0) :
    (∃ h, handleClientRequest node clientAddr (readRecvBuff (fileInfoPacket childUnwritten id files)) unwritten = .ok h ∧
        RegisteredAs node clientAddr (findChildPort node.childPorts id) files h) ↔
      TableTakes node.fileInfoTable (records clientAddr (findChildPort node.childPorts id) files) := by
  obtain ⟨entries, stores⟩ := table_stores reached
  rw [fileInfo_run childUnwritten id fit few node clientAddr unwritten known]
  constructor
  · intro ⟨h, ran, registered⟩
    cases inserted : insertAll node.fileInfoTable (records clientAddr (findChildPort node.childPorts id) files) with
    | error stuck => simp [inserted, Except.map] at ran
    | ok table =>
      rw [inserted] at ran
      obtain rfl := Except.ok.inj ran
      constructor
      case hashed =>
        rw [stores.len]
        exact (insertAll_ok_iff stores).mp ⟨table, inserted⟩
      case room => exact fun info member => (insertAll_has stores inserted info).mp (registered.stored info member)
  · intro takes
    have hashed := takes.hashed
    rw [stores.len] at hashed
    obtain ⟨table, inserted⟩ := (insertAll_ok_iff stores).mpr hashed
    rw [inserted]
    refine ⟨_, rfl, ?_⟩
    constructor
    case answered =>
      have lists := recvSuccessPacket_lists (records_fit clientAddr (findChildPort node.childPorts id) fit)
        unwritten.fileInfoRecvSuccessPkt node.id
      refine ⟨_, rfl, ?_⟩
      simpa [records, record, Function.comp_def] using lists
    case stored => exact fun info member => (insertAll_has stores inserted info).mpr (takes.room info member)
    case nothingElse =>
      exact fun info there => ((insertAll_has stores inserted info).mp there).imp_right List.mem_of_mem_take

theorem welcomed_registers_iff {announced : UInt32 → UInt32} {s : Children}
    (reached : (children announced).ReachableWhile HasPlace s) :
    (∀ id ∈ s.welcomed, ∀ files : List FileInformation, (∀ file ∈ files, file.Fits) → files.length ≤ 10 →
      ∀ (clientAddr : InAddr) (childUnwritten : Block) (unwritten : Unwritten),
        (∃ h, handleClientRequest s.node clientAddr (readRecvBuff (fileInfoPacket childUnwritten id files)) unwritten =
            .ok h ∧ RegisteredAs s.node clientAddr (announced id) files h) ↔
          TableTakes s.node.fileInfoTable (records clientAddr (announced id) files)) ∧
    ∀ (helloAddr : InAddr) (id : UInt32) (helloUnwritten : Unwritten) (s' : Children),
      (children announced).step s (.hello helloAddr id helloUnwritten) = some s' →
      ¬ HasPlace s (.hello helloAddr id helloUnwritten) s' → id ∈ s'.welcomed ∧
        ∀ files : List FileInformation, (∀ file ∈ files, file.Fits) → files.length ≤ 10 →
        ∀ (clientAddr : InAddr) (childUnwritten : Block) (unwritten : Unwritten),
          handleClientRequest s'.node clientAddr (readRecvBuff (fileInfoPacket childUnwritten id files)) unwritten =
            .ok (.silent s'.node) := by
  constructor
  · intro id welcomed files fit few clientAddr childUnwritten unwritten
    have known := children_known reached
    obtain ⟨seated, announces⟩ := known.seated id welcomed
    have own := findChildPort_seated known.places seated
    have registers := registeredAs_iff childUnwritten (children_refine.reachable reached.reachable) fit few clientAddr
      unwritten (own.symm ▸ announces)
    rwa [own] at registers
  · intro helloAddr id helloUnwritten s' stepped noPlace
    cases children_moves stepped with
    | hello _ _ _ announces =>
      refine ⟨by simp, fun files fit few clientAddr childUnwritten unwritten => ?_⟩
      exact fileInfo_ignored childUnwritten id fit few (storeChild_full _ noPlace) clientAddr unwritten

end Registers

theorem greeted_child_registers : ∃ s h, (children fun _ => 9000).ReachableWhile HasPlace s ∧ 7 ∈ s.welcomed ∧
    handleClientRequest s.node ⟨10, 0, 0, 1⟩ (readRecvBuff (fileInfoPacket (fun _ => 0) 7 [⟨[97], 5⟩])) zeroed = .ok h ∧
      RegisteredAs s.node ⟨10, 0, 0, 1⟩ 9000 [⟨[97], 5⟩] h := by
  have known : (9000 : UInt32) ≠ 0 := by decide
  have started : (children fun _ => 9000).ReachableWhile HasPlace ⟨startUp 3 fun _ => 0, []⟩ :=
    .initial _ ⟨⟨3, fun _ => 0, [], 0, rfl⟩, rfl⟩
  have place (s' : Children) : HasPlace ⟨startUp 3 fun _ => 0, []⟩ (.hello ⟨10, 0, 0, 1⟩ 7 zeroed) s' := ⟨0, .inl rfl⟩
  have reached := started.next _ _ _ (place _) (@children_hello (fun _ => 9000) ⟨10, 0, 0, 1⟩ 7 zeroed known _)
  have fit : ∀ file ∈ [(⟨[97], 5⟩ : FileInformation)], file.Fits := fits_sound fun file listed =>
    ((by decide : ∀ file ∈ [(⟨[97], 5⟩ : FileInformation)], RegularFile file) file listed).sound
  have takes : TableTakes initFileInfoTable (records ⟨10, 0, 0, 1⟩ 9000 [⟨[97], 5⟩]) := by
    refine ⟨by decide, fun info member => .inr ?_⟩
    rwa [List.take_of_length_le (by decide)]
  obtain ⟨h, ran, registered⟩ := ((welcomed_registers_iff reached).1 7 (by simp) [⟨[97], 5⟩] fit (by decide)
    ⟨10, 0, 0, 1⟩ (fun _ => 0) zeroed).mpr takes
  exact ⟨_, h, reached, by simp, ran, registered⟩

theorem children_greeted (n : Nat) :
    ∃ s, (children fun _ => 9000).Reachable s ∧ ∀ k < n, UInt32.ofNat k ∈ s.welcomed := by
  induction n with
  | zero => exact ⟨⟨startUp 3 fun _ => 0, []⟩, .initial _ ⟨⟨3, fun _ => 0, [], 0, rfl⟩, rfl⟩, by simp⟩
  | succ n ih =>
    obtain ⟨s, reached, welcomed⟩ := ih
    have known : (9000 : UInt32) ≠ 0 := by decide
    refine ⟨_, reached.next _ _ _ trivial (@children_hello (fun _ => 9000) ⟨10, 0, 0, 1⟩ (UInt32.ofNat n) zeroed known s), ?_⟩
    intro k bound
    by_cases last : k = n
    · simp [last]
    · exact List.mem_cons_of_mem _ (welcomed k (by omega))

-- The fifty-first child is welcomed, and there are only fifty places.
theorem fifty_one_children :
    ¬ ∀ (announced : UInt32 → UInt32) (s : Children), (children announced).Reachable s → ∀ id ∈ s.welcomed,
      ∀ files : List FileInformation, (∀ file ∈ files, file.Fits) → files.length ≤ 10 →
      ∀ (clientAddr : InAddr) (childUnwritten : Block) (unwritten : Unwritten),
        ∃ h, handleClientRequest s.node clientAddr (readRecvBuff (fileInfoPacket childUnwritten id files)) unwritten =
          .ok h ∧ RegisteredAs s.node clientAddr (announced id) files h := by
  intro claimed
  obtain ⟨s, reached, welcomed⟩ := children_greeted 51
  have placed (k : Fin 51) : ∃ i, (s.node.childPorts i).id = UInt32.ofNat k := by
    by_contra nowhere
    have unknown : findChildPort s.node.childPorts (UInt32.ofNat k) = 0 := by
      have absent : (List.finRange childNumber).find? (fun i => (s.node.childPorts i).id = UInt32.ofNat k) = none := by
        rw [List.find?_eq_none]
        exact fun i _ own => nowhere ⟨i, by simpa using own⟩
      simp only [findChildPort, absent]
    obtain ⟨h, ran, registered⟩ := claimed _ s reached _ (welcomed k k.isLt) [] (by simp) (by simp) ⟨10, 0, 0, 1⟩
      (fun _ => 0) zeroed
    rw [fileInfo_ignored (fun _ => 0) _ (by simp) (by simp) unknown] at ran
    obtain rfl := Except.ok.inj ran
    obtain ⟨reply, answered, -⟩ := registered.answered
    cases answered
  choose place own using placed
  have injective : Function.Injective place := by
    intro j k same
    have ids : UInt32.ofNat j = UInt32.ofNat k := by rw [← own j, ← own k, same]
    have numbers := congrArg UInt32.toNat ids
    rw [UInt32.toNat_ofNat_of_lt' (by simp only [UInt32.size]; omega),
      UInt32.toNat_ofNat_of_lt' (by simp only [UInt32.size]; omega)] at numbers
    exact Fin.ext numbers
  have more := Fintype.card_le_of_injective place injective
  simp only [Fintype.card_fin, childNumber] at more
  omega

end NetProg.P4
