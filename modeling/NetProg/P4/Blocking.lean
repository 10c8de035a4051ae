import NetProg.P4.Sharing

set_option autoImplicit false

namespace NetProg.P4

open Memory Probing Transition

inductive ChildMessage where
  | hello (id portNum : UInt32)
  | fileInfo (unwritten : Block) (id : UInt32) (files : List FileInformation)
  | query (unwritten : Block) (id : UInt32) (fileName : List UInt8)

def ChildMessage.packet : ChildMessage → List UInt8
  | .hello id portNum => helloFromChildPacket id portNum
  | .fileInfo unwritten id files => fileInfoPacket unwritten id files
  | .query unwritten id fileName => searchQueryPacket unwritten id fileName

def ChildMessage.WellFormed : ChildMessage → Prop
  | .hello _ _ => True
  | .fileInfo _ _ files => files.length ≤ maxFiles ∧ ∀ file ∈ files, SoundName file.fileName
  | .query _ _ fileName => SoundName fileName

instance (m : ChildMessage) : Decidable m.WellFormed :=
  match m with
  | .hello _ _ => isTrue trivial
  | .fileInfo _ _ files => inferInstanceAs (Decidable (files.length ≤ maxFiles ∧ ∀ file ∈ files, SoundName file.fileName))
  | .query _ _ fileName => inferInstanceAs (Decidable (SoundName fileName))

inductive SuperPc where
  | selecting
  | awaiting
  | spinning
deriving DecidableEq, Repr

structure Site where
  node : SuperNode
  pc : SuperPc
  -- messages in the sockets of children that have not been read
  children : List ChildMessage
  -- a share packet of the other node that has not been read
  share : Option (List UInt8)
  -- what a read has left of a longer message; its sender closes after the reply, and nothing comes behind it
  rests : List (List UInt8)
  -- the reply to the share packet that this node has sent is there
  answered : Bool

def Site.Blocked (site : Site) : Prop := site.pc = .awaiting ∧ site.answered = false

abbrev Network := Side → Site

inductive NetworkEvent where
  | arrive (host : Side) (m : ChildMessage)
  | child (host : Side) (i : Nat) (clientAddr : InAddr) (unwritten : Unwritten) (connects : Bool)
  | peer (host : Side) (clientAddr : InAddr) (unwritten : Unwritten)
  | rest (host : Side) (i : Nat) (clientAddr : InAddr) (unwritten : Unwritten) (connects : Bool)
  | resume (host : Side)
  | spin (host : Side)

def arrive (s : Network) (host : Side) (m : ChildMessage) : Option Network :=
  if m.WellFormed then some (Function.update s host { s host with children := (s host).children ++ [m] }) else none

def unreadRest (sent : List UInt8) : List (List UInt8) :=
  if recvBuffSize < sent.length then [sent.drop recvBuffSize] else []

def handleRead (s : Network) (host : Side) (children : List ChildMessage) (rests : List (List UInt8)) (clientAddr : InAddr)
    (received : List UInt8) (unwritten : Unwritten) (connects : Bool) : Option Network :=
  -- `children` and `rests` are what the sockets still hold after the read.
  match handleClientRequest (s host).node clientAddr received unwritten with
  | .ok h => match h.share, connects with
    | some packet, true =>
      let waiting := Function.update s host
        { s host with node := h.node, children, rests, pc := .awaiting, answered := false }
      some (Function.update waiting host.other { s host.other with share := some packet })
    | _, _ => some (Function.update s host { s host with node := h.node, children, rests })
  | .error .endless => some (Function.update s host { s host with children, rests, pc := .spinning })
  | .error .fault => none

def handleChild (s : Network) (host : Side) (i : Nat) (clientAddr : InAddr) (unwritten : Unwritten) (connects : Bool) :
    Option Network :=
  match (s host).pc, (s host).children[i]? with
  | .selecting, some m =>
    handleRead s host ((s host).children.eraseIdx i) ((s host).rests ++ unreadRest m.packet) clientAddr
      (readRecvBuff m.packet) unwritten connects
  | _, _ => none

def handleRest (s : Network) (host : Side) (i : Nat) (clientAddr : InAddr) (unwritten : Unwritten) (connects : Bool) :
    Option Network :=
  -- `select` reports the socket again, and what is read counts as a message of its own.
  match (s host).pc, (s host).rests[i]? with
  | .selecting, some bytes =>
    handleRead s host (s host).children ((s host).rests.eraseIdx i ++ unreadRest bytes) clientAddr
      (readRecvBuff bytes) unwritten connects
  | _, _ => none

def handlePeer (s : Network) (host : Side) (clientAddr : InAddr) (unwritten : Unwritten) : Option Network :=
  match (s host).pc, (s host).share with
  | .selecting, some packet =>
    let rests := (s host).rests ++ unreadRest packet
    match handleClientRequest (s host).node clientAddr (readRecvBuff packet) unwritten with
    | .ok h =>
      let handled := Function.update s host { s host with node := h.node, share := none, rests }
      some (Function.update handled host.other { s host.other with answered := true })
    | .error .endless => some (Function.update s host { s host with share := none, rests, pc := .spinning })
    | .error .fault => none
  | _, _ => none

def networkStep (s : Network) : NetworkEvent → Option Network
  | .arrive host m => arrive s host m
  | .child host i clientAddr unwritten connects => handleChild s host i clientAddr unwritten connects
  | .peer host clientAddr unwritten => handlePeer s host clientAddr unwritten
  | .rest host i clientAddr unwritten connects => handleRest s host i clientAddr unwritten connects
  | .resume host =>
    if (s host).pc = .awaiting ∧ (s host).answered = true then
      some (Function.update s host { s host with pc := .selecting, answered := false })
    else none
  | .spin host => if (s host).pc = .spinning then some s else none

def network : System Network NetworkEvent where
  init s := ∀ side, (s side).node.fileInfoTable = initFileInfoTable ∧ (s side).pc = .selecting ∧
    (s side).children = [] ∧ (s side).share = none ∧ (s side).rests = [] ∧ (s side).answered = false
  step := networkStep

def SuperNode.Accepting (node : SuperNode) : ChildMessage → Prop
  | .fileInfo _ id files => files.length ≤ 10 ∧ findChildPort node.childPorts id ≠ 0
  | _ => False

def SuperNode.Declines (node : SuperNode) (received : List UInt8) : Prop :=
  -- A type that the node does not know or a hello of a child, a list or a share packet that it does not take up.
  let hdr := loadHeader (receiveBuffer received)
  hdr.msgType ≠ helloSuperToSuper ∧ hdr.msgType ≠ searchQuery ∧
    (hdr.msgType = fileInfo → received.length < hdr.totalLen.toNat ∨ findChildPort node.childPorts hdr.id = 0) ∧
    (hdr.msgType = fileInfoShare → received.length < hdr.totalLen.toNat)

def OneWaits (s : Network) (e : NetworkEvent) (_ : Network) : Prop :=
  match e with
  -- a node takes up a list that it is going to share only while the other does not wait for it
  | .child host i _ _ true => ∀ m, (s host).children[i]? = some m → (s host).node.Accepting m → ¬ (s host.other).Blocked
  | .rest host i _ _ _ => ∀ bytes, (s host).rests[i]? = some bytes → (s host).node.Declines (readRecvBuff bytes)
  | _ => True

instance (node : SuperNode) (m : ChildMessage) : Decidable (node.Accepting m) :=
  match m with
  | .hello _ _ => isFalse id
  | .fileInfo _ id files => inferInstanceAs (Decidable (files.length ≤ 10 ∧ findChildPort node.childPorts id ≠ 0))
  | .query _ _ _ => isFalse id

instance (site : Site) : Decidable site.Blocked :=
  inferInstanceAs (Decidable (site.pc = .awaiting ∧ site.answered = false))

instance (node : SuperNode) (received : List UInt8) : Decidable (node.Declines received) :=
  inferInstanceAs (Decidable (_ ∧ _ ∧ (_ → _ ∨ _) ∧ (_ → _)))

instance (s : Network) (e : NetworkEvent) (s' : Network) : Decidable (OneWaits s e s') :=
  match e with
  | .child host i _ _ true =>
    inferInstanceAs (Decidable (∀ m, (s host).children[i]? = some m → (s host).node.Accepting m → ¬ (s host.other).Blocked))
  | .child _ _ _ _ false => isTrue trivial
  | .arrive _ _ => isTrue trivial
  | .peer _ _ _ => isTrue trivial
  | .rest host i _ _ _ =>
    inferInstanceAs (Decidable (∀ bytes, (s host).rests[i]? = some bytes → (s host).node.Declines (readRecvBuff bytes)))
  | .resume _ => isTrue trivial
  | .spin _ => isTrue trivial

theorem helloFromChildPacket_header (id portNum : UInt32) :
    loadHeader (receiveBuffer (readRecvBuff (helloFromChildPacket id portNum))) =
      { totalLen := 16, id, msgType := helloFromChild } := by
  refine Eq.trans (loadHeader_congr fun j below => ?_) (loadHeader_storeHeader (fun _ => 0) _)
  simp only [headerLen] at below
  rw [helloFromChildPacket, receiveBuffer_load _ (by omega) (by simp only [recvBuffSize]; omega)]
  exact store_outside _ (.inl below)

theorem searchQueryPacket_header (unwritten : Block) (id : UInt32) (fileName : List UInt8) :
    loadHeader (receiveBuffer (readRecvBuff (searchQueryPacket unwritten id fileName))) =
      { totalLen := 108, id, msgType := searchQuery } := by
  refine Eq.trans (loadHeader_congr fun j below => ?_) (loadHeader_storeHeader unwritten _)
  simp only [headerLen] at below
  rw [searchQueryPacket, receiveBuffer_load _ (by omega) (by simp only [recvBuffSize]; omega)]
  exact store_outside _ (.inl below)

def SharePacket (packet : List UInt8) : Prop :=
  ∃ (unwritten : Block) (id : UInt32) (infos : List FileInfoStore), packet = sharePacket unwritten id infos ∧
    infos.length ≤ maxFiles ∧ ∀ info ∈ infos, info.Fits ∧ 0 ≤ hashFunction info.fileName

def SuperNode.Sane (node : SuperNode) : Prop := ∃ entries, Stores entries node.fileInfoTable

section Handling

variable {node : SuperNode} (clientAddr : InAddr) (unwritten : Unwritten)

theorem handleHello_ok (sane : node.Sane) (id portNum : UInt32) :
    ∃ h, handleClientRequest node clientAddr (readRecvBuff (helloFromChildPacket id portNum)) unwritten = .ok h ∧
      h.node.Sane ∧ h.share = none := by
  have header := helloFromChildPacket_header id portNum
  rw [handleClientRequest_hello (by rw [header])]
  exact ⟨_, rfl, sane, rfl⟩

theorem handleQuery_ok (id : UInt32) {fileName : List UInt8} (sound : SoundName fileName) (buff : Block) :
    (∃ h, handleClientRequest node clientAddr (readRecvBuff (searchQueryPacket buff id fileName)) unwritten = .ok h ∧
      h.node = node ∧ h.share = none) ∨
      handleClientRequest node clientAddr (readRecvBuff (searchQueryPacket buff id fileName)) unwritten =
        .error .endless := by
  have header := searchQueryPacket_header buff id fileName
  let received := readRecvBuff (searchQueryPacket buff id fileName)
  let pkt := store unwritten.searchQueryPkt 0 (load (receiveBuffer received) 0 108)
  have named : loadString pkt 12 fileNameLen = some fileName := by
    have short := sound.short
    simp only [fileNameLen] at short
    refine loadString_of sound.text short ((load_congr fun j low high => ?_).trans
      (load_storeString (storeHeader buff { totalLen := 108, id, msgType := searchQuery }) 12 fileName))
    have here : pkt j = receiveBuffer received j := store_load _ _ (Nat.zero_le j) (by omega)
    exact here.trans (receiveBuffer_load _ (by omega) (by simp only [recvBuffSize]; omega))
  have handled : handleClientRequest node clientAddr received unwritten =
      handleSearchQuery node (receiveBuffer received) unwritten := by
    simp [handleClientRequest, received, header, searchQuery, fileInfo, helloFromChild, helloSuperToSuper]
  have copied : copyPacket unwritten.searchQueryPkt (receiveBuffer received) 108 108 = .ok pkt := if_pos (by decide)
  have length : (108 : UInt32).toNat = 108 := rfl
  rw [handled]
  simp only [handleSearchQuery, received, header, length] at copied ⊢
  simp only [copied, field, named, bind, Except.bind]
  rcases searchFileInfo_returns sound.hashed node.fileInfoTable.fileInfoList with ⟨found, searched⟩ | searched
  · left
    cases found <;> simp [searched, Handled.reply]
  · right
    simp [searched]

theorem handleFileInfo_ok (sane : node.Sane) (id : UInt32) {files : List FileInformation}
    (count : files.length ≤ maxFiles)
    (sound : ∀ file ∈ files, SoundName file.fileName) (buff : Block) :
    ∃ h, handleClientRequest node clientAddr (readRecvBuff (fileInfoPacket buff id files)) unwritten = .ok h ∧
      h.node.Sane ∧ ∀ packet, h.share = some packet →
        SharePacket packet ∧ files.length ≤ 10 ∧ findChildPort node.childPorts id ≠ 0 := by
  by_cases few : files.length ≤ 10
  · by_cases unknown : findChildPort node.childPorts id = 0
    · exact ⟨_, fileInfo_ignored buff id (fits_sound sound) few unknown clientAddr unwritten, sane, by simp [Handled.silent]⟩
    · obtain ⟨entries, stores⟩ := sane
      have hashes := records_hash sound clientAddr (findChildPort node.childPorts id)
      obtain ⟨table, inserted, stored⟩ := insertAll_first stores hashes
      refine ⟨_, fileInfo_accepts buff id (fits_sound sound) few node clientAddr unwritten unknown inserted, ⟨_, stored⟩, ?_⟩
      intro packet shared
      obtain rfl := Option.some.inj shared
      refine ⟨⟨_, _, _, rfl, by simpa [records] using count, fun info member => ⟨?_, hashes info member⟩⟩, few, unknown⟩
      exact records_fit clientAddr _ (fits_sound sound) info member
  · exact ⟨_, fileInfo_refused buff id (fits_sound sound) count (by omega) node clientAddr unwritten, sane, by simp [Handled.reply]⟩

theorem handleChildMessage_ok (sane : node.Sane) {m : ChildMessage} (wellFormed : m.WellFormed) :
    (∃ h, handleClientRequest node clientAddr (readRecvBuff m.packet) unwritten = .ok h ∧ h.node.Sane ∧
      ∀ packet, h.share = some packet → SharePacket packet ∧ node.Accepting m) ∨
      handleClientRequest node clientAddr (readRecvBuff m.packet) unwritten = .error .endless := by
  cases m with
  | hello id portNum =>
    obtain ⟨h, ran, still, quiet⟩ := handleHello_ok clientAddr unwritten sane id portNum
    exact .inl ⟨h, ran, still, by simp [quiet]⟩
  | fileInfo buff id files =>
    exact .inl (handleFileInfo_ok clientAddr unwritten sane id wellFormed.1 wellFormed.2 buff)
  | query buff id fileName =>
    refine (handleQuery_ok clientAddr unwritten id wellFormed buff).imp (fun handled => ?_) fun endless => endless
    obtain ⟨h, ran, same, quiet⟩ := handled
    exact ⟨h, ran, same ▸ sane, by simp [quiet]⟩

theorem handleShare_ok (sane : node.Sane) {packet : List UInt8} (share : SharePacket packet) :
    ∃ h, handleClientRequest node clientAddr (readRecvBuff packet) unwritten = .ok h ∧ h.node.Sane := by
  obtain ⟨buff, id, infos, rfl, count, fit⟩ := share
  have fits : ∀ info ∈ infos, info.Fits := fun info member => (fit info member).1
  by_cases few : infos.length ≤ 8
  · obtain ⟨entries, stores⟩ := sane
    obtain ⟨table, inserted, stored⟩ := insertAll_first stores fun info member => (fit info member).2
    obtain ⟨reply, ran⟩ := share_accepted buff id fits few clientAddr unwritten inserted
    exact ⟨_, ran, _, stored⟩
  · exact ⟨_, share_refused buff id fits count (by omega) node clientAddr unwritten, sane⟩

theorem handleRest_ok {received : List UInt8} (declines : node.Declines received) :
    ∃ h, handleClientRequest node clientAddr received unwritten = .ok h ∧
      h.node.fileInfoTable = node.fileInfoTable ∧ h.share = none := by
  obtain ⟨greeting, query, list, share⟩ := declines
  simp only [handleClientRequest]
  split_ifs with hello listed shared
  · exact ⟨_, rfl, rfl, rfl⟩
  · simp only [handleFileInfo]
    rcases list listed with long | unknown
    · rw [if_pos long]
      exact ⟨_, rfl, rfl, rfl⟩
    · split_ifs
      · exact ⟨_, rfl, rfl, rfl⟩
      · exact ⟨_, rfl, rfl, rfl⟩
  · rw [handleFileInfoShare, if_pos (share shared)]
    exact ⟨_, rfl, rfl, rfl⟩
  · exact ⟨_, rfl, rfl, rfl⟩

end Handling

structure Site.Fine (site : Site) : Prop where
  sane : site.node.Sane
  wellFormed : ∀ m ∈ site.children, m.WellFormed
  shares : ∀ packet, site.share = some packet → SharePacket packet

def Waits (site other : Site) : Prop :=
  site.Blocked → ¬ other.Blocked ∧ (other.share ≠ none ∨ other.pc = .spinning)

structure Orderly (s : Network) : Prop where
  fine : ∀ side, (s side).Fine
  waits : ∀ side, Waits (s side) (s side.other)

theorem Side.other_other (side : Side) : side.other.other = side := by cases side <;> rfl

theorem Waits.of_free {site other : Site}
    (free : ¬ site.Blocked) : Waits site other := fun blocked => absurd blocked free

theorem Site.free {site : Site} (busy : site.pc ≠ .awaiting) : ¬ site.Blocked := fun blocked => busy blocked.1

theorem Orderly.update_both (s : Network) (host : Side) {site site' : Site} (fine : site.Fine) (fine' : site'.Fine)
    (waits : Waits site site') (waits' : Waits site' site) :
    Orderly (Function.update (Function.update s host site) host.other site') := by
  have apart := Side.other_ne host
  constructor
  case fine =>
    intro side
    rcases Side.eq_or_other side host with rfl | rfl
    · simpa [apart.symm] using fine
    · simpa using fine'
  case waits =>
    intro side
    rcases Side.eq_or_other side host with rfl | rfl
    · simpa [apart.symm] using waits
    · simpa [apart.symm, Side.other_other] using waits'

theorem Orderly.update {s : Network} (orderly : Orderly s) (host : Side) {site : Site} (fine : site.Fine)
    (waits : Waits site (s host.other)) (waits' : Waits (s host.other) site) :
    Orderly (Function.update s host site) := by
  have both : Function.update s host site = Function.update (Function.update s host site) host.other (s host.other) := by
    rw [← Function.update_of_ne (Side.other_ne host) site s, Function.update_eq_self]
  rw [both]
  exact .update_both s host fine (orderly.fine _) waits waits'

theorem Orderly.served {s : Network} (orderly : Orderly s) {host : Side} (blocked : (s host.other).Blocked) :
    ¬ (s host).Blocked ∧ ((s host).share ≠ none ∨ (s host).pc = .spinning) := by
  have served := orderly.waits host.other blocked
  rwa [Side.other_other] at served

section Steps

variable {s s' : Network} {host : Side} {i : Nat} {clientAddr : InAddr} {unwritten : Unwritten} {connects : Bool}

theorem handleRead_orderly (orderly : Orderly s) (selecting : (s host).pc = .selecting) {children : List ChildMessage}
    {rests : List (List UInt8)} {received : List UInt8} (wellFormed : ∀ m ∈ children, m.WellFormed)
    (handled : (∃ h, handleClientRequest (s host).node clientAddr received unwritten = .ok h ∧ h.node.Sane ∧
        ∀ packet, h.share = some packet → SharePacket packet ∧ (connects = true → ¬ (s host.other).Blocked)) ∨
      handleClientRequest (s host).node clientAddr received unwritten = .error .endless)
    (stepped : handleRead s host children rests clientAddr received unwritten connects = some s') : Orderly s' := by
  have fine := orderly.fine host
  simp only [handleRead] at stepped
  rcases handled with ⟨h, ran, sane, shared⟩ | endless
  · simp only [ran] at stepped
    split at stepped
    next packet packed =>
      obtain rfl := Option.some.inj stepped
      obtain ⟨share, served⟩ := shared packet packed
      have peer := orderly.fine host.other
      have free : ¬ (s host.other).Blocked := served rfl
      refine .update_both s host ⟨sane, wellFormed, fine.shares⟩ ⟨peer.sane, peer.wellFormed, ?_⟩ ?_ (.of_free free)
      · intro packet' same
        obtain rfl := Option.some.inj same
        exact share
      · exact fun _ => ⟨free, .inl (by simp)⟩
    next =>
      obtain rfl := Option.some.inj stepped
      have free : (s host).pc ≠ .awaiting := by simp [selecting]
      exact orderly.update host ⟨sane, wellFormed, fine.shares⟩ (.of_free (Site.free free)) fun blocked =>
        ⟨Site.free free, (orderly.served blocked).2⟩
  · simp only [endless, Option.some.injEq] at stepped
    subst stepped
    have free : SuperPc.spinning ≠ .awaiting := by decide
    exact orderly.update host ⟨fine.sane, wellFormed, fine.shares⟩ (.of_free (Site.free free)) fun _ =>
      ⟨Site.free free, .inr rfl⟩

theorem handleChild_orderly (orderly : Orderly s) (allowed : OneWaits s (.child host i clientAddr unwritten connects) s')
    (stepped : handleChild s host i clientAddr unwritten connects = some s') : Orderly s' := by
  simp only [handleChild] at stepped
  split at stepped
  next selecting found =>
    rename_i m
    have fine := orderly.fine host
    have remaining : ∀ m' ∈ (s host).children.eraseIdx i, m'.WellFormed := fun m' member =>
      fine.wellFormed m' (List.mem_of_mem_eraseIdx member)
    have wellFormed := fine.wellFormed m (List.mem_of_getElem? found)
    refine handleRead_orderly orderly selecting remaining ?_ stepped
    refine (handleChildMessage_ok clientAddr unwritten fine.sane wellFormed).imp_left ?_
    rintro ⟨h, ran, sane, shared⟩
    refine ⟨h, ran, sane, fun packet packed => ?_⟩
    obtain ⟨share, accepting⟩ := shared packet packed
    refine ⟨share, fun connected => ?_⟩
    subst connected
    exact allowed m found accepting
  next => cases stepped

theorem handleRest_orderly (orderly : Orderly s) (allowed : OneWaits s (.rest host i clientAddr unwritten connects) s')
    (stepped : handleRest s host i clientAddr unwritten connects = some s') : Orderly s' := by
  simp only [handleRest] at stepped
  split at stepped
  next bytes selecting found =>
    have fine := orderly.fine host
    obtain ⟨h, ran, same, quiet⟩ := handleRest_ok clientAddr unwritten (allowed bytes found)
    refine handleRead_orderly orderly selecting fine.wellFormed (.inl ⟨h, ran, ?_, by simp [quiet]⟩) stepped
    rw [SuperNode.Sane, same]
    exact fine.sane
  next => cases stepped

theorem handlePeer_orderly (orderly : Orderly s) (stepped : handlePeer s host clientAddr unwritten = some s') :
    Orderly s' := by
  simp only [handlePeer] at stepped
  split at stepped
  next packet selecting found =>
    have fine := orderly.fine host
    have peer := orderly.fine host.other
    obtain ⟨h, ran, sane⟩ := handleShare_ok clientAddr unwritten fine.sane (fine.shares packet found)
    simp only [ran, Option.some.injEq] at stepped
    subst stepped
    refine .update_both s host ⟨sane, fine.wellFormed, by simp⟩ ⟨peer.sane, peer.wellFormed, peer.shares⟩ ?_ ?_
    · exact .of_free (Site.free (by simp [selecting]))
    · exact .of_free (by simp [Site.Blocked])
  next => cases stepped

theorem networkStep_orderly {e : NetworkEvent} (orderly : Orderly s) (allowed : OneWaits s e s')
    (stepped : networkStep s e = some s') : Orderly s' := by
  cases e with
  | arrive host m =>
    simp only [networkStep, arrive] at stepped
    split_ifs at stepped with wellFormed
    obtain rfl := Option.some.inj stepped
    have fine := orderly.fine host
    refine orderly.update host ⟨fine.sane, fun m' member => ?_, fine.shares⟩ (orderly.waits host) orderly.served
    rcases List.mem_append.mp member with old | new
    · exact fine.wellFormed m' old
    · obtain rfl := List.mem_singleton.mp new
      exact wellFormed
  | child host i clientAddr unwritten connects => exact handleChild_orderly orderly allowed stepped
  | peer host clientAddr unwritten => exact handlePeer_orderly orderly stepped
  | rest host i clientAddr unwritten connects => exact handleRest_orderly orderly allowed stepped
  | resume host =>
    simp only [networkStep] at stepped
    split_ifs at stepped with answered
    obtain rfl := Option.some.inj stepped
    have fine := orderly.fine host
    have free : SuperPc.selecting ≠ .awaiting := by decide
    refine orderly.update host ⟨fine.sane, fine.wellFormed, fine.shares⟩ (.of_free (Site.free free)) fun blocked => ?_
    obtain ⟨-, served⟩ := orderly.served blocked
    exact ⟨Site.free free, .inl (by simpa [answered.1] using served)⟩
  | spin host =>
    simp only [networkStep] at stepped
    split_ifs at stepped
    obtain rfl := Option.some.inj stepped
    exact orderly

end Steps

theorem network_orderly {s : Network} (reached : network.ReachableWhile OneWaits s) : Orderly s := by
  refine reached.invariant (fun s start => ⟨fun side => ?_, fun side => ?_⟩) fun s e s' _ orderly allowed stepped =>
    networkStep_orderly orderly allowed stepped
  · obtain ⟨table, -, children, share, -⟩ := start side
    exact ⟨⟨[], table ▸ initFileInfoTable_stores⟩, by simp [children], by simp [share]⟩
  · obtain ⟨-, selecting, -⟩ := start side
    exact .of_free (Site.free (by simp [selecting]))

def Site.Unhandled (site : Site) : Prop := site.children ≠ [] ∨ site.share ≠ none

def NetworkEvent.OfNode : NetworkEvent → Prop
  | .arrive _ _ => False
  | _ => True

def Site.Ready (site : Site) : Prop :=
  site.pc = .selecting ∧ site.Unhandled ∨ site.pc = .awaiting ∧ site.answered = true ∨ site.pc = .spinning

theorem handleChild_enabled {s : Network} (orderly : Orderly s) {host : Side} (selecting : (s host).pc = .selecting)
    (waiting : (s host).children ≠ []) : ∃ s', handleChild s host 0 ⟨0, 0, 0, 0⟩ zeroed true = some s' := by
  have fine := orderly.fine host
  obtain ⟨m, rest, queue⟩ := List.exists_cons_of_ne_nil waiting
  have wellFormed := fine.wellFormed m (by simp [queue])
  rcases handleChildMessage_ok ⟨0, 0, 0, 0⟩ zeroed fine.sane wellFormed with ⟨h, ran, -, -⟩ | endless
  · cases packed : h.share <;> simp [handleChild, handleRead, selecting, queue, ran, packed]
  · simp [handleChild, handleRead, selecting, queue, endless]

theorem handlePeer_enabled {s : Network} (orderly : Orderly s) {host : Side} (selecting : (s host).pc = .selecting)
    (waiting : (s host).share ≠ none) : ∃ s', handlePeer s host ⟨0, 0, 0, 0⟩ zeroed = some s' := by
  have fine := orderly.fine host
  obtain ⟨packet, sent⟩ := Option.ne_none_iff_exists'.mp waiting
  obtain ⟨h, ran, -⟩ := handleShare_ok ⟨0, 0, 0, 0⟩ zeroed fine.sane (fine.shares packet sent)
  simp [handlePeer, selecting, sent, ran]

theorem ready_enabled {s : Network} (orderly : Orderly s) {host : Side} (ready : (s host).Ready) :
    ∃ e s', NetworkEvent.OfNode e ∧ networkStep s e = some s' := by
  rcases ready with ⟨selecting, waiting | waiting⟩ | answered | spinning
  · obtain ⟨s', stepped⟩ := handleChild_enabled orderly selecting waiting
    exact ⟨.child host 0 ⟨0, 0, 0, 0⟩ zeroed true, s', trivial, stepped⟩
  · obtain ⟨s', stepped⟩ := handlePeer_enabled orderly selecting waiting
    exact ⟨.peer host ⟨0, 0, 0, 0⟩ zeroed, s', trivial, stepped⟩
  · exact ⟨.resume host, _, trivial, if_pos answered⟩
  · exact ⟨.spin host, s, trivial, if_pos spinning⟩

theorem Site.ready_or_blocked (site : Site) (unhandled : site.Unhandled) : site.Ready ∨ site.Blocked := by
  cases pc : site.pc with
  | selecting => exact .inl (.inl ⟨pc, unhandled⟩)
  | awaiting =>
    cases answered : site.answered with
    | true => exact .inl (.inr (.inl ⟨pc, answered⟩))
    | false => exact .inr ⟨pc, answered⟩
  | spinning => exact .inl (.inr (.inr pc))

theorem Orderly.ready {s : Network} (orderly : Orderly s) {host : Side} (unhandled : (s host).Unhandled) :
    ∃ side, (s side).Ready := by
  rcases Site.ready_or_blocked _ unhandled with ready | blocked
  · exact ⟨host, ready⟩
  · obtain ⟨free, waiting | spinning⟩ := orderly.waits host blocked
    · exact ⟨host.other, (Site.ready_or_blocked _ (.inr waiting)).resolve_right free⟩
    · exact ⟨host.other, .inr (.inr spinning)⟩

theorem handleChild_waits {s : Network} {host : Side} (selecting : (s host).pc = .selecting) (sane : (s host).node.Sane)
    {m : ChildMessage} {rest : List ChildMessage} (queue : (s host).children = m :: rest) (wellFormed : m.WellFormed)
    (accepting : (s host).node.Accepting m) (clientAddr : InAddr) (unwritten : Unwritten) :
    ∃ s', network.step s (.child host 0 clientAddr unwritten true) = some s' ∧ (s' host).Blocked ∧
      ∃ packet, s' host.other = { s host.other with share := some packet } := by
  cases m with
  | hello id portNum => exact accepting.elim
  | query buff id fileName => exact accepting.elim
  | fileInfo buff id files =>
    obtain ⟨few, known⟩ := accepting
    obtain ⟨entries, stores⟩ := sane
    obtain ⟨table, inserted, -⟩ := insertAll_first stores
      (records_hash wellFormed.2 clientAddr (findChildPort (s host).node.childPorts id))
    have ran := fileInfo_accepts buff id (fits_sound wellFormed.2) few (s host).node clientAddr unwritten known inserted
    have apart := (Side.other_ne host).symm
    simp [network, networkStep, handleChild, handleRead, selecting, queue, ChildMessage.packet, ran, accepted, Site.Blocked, apart]

def newNetwork : Network := fun _ =>
  { node := startUp 3 fun _ => 0, pc := .selecting, children := [], share := none, rests := [], answered := false }

def oneList : ChildMessage := .fileInfo (fun _ => 0) 7 [⟨[97], 5⟩]

theorem lists_arrive : ∃ s, network.ReachableWhile OneWaits s ∧ ∀ side, (s side).pc = .selecting ∧
    (s side).children = [oneList] ∧ (s side).node.fileInfoTable = initFileInfoTable ∧
    findChildPort (s side).node.childPorts 7 = 9000 := by
  obtain ⟨s, ran, state⟩ : ∃ s, network.execWhile OneWaits newNetwork
      [.arrive .first (.hello 7 9000), .child .first 0 ⟨10, 0, 0, 1⟩ zeroed true, .arrive .first oneList,
        .arrive .second (.hello 7 9000), .child .second 0 ⟨10, 0, 0, 1⟩ zeroed true, .arrive .second oneList] = some s ∧
      ∀ side, (s side).pc = .selecting ∧ (s side).children = [oneList] ∧
        (s side).node.fileInfoTable = initFileInfoTable ∧ findChildPort (s side).node.childPorts 7 = 9000 :=
    ⟨_, rfl, fun side => by cases side <;> exact ⟨rfl, rfl, rfl, rfl⟩⟩
  exact ⟨s, System.execWhile_reachable (.initial _ fun _ => ⟨rfl, rfl, rfl, rfl, rfl, rfl⟩) ran, state⟩

theorem super_nodes_go_on {s : Network} (reached : network.ReachableWhile OneWaits s) :
    ¬ ((s .first).Blocked ∧ (s .second).Blocked) ∧
      ((∃ host, (s host).Unhandled) → ∃ e s', NetworkEvent.OfNode e ∧ networkStep s e = some s') := by
  have orderly := network_orderly reached
  constructor
  · rintro ⟨first, second⟩
    exact (orderly.waits .first first).1 second
  · rintro ⟨host, unhandled⟩
    obtain ⟨side, ready⟩ := orderly.ready unhandled
    exact ready_enabled orderly ready

theorem waiting_node_goes_on : ∃ s : Network, (s .first).Blocked ∧ (s .second).children ≠ [] ∧
    ¬ ((s .first).Blocked ∧ (s .second).Blocked) ∧
      ((∃ host, (s host).Unhandled) → ∃ e s', NetworkEvent.OfNode e ∧ networkStep s e = some s') := by
  obtain ⟨s, reached, listed⟩ := lists_arrive
  obtain ⟨selecting, queue, table, known⟩ := listed .first
  obtain ⟨selecting', queue', -⟩ := listed .second
  obtain ⟨s', stepped, blocked, packet, peer⟩ := handleChild_waits selecting ⟨[], table ▸ initFileInfoTable_stores⟩
    queue (by decide) ⟨by decide, by simp [known]⟩ ⟨10, 0, 0, 1⟩ zeroed
  have free : ¬ (s .second).Blocked := Site.free (by simp [selecting'])
  refine ⟨s', blocked, ?_, super_nodes_go_on (.next s _ s' reached ?_ stepped)⟩
  · rw [show (Side.second) = Side.first.other from rfl, peer]
    simp [Side.other, queue']
  · exact fun _ _ _ => free

-- Both nodes take up their child's list before they look at the share packet of the other.
theorem two_lists_block :
    ¬ ∀ s : Network, network.Reachable s → ¬ ((s .first).Blocked ∧ (s .second).Blocked) ∧
      ((∃ host, (s host).Unhandled) → ∃ e s', NetworkEvent.OfNode e ∧ networkStep s e = some s') := by
  intro claimed
  obtain ⟨s, reached, listed⟩ := lists_arrive
  obtain ⟨selecting, queue, table, known⟩ := listed .first
  obtain ⟨selecting', queue', table', known'⟩ := listed .second
  obtain ⟨s₁, first, blocked, packet, peer⟩ := handleChild_waits selecting ⟨[], table ▸ initFileInfoTable_stores⟩ queue
    (by decide) ⟨by decide, by simp [known]⟩ ⟨10, 0, 0, 1⟩ zeroed
  simp only [Side.other] at peer
  have selecting₁ : (s₁ .second).pc = .selecting := by rw [peer, ← selecting']
  have queue₁ : (s₁ .second).children = [oneList] := by rw [peer, ← queue']
  have sane₁ : (s₁ .second).node.Sane := ⟨[], by simpa [peer, table'] using initFileInfoTable_stores⟩
  have accepting₁ : (s₁ .second).node.Accepting oneList := ⟨by decide, by simp [peer, known']⟩
  obtain ⟨s₂, second, blocked', packet', peer'⟩ := handleChild_waits selecting₁ sane₁ queue₁ (by decide) accepting₁
    ⟨10, 0, 0, 1⟩ zeroed
  have reached₂ : network.Reachable s₂ := .next s₁ _ s₂ (.next s _ s₁ reached.reachable trivial first) trivial second
  refine (claimed s₂ reached₂).1 ⟨?_, blocked'⟩
  simp only [Side.other] at peer'
  rw [peer']
  exact blocked

end NetProg.P4
