import NetProg.P4.Blocking
import NetProg.Shared.Replicas

set_option autoImplicit false

namespace NetProg.P4

open Memory Probing Transition Replication

abbrev Records := Multiset FileInfoStore

def SuperNode.records (node : SuperNode) : Records := contents node.fileInfoTable.fileInfoList

def ChildMessage.count : ChildMessage → Nat
  | .fileInfo _ _ files => files.length
  | _ => 0

def shareCount (packet : List UInt8) : Nat := (load32 (receiveBuffer (readRecvBuff packet)) fileNumAt).toNat

def Replicates (s : Network) (e : NetworkEvent) (_ : Network) : Prop :=
  match e with
  -- an accepted list is sent on and is short enough for that, and a node has room for the records that it handles
  | .child host i _ _ connects => ∀ m, (s host).children[i]? = some m → (s host).node.Accepting m →
      connects = true ∧ m.count ≤ 8 ∧ (s host).node.fileInfoTable.len + m.count ≤ hashTableSize
  | .peer host _ _ => ∀ packet, (s host).share = some packet →
      (s host).node.fileInfoTable.len + shareCount packet ≤ hashTableSize
  | .rest host i _ _ _ => ∀ bytes, (s host).rests[i]? = some bytes → (s host).node.Declines (readRecvBuff bytes)
  | _ => True

instance (s : Network) (e : NetworkEvent) (s' : Network) : Decidable (Replicates s e s') :=
  match e with
  | .child host i _ _ connects =>
    inferInstanceAs (Decidable (∀ m, (s host).children[i]? = some m → (s host).node.Accepting m →
      connects = true ∧ m.count ≤ 8 ∧ (s host).node.fileInfoTable.len + m.count ≤ hashTableSize))
  | .peer host _ _ =>
    inferInstanceAs (Decidable (∀ packet, (s host).share = some packet →
      (s host).node.fileInfoTable.len + shareCount packet ≤ hashTableSize))
  | .rest host i _ _ _ =>
    inferInstanceAs (Decidable (∀ bytes, (s host).rests[i]? = some bytes → (s host).node.Declines (readRecvBuff bytes)))
  | .arrive _ _ => isTrue trivial
  | .resume _ => isTrue trivial
  | .spin _ => isTrue trivial

inductive OnTheWay : Option (List UInt8) → Records → Prop where
  -- What the share packet that has not been read yet brings.
  | nothing : OnTheWay none 0
  | packet (unwritten : Block) (id : UInt32) (infos : List FileInfoStore) (few : infos.length ≤ 8)
      (fit : ∀ info ∈ infos, info.Fits ∧ 0 ≤ hashFunction info.fileName) :
      OnTheWay (some (sharePacket unwritten id infos)) infos

structure Mirrored (s : Network) (r : Replicas Side Records) : Prop where
  fine : ∀ side, (s side).Fine
  held : ∀ side, r.held side = (s side).node.records
  coming : ∀ side, OnTheWay (s side).share (r.coming side)
  -- The sender of a packet that has not been read waits for the answer.
  waits : ∀ side, (s side).share ≠ none → (s side.other).Blocked

section Steps

variable {s s' : Network} {r : Replicas Side Records} {host : Side}

theorem Stores.records {entries : List FileInfoStore} {node : SuperNode} (stores : Stores entries node.fileInfoTable) :
    node.records = entries := stores.built.contents_eq

theorem shareCount_packet (unwritten : Block) (id : UInt32) {infos : List FileInfoStore}
    (fit : ∀ info ∈ infos, info.Fits) (few : infos.length ≤ 8) :
    shareCount (sharePacket unwritten id infos) = infos.length := by
  have front : _ ∧ load32 (receiveBuffer (readRecvBuff (sharePacket unwritten id infos))) fileNumAt = _ :=
    entriesPacket_front (fun info member => storeFileInfo_confined (fit info member)) unwritten id fileInfoShare
      fun j below => by
        simp only [filesAt] at below
        exact receiveBuffer_load _ (by simp only [headerLen]; omega) (by simp only [recvBuffSize]; omega)
  rw [shareCount, front.2]
  exact UInt32.toNat_ofNat_of_lt' (by simp only [UInt32.size]; omega)

theorem Mirrored.both (s : Network) (host : Side) {site site' : Site} (fine : site.Fine) (fine' : site'.Fine)
    (held : r.held host = site.node.records) (held' : r.held host.other = site'.node.records)
    (coming : OnTheWay site.share (r.coming host)) (coming' : OnTheWay site'.share (r.coming host.other))
    (waits : site.share ≠ none → site'.Blocked) (waits' : site'.share ≠ none → site.Blocked) :
    Mirrored (Function.update (Function.update s host site) host.other site') r := by
  have apart := (Side.other_ne host).symm
  constructor
  case fine =>
    intro side
    rcases Side.eq_or_other side host with rfl | rfl
    · simpa [apart] using fine
    · simpa using fine'
  case held =>
    intro side
    rcases Side.eq_or_other side host with rfl | rfl
    · simpa [apart] using held
    · simpa using held'
  case coming =>
    intro side
    rcases Side.eq_or_other side host with rfl | rfl
    · simpa [apart] using coming
    · simpa using coming'
  case waits =>
    intro side sent
    rcases Side.eq_or_other side host with rfl | rfl
    · rw [Function.update_of_ne apart, Function.update_self] at sent
      simpa using waits sent
    · rw [Function.update_self] at sent
      simpa [apart, Side.other_other] using waits' sent

theorem Mirrored.one (mirrored : Mirrored s r) {site : Site} (fine : site.Fine)
    (records : site.node.records = (s host).node.records) (share : site.share = (s host).share)
    (waits : (s host.other).share ≠ none → site.Blocked) : Mirrored (Function.update s host site) r := by
  have both : Function.update s host site = Function.update (Function.update s host site) host.other (s host.other) := by
    rw [← Function.update_of_ne (Side.other_ne host) site s, Function.update_eq_self]
  rw [both]
  refine .both s host fine (mirrored.fine _) ?_ (mirrored.held _) ?_ (mirrored.coming _) ?_ waits
  · rw [records]
    exact mirrored.held host
  · rw [share]
    exact mirrored.coming host
  · rw [share]
    exact mirrored.waits host

theorem Mirrored.unsent (mirrored : Mirrored s r) (free : ¬ (s host).Blocked) : (s host.other).share = none := by
  by_contra sent
  have blocked := mirrored.waits host.other sent
  rw [Side.other_other] at blocked
  exact free blocked

theorem OnTheWay.of_none {share : Option (List UInt8)} {infos : Records} (way : OnTheWay share infos)
    (quiet : share = none) : infos = 0 := by
  subst quiet
  cases way
  rfl

theorem ChildMessage.type (m : ChildMessage) (wellFormed : m.WellFormed) :
    (loadHeader (receiveBuffer (readRecvBuff m.packet))).msgType ≠ fileInfoShare := by
  cases m with
  | hello id portNum =>
    rw [ChildMessage.packet, helloFromChildPacket_header]
    show helloFromChild ≠ fileInfoShare
    decide
  | fileInfo buff id files =>
    rw [ChildMessage.packet, fileInfoPacket_header buff id (fits_sound wellFormed.2)]
    show P4.fileInfo ≠ fileInfoShare
    decide
  | query buff id fileName =>
    rw [ChildMessage.packet, searchQueryPacket_header]
    show searchQuery ≠ fileInfoShare
    decide

theorem handleRead_quiet (mirrored : Mirrored s r) (selecting : (s host).pc = .selecting) {children : List ChildMessage}
    {rests : List (List UInt8)} {clientAddr : InAddr} {received : List UInt8} {unwritten : Unwritten} {connects : Bool}
    (wellFormed : ∀ m ∈ children, m.WellFormed)
    (handled : (∃ h, handleClientRequest (s host).node clientAddr received unwritten = .ok h ∧ h.share = none ∧
        h.node.Sane ∧ h.node.records = (s host).node.records) ∨
      handleClientRequest (s host).node clientAddr received unwritten = .error .endless)
    (stepped : handleRead s host children rests clientAddr received unwritten connects = some s') : Mirrored s' r := by
  have fine := mirrored.fine host
  have free : ¬ (s host).Blocked := Site.free (by simp [selecting])
  simp only [handleRead] at stepped
  rcases handled with ⟨h, ran, quiet, sane, same⟩ | endless
  · simp only [ran, quiet, Option.some.injEq] at stepped
    subst stepped
    exact mirrored.one ⟨sane, wellFormed, fine.shares⟩ same rfl fun sent => absurd (mirrored.unsent free) sent
  · simp only [endless, Option.some.injEq] at stepped
    subst stepped
    exact mirrored.one ⟨fine.sane, wellFormed, fine.shares⟩ rfl rfl fun sent => absurd (mirrored.unsent free) sent

theorem handleRest_mirrored (mirrored : Mirrored s r) {i : Nat} {clientAddr : InAddr} {unwritten : Unwritten}
    {connects : Bool} (allowed : Replicates s (.rest host i clientAddr unwritten connects) s')
    (stepped : handleRest s host i clientAddr unwritten connects = some s') : Mirrored s' r := by
  simp only [handleRest] at stepped
  split at stepped
  next bytes selecting found =>
    have fine := mirrored.fine host
    obtain ⟨h, ran, same, quiet⟩ := handleRest_ok clientAddr unwritten (allowed bytes found)
    refine handleRead_quiet mirrored selecting fine.wellFormed (.inl ⟨h, ran, quiet, ?_, ?_⟩) stepped
    · rw [SuperNode.Sane, same]
      exact fine.sane
    · rw [SuperNode.records, same, SuperNode.records]
  next => cases stepped

theorem handleChild_mirrored (mirrored : Mirrored s r) {i : Nat} {clientAddr : InAddr} {unwritten : Unwritten}
    {connects : Bool} (allowed : Replicates s (.child host i clientAddr unwritten connects) s')
    (stepped : handleChild s host i clientAddr unwritten connects = some s') :
    Mirrored s' r ∨ ∃ change r', Replication.system.step r (.update host change) = some r' ∧ Mirrored s' r' := by
  simp only [handleChild] at stepped
  split at stepped
  next selecting found =>
    rename_i m
    have fine := mirrored.fine host
    have peer := mirrored.fine host.other
    have free : ¬ (s host).Blocked := Site.free (by simp [selecting])
    have remaining : ∀ m' ∈ (s host).children.eraseIdx i, m'.WellFormed := fun m' member =>
      fine.wellFormed m' (List.mem_of_mem_eraseIdx member)
    have wellFormed := fine.wellFormed m (List.mem_of_getElem? found)
    rcases handleChildMessage_ok clientAddr unwritten fine.sane wellFormed with ⟨h, ran, sane, shared⟩ | endless
    · cases packed : h.share with
      | none =>
        refine .inl (handleRead_quiet mirrored selecting remaining (.inl ⟨h, ran, packed, sane, ?_⟩) stepped)
        rw [SuperNode.records, handleClientRequest_quiet ran packed (m.type wellFormed), SuperNode.records]
      | some packet =>
        obtain ⟨share, accepting⟩ := shared packet packed
        obtain ⟨rfl, short, room⟩ := allowed m found accepting
        simp only [handleRead, ran, packed, Option.some.injEq] at stepped
        subst stepped
        cases m with
        | hello id portNum => exact accepting.elim
        | query buff id fileName => exact accepting.elim
        | fileInfo buff id files =>
          obtain ⟨entries, stores⟩ := fine.sane
          rw [stores.len] at room
          obtain ⟨table, stored, handled⟩ := fileInfo_registers buff id wellFormed.2 accepting.1 (s host).node clientAddr
            unwritten accepting.2 stores room
          obtain rfl := Except.ok.inj (ran.symm.trans handled)
          obtain rfl := Option.some.inj packed
          have unsent := mirrored.unsent free
          have nothing := (mirrored.coming host.other).of_none unsent
          have hashes := records_hash wellFormed.2 clientAddr (findChildPort (s host).node.childPorts id)
          have fit := records_fit clientAddr (findChildPort (s host).node.childPorts id) (fits_sound wellFormed.2)
          refine .inr ⟨records clientAddr (findChildPort (s host).node.childPorts id) files, _, rfl, ?_⟩
          refine .both s host ⟨sane, remaining, fine.shares⟩ ⟨peer.sane, peer.wellFormed, ?_⟩ ?_ ?_ ?_ ?_ ?_ ?_
          · intro packet' same
            obtain rfl := Option.some.inj same
            exact share
          · have before : r.held host = entries := (mirrored.held host).trans stores.records
            have after : SuperNode.records { (s host).node with fileInfoTable := table } = _ := stored.records
            simp only [accepted, Function.update_self, before, after, Multiset.coe_add]
          · simpa [Side.other_ne] using mirrored.held host.other
          · simpa using mirrored.coming host
          · simp only [if_neg (Side.other_ne host), nothing, zero_add]
            refine .packet _ _ _ ?_ fun info member => ⟨fit info member, hashes info member⟩
            simpa [records, ChildMessage.count] using short
          · exact mirrored.waits host
          · exact fun _ => ⟨rfl, rfl⟩
    · exact .inl (handleRead_quiet mirrored selecting remaining (.inr endless) stepped)
  next => cases stepped

theorem handlePeer_mirrored (mirrored : Mirrored s r) {clientAddr : InAddr} {unwritten : Unwritten}
    (allowed : Replicates s (.peer host clientAddr unwritten) s')
    (stepped : handlePeer s host clientAddr unwritten = some s') :
    ∃ change r', Replication.system.step r (.arrive host change 0) = some r' ∧ Mirrored s' r' := by
  simp only [handlePeer] at stepped
  split at stepped
  next packet selecting found =>
    have fine := mirrored.fine host
    have peer := mirrored.fine host.other
    have free : ¬ (s host).Blocked := Site.free (by simp [selecting])
    have room := allowed packet found
    have way := mirrored.coming host
    rw [found] at way
    generalize due : r.coming host = change at way
    cases way with
    | packet buff id infos few fit =>
      have fits : ∀ info ∈ infos, info.Fits := fun info member => (fit info member).1
      rw [shareCount_packet buff id fits few] at room
      obtain ⟨entries, stores⟩ := fine.sane
      rw [stores.len] at room
      obtain ⟨table, inserted, stored⟩ := insertAll_stores stores (fun info member => (fit info member).2) room
      obtain ⟨reply, ran⟩ := share_accepted buff id fits few clientAddr unwritten inserted
      simp only [ran, Option.some.injEq] at stepped
      subst stepped
      refine ⟨infos, _, if_pos (by rw [due, add_zero]), ?_⟩
      refine .both s host ⟨⟨_, stored⟩, fine.wellFormed, by simp⟩ ⟨peer.sane, peer.wellFormed, peer.shares⟩ ?_ ?_ ?_ ?_ ?_ ?_
      · have before : r.held host = entries := (mirrored.held host).trans stores.records
        have after : SuperNode.records { (s host).node with fileInfoTable := table } = _ := stored.records
        simp only [Handled.reply, Function.update_self, before, after, Multiset.coe_add]
      · simpa [Side.other_ne] using mirrored.held host.other
      · simpa using OnTheWay.nothing
      · simpa [Side.other_ne] using mirrored.coming host.other
      · simp
      · exact fun sent => absurd (mirrored.unsent free) sent
  next => cases stepped

end Steps

theorem network_simulates : network.Simulates Replicates Replication.system (fun _ _ _ => True) Mirrored := by
  constructor
  · intro s start
    refine ⟨{ held := fun _ => 0, coming := fun _ => 0 }, ⟨fun _ _ => rfl, fun _ => rfl⟩, ?_⟩
    constructor
    case fine =>
      intro side
      obtain ⟨table, -, children, share, -⟩ := start side
      exact ⟨⟨[], table ▸ initFileInfoTable_stores⟩, by simp [children], by simp [share]⟩
    case held =>
      intro side
      rw [SuperNode.records, (start side).1]
      exact initFileInfoTable_stores.built.contents_eq.symm
    case coming =>
      intro side
      rw [(start side).2.2.2.1]
      exact .nothing
    case waits =>
      intro side sent
      exact absurd (start side).2.2.2.1 sent
  · intro s r e s' mirrored allowed stepped
    cases e with
    | arrive host m =>
      simp only [network, networkStep, arrive] at stepped
      split_ifs at stepped with wellFormed
      obtain rfl := Option.some.inj stepped
      have fine := mirrored.fine host
      refine .inl (mirrored.one ⟨fine.sane, fun m' member => ?_, fine.shares⟩ rfl rfl fun sent => ?_)
      · rcases List.mem_append.mp member with old | new
        · exact fine.wellFormed m' old
        · obtain rfl := List.mem_singleton.mp new
          exact wellFormed
      · have blocked := mirrored.waits host.other sent
        rwa [Side.other_other] at blocked
    | child host i clientAddr unwritten connects =>
      rcases handleChild_mirrored mirrored allowed stepped with same | ⟨change, r', moved, there⟩
      · exact .inl same
      · exact .inr ⟨_, r', trivial, moved, there⟩
    | peer host clientAddr unwritten =>
      obtain ⟨change, r', moved, there⟩ := handlePeer_mirrored mirrored allowed stepped
      exact .inr ⟨_, r', trivial, moved, there⟩
    | rest host i clientAddr unwritten connects => exact .inl (handleRest_mirrored mirrored allowed stepped)
    | resume host =>
      simp only [network, networkStep] at stepped
      split_ifs at stepped with answered
      obtain rfl := Option.some.inj stepped
      have fine := mirrored.fine host
      have free : ¬ (s host).Blocked := by simp [Site.Blocked, answered.2]
      exact .inl (mirrored.one ⟨fine.sane, fine.wellFormed, fine.shares⟩ rfl rfl fun sent =>
        absurd (mirrored.unsent free) sent)
    | spin host =>
      simp only [network, networkStep] at stepped
      split_ifs at stepped
      obtain rfl := Option.some.inj stepped
      exact .inl mirrored

theorem tables_agree {s : Network} (reached : network.ReachableWhile Replicates s) :
    ∃ coming : Side → Records, (∀ side, OnTheWay (s side).share (coming side)) ∧
      (s .first).node.records + coming .first = (s .second).node.records + coming .second := by
  obtain ⟨r, mirrors, mirrored⟩ := network_simulates.reachable reached
  have equal := Replication.totals_equal mirrors .first .second
  rw [Replicas.total, Replicas.total, mirrored.held, mirrored.held] at equal
  exact ⟨r.coming, mirrored.coming, equal⟩

theorem one_list_on_the_way : ∃ s : Network, (s .second).share ≠ none ∧
    ∃ coming : Side → Records, (∀ side, OnTheWay (s side).share (coming side)) ∧
      (s .first).node.records + coming .first = (s .second).node.records + coming .second := by
  obtain ⟨s, ran, selecting, queue, table, known⟩ : ∃ s, network.execWhile Replicates newNetwork
      [.arrive .first (.hello 7 9000), .child .first 0 ⟨10, 0, 0, 1⟩ zeroed true, .arrive .first oneList] = some s ∧
      (s .first).pc = .selecting ∧ (s .first).children = [oneList] ∧
        (s .first).node.fileInfoTable = initFileInfoTable ∧ findChildPort (s .first).node.childPorts 7 = 9000 :=
    ⟨_, rfl, rfl, rfl, rfl, rfl⟩
  have reached := System.execWhile_reachable (.initial newNetwork fun _ => ⟨rfl, rfl, rfl, rfl, rfl, rfl⟩) ran
  obtain ⟨s', stepped, -, packet, peer⟩ := handleChild_waits selecting ⟨[], table ▸ initFileInfoTable_stores⟩ queue
    (by decide) ⟨by decide, by simp [known]⟩ ⟨10, 0, 0, 1⟩ zeroed
  have allowed : Replicates s (.child .first 0 ⟨10, 0, 0, 1⟩ zeroed true) s' := by
    intro m found _
    obtain rfl : oneList = m := by simpa [queue] using found
    exact ⟨rfl, by decide, by rw [table]; decide⟩
  exact ⟨s', by rw [show Side.second = Side.first.other from rfl, peer]; simp,
    tables_agree (reached.next _ _ _ allowed stepped)⟩

end NetProg.P4
