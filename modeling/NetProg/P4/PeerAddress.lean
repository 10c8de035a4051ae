import NetProg.P4.CopyLoop
import NetProg.P4.Iterations

set_option autoImplicit false

namespace NetProg.P4

open Memory Transition Probing

structure Fills (infos : List FileInfoStore) (before after : FileInformationTable) : Prop where
  kept : ∀ cell stored, before.fileInfoList cell = some stored → after.fileInfoList cell = some stored
  new : ∀ cell stored, after.fileInfoList cell = some stored →
    before.fileInfoList cell = some stored ∨ before.fileInfoList cell = none ∧ stored ∈ infos

section Insert

variable {table table' : FileInformationTable} {infos : List FileInfoStore}

theorem Fills.refl (infos : List FileInfoStore) (table : FileInformationTable) : Fills infos table table :=
  ⟨fun _ _ here => here, fun _ _ here => .inl here⟩

theorem insertFileInfo_fills {info : FileInfoStore} {code : Int}
    (ran : insertFileInfo info table = .ok (code, table')) : Fills [info] table table' := by
  simp only [insertFileInfo, bind, Except.bind] at ran
  split_ifs at ran
  · obtain ⟨-, rfl⟩ := Prod.mk.inj (Except.ok.inj ran)
    exact .refl _ _
  · split at ran
    next => cases ran
    next home _ =>
      split at ran
      next => cases ran
      next index walked =>
        obtain ⟨-, rfl⟩ := Prod.mk.inj (Except.ok.inj ran)
        have empty : table.fileInfoList index = none := by
          simp only [walk] at walked
          split at walked
          next found =>
            obtain rfl := Except.ok.inj walked
            simpa using scan_stops found
          next => cases walked
        constructor
        · intro cell stored here
          have other : cell ≠ index := by
            rintro rfl
            simp [empty] at here
          simpa only [Function.update_of_ne other] using here
        · intro cell stored here
          by_cases same : cell = index
          · subst same
            simp only [Function.update_self, Option.some.injEq] at here
            exact .inr ⟨empty, by simp [here]⟩
          · simp only [Function.update_of_ne same] at here
            exact .inl here

theorem insertAll_fills (ran : insertAll table infos = .ok table') : Fills infos table table' := by
  induction infos generalizing table with
  | nil =>
    obtain rfl : table = table' := by simpa [insertAll] using ran
    exact .refl _ _
  | cons info rest ih =>
    simp only [insertAll, bind, Except.bind] at ran
    split at ran
    next => cases ran
    next inserted first =>
      have head : Fills [info] table inserted.2 := insertFileInfo_fills first
      have tail := ih ran
      refine ⟨fun cell stored here => tail.kept _ _ (head.kept _ _ here), fun cell stored here => ?_⟩
      rcases tail.new cell stored here with before | ⟨empty, listed⟩
      · rcases head.new cell stored before with older | ⟨empty, only⟩
        · exact .inl older
        · exact .inr ⟨empty, List.mem_cons.mpr (.inl (List.mem_singleton.mp only))⟩
      · refine .inr ⟨?_, List.mem_cons_of_mem _ listed⟩
        by_contra occupied
        obtain ⟨other, held⟩ := Option.ne_none_iff_exists'.mp occupied
        exact absurd ((head.kept _ _ held).symm.trans empty) (by simp)

end Insert

def RecordsPeer (addr : InAddr) (before after : SuperNode) (msgType : UInt32) : Prop :=
  (msgType = fileInfo → ∀ cell stored, after.fileInfoTable.fileInfoList cell = some stored →
    before.fileInfoTable.fileInfoList cell = some stored ∨
      before.fileInfoTable.fileInfoList cell = none ∧ stored.ipAddr = inetNtoa addr) ∧
  (msgType = helloSuperToSuper → after.otherSuperIpAddr = inetNtoa addr)

section Handle

variable {node : SuperNode} {clientAddr : InAddr} {received : List UInt8} {unwritten : Unwritten} {h : Handled}

theorem readFileInformation_ipAddr {pkt : Block} {childPort : UInt32} {i : Nat} {info : FileInfoStore}
    (read : readFileInformation pkt clientAddr childPort i = .ok info) : info.ipAddr = inetNtoa clientAddr := by
  simp only [readFileInformation, bind, Except.bind] at read
  split at read
  next => cases read
  next =>
    obtain rfl := Except.ok.inj read
    rfl

theorem handleFileInfo_records {recvBuff : Block} {bytesRead : Nat}
    (ran : handleFileInfo node clientAddr recvBuff bytesRead unwritten = .ok h) :
    ∃ infos, Fills infos node.fileInfoTable h.node.fileInfoTable ∧ ∀ info ∈ infos, info.ipAddr = inetNtoa clientAddr := by
  cases shared : h.share with
  | none =>
    rw [handleFileInfo_quiet ran shared]
    exact ⟨[], .refl _ _, by simp⟩
  | some packet =>
    obtain ⟨infos, table, fileInfoPkt, accepts⟩ := handleFileInfo_shared ran shared
    obtain rfl := Except.ok.inj (ran.symm.trans (handleFileInfo_accepts accepts))
    refine ⟨infos, insertAll_fills accepts.copies.stored, fun info member => ?_⟩
    obtain ⟨k, inside, rfl⟩ := List.getElem_of_mem member
    exact readFileInformation_ipAddr (accepts.copies.reads k inside)

theorem handleClientRequest_records (ran : handleClientRequest node clientAddr received unwritten = .ok h) :
    RecordsPeer clientAddr node h.node (loadHeader (receiveBuffer received)).msgType := by
  constructor
  · intro type cell stored here
    rw [handleClientRequest_fileInfo type] at ran
    obtain ⟨infos, fills, own⟩ := handleFileInfo_records ran
    exact (fills.new cell stored here).imp_right fun ⟨empty, listed⟩ => ⟨empty, own stored listed⟩
  · intro type
    have hello : handleHelloSuperToSuper node clientAddr (receiveBuffer received) = .ok h := by
      simpa [handleClientRequest, type, helloSuperToSuper, helloFromChild] using ran
    obtain rfl := Except.ok.inj hello
    rfl

end Handle

def FirstPeerOnStack (s : SuperLoop) (e : LoopEvent) (_ : SuperLoop) : Prop :=
  match e with
  | .accept (some (_, peer)) => s.clientAddrLen = initialAddrLen → sinAddr peer = sinAddr s.clientAddr
  | _ => True

instance (s : SuperLoop) (e : LoopEvent) (s' : SuperLoop) : Decidable (FirstPeerOnStack s e s') := by
  unfold FirstPeerOnStack
  split <;> infer_instance

structure SuperLoop.Addressed (s : SuperLoop) : Prop where
  orderly : s.Orderly
  length : s.clientAddrLen = initialAddrLen ∨ s.clientAddrLen = 16
  slots : ∀ i c, Serves s.loop.pool.clientfd s.sockets i c → sinAddr (s.loop.pool.clientAddr i) = sinAddr (s.peers c)
  requests : ∀ r ∈ s.requests, r.connection < s.connections ∧
    RecordsPeer (sinAddr (s.peers r.connection)) r.before r.after (loadHeader (receiveBuffer r.received)).msgType

theorem SuperLoop.Starts.addressed {s : SuperLoop} (starts : s.Starts) : s.Addressed where
  orderly := starts.orderly
  length := .inl starts.clientAddrLen
  slots i c serves := by simp [Serves, starts.sockets] at serves
  requests := by simp [starts.requests]

theorem sinAddr_congr {addr addr' : SockAddr} (same : ∀ i : Fin 16, 4 ≤ i.val → addr i = addr' i) :
    sinAddr addr = sinAddr addr' := by
  simp only [sinAddr, same 4 (by decide), same 5 (by decide), same 6 (by decide), same 7 (by decide)]

theorem acceptAddr_peer {clientAddr peer : SockAddr} {clientAddrLen : Nat}
    (length : clientAddrLen = initialAddrLen ∨ clientAddrLen = 16)
    (first : clientAddrLen = initialAddrLen → sinAddr peer = sinAddr clientAddr) :
    sinAddr (acceptAddr clientAddr clientAddrLen peer).1 = sinAddr peer := by
  rcases length with rfl | rfl
  · -- only the family and the port are stored
    rw [first rfl]
    refine sinAddr_congr fun i behind => if_neg ?_
    simp only [initialAddrLen]
    omega
  · exact sinAddr_congr fun i _ => if_pos (by omega)

theorem SuperLoop.Moves.addressed {s s' : SuperLoop} {e : LoopEvent} (addressed : s.Addressed)
    (first : FirstPeerOnStack s e s') (moves : s.Moves e s') : s'.Addressed := by
  have orderly := moves.orderly addressed.orderly
  obtain ⟨before, length, slots, requests⟩ := addressed
  cases moves with
  | selectFails => exact ⟨orderly, length, slots, requests⟩
  | selects => exact ⟨orderly, length, slots, requests⟩
  | nobody => exact ⟨orderly, length, slots, requests⟩
  | accepts sockfd peer pool pc asked positive other closed added =>
    refine ⟨orderly, .inr rfl, fun i c serves => ?_, fun r member => ?_⟩
    · rcases added.cases i with ⟨clientfd, clientAddr⟩ | ⟨free, -, clientAddr⟩
      · have kept : Serves s.loop.pool.clientfd s.sockets i c := by
          have moved := before.wiring.serves_accept (added_takes added) closed serves
          refine moved.resolve_right fun ⟨free, _⟩ => ?_
          have occupied := serves.1
          simp only [clientfd] at occupied
          omega
        have old : c ≠ s.connections := (before.wiring.old kept).ne
        simp only [clientAddr, Function.update_of_ne old]
        exact slots i c kept
      · have new : c = s.connections := by
          have moved := before.wiring.serves_accept (added_takes added) closed serves
          refine (moved.resolve_left fun kept => ?_).2
          have occupied := kept.1
          omega
        simp only [clientAddr, new, Function.update_self]
        exact acceptAddr_peer length first
    · obtain ⟨old, own⟩ := requests r member
      have other : r.connection ≠ s.connections := old.ne
      simp only [Function.update_of_ne other]
      exact ⟨Nat.lt_succ_of_lt old, own⟩
  | passes read unwritten loop scans =>
    have same := scans.slots
    refine ⟨orderly, length, fun i c serves => ?_, requests⟩
    simp only [same.clientfd, same.clientAddr] at serves ⊢
    exact slots i c serves
  | givesUp unwritten i loop scans =>
    have same := scans.slots
    refine ⟨orderly, length, fun j c serves => ?_, requests⟩
    simp only [same.clientfd, same.clientAddr] at serves ⊢
    exact slots j c serves
  | closes unwritten i loop scans =>
    have same := scans.slots
    refine ⟨orderly, length, fun j c serves => ?_, requests⟩
    simp only [SuperLoop.close, FdPool.closeSlot, same.clientfd, same.clientAddr] at serves ⊢
    exact slots j c (Wiring.serves_close serves).2
  | unread unwritten i loop scans =>
    have same := scans.slots
    refine ⟨orderly, length, fun j c serves => ?_, requests⟩
    simp only [same.clientfd, same.clientAddr] at serves ⊢
    exact slots j c serves
  | handles received unwritten i c loop h scans socket ran =>
    have same := scans.slots
    refine ⟨orderly, length, fun j c' serves => ?_, fun r member => ?_⟩
    · simp only [SuperLoop.handled, same.clientfd, same.clientAddr] at serves ⊢
      exact slots j c' serves
    · rcases List.mem_append.mp member with earlier | last
      · exact requests r earlier
      · obtain rfl := List.mem_singleton.mp last
        have serves : Serves s.loop.pool.clientfd s.sockets i c := by
          cases scans with
          | serves _ _ _ occupied => exact ⟨occupied, socket⟩
        have own := handleClientRequest_records ran
        rw [slots i c serves] at own
        exact ⟨before.wiring.old serves, own⟩

theorem addressed_reachable {s : SuperLoop} (reached : superLoop.ReachableWhile FirstPeerOnStack s) : s.Addressed := by
  apply reached.invariant
  · exact fun _ starts => SuperLoop.Starts.addressed starts
  · exact fun _ _ _ _ addressed first stepped => (SuperLoop.step_moves stepped).addressed addressed first

def peerAddr : SockAddr := fun i => if i.val < 4 then 2 else if i.val = 4 then 10 else if i.val = 7 then 1 else 0

def helloSuperPacket : List UInt8 := headerPacket { totalLen := 16, id := 7, msgType := helloSuperToSuper } ++ net32 9000

def superConnects : List LoopEvent :=
  [.select [3], .accept (some (4, peerAddr)), .scan .failed zeroed,
    .select [4], .accept none, .scan (.data helloSuperPacket) zeroed, .scan .failed zeroed]

end NetProg.P4
