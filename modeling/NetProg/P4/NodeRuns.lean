import NetProg.P4.Blocking
import NetProg.P4.Bounds
import NetProg.P4.Insertions

set_option autoImplicit false

namespace NetProg.P4

open Memory Transition Probing

structure Delivery where
  -- What one call of `handleClientRequest` gets.
  clientAddr : InAddr
  received : List UInt8
  unwritten : Unwritten

def Delivery.handle (m : Delivery) (node : SuperNode) : Run Handled :=
  handleClientRequest node m.clientAddr m.received m.unwritten

abbrev Delivery.header (m : Delivery) : Header := loadHeader (receiveBuffer m.received)

def superNode : System SuperNode Delivery where
  init node := ∃ id ids otherSuperIpAddr otherSuperPortNum,
    node = { startUp id ids with otherSuperIpAddr, otherSuperPortNum }
  step node m :=
    if m.received.length ≤ recvBuffSize then match m.handle node with
      | .ok h => some h.node
      | .error _ => none
    else none

theorem superNode_step {node node' : SuperNode} {m : Delivery} (stepped : superNode.step node m = some node') :
    m.received.length ≤ recvBuffSize ∧ ∃ h, m.handle node = .ok h ∧ h.node = node' := by
  simp only [superNode] at stepped
  split_ifs at stepped with short
  split at stepped
  next h ran => exact ⟨short, h, ran, Option.some.inj stepped⟩
  next => cases stepped

theorem superNode_handles {node : SuperNode} {m : Delivery} {h : Handled} (short : m.received.length ≤ recvBuffSize)
    (ran : m.handle node = .ok h) : superNode.step node m = some h.node := by
  simp [superNode, short, ran]

theorem data_short {s s' : SuperLoop} {received : List UInt8} {unwritten : Unwritten}
    (stepped : s.step (.scan (.data received) unwritten) = some s') (handled : s'.requests ≠ s.requests) :
    received.length ≤ recvBuffSize := by
  simp only [SuperLoop.step] at stepped
  split at stepped
  next => cases stepped
  next =>
    obtain rfl := Option.some.inj stepped
    exact absurd rfl handled
  next =>
    simp only [SuperLoop.serve] at stepped
    split at stepped
    next => cases stepped
    next =>
      split_ifs at stepped with inside
      exact inside.2

theorem superLoop_refines :
    superLoop.Refines (fun _ _ _ => True) superNode (fun _ _ _ => True) SuperLoop.node := by
  constructor
  · intro s starts
    exact starts.node
  · intro s e s' _ stepped
    cases SuperLoop.step_moves stepped with
    | handles received unwritten i c loop h scans socket ran =>
      have short : received.length ≤ recvBuffSize := data_short stepped (by simp [SuperLoop.handled])
      exact .inr ⟨⟨sinAddr (s.loop.pool.clientAddr i), received, unwritten⟩, trivial, superNode_handles short ran⟩
    | _ => exact .inl rfl

theorem node_reachable {s : SuperLoop} (reached : superLoop.Reachable s) : superNode.Reachable s.node :=
  superLoop_refines.reachable reached

section Handle

variable {node : SuperNode} {m : Delivery} {h : Handled}

theorem handle_inserts (ran : m.handle node = .ok h) :
    ∃ infos, insertAll node.fileInfoTable infos = .ok h.node.fileInfoTable := by
  rcases handleClientRequest_cases ran with list | ⟨type, -⟩ | ⟨same, -⟩
  · cases shared : h.share with
    | none => exact ⟨[], by rw [handleFileInfo_quiet list shared]; rfl⟩
    | some packet =>
      obtain ⟨infos, table, fileInfoPkt, accepts⟩ := handleFileInfo_shared list shared
      obtain rfl := Except.ok.inj (list.symm.trans (handleFileInfo_accepts accepts))
      exact ⟨infos, accepts.copies.stored⟩
  · rw [Delivery.handle, handleClientRequest_share type] at ran
    rcases handleFileInfoShare_cases ran with ⟨-, same⟩ | ⟨pkt, infos, -, -, copies⟩
    · exact ⟨[], by rw [same]; rfl⟩
    · exact ⟨infos, copies.stored⟩
  · exact ⟨[], by rw [same]; rfl⟩

end Handle

theorem table_stores {node : SuperNode} (reached : superNode.Reachable node) :
    ∃ entries, Stores entries node.fileInfoTable := by
  apply System.ReachableWhile.invariant _ _ reached
  · rintro node ⟨id, ids, ip, port, rfl⟩
    exact ⟨[], initFileInfoTable_stores⟩
  · intro node m node' _ known _ stepped
    obtain ⟨entries, stores⟩ := known
    obtain ⟨-, h, ran, rfl⟩ := superNode_step stepped
    obtain ⟨infos, inserted⟩ := handle_inserts ran
    exact ⟨_, insertAll_stored stores inserted⟩

def storeChild (childPorts : Fin childNumber → ChildListeningPort) (child : ChildListeningPort) :
    Fin childNumber → ChildListeningPort :=
  match findChildSlot childPorts with
  | some i => Function.update childPorts i child
  | none => childPorts

theorem hello_handled (node : SuperNode) (clientAddr : InAddr) (id portNum : UInt32) (unwritten : Unwritten) :
    handleClientRequest node clientAddr (readRecvBuff (helloFromChildPacket id portNum)) unwritten =
      .ok (.reply { node with childPorts := storeChild node.childPorts { id, portNum } }
        (headerPacket { totalLen := 12, id := node.id, msgType := helloFromSuper })) := by
  have header := helloFromChildPacket_header id portNum
  have sender : load32 (receiveBuffer (readRecvBuff (helloFromChildPacket id portNum))) 4 = id :=
    congrArg Header.id header
  have port : load32 (receiveBuffer (readRecvBuff (helloFromChildPacket id portNum))) 12 = portNum := by
    refine load32_of ((load_congr fun j low high => ?_).trans
      (load_store (storeHeader (fun _ => 0) { totalLen := 16, id, msgType := helloFromChild }) 12 (net32 portNum)))
    exact receiveBuffer_load _ (by omega) (by simp only [recvBuffSize]; omega)
  rw [handleClientRequest_hello (by rw [header]), handleHelloFromChild, sender, port]
  rfl

end NetProg.P4
