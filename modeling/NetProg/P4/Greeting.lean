import NetProg.Net.Address
import NetProg.P4.History

set_option autoImplicit false

namespace NetProg.P4

open Memory Transition

def helloSuperToSuperPacket (id portNum : UInt32) : List UInt8 :=
  load (store (storeHeader (fun _ => 0) { totalLen := 16, id, msgType := helloSuperToSuper }) 12 (net32 portNum)) 0 16

structure SuperArgs where
  -- what `getopt_long` has stored
  portNum : UInt32
  otherSuperIpAddr : List UInt8
  otherSuperPortNum : UInt32

structure Hosts where
  addr : Side → InAddr
  args : Side → SuperArgs

def Hosts.endpoint (hosts : Hosts) (host : Side) : SockAddrIn :=
  { sinPort := (hosts.args host).portNum.toUInt16, sinAddr := hosts.addr host }

def Hosts.Greets (hosts : Hosts) (host : Side) : Prop :=
  (hosts.args host).otherSuperPortNum ≠ 0 ∧ (hosts.args host).otherSuperIpAddr ≠ []

instance (hosts : Hosts) (host : Side) : Decidable (hosts.Greets host) :=
  inferInstanceAs (Decidable ((hosts.args host).otherSuperPortNum ≠ 0 ∧ (hosts.args host).otherSuperIpAddr ≠ []))

inductive SuperStage where
  | parsed
  | greeting
  | listening
  | exited
deriving DecidableEq, Repr

structure SuperMain where
  stage : SuperStage
  node : SuperNode
  -- a HELLO_SUPER_TO_SUPER of the other node that has not been read
  hello : Option (List UInt8)
  -- the reply to its own
  reply : Option (List UInt8)
  -- Ghost record of the run: the address in the slot of the hello that has been read.
  heard : Option InAddr

abbrev Supers := Side → SuperMain

inductive MeetEvent where
  | main (host : Side) (binds : Bool)
  | hello (host : Side) (clientAddr : InAddr) (unwritten : Unwritten)
  | message (host : Side) (m : Delivery)
  | reply (host : Side) (binds : Bool)

def SuperMain.listen (site : SuperMain) (binds : Bool) : SuperMain :=
  -- `binds`: how `openNBServerSock` turns out
  { site with stage := if binds then .listening else .exited }

def sayHello (hosts : Hosts) (s : Supers) (host : Side) (binds : Bool) : Option Supers :=
  match (s host).stage with
  | .parsed =>
    let args := hosts.args host
    if hosts.Greets host then
      -- nobody but the other node listens anywhere
      if (s host.other).stage = .listening ∧
          serverAddr args.otherSuperIpAddr args.otherSuperPortNum = some (hosts.endpoint host.other) then
        let waiting := Function.update s host { s host with stage := .greeting }
        some (Function.update waiting host.other
          { s host.other with hello := some (helloSuperToSuperPacket (s host).node.id args.portNum) })
      else some (Function.update s host { s host with stage := .exited })
    else some (Function.update s host ((s host).listen binds))
  | _ => none

def hearHello (s : Supers) (host : Side) (clientAddr : InAddr) (unwritten : Unwritten) : Option Supers :=
  match (s host).stage, (s host).hello with
  | .listening, some packet =>
    match handleClientRequest (s host).node clientAddr (readRecvBuff packet) unwritten with
    | .ok h =>
      let handled := Function.update s host { s host with node := h.node, hello := none, heard := some clientAddr }
      some (Function.update handled host.other { s host.other with reply := h.replies.head? })
    | .error _ => none
  | _, _ => none

def hearReply (s : Supers) (host : Side) (binds : Bool) : Option Supers :=
  match (s host).stage, (s host).reply with
  | .greeting, some packet =>
    let site := { s host with reply := none }
    if (loadHeader (ofBytes packet)).msgType = helloSuperToSuper then some (Function.update s host (site.listen binds))
    else some (Function.update s host { site with stage := .exited })
  | _, _ => none

def meetStep (hosts : Hosts) (s : Supers) : MeetEvent → Option Supers
  | .main host binds => sayHello hosts s host binds
  | .hello host clientAddr unwritten => hearHello s host clientAddr unwritten
  | .message host m =>
    if (s host).stage = .listening then
      (superNode.step (s host).node m).map fun node => Function.update s host { s host with node }
    else none
  | .reply host binds => hearReply s host binds

structure SuperMain.Starts (site : SuperMain) (args : SuperArgs) : Prop where
  stage : site.stage = .parsed
  node : ∃ id ids, site.node = { startUp id ids with
    otherSuperIpAddr := args.otherSuperIpAddr, otherSuperPortNum := args.otherSuperPortNum }
  quiet : site.hello = none ∧ site.reply = none

def meeting (hosts : Hosts) : System Supers MeetEvent where
  init s := ∀ host, (s host).Starts (hosts.args host)
  step := meetStep hosts

def PeersOnly (_ : Supers) (e : MeetEvent) (_ : Supers) : Prop :=
  match e with
  -- nobody but the two nodes says hello to them
  | .message _ m => m.header.msgType ≠ helloSuperToSuper
  | _ => True

instance (s : Supers) (e : MeetEvent) (s' : Supers) : Decidable (PeersOnly s e s') :=
  match e with
  | .hello _ _ _ => isTrue trivial
  | .message _ m => inferInstanceAs (Decidable (m.header.msgType ≠ helloSuperToSuper))
  | .main _ _ => isTrue trivial
  | .reply _ _ => isTrue trivial

-- A share packet of this node goes to the endpoint.
def SuperNode.Knows (node : SuperNode) (endpoint : SockAddrIn) : Prop :=
  serverAddr node.otherSuperIpAddr node.otherSuperPortNum = some endpoint

section Hello

theorem superHello_handled (node : SuperNode) (clientAddr : InAddr) (id portNum : UInt32) (unwritten : Unwritten) :
    handleClientRequest node clientAddr (readRecvBuff (helloSuperToSuperPacket id portNum)) unwritten =
      .ok (.reply { node with otherSuperPortNum := portNum, otherSuperIpAddr := inetNtoa clientAddr }
        (headerPacket { totalLen := 12, id := node.id, msgType := helloSuperToSuper })) := by
  have same (j : Nat) (inside : j < 16) : receiveBuffer (readRecvBuff (helloSuperToSuperPacket id portNum)) j =
      store (storeHeader (fun _ => 0) { totalLen := 16, id, msgType := helloSuperToSuper }) 12 (net32 portNum) j :=
    receiveBuffer_load _ inside (by simp only [recvBuffSize]; omega)
  have header : loadHeader (receiveBuffer (readRecvBuff (helloSuperToSuperPacket id portNum))) =
      { totalLen := 16, id, msgType := helloSuperToSuper } := by
    refine Eq.trans (loadHeader_congr fun j below => ?_) (loadHeader_storeHeader (fun _ => 0) _)
    simp only [headerLen] at below
    rw [same j (by omega)]
    exact store_outside _ (.inl below)
  have port : load32 (receiveBuffer (readRecvBuff (helloSuperToSuperPacket id portNum))) 12 = portNum :=
    load32_of ((load_congr fun j low high => same j (by omega)).trans (load_store _ 12 (net32 portNum)))
  simp [handleClientRequest, header, helloSuperToSuper, helloFromChild, handleHelloSuperToSuper, port]

theorem Delivery.Moves.otherSuper {m : Delivery} {node node' : SuperNode} (moves : m.Moves node node')
    (other : m.header.msgType ≠ helloSuperToSuper) :
    node'.otherSuperIpAddr = node.otherSuperIpAddr ∧ node'.otherSuperPortNum = node.otherSuperPortNum := by
  cases moves with
  | names type => exact absurd type other
  | _ => exact ⟨rfl, rfl⟩

end Hello

-- What a node at the other side has saved of the hello from this one.
def Hosts.Named (hosts : Hosts) (host : Side) (heard : Option InAddr) (node : SuperNode) : Prop :=
  heard.map inetNtoa = some node.otherSuperIpAddr ∧ node.otherSuperPortNum = (hosts.args host).portNum

structure Met (hosts : Hosts) (host : Side) (site peer : SuperMain) : Prop where
  -- How the node at one side stands to the other, as far as its own hello has come.
  args : hosts.Greets host → site.node.otherSuperIpAddr = (hosts.args host).otherSuperIpAddr ∧
    site.node.otherSuperPortNum = (hosts.args host).otherSuperPortNum
  greeted : site.stage = .greeting ∨ site.stage = .listening → hosts.Greets host →
    serverAddr (hosts.args host).otherSuperIpAddr (hosts.args host).otherSuperPortNum = some (hosts.endpoint host.other) ∧
      peer.stage = .listening ∧ ¬ hosts.Greets host.other
  sent : ∀ packet, peer.hello = some packet → hosts.Greets host ∧ site.stage = .greeting ∧ site.reply = none ∧
    ∃ id, packet = helloSuperToSuperPacket id (hosts.args host).portNum
  answered : ∀ packet, site.reply = some packet → hosts.Greets host ∧ site.stage = .greeting ∧
    hosts.Named host peer.heard peer.node ∧ (loadHeader (ofBytes packet)).msgType = helloSuperToSuper
  known : hosts.Greets host → site.stage = .listening → hosts.Named host peer.heard peer.node

section Steps

variable {hosts : Hosts} {s s' : Supers} {host : Side}

def AllMet (hosts : Hosts) (s : Supers) : Prop := ∀ host, Met hosts host (s host) (s host.other)

theorem AllMet.both (s : Supers) {site peer : SuperMain} (met : Met hosts host site peer)
    (met' : Met hosts host.other peer site) :
    AllMet hosts (Function.update (Function.update s host site) host.other peer) := by
  have apart := (Side.other_ne host).symm
  intro side
  rcases Side.eq_or_other side host with rfl | rfl
  · simpa [apart] using met
  · simpa [apart, Side.other_other] using met'

theorem AllMet.one {site : SuperMain} (met : Met hosts host site (s host.other))
    (met' : Met hosts host.other (s host.other) site) : AllMet hosts (Function.update s host site) := by
  have both : Function.update s host site = Function.update (Function.update s host site) host.other (s host.other) := by
    rw [← Function.update_of_ne (Side.other_ne host) site s, Function.update_eq_self]
  rw [both]
  exact .both s met met'

theorem AllMet.other (all : AllMet hosts s) (host : Side) : Met hosts host.other (s host.other) (s host) := by
  have met := all host.other
  rwa [Side.other_other] at met

structure Untouched (hosts : Hosts) (host : Side) (site peer : SuperMain) : Prop where
  -- Before a node has come to its hello nothing is on the way in either direction.
  hello : site.hello = none ∧ peer.hello = none
  reply : site.reply = none ∧ peer.reply = none
  peer : hosts.Greets host.other → peer.stage ≠ .greeting ∧ peer.stage ≠ .listening

theorem AllMet.untouched (all : AllMet hosts s) (parsed : (s host).stage = .parsed) :
    Untouched hosts host (s host) (s host.other) := by
  have met := all host
  have met' := all.other host
  have early : hosts.Greets host.other → (s host.other).stage ≠ .greeting ∧ (s host.other).stage ≠ .listening := by
    intro greets
    constructor <;> intro stage
    · simpa [parsed] using (met'.greeted (.inl stage) greets).2.1
    · simpa [parsed] using (met'.greeted (.inr stage) greets).2.1
  refine ⟨⟨?_, ?_⟩, ⟨?_, ?_⟩, early⟩
  · by_contra there
    obtain ⟨packet, sent⟩ := Option.ne_none_iff_exists'.mp there
    obtain ⟨greets, stage, -⟩ := met'.sent packet sent
    exact (early greets).1 stage
  · by_contra there
    obtain ⟨packet, sent⟩ := Option.ne_none_iff_exists'.mp there
    simpa [parsed] using (met.sent packet sent).2.1
  · by_contra there
    obtain ⟨packet, replied⟩ := Option.ne_none_iff_exists'.mp there
    simpa [parsed] using (met.answered packet replied).2.1
  · by_contra there
    obtain ⟨packet, replied⟩ := Option.ne_none_iff_exists'.mp there
    obtain ⟨greets, stage, -⟩ := met'.answered packet replied
    exact (early greets).1 stage

theorem sayHello_met (all : AllMet hosts s) {binds : Bool} (stepped : sayHello hosts s host binds = some s') :
    AllMet hosts s' := by
  simp only [sayHello] at stepped
  split at stepped
  next parsed =>
    have met := all host
    have met' := all.other host
    obtain ⟨⟨hello, hello'⟩, ⟨reply, reply'⟩, early⟩ := all.untouched parsed
    split_ifs at stepped with greets answers
    · obtain rfl := Option.some.inj stepped
      obtain ⟨listens, found⟩ := answers
      have quiet : ¬ hosts.Greets host.other := fun greets' => (early greets').2 listens
      refine .both s ?_ ?_
      · constructor
        case args => exact met.args
        case greeted => exact fun _ _ => ⟨found, listens, quiet⟩
        case sent =>
          intro packet sent
          exact ⟨greets, rfl, reply, _, (Option.some.inj sent).symm⟩
        case answered => simp [reply]
        case known => exact fun _ stage => by cases stage
      · constructor
        case args => exact met'.args
        case greeted => exact fun _ greets' => absurd greets' quiet
        case sent => simp [hello]
        case answered => simp [reply']
        case known => exact fun greets' => absurd greets' quiet
    · obtain rfl := Option.some.inj stepped
      refine .one ?_ ?_
      · constructor
        case args => exact met.args
        case greeted => exact fun stage => by simp at stage
        case sent => simp [hello']
        case answered => simp [reply]
        case known => exact fun _ stage => by cases stage
      · constructor
        case args => exact met'.args
        case greeted =>
          rintro (stage | stage) greets'
          · exact absurd stage (early greets').1
          · exact absurd stage (early greets').2
        case sent => simp [hello]
        case answered => simp [reply']
        case known => exact fun greets' stage => absurd stage (early greets').2
    · obtain rfl := Option.some.inj stepped
      refine .one ?_ ?_
      · constructor
        case args => exact met.args
        case greeted => exact fun _ greets' => absurd greets' greets
        case sent => simp [hello']
        case answered => simp [SuperMain.listen, reply]
        case known => exact fun greets' => absurd greets' greets
      · constructor
        case args => exact met'.args
        case greeted =>
          rintro (stage | stage) greets'
          · exact absurd stage (early greets').1
          · exact absurd stage (early greets').2
        case sent => simp [SuperMain.listen, hello]
        case answered => simp [reply']
        case known => exact fun greets' stage => absurd stage (early greets').2
  next => cases stepped

theorem hearHello_met (all : AllMet hosts s) {clientAddr : InAddr} {unwritten : Unwritten}
    (stepped : hearHello s host clientAddr unwritten = some s') : AllMet hosts s' := by
  simp only [hearHello] at stepped
  split at stepped
  next packet listening found =>
    have met := all host
    have met' := all.other host
    obtain ⟨greets', greeting, unanswered, id, rfl⟩ := met'.sent packet found
    obtain ⟨located, -, quiet⟩ := met'.greeted (.inl greeting) greets'
    rw [Side.other_other] at located quiet
    simp only [superHello_handled, Option.some.injEq] at stepped
    subst stepped
    refine .both s ?_ ?_
    · constructor
      case args => exact fun greets => absurd greets quiet
      case greeted => exact fun _ greets => absurd greets quiet
      case sent => exact fun packet sent => absurd (met.sent packet sent).1 quiet
      case answered => exact fun packet replied => absurd (met.answered packet replied).1 quiet
      case known => exact fun greets => absurd greets quiet
    · constructor
      case args => exact met'.args
      case greeted => exact fun _ _ => ⟨by rwa [Side.other_other], listening, by rwa [Side.other_other]⟩
      case sent => simp
      case answered =>
        intro packet replied
        obtain rfl := Option.some.inj replied
        exact ⟨greets', greeting, ⟨rfl, rfl⟩, congrArg Header.msgType (headerPacket_header _)⟩
      case known => exact fun _ stage => by simp [greeting] at stage
  next => cases stepped

theorem message_met (all : AllMet hosts s) {m : Delivery} (other : m.header.msgType ≠ helloSuperToSuper)
    {node : SuperNode} (stepped : superNode.step (s host).node m = some node) :
    AllMet hosts (Function.update s host { s host with node }) := by
  have met := all host
  have met' := all.other host
  obtain ⟨ip, port⟩ := (superNode_moves stepped).otherSuper other
  have named (named : hosts.Named host.other (s host).heard (s host).node) :
      hosts.Named host.other (s host).heard node :=
    ⟨by rw [ip, named.1], port.trans named.2⟩
  refine .one ?_ ?_
  · constructor
    case args => exact fun greets => ⟨ip.trans (met.args greets).1, port.trans (met.args greets).2⟩
    case greeted => exact met.greeted
    case sent => exact met.sent
    case answered => exact met.answered
    case known => exact met.known
  · constructor
    case args => exact met'.args
    case greeted => exact met'.greeted
    case sent => exact met'.sent
    case answered =>
      intro packet replied
      obtain ⟨greets', greeting, earlier, type⟩ := met'.answered packet replied
      exact ⟨greets', greeting, named earlier, type⟩
    case known => exact fun greets' stage => named (met'.known greets' stage)

theorem hearReply_met (all : AllMet hosts s) {binds : Bool} (stepped : hearReply s host binds = some s') :
    AllMet hosts s' := by
  simp only [hearReply] at stepped
  split at stepped
  next packet greeting found =>
    have met := all host
    have met' := all.other host
    obtain ⟨greets, -, named, type⟩ := met.answered packet found
    obtain ⟨located, listens, quiet⟩ := met.greeted (.inl greeting) greets
    rw [if_pos type] at stepped
    obtain rfl := Option.some.inj stepped
    refine .one ?_ ?_
    · constructor
      case args => exact met.args
      case greeted => exact fun _ _ => ⟨located, listens, quiet⟩
      case sent =>
        intro packet' sent
        simpa [found] using (met.sent packet' sent).2.2.1
      case answered => simp [SuperMain.listen]
      case known => exact fun _ _ => named
    · constructor
      case args => exact met'.args
      case greeted => exact fun _ greets' => absurd greets' quiet
      case sent => exact fun packet' sent => absurd (met'.sent packet' sent).1 quiet
      case answered => exact fun packet' replied => absurd (met'.answered packet' replied).1 quiet
      case known => exact fun greets' => absurd greets' quiet
  next => cases stepped

theorem meeting_met (reached : (meeting hosts).ReachableWhile PeersOnly s) : AllMet hosts s := by
  apply System.ReachableWhile.invariant _ _ reached
  · intro s starts host
    have mine := starts host
    have peers := starts host.other
    constructor
    case args =>
      intro _
      obtain ⟨id, ids, started⟩ := mine.node
      rw [started]
      exact ⟨rfl, rfl⟩
    case greeted => exact fun stage => by simp [mine.stage] at stage
    case sent => simp [peers.quiet.1]
    case answered => simp [mine.quiet.2]
    case known => exact fun _ stage => by simp [mine.stage] at stage
  · intro s e s' _ all allowed stepped
    cases e with
    | main host binds => exact sayHello_met all stepped
    | hello host clientAddr unwritten => exact hearHello_met all stepped
    | message host m =>
      simp only [meeting, meetStep] at stepped
      split_ifs at stepped
      obtain ⟨node, moved, rfl⟩ := Option.map_eq_some_iff.mp stepped
      exact message_met all allowed moved
    | reply host binds => exact hearReply_met all stepped

end Steps

-- The node that is greeted saves the port of the other and the address in the slot of its hello.
theorem super_nodes_meet {hosts : Hosts} {s : Supers} (reached : (meeting hosts).ReachableWhile PeersOnly s) :
    (∀ host, hosts.Greets host → (s host).stage = .listening → (s host.other).stage = .listening ∧
      (s host).node.Knows (hosts.endpoint host.other) ∧ ∃ clientAddr, (s host.other).heard = some clientAddr ∧
        (s host.other).node.Knows { hosts.endpoint host with sinAddr := clientAddr } ∧
        ((s host.other).node.Knows (hosts.endpoint host) ↔ clientAddr = hosts.addr host)) ∧
    (hosts.Greets .first → hosts.Greets .second → ∀ host, (s host).stage ≠ .listening) := by
  have all := meeting_met reached
  constructor
  · intro host greets listening
    have met := all host
    obtain ⟨located, listens, -⟩ := met.greeted (.inr listening) greets
    obtain ⟨ip, port⟩ := met.args greets
    obtain ⟨named, numbered⟩ := met.known greets listening
    obtain ⟨clientAddr, heard, saved⟩ := Option.map_eq_some_iff.mp named
    have there : serverAddr (s host.other).node.otherSuperIpAddr (s host.other).node.otherSuperPortNum =
        some { hosts.endpoint host with sinAddr := clientAddr } := by
      rw [← saved, numbered, serverAddr_inetNtoa]
      rfl
    refine ⟨listens, by rw [SuperNode.Knows, ip, port, located], clientAddr, heard, there, ?_⟩
    rw [SuperNode.Knows, there]
    simp [Hosts.endpoint]
  · intro first second host listening
    cases host with
    | first => exact ((all .first).greeted (.inr listening) first).2.2 second
    | second => exact ((all .second).greeted (.inr listening) second).2.2 first

def twoHosts : Hosts where
  addr
    | .first => ⟨10, 0, 0, 1⟩
    | .second => ⟨10, 0, 0, 2⟩
  args
    | .first => { portNum := 9000, otherSuperIpAddr := [], otherSuperPortNum := 0 }
    | .second => { portNum := 9001, otherSuperIpAddr := inetNtoa ⟨10, 0, 0, 1⟩, otherSuperPortNum := 9000 }

def twoSupers : Supers := fun host =>
  { stage := .parsed, hello := none, reply := none, heard := none
    node := { startUp 3 (fun _ => 0) with otherSuperIpAddr := (twoHosts.args host).otherSuperIpAddr
                                          otherSuperPortNum := (twoHosts.args host).otherSuperPortNum } }

theorem two_super_nodes_meet : ∃ s : Supers, (s .first).stage = .listening ∧
    (s .second).node.Knows (twoHosts.endpoint .first) ∧ (s .first).node.Knows (twoHosts.endpoint .second) := by
  obtain ⟨s, ran, first, second, heard⟩ : ∃ s, (meeting twoHosts).execWhile PeersOnly twoSupers
      [.main .first true, .main .second true, .hello .first ⟨10, 0, 0, 2⟩ zeroed, .reply .second true] = some s ∧
      (s .first).stage = .listening ∧ (s .second).stage = .listening ∧ (s .first).heard = some ⟨10, 0, 0, 2⟩ :=
    ⟨_, rfl, rfl, rfl, rfl⟩
  have started : (meeting twoHosts).init twoSupers := fun _ => ⟨rfl, ⟨3, fun _ => 0, rfl⟩, rfl, rfl⟩
  have reached := System.execWhile_reachable (.initial twoSupers started) ran
  obtain ⟨-, knows, clientAddr, there, -, known⟩ := (super_nodes_meet reached).1 .second (by decide) second
  obtain rfl := Option.some.inj (heard.symm.trans there)
  exact ⟨s, first, knows, known.mpr rfl⟩

end NetProg.P4
