import NetProg.Net.Connections
import NetProg.Net.Pool
import NetProg.P4.SuperNode
import NetProg.Shared.Transition

set_option autoImplicit false

namespace NetProg.P4

open Memory Transition

-- The bytes of a `struct sockaddr_in`.
abbrev SockAddr := Fin 16 → UInt8

def sinAddr (addr : SockAddr) : InAddr := ⟨addr 4, addr 5, addr 6, addr 7⟩

def acceptAddr (clientAddr : SockAddr) (clientAddrLen : Nat) (peer : SockAddr) : SockAddr × Nat :=
  -- `accept` stores as many bytes of the address as the length allows, and then its full length.
  (fun i => if i.val < min clientAddrLen 16 then peer i else clientAddr i, 16)

-- `sizeof(clientSock)`
def initialAddrLen : Nat := 4

structure Touch where
  -- A client that `handleClientFds` has read from, or whose socket it has closed.
  fd : Int
  closes : Bool
deriving DecidableEq, Repr

structure Iteration where
  -- What has happened since `select` returned.
  ready : List Int
  before : FdPool SockAddr
  added : Option Int
  touched : List Touch

def Iteration.touch (it : Iteration) (fd : Int) (closes : Bool) : Iteration :=
  { it with touched := it.touched ++ [{ fd, closes }] }

structure Request where
  -- A message that has been handled, and the node before and after it.
  connection : Nat
  received : List UInt8
  before : SuperNode
  after : SuperNode

structure SuperLoop where
  serverSock : Int
  clientAddr : SockAddr
  clientAddrLen : Nat
  loop : EventLoop SockAddr
  node : SuperNode
  -- the connection of each open descriptor, by the order in which they were accepted
  sockets : Int → Option Nat
  connections : Nat
  -- the address of the peer of each connection
  peers : Nat → SockAddr
  requests : List Request
  iteration : Option Iteration

inductive ClientRead where
  -- What `ioctl` and `read` return for a client.
  | ioctlFails
  | closed
  | failed
  | data (received : List UInt8)

inductive LoopEvent where
  | selectFails
  | select (ready : List Int)
  | accept (accepted : Option (Int × SockAddr))
  | scan (read : ClientRead) (unwritten : Unwritten)

def SuperLoop.selectFails (s : SuperLoop) : Option SuperLoop :=
  if s.loop.pc = .selecting then
    let pool := { s.loop.pool with readySet := s.loop.pool.readSet, nready := -1 }
    some { s with loop := { s.loop with pool }, iteration := none }
  else none

def SuperLoop.select (s : SuperLoop) (ready : List Int) : Option SuperLoop :=
  (s.loop.select ready).map fun loop =>
    { s with loop, iteration := some { ready, before := s.loop.pool, added := none, touched := [] } }

def SuperLoop.accept (s : SuperLoop) : Option (Int × SockAddr) → Option SuperLoop
  | none => (s.loop.accept s.serverSock none).map fun loop => { s with loop }
  | some (sockfd, peer) =>
    -- `FD_SET` is undefined for a descriptor that is too large
    if 0 < sockfd ∧ sockfd < fdSetSize ∧ sockfd ≠ s.serverSock ∧ s.sockets sockfd = none then
      let (clientAddr, clientAddrLen) := acceptAddr s.clientAddr s.clientAddrLen peer
      (s.loop.accept s.serverSock (some (sockfd, clientAddr))).map fun loop =>
        { s with clientAddr, clientAddrLen, loop
                 sockets := Function.update s.sockets sockfd (some s.connections)
                 connections := s.connections + 1
                 peers := Function.update s.peers s.connections peer
                 iteration := s.iteration.map fun it => { it with added := some sockfd } }
    else none

def SuperLoop.touch (s : SuperLoop) (i : Slot) (closes : Bool) : Option Iteration :=
  s.iteration.map fun it => it.touch (s.loop.pool.clientfd i) closes

def SuperLoop.close (s : SuperLoop) (i : Slot) (loop : EventLoop SockAddr) : SuperLoop :=
  { s with loop := { loop with pool := loop.pool.closeSlot i }
           sockets := Function.update s.sockets (s.loop.pool.clientfd i) none
           iteration := s.touch i true }

def SuperLoop.handled (s : SuperLoop) (i : Slot) (c : Nat) (loop : EventLoop SockAddr) (received : List UInt8)
    (node : SuperNode) : SuperLoop :=
  { s with loop, node
           requests := s.requests ++ [{ connection := c, received, before := s.node, after := node }]
           iteration := s.touch i false }

def SuperLoop.serve (s : SuperLoop) (i : Slot) (loop : EventLoop SockAddr) (read : ClientRead)
    (unwritten : Unwritten) : Option SuperLoop :=
  -- The handling of a slot in `handleClientFds`.
  match read with
  | .ioctlFails => some { s with loop := { loop with pc := .selecting }, iteration := none }
  | .closed => some (s.close i loop)
  | .failed => some { s with loop, iteration := s.touch i false }
  | .data received => match s.sockets (s.loop.pool.clientfd i) with
    | none => none
    | some c =>
      if received ≠ [] ∧ received.length ≤ recvBuffSize then
        match handleClientRequest s.node (sinAddr (s.loop.pool.clientAddr i)) received unwritten with
        | .error _ => none
        | .ok h => some (s.handled i c loop received h.node)
      else none

def SuperLoop.step (s : SuperLoop) : LoopEvent → Option SuperLoop
  | .selectFails => s.selectFails
  | .select ready => s.select ready
  | .accept accepted => s.accept accepted
  | .scan read unwritten => match s.loop.scan with
    | none => none
    | some (none, loop) => some { s with loop }
    | some (some i, loop) => s.serve i loop read unwritten

structure SuperLoop.Starts (s : SuperLoop) : Prop where
  -- `maxi` and `clientAddr` hold what was on the stack.
  listens : 0 < s.serverSock
  clientAddrLen : s.clientAddrLen = initialAddrLen
  loop : ∃ pool : FdPool SockAddr, s.loop = { pool := initPool s.serverSock pool, pc := .selecting }
  node : ∃ id ids otherSuperIpAddr otherSuperPortNum,
    s.node = { startUp id ids with otherSuperIpAddr, otherSuperPortNum }
  sockets : s.sockets = fun _ => none
  connections : s.connections = 0
  requests : s.requests = []
  iteration : s.iteration = none

def superLoop : System SuperLoop LoopEvent where
  init := SuperLoop.Starts
  step := SuperLoop.step

inductive SuperLoop.Moves (s : SuperLoop) : LoopEvent → SuperLoop → Prop where
  | selectFails (pc : s.loop.pc = .selecting) :
      s.Moves .selectFails
        { s with loop := { s.loop with pool := { s.loop.pool with readySet := s.loop.pool.readSet, nready := -1 } }
                 iteration := none }
  | selects (ready : List Int) (nodup : ready.Nodup) (watched : ∀ fd ∈ ready, s.loop.pool.readSet fd = true) :
      s.Moves (.select ready)
        { s with loop := { pool := { s.loop.pool with readySet := fun fd => ready.contains fd, nready := ready.length }
                           pc := .accepting }
                 iteration := some { ready, before := s.loop.pool, added := none, touched := [] } }
  | nobody (pc : s.loop.pc = .accepting) :
      s.Moves (.accept none) { s with loop := { s.loop with pc := .scanning 0 } }
  | accepts (sockfd : Int) (peer : SockAddr) (pool : FdPool SockAddr) (pc : s.loop.pc = .accepting)
      (asked : s.loop.pool.readySet s.serverSock = true) (positive : 0 < sockfd) (other : sockfd ≠ s.serverSock)
      (closed : s.sockets sockfd = none)
      (added : s.loop.pool.Added sockfd (acceptAddr s.clientAddr s.clientAddrLen peer).1 pool) :
      s.Moves (.accept (some (sockfd, peer)))
        { s with clientAddr := (acceptAddr s.clientAddr s.clientAddrLen peer).1, clientAddrLen := 16
                 loop := { pool, pc := .scanning 0 }
                 sockets := Function.update s.sockets sockfd (some s.connections)
                 connections := s.connections + 1
                 peers := Function.update s.peers s.connections peer
                 iteration := s.iteration.map fun it => { it with added := some sockfd } }
  | passes (read : ClientRead) (unwritten : Unwritten) (loop : EventLoop SockAddr) (scans : s.loop.Scans none loop) :
      s.Moves (.scan read unwritten) { s with loop }
  | givesUp (unwritten : Unwritten) (i : Slot) (loop : EventLoop SockAddr) (scans : s.loop.Scans (some i) loop) :
      s.Moves (.scan .ioctlFails unwritten) { s with loop := { loop with pc := .selecting }, iteration := none }
  | closes (unwritten : Unwritten) (i : Slot) (loop : EventLoop SockAddr) (scans : s.loop.Scans (some i) loop) :
      s.Moves (.scan .closed unwritten) (s.close i loop)
  | unread (unwritten : Unwritten) (i : Slot) (loop : EventLoop SockAddr) (scans : s.loop.Scans (some i) loop) :
      s.Moves (.scan .failed unwritten) { s with loop, iteration := s.touch i false }
  | handles (received : List UInt8) (unwritten : Unwritten) (i : Slot) (c : Nat) (loop : EventLoop SockAddr)
      (h : Handled) (scans : s.loop.Scans (some i) loop) (socket : s.sockets (s.loop.pool.clientfd i) = some c)
      (ran : handleClientRequest s.node (sinAddr (s.loop.pool.clientAddr i)) received unwritten = .ok h) :
      s.Moves (.scan (.data received) unwritten) (s.handled i c loop received h.node)

theorem SuperLoop.step_moves {s s' : SuperLoop} {e : LoopEvent} (stepped : s.step e = some s') : s.Moves e s' := by
  cases e with
  | selectFails =>
    simp only [SuperLoop.step, SuperLoop.selectFails] at stepped
    split_ifs at stepped with pc
    obtain rfl := Option.some.inj stepped
    exact .selectFails pc
  | select ready =>
    obtain ⟨loop, selected, rfl⟩ := Option.map_eq_some_iff.mp stepped
    obtain ⟨nodup, watched, rfl⟩ := select_ran selected
    exact .selects ready nodup watched
  | accept accepted =>
    cases accepted with
    | none =>
      obtain ⟨loop, ran, rfl⟩ := Option.map_eq_some_iff.mp stepped
      obtain ⟨pc, rfl⟩ := accept_nobody ran
      exact .nobody pc
    | some client =>
      obtain ⟨sockfd, peer⟩ := client
      simp only [SuperLoop.step, SuperLoop.accept] at stepped
      split_ifs at stepped with allowed
      obtain ⟨loop, ran, rfl⟩ := Option.map_eq_some_iff.mp stepped
      obtain ⟨pc, asked, rfl⟩ := accept_somebody ran
      exact .accepts sockfd peer _ pc asked allowed.1 allowed.2.2.1 allowed.2.2.2 (addClient_added _ _ _)
  | scan read unwritten =>
    cases turn : s.loop.scan with
    | none => simp [SuperLoop.step, turn] at stepped
    | some next =>
      obtain ⟨served, loop⟩ := next
      have scans := scan_scans turn
      cases served with
      | none =>
        simp only [SuperLoop.step, turn, Option.some.injEq] at stepped
        subst stepped
        exact .passes read unwritten loop scans
      | some i =>
        simp only [SuperLoop.step, turn, SuperLoop.serve] at stepped
        cases read with
        | ioctlFails =>
          obtain rfl := Option.some.inj stepped
          exact .givesUp unwritten i loop scans
        | closed =>
          obtain rfl := Option.some.inj stepped
          exact .closes unwritten i loop scans
        | failed =>
          obtain rfl := Option.some.inj stepped
          exact .unread unwritten i loop scans
        | data received =>
          cases socket : s.sockets (s.loop.pool.clientfd i) with
          | none => simp [socket] at stepped
          | some c =>
            simp only [socket] at stepped
            split_ifs at stepped
            split at stepped
            next => cases stepped
            next h ran =>
              obtain rfl := Option.some.inj stepped
              exact .handles received unwritten i c loop h scans socket ran

end NetProg.P4
