import Mathlib.Data.List.Perm.Basic
import NetProg.Shared.Transition
import NetProg.Upload.Rounds

set_option autoImplicit false

namespace NetProg.P2

open Memory Upload Transition

inductive ChildPhase where
  | started
  | serving
  | closed
  | zombie
  | reaped
deriving DecidableEq, Repr

structure ChildProcess where
  connection : Nat
  sendUnwritten : Block
  recvUnwritten : Block
  session : Session
  phase : ChildPhase
  -- Ghost record of the loop: what `read` has returned, and what has come of it.
  reads : List (SocketRead × Outcome)
  effects : List Effects

def forkChild (connection : Nat) (sendUnwritten recvUnwritten : Block) : ChildProcess where
  connection
  sendUnwritten
  recvUnwritten
  session := .start sendUnwritten recvUnwritten
  phase := .started
  reads := []
  effects := []

inductive ParentPhase where
  | accepting
  | forking (clientSock : Nat)
  | closing (clientSock : Nat)
deriving DecidableEq, Repr

-- Connections are numbered in the order in which they are accepted. `dropped` is a ghost: those that were closed
-- behind a failing `fork`.
structure Processes where
  parent : ParentPhase
  accepted : Nat
  children : List ChildProcess
  -- SIGCHLD is pending
  sigchld : Bool
  -- the parent is in `sigchldHandler`
  handler : Bool
  dropped : List Nat

inductive ChildEvent where
  | closeServerSock
  | round (read : SocketRead) (o : Outcome)
  | closeClientSock
  | exit

inductive ProcessEvent where
  | accept (succeeds : Bool)
  | fork (succeeds : Bool) (sendUnwritten recvUnwritten : Block)
  | close
  | signal
  | waitpid (child : Option Nat)
  | child (i : Nat) (e : ChildEvent)

def ChildProcess.step (c : ChildProcess) (e : ChildEvent) : Option ChildProcess :=
  match c.phase, e with
  | .started, .closeServerSock => some { c with phase := .serving }
  | .serving, .round read o =>
    if c.session.isOver then none
    else (c.session.iterate read o).map fun (session, effects) =>
      { c with session, reads := c.reads ++ [(read, o)], effects := c.effects ++ [effects] }
  | .serving, .closeClientSock => if c.session.isOver then some { c with phase := .closed } else none
  | .closed, .exit => some { c with phase := .zombie }
  | _, _ => none

def isZombie (c : ChildProcess) : Bool := c.phase = .zombie

def sigchldHandler (s : Processes) (child : Option Nat) : Option Processes :=
  -- One call of `waitpid`. It returns some child that has exited, and none only when there is none.
  match child with
  | none => if s.children.any isZombie then none else some { s with handler := false }
  | some i => match s.children[i]? with
    | none => none
    | some c => if isZombie c then some { s with children := s.children.set i { c with phase := .reaped } } else none

def Processes.parentStep (s : Processes) (e : ProcessEvent) : Option Processes :=
  match s.parent, e with
  | .accepting, .accept succeeds =>
    if succeeds then some { s with parent := .forking s.accepted, accepted := s.accepted + 1 } else some s
  | .forking clientSock, .fork succeeds sendUnwritten recvUnwritten =>
    -- a failing `fork` returns -1, which is not 0
    if succeeds then some { s with parent := .closing clientSock
                                   children := s.children ++ [forkChild clientSock sendUnwritten recvUnwritten] }
    else some { s with parent := .closing clientSock, dropped := s.dropped ++ [clientSock] }
  | .closing _, .close => some { s with parent := .accepting }
  | _, _ => none

def Processes.step (s : Processes) (e : ProcessEvent) : Option Processes :=
  match e with
  | .child i e => match s.children[i]? with
    | none => none
    | some c => (c.step e).map fun c' =>
        { s with children := s.children.set i c', sigchld := s.sigchld || isZombie c' }
  | .signal => if s.sigchld && !s.handler then some { s with sigchld := false, handler := true } else none
  | .waitpid child => if s.handler then sigchldHandler s child else none
  | e => if s.handler then none else s.parentStep e

def processesInit : Processes where
  parent := .accepting
  accepted := 0
  children := []
  sigchld := false
  handler := false
  dropped := []

def processes : System Processes ProcessEvent where
  init s := s = processesInit
  step := Processes.step

def ChildPhase.serves : ChildPhase → Bool
  | .started | .serving => true
  | _ => false

structure ChildProcess.Alone (c : ChildProcess) : Prop where
  -- The child has done what `handleClientRequest` does with its connection when nobody else is there.
  rounds : (Session.start c.sendUnwritten c.recvUnwritten).rounds c.reads = some (c.session, c.effects)
  through : c.phase.serves = false → c.session.isOver = true

theorem forkChild_alone (connection : Nat) (sendUnwritten recvUnwritten : Block) :
    (forkChild connection sendUnwritten recvUnwritten).Alone := ⟨rfl, by simp [forkChild, ChildPhase.serves]⟩

theorem child_step {c c' : ChildProcess} {e : ChildEvent} (alone : c.Alone) (stepped : c.step e = some c') :
    c'.Alone ∧ c'.connection = c.connection ∧ c.phase ≠ .zombie := by
  simp only [ChildProcess.step] at stepped
  split at stepped
  next _ _ started =>
    obtain rfl := Option.some.inj stepped
    exact ⟨⟨alone.rounds, by simp [ChildPhase.serves]⟩, rfl, by simp [started]⟩
  next read o serving =>
    split_ifs at stepped with finished
    obtain ⟨⟨session, effects⟩, ran, rfl⟩ := Option.map_eq_some_iff.mp stepped
    have last := rounds_append alone.rounds [(read, o)]
    rw [rounds_cons (by simpa using finished) ran] at last
    exact ⟨⟨last, by simp [serving, ChildPhase.serves]⟩, rfl, by simp [serving]⟩
  next serving =>
    split_ifs at stepped with finished
    obtain rfl := Option.some.inj stepped
    exact ⟨⟨alone.rounds, fun _ => finished⟩, rfl, by simp [serving]⟩
  next closed =>
    obtain rfl := Option.some.inj stepped
    exact ⟨⟨alone.rounds, fun _ => alone.through (by simp [closed, ChildPhase.serves])⟩, rfl, by simp [closed]⟩
  next => cases stepped

def ParentPhase.unserved : ParentPhase → List Nat
  | .forking clientSock => [clientSock]
  | _ => []

def Processes.connections (s : Processes) : List Nat := s.children.map ChildProcess.connection

structure Processes.Accounted (s : Processes) : Prop where
  served : (s.connections ++ s.dropped ++ s.parent.unserved).Perm (List.range s.accepted)
  alone : ∀ c ∈ s.children, c.Alone
  noticed : ∀ c ∈ s.children, c.phase = .zombie → s.sigchld = true ∨ s.handler = true

section Steps

variable {s s' : Processes}

theorem parentStep_accounted {e : ProcessEvent} (accounted : s.Accounted) (stepped : s.parentStep e = some s') :
    s'.Accounted := by
  obtain ⟨served, alone, noticed⟩ := accounted
  simp only [Processes.parentStep] at stepped
  split at stepped
  next succeeds accepting =>
    split_ifs at stepped
    · obtain rfl := Option.some.inj stepped
      refine ⟨?_, alone, noticed⟩
      simp only [accepting, ParentPhase.unserved, List.append_nil] at served
      rw [List.range_succ]
      exact served.append_right [s.accepted]
    · exact Option.some.inj stepped ▸ ⟨served, alone, noticed⟩
  next clientSock succeeds sendUnwritten recvUnwritten forking =>
    simp only [forking, ParentPhase.unserved] at served
    split_ifs at stepped
    · obtain rfl := Option.some.inj stepped
      refine ⟨?_, ?_, ?_⟩
      · simp only [Processes.connections, List.map_append, List.map_cons, List.map_nil, forkChild, ParentPhase.unserved,
          List.append_nil]
        refine List.Perm.trans ?_ served
        rw [List.append_assoc, List.append_assoc]
        exact List.Perm.append_left _ List.perm_append_comm
      · intro c member
        rcases List.mem_append.mp member with old | new
        · exact alone c old
        · rw [List.mem_singleton.mp new]
          exact forkChild_alone _ _ _
      · intro c member zombie
        rcases List.mem_append.mp member with old | new
        · exact noticed c old zombie
        · simp [List.mem_singleton.mp new, forkChild] at zombie
    · obtain rfl := Option.some.inj stepped
      refine ⟨?_, alone, noticed⟩
      simp only [Processes.connections, ParentPhase.unserved, List.append_nil]
      rwa [← List.append_assoc]
  next closing =>
    obtain rfl := Option.some.inj stepped
    simp only [closing, ParentPhase.unserved] at served
    exact ⟨served, alone, noticed⟩
  next => cases stepped

theorem set_connection {i : Nat} {c : ChildProcess} (here : s.children[i]? = some c) {c' : ChildProcess}
    (same : c'.connection = c.connection) :
    (s.children.set i c').map ChildProcess.connection = s.connections := by
  obtain ⟨inside, rfl⟩ := List.getElem?_eq_some_iff.mp here
  rw [List.map_set, same, ← List.map_set, List.set_getElem_self]
  rfl

theorem child_accounted {i : Nat} {c c' : ChildProcess} {e : ChildEvent} (accounted : s.Accounted)
    (here : s.children[i]? = some c) (stepped : c.step e = some c') :
    Processes.Accounted { s with children := s.children.set i c', sigchld := s.sigchld || isZombie c' } := by
  obtain ⟨alone, same, -⟩ := child_step (accounted.alone c (List.mem_of_getElem? here)) stepped
  refine ⟨?_, ?_, ?_⟩
  · have connections := set_connection here same
    simpa only [Processes.connections, connections] using accounted.served
  · intro d member
    rcases List.mem_or_eq_of_mem_set member with old | rfl
    · exact accounted.alone d old
    · exact alone
  · intro d member zombie
    rcases List.mem_or_eq_of_mem_set member with old | rfl
    · exact (accounted.noticed d old zombie).imp_left fun pending => by simp [pending]
    · exact .inl (by simp [isZombie, zombie])

theorem handler_accounted {child : Option Nat} (accounted : s.Accounted) (running : s.handler = true)
    (stepped : sigchldHandler s child = some s') : s'.Accounted := by
  obtain ⟨served, alone, noticed⟩ := accounted
  cases child with
  | none =>
    simp only [sigchldHandler] at stepped
    split_ifs at stepped with found
    obtain rfl := Option.some.inj stepped
    refine ⟨served, alone, fun c member zombie => absurd ?_ found⟩
    exact List.any_eq_true.mpr ⟨c, member, by simp [isZombie, zombie]⟩
  | some i =>
    simp only [sigchldHandler] at stepped
    split at stepped
    next => cases stepped
    next c here =>
      split_ifs at stepped with zombie
      obtain rfl := Option.some.inj stepped
      have member := List.mem_of_getElem? here
      refine ⟨?_, ?_, fun _ _ _ => .inr running⟩
      · have connections : (s.children.set i { c with phase := .reaped }).map ChildProcess.connection = s.connections :=
          set_connection here rfl
        simpa only [Processes.connections, connections] using served
      · intro d there
        rcases List.mem_or_eq_of_mem_set there with old | rfl
        · exact alone d old
        · refine ⟨(alone c member).rounds, fun _ => (alone c member).through ?_⟩
          simp only [isZombie, decide_eq_true_eq] at zombie
          simp [zombie, ChildPhase.serves]

theorem processes_accounted {e : ProcessEvent} (accounted : s.Accounted) (stepped : s.step e = some s') :
    s'.Accounted := by
  simp only [Processes.step] at stepped
  split at stepped
  next i e =>
    split at stepped
    next => cases stepped
    next c here =>
      obtain ⟨c', ran, rfl⟩ := Option.map_eq_some_iff.mp stepped
      exact child_accounted accounted here ran
  next =>
    split_ifs at stepped
    obtain rfl := Option.some.inj stepped
    exact ⟨accounted.served, accounted.alone, fun _ _ _ => .inr rfl⟩
  next child =>
    split_ifs at stepped with running
    exact handler_accounted accounted running stepped
  next e _ _ _ =>
    split_ifs at stepped
    exact parentStep_accounted accounted stepped

end Steps

theorem reachable_accounted {s : Processes} (reached : processes.Reachable s) : s.Accounted := by
  refine System.ReachableWhile.invariant (P := Processes.Accounted) ?_ ?_ reached
  · rintro s rfl
    exact ⟨List.Perm.refl _, by simp [processesInit], by simp [processesInit]⟩
  · exact fun s e s' _ accounted _ stepped => processes_accounted accounted stepped

def Processes.zombies (s : Processes) : Nat := s.children.countP isZombie

theorem waitpid_progress {s : Processes} (running : s.handler = true) :
    ∃ child s', processes.step s (.waitpid child) = some s' ∧ s'.parent = s.parent ∧ s'.connections = s.connections ∧
      (s'.handler = false ∧ s'.zombies = 0 ∨ s'.handler = true ∧ s'.zombies < s.zombies) := by
  by_cases found : s.children.any isZombie = true
  · obtain ⟨c, member, zombie⟩ := List.any_eq_true.mp found
    obtain ⟨i, inside, here⟩ := List.mem_iff_getElem.mp member
    have at_i : s.children[i]? = some c := List.getElem?_eq_some_iff.mpr ⟨inside, here⟩
    refine ⟨some i, { s with children := s.children.set i { c with phase := .reaped } }, ?_, rfl, ?_, .inr ⟨running, ?_⟩⟩
    · simp [processes, Processes.step, running, sigchldHandler, at_i, zombie]
    · exact set_connection at_i rfl
    · have reaped : isZombie { c with phase := .reaped } = false := rfl
      have zombies : 0 < s.children.countP isZombie := List.countP_pos_iff.mpr ⟨c, member, zombie⟩
      simp only [Processes.zombies, List.countP_set inside, here, zombie, reaped, if_true, Bool.false_eq_true, if_false]
      omega
  · refine ⟨none, { s with handler := false }, ?_, rfl, rfl, .inl ⟨rfl, ?_⟩⟩
    · simp only [processes, Processes.step, running, if_true, sigchldHandler, if_neg found]
    · refine List.countP_eq_zero.mpr fun c member zombie => found ?_
      exact List.any_eq_true.mpr ⟨c, member, zombie⟩

theorem handler_reaps {s : Processes} (running : s.handler = true) :
    ∃ events s', (∀ e ∈ events, ∃ child, e = .waitpid child) ∧ processes.exec s events = some s' ∧
      s'.handler = false ∧ s'.zombies = 0 ∧ s'.parent = s.parent ∧ s'.connections = s.connections := by
  let way (t : Processes) : Prop := t.handler = true ∧ t.parent = s.parent ∧ t.connections = s.connections
  let goal (t : Processes) : Prop :=
    t.handler = false ∧ t.zombies = 0 ∧ t.parent = s.parent ∧ t.connections = s.connections
  have progress : ∀ t, way t → ∃ e t', (∃ child, e = .waitpid child) ∧ processes.step t e = some t' ∧
      (goal t' ∨ way t' ∧ t'.zombies < t.zombies) := by
    rintro t ⟨here, parent, connections⟩
    obtain ⟨child, t', stepped, same, kept, ended | nearer⟩ := waitpid_progress here
    · exact ⟨_, t', ⟨child, rfl⟩, stepped, .inl ⟨ended.1, ended.2, same.trans parent, kept.trans connections⟩⟩
    · exact ⟨_, t', ⟨child, rfl⟩, stepped, .inr ⟨⟨nearer.1, same.trans parent, kept.trans connections⟩, nearer.2⟩⟩
  exact System.exec_to Processes.zombies progress ⟨running, rfl, rfl⟩

theorem children_serve_connections {s : Processes} (reached : processes.Reachable s) :
    (s.connections ++ s.dropped ++ s.parent.unserved).Perm (List.range s.accepted) ∧
      (∀ c ∈ s.children, (Session.start c.sendUnwritten c.recvUnwritten).rounds c.reads = some (c.session, c.effects) ∧
        (c.phase.serves = false → c.session.isOver = true)) ∧
      (s.sigchld = false → s.handler = false → s.zombies = 0) ∧
      (s.handler = true → ∃ events s', (∀ e ∈ events, ∃ child, e = .waitpid child) ∧
        processes.exec s events = some s' ∧ s'.handler = false ∧ s'.zombies = 0 ∧ s'.connections = s.connections) := by
  have accounted := reachable_accounted reached
  refine ⟨accounted.served, fun c member => ?_, fun quiet idle => ?_, fun running => ?_⟩
  · exact ⟨(accounted.alone c member).rounds, (accounted.alone c member).through⟩
  · refine List.countP_eq_zero.mpr fun c member zombie => ?_
    rcases accounted.noticed c member (by simpa [isZombie] using zombie) with pending | running
    · simp [quiet] at pending
    · simp [idle] at running
  · obtain ⟨events, s', reaps, ran, ended, reaped, -, kept⟩ := handler_reaps running
    exact ⟨events, s', reaps, ran, ended, reaped, kept⟩

def noCall : Outcome where
  rand := 0
  realloc := none
  malloc := true
  opens := true
  writes := none

def servesNobody (i : Nat) : List ProcessEvent :=
  -- A child whose first `read` fails.
  [.child i .closeServerSock, .child i (.round .failed noCall), .child i .closeClientSock, .child i .exit]

def twoClients : List ProcessEvent :=
  -- Both children exit before the signal is handled.
  [.accept true, .fork true (fun _ => 0) (fun _ => 0), .close, .accept true, .fork true (fun _ => 0) (fun _ => 0)] ++
    servesNobody 0 ++ servesNobody 1 ++ [.signal]

theorem two_children_reaped : ∃ s, processes.exec processesInit twoClients = some s ∧ s.sigchld = false ∧
    s.zombies = 2 ∧ ∃ events s', (∀ e ∈ events, ∃ child, e = .waitpid child) ∧ processes.exec s events = some s' ∧
      s'.handler = false ∧ s'.zombies = 0 ∧ s'.connections = s.connections := by
  obtain ⟨s, ran, running, quiet, two⟩ : ∃ s, processes.exec processesInit twoClients = some s ∧ s.handler = true ∧
      s.sigchld = false ∧ s.zombies = 2 := ⟨_, rfl, rfl, rfl, rfl⟩
  exact ⟨s, ran, quiet, two,
    (children_serve_connections (System.exec_reachable (.initial _ rfl) ran)).2.2.2 running⟩

end NetProg.P2
