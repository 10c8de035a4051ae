import NetProg.P4.Peers

set_option autoImplicit false

namespace NetProg.P4

open Memory Transition

variable {K : Type} [DecidableEq K] {nodes : K → ChildNode} {takes : Room} {s s' : Peers K} {j : K} {c : Nat}

-- One of the packets for this connection does not fit behind those before it.
structure Connection.Overfull (takes : Room) (connection : Connection K) (before : List (List UInt8))
    (packet : List UInt8) (after left : List (List UInt8)) (returns : Bool) : Prop where
  sending : connection.sending = some (left, returns)
  packets : connection.arrived ++ left = before ++ packet :: after
  ahead : connection.arrived.length ≤ before.length
  full : takes before packet = false

-- The listening thread of `j` serves `c`, from which nobody reads.
structure Peers.Clogged (takes : Room) (s : Peers K) (j : K) (c : Nat) : Prop where
  serving : s.servers j = some c
  overfull : ∃ connection before packet after left returns, s.connections[c]? = some connection ∧
    connection.peer = j ∧ connection.Overfull takes before packet after left returns
  unread : ∀ k fileSize r, s.mains k ≠ .receiving c fileSize r

-- The client of `c` waits for `j`, which has not read the request.
structure Peers.Unserved (s : Peers K) (j : K) (c : Nat) (connection : Connection K) : Prop where
  here : s.connections[c]? = some connection
  peer : connection.peer = j
  pending : connection.pending = true
  quiet : connection.sending = none
  empty : connection.arrived = []
  receiving : ∃ fileSize r, s.mains connection.client = .receiving c fileSize r

omit [DecidableEq K] in
theorem change_other {c' : Nat} (other : c ≠ c') (connection : Connection K) :
    (s.change c' connection).connections[c]? = s.connections[c]? :=
  List.getElem?_set_ne other.symm

omit [DecidableEq K] in
theorem change_own {old : Connection K} (here : s.connections[c]? = some old) (new : Connection K) :
    (s.change c new).connections[c]? = some new :=
  (change_lookup here c).trans (if_pos rfl)

theorem update_unread {mains : K → Getting} (unread : ∀ k fileSize r, mains k ≠ .receiving c fileSize r) {k : K}
    {main : Getting} (own : ∀ fileSize r, main ≠ .receiving c fileSize r) :
    ∀ k' fileSize r, Function.update mains k main k' ≠ .receiving c fileSize r := by
  intro k' fileSize r
  by_cases same : k' = k
  · rw [same, Function.update_self]
    exact own fileSize r
  · rw [Function.update_of_ne same]
    exact unread k' fileSize r

theorem step_clogged {e : PeerEvent K} (clogged : s.Clogged takes j c) (stepped : s.step nodes takes e = some s') :
    s'.Clogged takes j c := by
  obtain ⟨serving, ⟨writing, before, packet, after, left, returns, here, peer, overfull⟩, unread⟩ := clogged
  obtain ⟨inside, -⟩ := List.getElem?_eq_some_iff.mp here
  have kept {c' : Nat} (other : c ≠ c') (connection : Connection K) :
      ∃ connection' before packet after left returns, (s.change c' connection).connections[c]? = some connection' ∧
        connection'.peer = j ∧ connection'.Overfull takes before packet after left returns :=
    ⟨writing, before, packet, after, left, returns, (change_other other connection).trans here, peer, overfull⟩
  cases step_moves stepped with
  | get k peer' fileName fileSize fileReqPkt fileResSuccessPkt fileBuffer prompt =>
    refine ⟨serving, ⟨writing, before, packet, after, left, returns, ?_, peer, overfull⟩, ?_⟩
    · exact (List.getElem?_append_left inside).trans here
    · refine update_unread unread fun fileSize r same => ?_
      obtain ⟨rfl, -, -⟩ := Getting.receiving.inj same
      exact absurd inside (Nat.lt_irrefl _)
  | accept c' connection idle here' queued =>
    refine ⟨serving, kept ?_ _, unread⟩
    rintro rfl
    obtain rfl := Option.some.inj (here.symm.trans here')
    exact absurd serving (by simp [← peer, idle])
  | serve c' connection packets returns' idle here' pending answer =>
    have other : j ≠ connection.peer := by
      rintro rfl
      simp [serving] at idle
    refine ⟨(Function.update_of_ne other _ _).trans serving, kept ?_ _, unread⟩
    rintro rfl
    obtain rfl := Option.some.inj (here.symm.trans here')
    exact other peer.symm
  | send j' c' connection packet' left' returns' serving' here' sending room =>
    refine ⟨serving, ?_, unread⟩
    by_cases own : c = c'
    · subst own
      obtain rfl := Option.some.inj (here.symm.trans here')
      obtain ⟨rfl, rfl⟩ := Prod.mk.inj (Option.some.inj (overfull.sending.symm.trans sending))
      have short : writing.arrived.length < before.length := by
        refine lt_of_le_of_ne overfull.ahead fun same => ?_
        -- The packet that does not fit would be the next.
        obtain ⟨rfl, next⟩ := List.append_inj overfull.packets same
        obtain ⟨rfl, -⟩ := List.cons.inj next
        simp [overfull.full] at room
      refine ⟨_, before, packet, after, left', returns, change_own here _, peer, rfl, ?_, ?_, overfull.full⟩
      · simpa using overfull.packets
      · rw [List.length_append]
        exact short
    · exact kept own _
  | finish j' c' connection serving' here' sending =>
    have own : c ≠ c' := by
      rintro rfl
      obtain rfl := Option.some.inj (here.symm.trans here')
      obtain ⟨rfl, -⟩ := Prod.mk.inj (Option.some.inj (overfull.sending.symm.trans sending))
      have lengths := congrArg List.length overfull.packets
      have ahead := overfull.ahead
      simp only [List.append_nil, List.length_append, List.length_cons] at lengths
      omega
    have other : j ≠ j' := by
      rintro rfl
      exact own (Option.some.inj (serving.symm.trans serving'))
    exact ⟨(Function.update_of_ne other _ _).trans serving, kept own _, unread⟩
  | waits k c' fileSize r r' connection packet' arrived receiving here' front iterates =>
    have own : c ≠ c' := by
      rintro rfl
      exact unread k fileSize r receiving
    refine ⟨serving, kept own _, update_unread unread fun fileSize r same => ?_⟩
    exact own (Getting.receiving.inj same).1.symm
  | ends k c' fileSize r outcome connection packet' arrived receiving here' front iterates final =>
    have own : c ≠ c' := by
      rintro rfl
      exact unread k fileSize r receiving
    exact ⟨serving, kept own _, update_unread unread fun fileSize r same => by cases same⟩

section Unserved

variable {connection : Connection K}

omit [DecidableEq K] in
theorem Peers.Unserved.other (unserved : s.Unserved j c connection) {c' : Nat} {touched : Connection K}
    (here : s.connections[c']? = some touched) (different : touched ≠ connection) : c ≠ c' := by
  rintro rfl
  exact different (Option.some.inj (here.symm.trans unserved.here))

omit [DecidableEq K] in
theorem Peers.Unserved.kept (unserved : s.Unserved j c connection) {c' : Nat} (other : c ≠ c') {new : Connection K}
    (connections : s'.connections = (s.change c' new).connections)
    (mains : s'.mains connection.client = s.mains connection.client) : s'.Unserved j c connection := by
  obtain ⟨here, peer, pending, quiet, empty, fileSize, r, receiving⟩ := unserved
  exact ⟨connections ▸ (change_other other new).trans here, peer, pending, quiet, empty, fileSize, r,
    mains.trans receiving⟩

omit [DecidableEq K] in
theorem Peers.Unserved.away (unserved : s.Unserved j c connection) {c' : Nat} (other : c ≠ c') {k : K}
    {fileSize : UInt32} {r : Receiving} (receiving : s.mains k = .receiving c' fileSize r) : connection.client ≠ k := by
  rintro rfl
  obtain ⟨fileSize', r', waiting⟩ := unserved.receiving
  exact other (Getting.receiving.inj (waiting.symm.trans receiving)).1

theorem step_unserved {e : PeerEvent K} {busy : Nat} (serving : s.servers j = some busy)
    (unserved : s.Unserved j c connection) (stepped : s.step nodes takes e = some s') : s'.Unserved j c connection := by
  cases step_moves stepped with
  | get k peer fileName fileSize fileReqPkt fileResSuccessPkt fileBuffer prompt =>
    obtain ⟨here, peer, pending, quiet, empty, fileSize', r, receiving⟩ := unserved
    have away : connection.client ≠ k := by
      rintro rfl
      cases prompt.symm.trans receiving
    exact ⟨(List.getElem?_append_left (List.getElem?_eq_some_iff.mp here).1).trans here, peer, pending, quiet, empty,
      fileSize', r, (Function.update_of_ne away _ _).trans receiving⟩
  | accept c' touched idle here queued =>
    refine unserved.kept (unserved.other here ?_) rfl rfl
    rintro rfl
    cases idle.symm.trans (unserved.peer ▸ serving)
  | serve c' touched packets returns idle here pending answer =>
    refine unserved.kept (unserved.other here ?_) rfl rfl
    rintro rfl
    cases idle.symm.trans (unserved.peer ▸ serving)
  | send j' c' touched packet left returns serving' here sending room =>
    refine unserved.kept (unserved.other here ?_) rfl rfl
    rintro rfl
    cases unserved.quiet.symm.trans sending
  | finish j' c' touched serving' here sending =>
    refine unserved.kept (unserved.other here ?_) rfl rfl
    rintro rfl
    cases unserved.quiet.symm.trans sending
  | waits k c' fileSize r r' touched packet arrived receiving here front iterates =>
    have other : c ≠ c' := by
      refine unserved.other here ?_
      rintro rfl
      cases unserved.empty.symm.trans front
    exact unserved.kept other rfl (Function.update_of_ne (unserved.away other receiving) _ _)
  | ends k c' fileSize r outcome touched packet arrived receiving here front iterates final =>
    have other : c ≠ c' := by
      refine unserved.other here ?_
      rintro rfl
      cases unserved.empty.symm.trans front
    exact unserved.kept other rfl (Function.update_of_ne (unserved.away other receiving) _ _)

omit [DecidableEq K] in
theorem change_peer {c' : Nat} {old new : Connection K} (here : s.connections[c']? = some old)
    (found : (s.change c' new).connections[c]? = some connection) (same : new.peer = old.peer) :
    ∃ earlier, s.connections[c]? = some earlier ∧ earlier.peer = connection.peer := by
  rw [change_lookup here] at found
  split_ifs at found with own
  · obtain rfl := Option.some.inj found
    exact ⟨old, own ▸ here, same.symm⟩
  · exact ⟨connection, found, rfl⟩

theorem step_opens {e : PeerEvent K} (stepped : s.step nodes takes e = some s')
    (found : s'.connections[c]? = some connection) :
    (∃ earlier, s.connections[c]? = some earlier ∧ earlier.peer = connection.peer) ∨
      s'.Unserved connection.peer c connection := by
  cases step_moves stepped with
  | get k peer fileName fileSize fileReqPkt fileResSuccessPkt fileBuffer prompt =>
    have lookup := found
    rw [List.getElem?_append] at lookup
    split_ifs at lookup with earlier
    · exact .inl ⟨connection, lookup, rfl⟩
    · rw [List.getElem?_singleton] at lookup
      split_ifs at lookup with last
      obtain rfl := Option.some.inj lookup
      obtain rfl : c = s.connections.length := by omega
      exact .inr ⟨found, rfl, rfl, rfl, rfl, fileSize, _, Function.update_self k _ _⟩
  | accept c' touched idle here => exact .inl (change_peer here found rfl)
  | serve c' touched packets returns idle here => exact .inl (change_peer here found rfl)
  | send j' c' touched packet left returns serving here => exact .inl (change_peer here found rfl)
  | finish j' c' touched serving here => exact .inl (change_peer here found rfl)
  | waits k c' fileSize r r' touched packet arrived receiving here => exact .inl (change_peer here found rfl)
  | ends k c' fileSize r outcome touched packet arrived receiving here => exact .inl (change_peer here found rfl)

end Unserved

theorem clogged_for_ever (clogged : s.Clogged takes j c) {events : List (PeerEvent K)}
    (ran : (peers nodes takes).exec s events = some s') :
    s'.Clogged takes j c ∧ (∀ c' connection, s.Unserved j c' connection → s'.Unserved j c' connection) ∧
      ∀ c' connection, s.connections.length ≤ c' → s'.connections[c']? = some connection → connection.peer = j →
        s'.Unserved j c' connection := by
  let P (t : Peers K) : Prop := t.Clogged takes j c ∧
    (∀ c' connection, s.Unserved j c' connection → t.Unserved j c' connection) ∧
      ∀ c' connection, s.connections.length ≤ c' → t.connections[c']? = some connection → connection.peer = j →
        t.Unserved j c' connection
  have preserved (t : Peers K) (e : PeerEvent K) (t' : Peers K) (before : P t)
      (stepped : (peers nodes takes).step t e = some t') : P t' := by
    obtain ⟨clogged, waiting, later⟩ := before
    refine ⟨step_clogged clogged stepped, fun c' connection unserved => ?_, fun c' connection new found peer => ?_⟩
    · exact step_unserved clogged.serving (waiting c' connection unserved) stepped
    · rcases step_opens stepped found with ⟨earlier, here, same⟩ | unserved
      · have still := step_unserved clogged.serving (later c' earlier new here (same.trans peer)) stepped
        obtain rfl := Option.some.inj (found.symm.trans still.here)
        exact still
      · exact peer ▸ unserved
  have start : P s := by
    refine ⟨clogged, fun _ _ unserved => unserved, fun c' connection new found _ => ?_⟩
    exact absurd (List.getElem?_eq_some_iff.mp found).1 (Nat.not_lt.mpr new)
  exact System.exec_invariant preserved start ran

-- The super node still says that the file has one byte.
def getGrown : PeerEvent Bool := .get false true [97] 1 (fun _ => 0) (fun _ => 0) (fun _ => 0)

theorem grown_run : ∃ s, (peers (fun _ => threeBytes) emptyOnly).exec peersInit
    [getGrown, .accept true 0, .serve true 0, .send true, .receive false] = some s ∧ s.mains false = .prompt ∧
      s.Clogged emptyOnly true 0 := by
  let asked := opened (fun _ => threeBytes) false true [97] 1 (fun _ => 0)
  let pooled : Connection Bool := { asked with accepted := .slot }
  let s₁ : Peers Bool := { (peersInit : Peers Bool) with
    mains := Function.update (fun _ => .prompt) false (.receiving 0 1 (Receiving.start (fun _ => 0) (fun _ => 0)))
    connections := [asked] }
  let s₂ : Peers Bool := { s₁ with connections := [pooled] }
  let s₃ : Peers Bool := { s₂ with
    connections := [{ pooled with pending := false, sending := some ([[1], [2], [3]].map (resSuccessPacket 7), true) }]
    servers := Function.update (fun _ => none) true (some 0) }
  let s₄ : Peers Bool := { s₃ with
    connections := [{ pooled with
      pending := false, sending := some ([[2], [3]].map (resSuccessPacket 7), true)
      arrived := [resSuccessPacket 7 [1]] }] }
  have empty : Stored (Receiving.start (fun _ => 0) (fun _ => 0)) [] := ⟨rfl, rfl⟩
  have chunk : Chunk [1] := by decide
  have small : (1 : UInt32).toNat < 2 ^ 31 := by decide
  obtain ⟨r, ran⟩ : ∃ r, (Receiving.start (fun _ => 0) (fun _ => 0)).iterate 1 (.packet (resSuccessPacket 7 [1])) =
      .ok (.complete r) := by
    rcases iterate_cases (read_packet empty 7 chunk) chunk small with ⟨-, r, -, -, ran⟩ | ⟨full, -⟩
    · exact ⟨r, ran⟩
    · exact absurd full (by decide)
  let s : Peers Bool := { s₄ with
    mains := Function.update s₄.mains false .prompt
    connections := [{ pooled with
      pending := false, sending := some ([[2], [3]].map (resSuccessPacket 7), true), arrived := [] }]
    results := [(0, .complete r)] }
  have opens : (peers (fun _ => threeBytes) emptyOnly).step peersInit getGrown = some s₁ := rfl
  have accepted : (peers (fun _ => threeBytes) emptyOnly).step s₁ (.accept true 0) = some s₂ := rfl
  have served : (peers (fun _ => threeBytes) emptyOnly).step s₂ (.serve true 0) = some s₃ := by
    have answer : pooled.answer (fun _ => threeBytes) = _ := threeBytes_answers false true 1
    have awaited : pooled.peer = true ∧ pooled.accepted = .slot ∧ pooled.pending = true := ⟨rfl, rfl, rfl⟩
    simp [peers, Peers.step, Peers.serve, s₂, s₁, peersInit, answer, awaited, s₃, Peers.change]
  have wrote : (peers (fun _ => threeBytes) emptyOnly).step s₃ (.send true) = some s₄ := rfl
  have received : (peers (fun _ => threeBytes) emptyOnly).step s₄ (.receive false) = some s := by
    simp [peers, Peers.step, Peers.receive, s₄, s₃, s₂, s₁, peersInit, ran, s, Peers.change]
  refine ⟨s, ?_, rfl, ?_⟩
  · rw [System.exec_cons opens, System.exec_cons accepted, System.exec_cons served, System.exec_cons wrote,
      System.exec_cons received]
    rfl
  · refine ⟨rfl, ⟨_, [resSuccessPacket 7 [2]], resSuccessPacket 7 [3], [], _, _, rfl, rfl, rfl, rfl, by simp, rfl⟩, ?_⟩
    intro k fileSize r
    cases k <;> simp [s, s₄, s₃, s₂, s₁]

-- The file has grown, the client has left its loop, and the peer answers nobody any more.
theorem grown_file_clogs : ∃ s, (peers (fun _ => threeBytes) emptyOnly).exec peersInit
    [getGrown, .accept true 0, .serve true 0, .send true, .receive false] = some s ∧ s.mains false = .prompt ∧
      ∀ events s', (peers (fun _ => threeBytes) emptyOnly).exec s events = some s' → s'.servers true = some 0 := by
  obtain ⟨s, ran, prompt, clogged⟩ := grown_run
  exact ⟨s, ran, prompt, fun events s' later => (clogged_for_ever clogged later).1.serving⟩

end NetProg.P4
