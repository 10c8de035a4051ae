import NetProg.P2.Client
import NetProg.P2.Simulation
import NetProg.Upload.Rounds

set_option autoImplicit false

-- Each connection carries packets in both directions, and each `read` returns one of them.

namespace NetProg.P2

open Memory Upload Transition

structure Threads (ι : Type) where
  threadNum : ι → UInt32
  distinct : Function.Injective threadNum
  small : ∀ k, (threadNum k).toNat < 100000

inductive ThreadPc where
  | idle
  | connected
  | reading (client : Client)
  | closed (client : Client)

def ThreadPc.isIdle : ThreadPc → Bool
  | .idle => true
  | _ => false

structure Connection where
  pc : ThreadPc
  -- the packets that have been sent and not been read
  toServer : List (List UInt8)
  toClient : List (List UInt8)
  -- what the thread has read
  received : List (List UInt8)

def noConnection : Connection := { pc := .idle, toServer := [], toClient := [], received := [] }

structure Uploads (ι : Type) where
  server : SelectServer
  threads : ι → Connection
  accepted : List ι

inductive UploadEvent (ι : Type) where
  | connect (k : ι)
  | hello (k : ι) (sendUnwritten recvUnwritten : Block) (rand : Nat)
  | receive (k : ι)
  | select (ready : List Int)
  | accept (accepted : Option (Int × ι))
  | scan (serverSendPkt serverRecvPkt : Block) (o : SelectOutcome)

structure AllSucceed (o : Outcome) : Prop where
  realloc : o.realloc.isSome = true
  malloc : o.malloc = true
  opens : o.opens = true
  writes : o.writes.isSome = true

instance (o : Outcome) : Decidable (AllSucceed o) :=
  decidable_of_iff (o.realloc.isSome = true ∧ o.malloc = true ∧ o.opens = true ∧ o.writes.isSome = true)
    ⟨fun ⟨realloc, malloc, opens, writes⟩ => ⟨realloc, malloc, opens, writes⟩,
      fun all => ⟨all.realloc, all.malloc, all.opens, all.writes⟩⟩

section Step

variable {ι : Type} [DecidableEq ι]

def Uploads.thread (u : Uploads ι) (k : ι) (connection : Connection) : Uploads ι :=
  { u with threads := Function.update u.threads k connection }

def Uploads.hello (t : Threads ι) (u : Uploads ι) (k : ι) (sendUnwritten recvUnwritten : Block) (rand : Nat) :
    Option (Uploads ι) :=
  match (u.threads k).pc with
  | .connected => match Client.start (t.threadNum k) sendUnwritten recvUnwritten rand with
    | none => none
    | some (client, packets) =>
      some (u.thread k { u.threads k with pc := .reading client, toServer := (u.threads k).toServer ++ packets })
  | _ => none

def Uploads.receive (u : Uploads ι) (k : ι) : Option (Uploads ι) :=
  match (u.threads k).pc, (u.threads k).toClient with
  | .reading client, packet :: rest =>
    let (client, packets) := client.iterate (.packet packet)
    some (u.thread k
      { pc := if client.isOver then .closed client else .reading client
        toServer := (u.threads k).toServer ++ packets, toClient := rest
        received := (u.threads k).received ++ [packet] })
  | _, _ => none

def Uploads.accept (u : Uploads ι) : Option (Int × ι) → Option (Uploads ι)
  | none => (u.server.step (.accept none)).map fun server => { u with server }
  | some (sockfd, k) =>
    if (u.threads k).pc.isIdle = false ∧ k ∉ u.accepted then
      (u.server.step (.accept (some sockfd))).map fun server => { u with server, accepted := u.accepted ++ [k] }
    else none

def newReplies (before after : List Entry) : List (List UInt8) :=
  repliesOf ((after.drop before.length).map Entry.effects)

def Uploads.serve (u : Uploads ι) (c : Nat) (k : ι) (serverSendPkt serverRecvPkt : Block) (o : SelectOutcome) :
    Option (Uploads ι) :=
  match (u.threads k).toServer with
  | packet :: rest =>
    if AllSucceed o.seenAlone then
      (u.server.step (.scan (.packet packet) serverSendPkt serverRecvPkt o)).map fun server =>
        { u with server }.thread k
          { u.threads k with
            toServer := rest
            toClient := (u.threads k).toClient ++ newReplies (u.server.log c) (server.log c) }
    else none
  | [] => match (u.threads k).pc with
    | .closed _ => (u.server.step (.scan .closed serverSendPkt serverRecvPkt o)).map fun server => { u with server }
    | _ => none

def Uploads.scan (u : Uploads ι) (serverSendPkt serverRecvPkt : Block) (o : SelectOutcome) : Option (Uploads ι) :=
  match u.server.loop.scan with
  | none => none
  | some (none, _) => (u.server.step (.scan .closed serverSendPkt serverRecvPkt o)).map fun server => { u with server }
  | some (some i, _) => match u.server.sockets (u.server.loop.pool.clientfd i) with
    | none => none
    | some c => match u.accepted[c]? with
      | none => none
      | some k => u.serve c k serverSendPkt serverRecvPkt o

def Uploads.step (t : Threads ι) (u : Uploads ι) : UploadEvent ι → Option (Uploads ι)
  | .connect k =>
    if (u.threads k).pc.isIdle then some (u.thread k { u.threads k with pc := .connected }) else none
  | .hello k sendUnwritten recvUnwritten rand => u.hello t k sendUnwritten recvUnwritten rand
  | .receive k => u.receive k
  | .select ready => (u.server.step (.select ready)).map fun server => { u with server }
  | .accept accepted => u.accept accepted
  | .scan serverSendPkt serverRecvPkt o => u.scan serverSendPkt serverRecvPkt o

structure Uploads.Starts (u : Uploads ι) : Prop where
  server : u.server.Starts
  threads : ∀ k, u.threads k = noConnection
  accepted : u.accepted = []

def uploads (t : Threads ι) : System (Uploads ι) (UploadEvent ι) where
  init := Uploads.Starts
  step := Uploads.step t

end Step

section Server

variable {s s' : SelectServer}

def Quiet (e : SelectEvent) : Prop :=
  -- Nothing is accepted, and no packet is read.
  match e with
  | .select _ | .accept none | .scan .closed _ _ _ => True
  | _ => False

theorem Quiet.noReuse {e : SelectEvent} (quiet : Quiet e) : NoReuse s e s' := by
  unfold NoReuse
  split
  · exact quiet.elim
  · trivial

theorem quiet_step {e : SelectEvent} (quiet : Quiet e) (stepped : s.step e = some s') :
    s'.log = s.log ∧ s'.connections = s.connections := by
  cases e with
  | select ready =>
    obtain ⟨loop, -, rfl⟩ := Option.map_eq_some_iff.mp stepped
    exact ⟨rfl, rfl⟩
  | accept accepted =>
    cases accepted with
    | none =>
      obtain ⟨loop, -, rfl⟩ := Option.map_eq_some_iff.mp stepped
      exact ⟨rfl, rfl⟩
    | some sockfd => exact quiet.elim
  | scan read serverSendPkt serverRecvPkt o =>
    cases read with
    | packet packet => exact quiet.elim
    | failed => exact quiet.elim
    | closed =>
      simp only [SelectServer.step] at stepped
      split at stepped
      · cases stepped
      all_goals
        obtain rfl := Option.some.inj stepped
        exact ⟨rfl, rfl⟩

theorem accept_step {sockfd : Int} (stepped : s.step (.accept (some sockfd)) = some s') :
    s'.log = s.log ∧ s'.connections = s.connections + 1 := by
  simp only [SelectServer.step, SelectServer.accept] at stepped
  split_ifs at stepped
  obtain ⟨loop, -, rfl⟩ := Option.map_eq_some_iff.mp stepped
  exact ⟨rfl, rfl⟩

theorem packet_step {i : Slot} {c : Nat} {loop : EventLoop Unit} {packet : List UInt8}
    {serverSendPkt serverRecvPkt : Block} {o : SelectOutcome} (turn : s.loop.scan = some (some i, loop))
    (socket : s.sockets (s.loop.pool.clientfd i) = some c)
    (stepped : s.step (.scan (.packet packet) serverSendPkt serverRecvPkt o) = some s') :
    ∃ effects, s'.log = Function.update s.log c (s.log c ++ [{ packet, outcome := o.seenAlone, effects }]) ∧
      s'.connections = s.connections := by
  simp only [SelectServer.step, turn, SelectServer.serve, socket] at stepped
  split_ifs at stepped
  obtain ⟨h, -, rfl⟩ := Option.map_eq_some_iff.mp stepped
  exact ⟨h.effects, rfl, rfl⟩

end Server

def request (k : UInt32) (r : UInt16) : List (List UInt8) :=
  [message r clientHello [], message (r + 1) dataDelivery (threadMessage (decimal k)),
    message (r + 2) dataStore (threadFileName (decimal k) ++ [0])]

def response (k : UInt32) (a : UInt16) : List Effects :=
  [{ replies := [message a serverHello []], written := none },
    { replies := [message (a + 1) pktReceived []], written := none },
    { replies := [message (a + 2) fileStored []]
      written := some (threadFileName (decimal k), threadMessage (decimal k)) }]

section Answers

variable {k : UInt32} {r a : UInt16} {s : Session} {o : Outcome}

def SessionAt (k : UInt32) (a : UInt16) (s : Session) : Nat → Prop
  -- The session when it has handled so many packets of thread `k`.
  | 0 => ∃ sendUnwritten recvUnwritten, s = .start sendUnwritten recvUnwritten
  | 1 => s.Sent a ∧ s.Buffered [] ∧ s.buffer = none ∧ s.isOver = false
  | 2 => s.Sent (a + 1) ∧ s.Buffered (threadMessage (decimal k)) ∧ s.isOver = false
  | _ => s.isOver = true

theorem session_greets (sendUnwritten recvUnwritten : Block) (k : UInt32) (r : UInt16) (o : Outcome) :
    ∃ a s', (Session.start sendUnwritten recvUnwritten).iterate (.packet (message r clientHello [])) o =
        some (s', { replies := [message a serverHello []], written := none }) ∧ SessionAt k a s' 1 := by
  let received : Session := { Session.start sendUnwritten recvUnwritten with
    serverRecvPkt := receivePkt recvUnwritten (headerLength + dataSize) (message r clientHello []) }
  have carries : Carries received.serverRecvPkt r clientHello [] := receivePkt_carries _ _ _ (by decide)
  have static : load received.serverSendPkt 0 2 = [staticVersion, staticUserId] := initPkt_static sendUnwritten
  have effects := reply_effects static (o.rand % maxSequence) serverHello none
  refine ⟨UInt16.ofNat (o.rand % maxSequence), (received.reply (o.rand % maxSequence) serverHello none).1, ?_, ?_⟩
  · exact (handle_hello carries o).trans (congrArg some (Prod.ext rfl effects))
  · refine ⟨reply_sent static .., ⟨rfl, ?_, fun _ => rfl⟩, rfl, rfl⟩
    intro b held
    cases held

theorem threadMessage_length (small : k.toNat < 100000) : (threadMessage (decimal k)).length ≤ 18 := by
  have short := (decimal_length k).mpr small
  rw [length_threadMessage]
  omega

theorem threadFileName_length (small : k.toNat < 100000) : (threadFileName (decimal k)).length ≤ 9 := by
  have short := (decimal_length k).mpr small
  rw [length_threadFileName]
  omega

theorem session_delivers (small : k.toNat < 100000) (succeeds : AllSucceed o) (greeted : SessionAt k a s 1) :
    ∃ s', s.iterate (.packet (message (r + 1) dataDelivery (threadMessage (decimal k)))) o =
        some (s', { replies := [message (a + 1) pktReceived []], written := none }) ∧ SessionAt k a s' 2 := by
  obtain ⟨sent, buffered, empty, running⟩ := greeted
  obtain ⟨fresh, allocates⟩ := Option.isSome_iff_exists.mp succeeds.realloc
  have short := threadMessage_length small
  let received := { s with serverRecvPkt := receivePkt s.serverRecvPkt (headerLength + dataSize)
                             (message (r + 1) dataDelivery (threadMessage (decimal k))) }
  have carries : Carries received.serverRecvPkt (r + 1) dataDelivery (threadMessage (decimal k)) :=
    receivePkt_carries _ _ _ (by simp only [headerLength, dataSize]; omega)
  have before : received.Sent a ∧ received.Buffered [] :=
    ⟨⟨sent.static, sent.last⟩, ⟨buffered.count, buffered.block, buffered.null⟩⟩
  obtain ⟨s', handled, sent', buffered', same⟩ := handle_delivery carries (by simp only [dataSize]; omega) before.1
    before.2 (by simp only [List.length_nil]; omega) allocates (.inl empty)
  exact ⟨s', handled, sent', buffered', same.trans running⟩

theorem session_stores (small : k.toNat < 100000) (succeeds : AllSucceed o) (delivered : SessionAt k a s 2) :
    ∃ s', s.iterate (.packet (message (r + 2) dataStore (threadFileName (decimal k) ++ [0]))) o =
        some (s', { replies := [message (a + 2) fileStored []]
                    written := some (threadFileName (decimal k), threadMessage (decimal k)) }) ∧
      SessionAt k a s' 3 := by
  obtain ⟨sent, buffered, running⟩ := delivered
  obtain ⟨stored, writes⟩ := Option.isSome_iff_exists.mp succeeds.writes
  have short := threadFileName_length small
  let received := { s with serverRecvPkt := receivePkt s.serverRecvPkt (headerLength + dataSize)
                             (message (r + 2) dataStore (threadFileName (decimal k) ++ [0])) }
  have carries : Carries received.serverRecvPkt (r + 2) dataStore (threadFileName (decimal k) ++ [0]) :=
    receivePkt_carries _ _ _ (by simp only [headerLength, dataSize, List.length_append, List.length_singleton]; omega)
  have before : received.Sent (a + 1) ∧ received.Buffered (threadMessage (decimal k)) :=
    ⟨⟨sent.static, sent.last⟩, ⟨buffered.count, buffered.block, buffered.null⟩⟩
  obtain ⟨s', handled, ended⟩ := handle_store carries (threadFileName_text k) (by simp only [dataSize]; omega) before.1
    before.2 ⟨succeeds.malloc, succeeds.opens⟩ writes
  have next : a + 1 + 1 = a + 2 := by rw [UInt16.add_assoc]; rfl
  rw [next] at handled
  exact ⟨s', handled, by simp [SessionAt, Session.isOver, ended]⟩

theorem SessionAt.running {n : Nat} (stage : SessionAt k a s n) (short : n < 3) : s.isOver = false := by
  match n with
  | 0 =>
    obtain ⟨sendUnwritten, recvUnwritten, rfl⟩ := stage
    rfl
  | 1 => exact stage.2.2.2
  | 2 => exact stage.2.2

theorem session_next (small : k.toNat < 100000) (succeeds : AllSucceed o) {n : Nat} {packet : List UInt8}
    (stage : SessionAt k a s n) (asked : (request k r)[n]? = some packet) :
    ∃ a' s' effect, s.iterate (.packet packet) o = some (s', effect) ∧ SessionAt k a' s' (n + 1) ∧
      (response k a).take n ++ [effect] = (response k a').take (n + 1) := by
  match n with
  | 0 =>
    obtain ⟨sendUnwritten, recvUnwritten, rfl⟩ := stage
    obtain rfl := Option.some.inj asked
    obtain ⟨a', s', handled, greeted⟩ := session_greets sendUnwritten recvUnwritten k r o
    exact ⟨a', s', _, handled, greeted, rfl⟩
  | 1 =>
    obtain rfl := Option.some.inj asked
    obtain ⟨s', handled, delivered⟩ := session_delivers small succeeds stage
    exact ⟨a, s', _, handled, delivered, rfl⟩
  | 2 =>
    obtain rfl := Option.some.inj asked
    obtain ⟨s', handled, ended⟩ := session_stores small succeeds stage
    exact ⟨a, s', _, handled, ended, rfl⟩
  | n + 3 => cases asked

def AllSucceeded (log : List Entry) : Prop := ∀ entry ∈ log, AllSucceed entry.outcome

theorem log_session (small : k.toNat < 100000) (sendUnwritten recvUnwritten : Block) {log : List Entry}
    (asked : log.map Entry.packet <+: request k r) (succeeded : AllSucceeded log) :
    ∃ a session, MultiServer.handleClientRequest sendUnwritten recvUnwritten (log.map Entry.input) =
        some (session, (response k a).take log.length) ∧ SessionAt k a session log.length := by
  induction log using List.reverseRecOn with
  | nil => exact ⟨0, _, rfl, sendUnwritten, recvUnwritten, rfl⟩
  | append_singleton log entry ih =>
    rw [List.map_append] at asked
    obtain ⟨a, session, served, stage⟩ :=
      ih ((List.prefix_append _ _).trans asked) fun other member => succeeded other (by simp [member])
    have packet : (request k r)[log.length]? = some entry.packet := by
      obtain ⟨rest, whole⟩ := asked
      rw [← whole]
      simp
    have short : log.length < 3 := (List.getElem?_eq_some_iff.mp packet).1
    obtain ⟨a', session', effect, handled, at', effects⟩ := session_next small (succeeded entry (by simp)) stage packet
    refine ⟨a', session', ?_, ?_⟩
    · rw [MultiServer.handleClientRequest] at served ⊢
      rw [List.map_append, List.map_singleton, Entry.input, serve_last served, if_neg (by simp [stage.running short]),
        handled]
      simp only [effects, List.length_append, List.length_singleton]
    · rwa [List.length_append]

end Answers

section Reached

variable {k : UInt32} {r : UInt16} {s : SelectServer} {c : Nat}

theorem request_greets {log : List Entry} (asked : log.map Entry.packet <+: request k r) (nonempty : log ≠ []) :
    BeginsWithHello log := by
  obtain ⟨first, rest, rfl⟩ := List.exists_cons_of_ne_nil nonempty
  obtain ⟨_, whole⟩ := asked
  refine ⟨first, rfl, ?_⟩
  rw [(List.cons.inj whole).1]
  exact message_command r clientHello []

theorem thread_served (reached : selectServer.ReachableWhile NoReuse s) (small : k.toNat < 100000)
    (asked : (s.log c).map Entry.packet <+: request k r) (succeeded : AllSucceeded (s.log c)) :
    (∃ a, (s.log c).map Entry.effects = (response k a).take (s.log c).length) ∧
      ((s.log c).length < 3 → ∀ i, s.Serves i c → s.spent i = false) := by
  have invariant := select_server_invariant reached
  by_cases empty : s.log c = []
  · refine ⟨⟨0, by simp [empty]⟩, fun _ i serves => ?_⟩
    exact (invariant.wired.fresh i c serves empty).2
  · obtain ⟨session, effects, served, alike, goesOn⟩ := invariant.follows zeroed zeroed c (request_greets asked empty)
    obtain ⟨a, session', served', stage⟩ := log_session small zeroed zeroed asked succeeded
    obtain ⟨rfl, rfl⟩ := Prod.mk.inj (Option.some.inj (served.symm.trans served'))
    refine ⟨⟨a, (alike.1.eq_of_length ?_).symm⟩, fun short i serves => (goesOn (stage.running short) i serves).1⟩
    have bound : (s.log c).length ≤ 3 := by
      have le := asked.length_le
      rwa [List.length_map] at le
    rw [List.length_take, List.length_map]
    exact min_eq_left bound

end Reached

def answer (a : UInt16) : List (List UInt8) :=
  [message a serverHello [], message (a + 1) pktReceived [], message (a + 2) fileStored []]

inductive Stage (k : UInt32) (connection : Connection) (log : List Entry) : Prop where
  | unstarted (pc : connection.pc = .idle ∨ connection.pc = .connected) (toServer : connection.toServer = [])
      (toClient : connection.toClient = []) (received : connection.received = []) (nothing : log = [])
  | reading (client : Client) (r : UInt16) (n : Nat) (pc : connection.pc = .reading client)
      (sent : client.Sent k (r + UInt16.ofNat n)) (running : client.isOver = false) (more : n < 3)
      (asked : log.map Entry.packet ++ connection.toServer = (request k r).take (n + 1))
      (answered : connection.received ++ connection.toClient = repliesOf (log.map Entry.effects))
      (count : connection.received.length = n)
  | closed (client : Client) (r : UInt16) (pc : connection.pc = .closed client) (stored : client.fileStored = true)
      (failed : client.storedError = false) (asked : log.map Entry.packet = request k r)
      (toServer : connection.toServer = []) (toClient : connection.toClient = [])
      (answered : connection.received = repliesOf (log.map Entry.effects))

section Stages

variable {k : UInt32} {r a : UInt16} {connection : Connection} {log : List Entry}

theorem response_replies (k : UInt32) (a : UInt16) {m : Nat} (bound : m ≤ 3) :
    repliesOf ((response k a).take m) = (answer a).take m := by
  match m with
  | 0 | 1 | 2 | 3 => rfl
  | m + 4 => omega

theorem client_next {client : Client} {n : Nat} {packet : List UInt8} (sent : client.Sent k (r + UInt16.ofNat n))
    (running : client.isOver = false) (more : n < 3) (answered : (answer a)[n]? = some packet) :
    ∃ client' packets, client.iterate (.packet packet) = (client', packets) ∧
      (n < 2 ∧ client'.Sent k (r + UInt16.ofNat (n + 1)) ∧ client'.isOver = false ∧
          (request k r).take (n + 1) ++ packets = (request k r).take (n + 1 + 1) ∨
        n = 2 ∧ packets = [] ∧ client'.fileStored = true ∧ client'.storedError = false) := by
  have next : r + UInt16.ofNat n + 1 = r + UInt16.ofNat (n + 1) := by rw [UInt16.add_assoc, UInt16.ofNat_add]; rfl
  match n with
  | 0 =>
    obtain rfl := Option.some.inj answered
    obtain ⟨client', handled, sent', running'⟩ := greeted sent running a
    rw [next] at handled sent'
    exact ⟨client', _, handled, .inl ⟨by decide, sent', running', rfl⟩⟩
  | 1 =>
    obtain rfl := Option.some.inj answered
    obtain ⟨client', handled, sent', running'⟩ := delivered_data sent running (a + 1)
    rw [next] at handled sent'
    exact ⟨client', _, handled, .inl ⟨by decide, sent', running', rfl⟩⟩
  | 2 =>
    obtain rfl := Option.some.inj answered
    obtain ⟨client', handled, stored, failed⟩ := stored_file running (a + 2)
    exact ⟨client', [], handled, .inr ⟨rfl, rfl, stored, failed⟩⟩

theorem Stage.asked (stage : Stage k connection log) : ∃ r, log.map Entry.packet <+: request k r := by
  cases stage with
  | unstarted _ _ _ _ nothing => exact ⟨0, by simp [nothing]⟩
  | reading _ r _ _ _ _ _ asked => exact ⟨r, (List.prefix_append _ _).trans (asked ▸ List.take_prefix _ _)⟩
  | closed _ r _ _ _ asked => exact ⟨r, asked ▸ List.prefix_rfl⟩

theorem Stage.received (stage : Stage k connection log) :
    connection.received ++ connection.toClient = repliesOf (log.map Entry.effects) := by
  cases stage with
  | unstarted _ _ toClient received nothing => rw [toClient, received, nothing]; rfl
  | reading _ _ _ _ _ _ _ _ answered => exact answered
  | closed _ _ _ _ _ _ _ toClient answered => rw [toClient, List.append_nil, answered]

end Stages

section Runs

variable {ι : Type} [DecidableEq ι] {t : Threads ι} {u u' : Uploads ι} {k : ι}

def Uploads.logOf (u : Uploads ι) (k : ι) : List Entry := u.server.log (u.accepted.idxOf k)

structure Uploads.Sound (t : Threads ι) (u : Uploads ι) : Prop where
  reached : selectServer.ReachableWhile NoReuse u.server
  count : u.accepted.length = u.server.connections
  nodup : u.accepted.Nodup
  stage : ∀ k, Stage (t.threadNum k) (u.threads k) (u.logOf k)
  succeeded : ∀ c, AllSucceeded (u.server.log c)

theorem Uploads.Starts.sound (starts : u.Starts) : u.Sound t where
  reached := .initial _ starts.server
  count := by rw [starts.accepted, starts.server.connections]; rfl
  nodup := by rw [starts.accepted]; exact List.nodup_nil
  stage k := by
    have connection := starts.threads k
    refine .unstarted (.inl ?_) ?_ ?_ ?_ ?_
    · rw [connection]; rfl
    · rw [connection]; rfl
    · rw [connection]; rfl
    · rw [connection]; rfl
    · simp [Uploads.logOf, starts.server.log]
  succeeded c entry member := by simp [starts.server.log] at member

namespace Uploads.Sound

theorem thread (sound : u.Sound t) {connection : Connection}
    (stage : Stage (t.threadNum k) connection (u.logOf k)) : (u.thread k connection).Sound t where
  reached := sound.reached
  count := sound.count
  nodup := sound.nodup
  succeeded := sound.succeeded
  stage j := by
    by_cases same : j = k
    · subst same
      have own : (u.thread j connection).threads j = connection := Function.update_self ..
      rw [own]
      exact stage
    · have other : (u.thread k connection).threads j = u.threads j := Function.update_of_ne same ..
      rw [other]
      exact sound.stage j

theorem quiet (sound : u.Sound t) {e : SelectEvent} (quiet : Quiet e) {server : SelectServer}
    (stepped : u.server.step e = some server) : { u with server }.Sound t := by
  obtain ⟨log, connections⟩ := quiet_step quiet stepped
  constructor
  case reached => exact .next _ e _ sound.reached quiet.noReuse stepped
  case count => exact sound.count.trans connections.symm
  case nodup => exact sound.nodup
  case stage =>
    intro k
    simpa only [Uploads.logOf, log] using sound.stage k
  case succeeded => simpa only [log] using sound.succeeded

theorem hello (sound : u.Sound t) {sendUnwritten recvUnwritten : Block} {rand : Nat}
    (stepped : u.hello t k sendUnwritten recvUnwritten rand = some u') : u'.Sound t := by
  obtain ⟨client, started, sent, running⟩ := start_eq (t.small k) sendUnwritten recvUnwritten rand
  simp only [Uploads.hello, started] at stepped
  split at stepped
  next pc =>
    obtain rfl := Option.some.inj stepped
    apply sound.thread
    cases sound.stage k with
    | reading _ _ _ pc' => cases pc.symm.trans pc'
    | closed _ _ pc' => cases pc.symm.trans pc'
    | unstarted _ toServer toClient received nothing =>
      refine .reading client (UInt16.ofNat (rand % maxSequence)) 0 rfl ?_ running (by decide) ?_ ?_ ?_
      · simpa using sent
      · rw [nothing, toServer]; rfl
      · rw [nothing, toClient, received]; rfl
      · rw [received]; rfl
  next => cases stepped

theorem served (sound : u.Sound t) (k : ι) :
    (∃ a, (u.logOf k).map Entry.effects = (response (t.threadNum k) a).take (u.logOf k).length) ∧
      ((u.logOf k).length < 3 → ∀ i, u.server.Serves i (u.accepted.idxOf k) → u.server.spent i = false) := by
  obtain ⟨r, asked⟩ := (sound.stage k).asked
  exact thread_served sound.reached (t.small k) asked (sound.succeeded _)

theorem receive (sound : u.Sound t) (stepped : u.receive k = some u') : u'.Sound t := by
  simp only [Uploads.receive] at stepped
  split at stepped
  next client packet rest pc toClient =>
    obtain rfl := Option.some.inj stepped
    apply sound.thread
    cases sound.stage k with
    | unstarted pc' => rcases pc' with pc' | pc' <;> cases pc.symm.trans pc'
    | closed _ _ pc' => cases pc.symm.trans pc'
    | reading client' r n pc' sent running more asked answered count =>
      obtain rfl : client = client' := ThreadPc.reading.inj (pc.symm.trans pc')
      obtain ⟨⟨a, effects⟩, -⟩ := sound.served k
      -- the server has answered all that it has read, and the thread waits for this answer
      have sizes := congrArg List.length asked
      simp only [List.length_append, List.length_map, List.length_take] at sizes
      have three : (request (t.threadNum k) r).length = 3 := rfl
      have bound : (u.logOf k).length ≤ 3 := by omega
      have answers : (u.threads k).received ++ packet :: rest = (answer a).take (u.logOf k).length := by
        rw [← toClient, answered, ← response_replies (t.threadNum k) a bound, ← effects]
      have lengths := congrArg List.length answers
      have three' : (answer a).length = 3 := rfl
      simp only [List.length_append, List.length_cons, List.length_take, count] at lengths
      have last : rest = [] := List.length_eq_zero_iff.mp (by omega)
      have nothing : (u.threads k).toServer = [] := List.length_eq_zero_iff.mp (by omega)
      have here : (answer a)[n]? = some packet := by
        have stage : ((answer a).take (u.logOf k).length)[n]? = some packet := by rw [← answers, ← count]; simp
        rwa [List.getElem?_take_of_lt (by omega)] at stage
      have replied : (u.threads k).received ++ [packet] = repliesOf ((u.logOf k).map Entry.effects) := by
        rw [← answered, toClient, last]
      obtain ⟨client', packets, handled, ⟨again, sent', running', asked'⟩ | ⟨rfl, rfl, stored, failed⟩⟩ :=
        client_next sent running more here
      · rw [handled]
        refine .reading client' r (n + 1) ?_ sent' running' (by omega) ?_ ?_ ?_
        · simp [running']
        · rw [← asked', ← asked, List.append_assoc]
        · rw [last, List.append_nil, replied]
        · rw [List.length_append, count, List.length_singleton]
      · rw [handled]
        have ended : client'.isOver = true := by simp [Client.isOver, stored]
        refine .closed client' r ?_ stored failed ?_ ?_ last replied
        · simp [ended]
        · rw [nothing, List.append_nil] at asked
          exact asked
        · rw [nothing]; rfl
  next => cases stepped

theorem accept (sound : u.Sound t) {accepted : Option (Int × ι)} (stepped : u.accept accepted = some u') :
    u'.Sound t := by
  cases accepted with
  | none =>
    obtain ⟨server, ran, rfl⟩ := Option.map_eq_some_iff.mp stepped
    exact sound.quiet (e := .accept none) trivial ran
  | some next =>
    obtain ⟨sockfd, k⟩ := next
    simp only [Uploads.accept] at stepped
    split_ifs at stepped with new
    obtain ⟨server, ran, rfl⟩ := Option.map_eq_some_iff.mp stepped
    obtain ⟨log, connections⟩ := accept_step ran
    have unused := (select_server_invariant sound.reached).wired.unused
    constructor
    case reached =>
      have noReuse : NoReuse u.server (.accept (some sockfd)) server := trivial
      exact .next _ _ _ sound.reached noReuse ran
    case count => rw [List.length_append, sound.count, connections]; rfl
    case nodup => exact sound.nodup.append (List.nodup_singleton k) (by simpa using new.2)
    case succeeded => simpa only [log] using sound.succeeded
    case stage =>
      intro j
      have same : Uploads.logOf { u with server, accepted := u.accepted ++ [k] } j = u.logOf j := by
        simp only [Uploads.logOf, log]
        by_cases member : j ∈ u.accepted
        · rw [List.idxOf_append_of_mem member]
        · -- nothing has been handled for it so far
          have before : u.accepted.idxOf j = u.server.connections := by
            rw [List.idxOf_eq_length member, sound.count]
          rw [List.idxOf_append_of_notMem member, before, unused _ le_rfl, unused _ (by rw [sound.count]; omega)]
      rw [same]
      exact sound.stage j

theorem unspent (sound : u.Sound t) {i : Slot} {c : Nat} (serves : u.server.Serves i c)
    (number : u.accepted.idxOf k = c) (few : (u.server.log c).length < 3) : u.server.spent i = false := by
  subst number
  exact (sound.served k).2 few i serves

theorem elsewhere (sound : u.Sound t) {c : Nat} (owner : u.accepted[c]? = some k) {server : SelectServer}
    {log : List Entry} (logged : server.log = Function.update u.server.log c log) {j : ι} (other : j ≠ k) :
    Stage (t.threadNum j) (u.threads j) (Uploads.logOf { u with server } j) := by
  have apart : u.accepted.idxOf j ≠ c := by
    intro shared
    have bound := (List.getElem?_eq_some_iff.mp owner).1
    have found := List.getElem?_idxOf (List.idxOf_lt_length_iff.mp (shared ▸ bound))
    rw [shared, owner] at found
    exact other (Option.some.inj found).symm
  have before : Uploads.logOf { u with server } j = u.logOf j := by
    rw [Uploads.logOf, logged, Function.update_of_ne apart, Uploads.logOf]
  rw [before]
  exact sound.stage j

theorem serve (sound : u.Sound t) {i : Slot} {c : Nat} {loop : EventLoop Unit}
    (turn : u.server.loop.scan = some (some i, loop))
    (socket : u.server.sockets (u.server.loop.pool.clientfd i) = some c) (owner : u.accepted[c]? = some k)
    {serverSendPkt serverRecvPkt : Block} {o : SelectOutcome}
    (stepped : u.serve c k serverSendPkt serverRecvPkt o = some u') : u'.Sound t := by
  have number : u.accepted.idxOf k = c := by
    obtain ⟨bound, rfl⟩ := List.getElem?_eq_some_iff.mp owner
    exact sound.nodup.idxOf_getElem c bound
  have own : u.logOf k = u.server.log c := congrArg u.server.log number
  have stage := sound.stage k
  rw [own] at stage
  simp only [Uploads.serve] at stepped
  split at stepped
  next packet rest sent =>
    split_ifs at stepped with succeeds
    obtain ⟨server, ran, rfl⟩ := Option.map_eq_some_iff.mp stepped
    obtain ⟨effects, log, connections⟩ := packet_step turn socket ran
    have logged : server.log c = u.server.log c ++ [{ packet, outcome := o.seenAlone, effects }] := by
      rw [log, Function.update_self]
    cases stage with
    | unstarted _ toServer => cases sent.symm.trans toServer
    | closed _ _ _ _ _ _ toServer => cases sent.symm.trans toServer
    | reading client r n pc sent' running more asked answered count =>
      rw [sent] at asked
      -- the file of this connection has not been stored
      have few : (u.server.log c).length < 3 := by
        have sizes := congrArg List.length asked
        have three : (request (t.threadNum k) r).length = 3 := rfl
        simp only [List.length_append, List.length_map, List.length_cons, List.length_take] at sizes
        omega
      have valid := sound.unspent ⟨(scan_slots turn).2 i rfl, socket⟩ number few
      have noReuse : NoReuse u.server (.scan (.packet packet) serverSendPkt serverRecvPkt o) server := by
        simp [NoReuse, turn, valid]
      constructor
      case reached => exact .next _ _ _ sound.reached noReuse ran
      case count => exact sound.count.trans connections.symm
      case nodup => exact sound.nodup
      case stage =>
        intro j
        by_cases same : j = k
        · subst same
          have here : Uploads.logOf { u with server } j = server.log c := congrArg server.log number
          simp only [Uploads.thread, Function.update_self]
          change Stage _ _ (Uploads.logOf { u with server } j)
          rw [here]
          refine .reading client r n pc sent' running more ?_ ?_ count
          · rw [logged, List.map_append, List.append_assoc]
            exact asked
          · have new : newReplies (u.server.log c) (server.log c) = repliesOf [effects] := by
              rw [newReplies, logged, List.drop_left, List.map_singleton]
            rw [new, ← List.append_assoc, answered, logged, List.map_append, List.map_singleton, repliesOf, repliesOf,
              repliesOf, List.flatMap_append]
        · simp only [Uploads.thread, Function.update_of_ne same]
          exact sound.elsewhere owner log same
      case succeeded =>
        intro c' entry member
        by_cases same : c' = c
        · subst same
          change entry ∈ server.log c' at member
          rw [logged] at member
          rcases List.mem_append.mp member with before | last
          · exact sound.succeeded c' entry before
          · rw [List.mem_singleton.mp last]
            exact succeeds
        · change entry ∈ server.log c' at member
          rw [log, Function.update_of_ne same] at member
          exact sound.succeeded c' entry member
  next =>
    split at stepped
    · obtain ⟨server, ran, rfl⟩ := Option.map_eq_some_iff.mp stepped
      exact sound.quiet (e := .scan .closed serverSendPkt serverRecvPkt o) trivial ran
    · cases stepped

theorem step (sound : u.Sound t) {e : UploadEvent ι} (stepped : u.step t e = some u') : u'.Sound t := by
  cases e with
  | connect k =>
    simp only [Uploads.step] at stepped
    split_ifs at stepped with idle
    obtain rfl := Option.some.inj stepped
    apply sound.thread
    cases sound.stage k with
    | unstarted _ toServer toClient received nothing => exact .unstarted (.inr rfl) toServer toClient received nothing
    | reading _ _ _ pc => simp [pc, ThreadPc.isIdle] at idle
    | closed _ _ pc => simp [pc, ThreadPc.isIdle] at idle
  | hello k sendUnwritten recvUnwritten rand => exact sound.hello stepped
  | receive k => exact sound.receive stepped
  | select ready =>
    obtain ⟨server, ran, rfl⟩ := Option.map_eq_some_iff.mp stepped
    exact sound.quiet (e := .select ready) trivial ran
  | accept accepted => exact sound.accept stepped
  | scan serverSendPkt serverRecvPkt o =>
    simp only [Uploads.step, Uploads.scan] at stepped
    split at stepped
    next => cases stepped
    next =>
      obtain ⟨server, ran, rfl⟩ := Option.map_eq_some_iff.mp stepped
      exact sound.quiet (e := .scan .closed serverSendPkt serverRecvPkt o) trivial ran
    next i loop turn =>
      split at stepped
      next => cases stepped
      next c socket =>
        split at stepped
        next => cases stepped
        next k owner => exact sound.serve turn socket owner stepped

end Uploads.Sound

theorem uploads_sound (reached : (uploads t).Reachable u) : u.Sound t := by
  apply reached.invariant
  · exact fun _ starts => Uploads.Starts.sound starts
  · exact fun _ _ _ _ sound _ stepped => Uploads.Sound.step sound stepped

end Runs

theorem answer_command (a : UInt16) : ∀ packet ∈ answer a,
    load16 (ofBytes packet) commandAt ≠ error ∧ load16 (ofBytes packet) commandAt ≠ storedError := by
  simp only [answer, List.forall_mem_cons, message_command, List.not_mem_nil, false_imp_iff, implies_true, and_true]
  decide

theorem response_writes {k : UInt32} {a : UInt16} {m : Nat} {name bytes : List UInt8}
    (written : (name, bytes) ∈ writesOf ((response k a).take m)) : name = threadFileName (decimal k) := by
  have whole := (List.Sublist.filterMap Effects.written (List.take_sublist m (response k a))).subset written
  have one : (response k a).filterMap Effects.written = [(threadFileName (decimal k), threadMessage (decimal k))] := rfl
  rw [one, List.mem_singleton] at whole
  exact (Prod.mk.inj whole).1

def twoThreads : Threads (Fin 2) where
  threadNum k := UInt32.ofNat (k + 1)
  distinct := by decide
  small := by decide

def newUploads : Uploads (Fin 2) := { server := newServer, threads := fun _ => noConnection, accepted := [] }

theorem newUploads_starts : (uploads twoThreads).Reachable newUploads :=
  .initial _ ⟨newServer_starts, fun _ => rfl, rfl⟩

def placed (address : Nat) : SelectOutcome := { succeeds with realloc := some (address, zeroed) }

def bothServed : List (UploadEvent (Fin 2)) :=
  [.select [4, 5], .accept none, .scan zeroed zeroed (placed 100), .scan zeroed zeroed (placed 200),
    .scan zeroed zeroed succeeds, .receive 1, .receive 0]

def twoUploads : List (UploadEvent (Fin 2)) :=
  [.connect 1, .connect 0, .hello 0 zeroed zeroed 7, .hello 1 zeroed zeroed 9,
    .select [3], .accept (some (4, 0)), .scan zeroed zeroed succeeds,
    .select [3], .accept (some (5, 1)), .scan zeroed zeroed succeeds] ++ bothServed ++ bothServed ++ bothServed

end NetProg.P2
