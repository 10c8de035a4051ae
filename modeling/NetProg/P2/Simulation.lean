import NetProg.P2.MultiServer
import NetProg.P2.Slots

set_option autoImplicit false

namespace NetProg.P2

open Memory Upload Transition

def Entry.input (entry : Entry) : List UInt8 × Outcome := (entry.packet, entry.outcome)

def BeginsWithHello (log : List Entry) : Prop :=
  ∃ first ∈ log.head?, load16 (ofBytes first.packet) commandAt = clientHello

-- Up to the packet after which `multi_server` ends the session, it has the same effects.
def Alike (log : List Entry) (session : Session) (effects : List Effects) : Prop :=
  effects <+: log.map Entry.effects ∧ (session.isOver = false → effects = log.map Entry.effects)

section Runs

variable {sendUnwritten recvUnwritten : Block}

theorem alike_last {log : List Entry} {session : Session} {effects : List Effects} {h : SlotHandled} (entry : Entry)
    (served : MultiServer.handleClientRequest sendUnwritten recvUnwritten (log.map Entry.input) =
      some (session, effects))
    (alike : Alike log session effects) (same : entry.effects = h.effects)
    (agrees : session.isOver = false → Agrees h (session.iterate (.packet entry.packet) entry.outcome)) :
    ∃ session' effects',
      MultiServer.handleClientRequest sendUnwritten recvUnwritten ((log ++ [entry]).map Entry.input) =
        some (session', effects') ∧
      Alike (log ++ [entry]) session' effects' ∧
      (session'.isOver = false → session.isOver = false ∧ h.freed = false ∧ Related h.heap h.vars session') := by
  have last := serve_last served entry.packet entry.outcome
  have inputs : (log ++ [entry]).map Entry.input = log.map Entry.input ++ [(entry.packet, entry.outcome)] := by
    simp [Entry.input]
  rw [MultiServer.handleClientRequest, inputs, last]
  cases ended : session.isOver with
  | true =>
    refine ⟨session, effects, rfl, ⟨?_, ?_⟩, ?_⟩
    · rw [List.map_append]
      exact alike.1.trans (List.prefix_append _ _)
    · simp [ended]
    · simp [ended]
  | false =>
    obtain ⟨session', ran, goesOn⟩ := agrees ended
    have whole : effects ++ [h.effects] = (log ++ [entry]).map Entry.effects := by simp [alike.2 ended, same]
    exact ⟨session', effects ++ [h.effects], by simp [ran], ⟨whole ▸ List.prefix_rfl, fun _ => whole⟩,
      fun running' => ⟨rfl, goesOn running'⟩⟩

def SelectServer.Follows (sendUnwritten recvUnwritten : Block) (s : SelectServer) (c : Nat) : Prop :=
  -- The process of `multi_server` that is given the packets of `c` holds what the slot of `c`
  -- holds.
  BeginsWithHello (s.log c) → ∃ session effects,
    MultiServer.handleClientRequest sendUnwritten recvUnwritten ((s.log c).map Entry.input) = some (session, effects) ∧
    Alike (s.log c) session effects ∧
    (session.isOver = false → ∀ i, s.Serves i c → s.spent i = false ∧ Related s.heap (s.vars i) session)

theorem SelectServer.Follows.keep {s s' : SelectServer} {c : Nat} (follows : s.Follows sendUnwritten recvUnwritten c)
    (log : s'.log c = s.log c)
    (slots : ∀ i, s'.Serves i c → s.Serves i c ∧ (s.spent i = false → s'.spent i = false ∧ s'.vars i = s.vars i ∧
      s'.heap.deref (s.vars i).buffer = s.heap.deref (s.vars i).buffer)) :
    s'.Follows sendUnwritten recvUnwritten c := by
  intro hello
  rw [log] at hello
  obtain ⟨session, effects, served, alike, goesOn⟩ := follows hello
  refine ⟨session, effects, log ▸ served, log ▸ alike, fun running i serves => ?_⟩
  obtain ⟨before, kept⟩ := slots i serves
  obtain ⟨valid, related⟩ := goesOn running i before
  obtain ⟨valid', vars, block⟩ := kept valid
  refine ⟨valid', ?_⟩
  rw [vars]
  exact related.heap block

theorem follows_packet {s : SelectServer} {i : Slot} {c : Nat} {packet : List UInt8}
    {serverSendPkt serverRecvPkt : Block} {o : SelectOutcome} {h : SlotHandled} {entry : Entry} (wired : s.Wired)
    (follows : s.Follows sendUnwritten recvUnwritten c) (serves : s.Serves i c) (formed : WellFormed packet)
    (handled : handleClientRequest s.heap (s.vars i) serverSendPkt
      (receivePkt serverRecvPkt (headerLength + dataSize) packet) o = some h)
    (read : entry.packet = packet) (outcome : entry.outcome = o.seenAlone) (same : entry.effects = h.effects)
    (hello : BeginsWithHello (s.log c ++ [entry])) :
    ∃ session effects,
      MultiServer.handleClientRequest sendUnwritten recvUnwritten ((s.log c ++ [entry]).map Entry.input) =
        some (session, effects) ∧
      Alike (s.log c ++ [entry]) session effects ∧
      (session.isOver = false → s.spent i = false ∧ h.freed = false ∧ Related h.heap h.vars session) := by
  cases log : s.log c with
  | nil =>
    -- the first packet, before which nothing is known about the sequence number
    obtain ⟨vars, valid⟩ := wired.fresh i c serves log
    have command : load16 (ofBytes packet) commandAt = clientHello := by
      simpa [BeginsWithHello, log, read] using hello
    rw [vars] at handled
    have agrees := iterate_hello formed handled (held_start s.heap sendUnwritten recvUnwritten) command
    rw [← read, ← outcome] at agrees
    have served : MultiServer.handleClientRequest sendUnwritten recvUnwritten (([] : List Entry).map Entry.input) =
        some (.start sendUnwritten recvUnwritten, []) := rfl
    obtain ⟨session, effects, served, alike, goesOn⟩ :=
      alike_last entry served ⟨List.prefix_rfl, fun _ => rfl⟩ same fun _ => agrees
    exact ⟨session, effects, served, alike, fun running => ⟨valid, (goesOn running).2⟩⟩
  | cons first rest =>
    have before : BeginsWithHello (s.log c) := by simpa [BeginsWithHello, log] using hello
    obtain ⟨session, effects, served, alike, goesOn⟩ := follows before
    have agrees (running : session.isOver = false) : Agrees h (session.iterate (.packet entry.packet) entry.outcome) := by
      rw [read, outcome]
      exact iterate_agrees formed handled (goesOn running i serves).2
    rw [← log]
    obtain ⟨session', effects', served', alike', goesOn'⟩ := alike_last entry served alike same agrees
    refine ⟨session', effects', served', alike', fun running' => ?_⟩
    obtain ⟨running, kept⟩ := goesOn' running'
    exact ⟨(goesOn running i serves).1, kept⟩

theorem SelectServer.Moves.follows {s s' : SelectServer} {e : SelectEvent} (wired : s.Wired) (separate : s.Separate)
    (noReuse : NoReuse s e s') (follows : ∀ c, s.Follows sendUnwritten recvUnwritten c) (moves : s.Moves e s')
    (c : Nat) : s'.Follows sendUnwritten recvUnwritten c := by
  cases moves with
  | loops _ loop slots =>
    refine (follows c).keep rfl fun i serves => ⟨?_, fun valid => ⟨valid, rfl, rfl⟩⟩
    simpa only [SelectServer.Serves, slots] using serves
  | accepts _ loop sockfd positive closed takes =>
    by_cases new : c = s.connections
    · -- nothing has been handled on the new connection
      intro hello
      simp [BeginsWithHello, wired.unused c new.ge] at hello
    · refine (follows c).keep rfl fun i serves => ⟨?_, fun valid => ⟨valid, rfl, rfl⟩⟩
      exact (wired.wiring.serves_accept takes closed serves).resolve_right fun fresh => new fresh.2
  | closes _ loop i slots occupied =>
    refine (follows c).keep rfl fun j serves => ?_
    simp only [SelectServer.Serves, SelectServer.close, FdPool.closeSlot, slots] at serves
    obtain ⟨other, before⟩ := Wiring.serves_close serves
    refine ⟨before, fun valid => ⟨?_, Function.update_of_ne other _ _, rfl⟩⟩
    exact (Function.update_of_ne other _ _).trans valid
  | handles packet serverSendPkt serverRecvPkt o loop i c' h slots turn serves formed handled =>
    have quiet := noReuse.quiet turn
    by_cases same : c = c'
    · subst same
      intro hello
      have log : (s.handled i c loop { packet, outcome := o.seenAlone, effects := h.effects } h).log c =
          s.log c ++ [{ packet, outcome := o.seenAlone, effects := h.effects }] := Function.update_self ..
      rw [log] at hello
      have next := follows_packet wired (follows c) serves formed handled rfl rfl rfl hello
      obtain ⟨session, effects, served, alike, goesOn⟩ := next
      refine ⟨session, effects, log ▸ served, log ▸ alike, fun running j serves' => ?_⟩
      simp only [SelectServer.Serves, SelectServer.handled, slots] at serves'
      obtain rfl := wired.wiring.one serves serves'
      obtain ⟨valid, kept, related⟩ := goesOn running
      simp only [SelectServer.handled, Function.update_self, valid, kept, Bool.or_self]
      exact ⟨trivial, related⟩
    · refine (follows c).keep (Function.update_of_ne same _ _) fun j serves' => ?_
      simp only [SelectServer.Serves, SelectServer.handled, slots] at serves'
      have other : j ≠ i := by
        rintro rfl
        exact same (Option.some.inj (serves'.2.symm.trans serves.2))
      refine ⟨serves', fun valid => ⟨?_, Function.update_of_ne other _ _, ?_⟩⟩
      · exact (Function.update_of_ne other _ _).trans valid
      · exact separate.deref formed handled quiet other valid

theorem SelectServer.Starts.follows {s : SelectServer} (starts : s.Starts) (c : Nat) :
    s.Follows sendUnwritten recvUnwritten c := by
  intro hello
  simp [BeginsWithHello, starts.log] at hello

structure SelectServer.Simulates (s : SelectServer) : Prop where
  wired : s.Wired
  separate : s.Separate
  follows : ∀ sendUnwritten recvUnwritten c, s.Follows sendUnwritten recvUnwritten c

theorem select_server_invariant {s : SelectServer} (reached : selectServer.ReachableWhile NoReuse s) :
    s.Simulates := by
  apply reached.invariant
  · intro s starts
    exact ⟨starts.wired, starts.separate, fun _ _ => starts.follows⟩
  · intro s e s' _ simulates noReuse stepped
    have moves := SelectServer.step_moves stepped
    exact ⟨moves.wired simulates.wired, moves.separate simulates.separate noReuse,
      fun _ _ => moves.follows simulates.wired simulates.separate noReuse (simulates.follows _ _)⟩

end Runs

theorem select_server_simulates {s : SelectServer} (reached : selectServer.ReachableWhile NoReuse s)
    (sendUnwritten recvUnwritten : Block) (c : Nat) (hello : BeginsWithHello (s.log c)) :
    ∃ session effects,
      MultiServer.handleClientRequest sendUnwritten recvUnwritten ((s.log c).map Entry.input) =
        some (session, effects) ∧
      Alike (s.log c) session effects := by
  obtain ⟨session, effects, served, alike, _⟩ :=
    (select_server_invariant reached).follows sendUnwritten recvUnwritten c hello
  exact ⟨session, effects, served, alike⟩

def zeroed : Block := fun _ => 0

def newServer : SelectServer where
  serverSock := 3
  loop :=
    { pool := initPool 3 { maxfd := 0, readSet := fun _ => false, clientfd := fun _ => 0, clientAddr := fun _ => ()
                           maxi := 0, readySet := fun _ => false, nready := 0 }
      pc := .selecting }
  heap := fun _ => none
  vars := fun _ => noVars
  sockets := fun _ => none
  connections := 0
  log := fun _ => []
  spent := fun _ => false

theorem newServer_starts : newServer.Starts := ⟨by decide, ⟨_, by decide, rfl⟩, rfl, rfl, rfl, rfl, rfl⟩

def succeeds : SelectOutcome :=
  -- All calls succeed, and `realloc` returns block 100.
  { rand := 41, realloc := some (100, zeroed), malloc := true, opens := true, writes := some 2 }

def nothingReady : SelectEvent := .scan .closed zeroed zeroed succeeds

def connects (client : Nat) : List SelectEvent := [.select [3], .accept (some (4 + client)), nothingReady]

def sends (client : Nat) (command : UInt16) (data : List UInt8) : List SelectEvent :=
  [.select [4 + client], .accept none] ++ List.replicate client nothingReady ++
    [.scan (.packet (message 0 command data)) zeroed zeroed succeeds, nothingReady]

def blockPassesOn : List SelectEvent :=
  -- The second client gets the block that the first one has had stored.
  connects 0 ++ sends 0 clientHello [] ++ sends 0 dataDelivery [1] ++ sends 0 dataStore [97, 0] ++
    connects 1 ++ sends 1 clientHello [] ++ sends 1 dataDelivery [7, 7]

def secondClient : List (List UInt8 × Outcome) :=
  [(message 0 clientHello [], succeeds.seenAlone), (message 0 dataDelivery [7, 7], succeeds.seenAlone),
    (message 0 dataStore [98, 0], succeeds.seenAlone)]

theorem second_client_greets {s : SelectServer} (packets : (s.log 1).map Entry.input = secondClient) :
    BeginsWithHello (s.log 1) := by
  cases log : s.log 1 with
  | nil => simp [log, secondClient] at packets
  | cons first rest =>
    simp only [log, secondClient, List.map_cons, Entry.input, List.cons.injEq, Prod.mk.injEq] at packets
    refine ⟨first, rfl, ?_⟩
    rw [packets.1.1]
    decide

theorem block_handed_on : ∃ s : SelectServer,
    (s.log 1).map (fun entry => entry.effects.written) = [none, none, some ([98], [7, 7])] ∧
    ∃ session effects,
      MultiServer.handleClientRequest zeroed zeroed ((s.log 1).map Entry.input) = some (session, effects) ∧
      Alike (s.log 1) session effects := by
  obtain ⟨s, ran, packets, written⟩ : ∃ s,
      selectServer.execWhile NoReuse newServer (blockPassesOn ++ sends 1 dataStore [98, 0]) = some s ∧
      (s.log 1).map Entry.input = secondClient ∧
      (s.log 1).map (fun entry => entry.effects.written) = [none, none, some ([98], [7, 7])] := ⟨_, rfl, rfl, rfl⟩
  have reached := System.execWhile_reachable (.initial _ newServer_starts) ran
  exact ⟨s, written, select_server_simulates reached zeroed zeroed 1 (second_client_greets packets)⟩

-- The first client delivers again, through its old pointer and into the block of the second one.
theorem freed_block_shared :
    ¬ ∀ s : SelectServer, selectServer.Reachable s → ∀ (sendUnwritten recvUnwritten : Block) (c : Nat),
      BeginsWithHello (s.log c) → ∃ session effects,
        MultiServer.handleClientRequest sendUnwritten recvUnwritten ((s.log c).map Entry.input) =
          some (session, effects) ∧
        Alike (s.log c) session effects := by
  intro claimed
  obtain ⟨s, ran, packets, written⟩ : ∃ s,
      selectServer.exec newServer (blockPassesOn ++ sends 0 dataDelivery [9] ++ sends 1 dataStore [98, 0]) = some s ∧
      (s.log 1).map Entry.input = secondClient ∧
      (s.log 1).map (fun entry => entry.effects.written) = [none, none, some ([98], [7, 9])] := ⟨_, rfl, rfl, rfl⟩
  obtain ⟨session, effects, served, inOrder, _⟩ :=
    claimed s (System.exec_reachable (.initial _ newServer_starts) ran) zeroed zeroed 1 (second_client_greets packets)
  have alone : (MultiServer.handleClientRequest zeroed zeroed secondClient).map
      (fun result => result.2.map Effects.written) = some [none, none, some ([98], [7, 7])] := rfl
  rw [packets] at served
  rw [served, Option.map_some, Option.some.injEq] at alone
  have same := inOrder.map Effects.written
  rw [alone, List.map_map] at same
  have differ : ¬ [none, none, some (([98] : List UInt8), ([7, 7] : List UInt8))] <+:
    [none, none, some ([98], [7, 9])] := by decide
  exact differ (written ▸ same)

end NetProg.P2
