import NetProg.Net.Connections
import NetProg.P2.Handlers

set_option autoImplicit false

namespace NetProg.P2

open Memory Upload Transition

abbrev SelectServer.Serves (s : SelectServer) (i : Slot) (c : Nat) : Prop :=
  NetProg.Serves s.loop.pool.clientfd s.sockets i c

inductive SelectServer.Moves (s : SelectServer) : SelectEvent → SelectServer → Prop where
  | loops (e : SelectEvent) (loop : EventLoop Unit) (slots : loop.pool.clientfd = s.loop.pool.clientfd) :
      s.Moves e { s with loop }
  | accepts (e : SelectEvent) (loop : EventLoop Unit) (sockfd : Int) (positive : 0 < sockfd)
      (closed : s.sockets sockfd = none)
      (takes : Wiring.Takes s.loop.pool.clientfd loop.pool.clientfd sockfd) :
      s.Moves e { s with loop, sockets := Function.update s.sockets sockfd (some s.connections)
                         connections := s.connections + 1 }
  | closes (e : SelectEvent) (loop : EventLoop Unit) (i : Slot) (slots : loop.pool.clientfd = s.loop.pool.clientfd)
      (occupied : 0 < s.loop.pool.clientfd i) : s.Moves e (s.close i loop)
  | handles (packet : List UInt8) (serverSendPkt serverRecvPkt : Block) (o : SelectOutcome) (loop : EventLoop Unit)
      (i : Slot) (c : Nat) (h : SlotHandled) (slots : loop.pool.clientfd = s.loop.pool.clientfd)
      (turn : s.loop.scan = some (some i, loop)) (serves : s.Serves i c) (formed : WellFormed packet)
      (handled : P2.handleClientRequest s.heap (s.vars i) serverSendPkt
        (receivePkt serverRecvPkt (headerLength + dataSize) packet) o = some h) :
      s.Moves (.scan (.packet packet) serverSendPkt serverRecvPkt o)
        (s.handled i c loop { packet, outcome := o.seenAlone, effects := h.effects } h)

theorem SelectServer.step_moves {s s' : SelectServer} {e : SelectEvent} (stepped : s.step e = some s') :
    s.Moves e s' := by
  cases e with
  | select ready =>
    obtain ⟨loop, selected, rfl⟩ := Option.map_eq_some_iff.mp stepped
    exact .loops _ loop (select_slots selected).clientfd
  | accept accepted =>
    cases accepted with
    | none =>
      obtain ⟨loop, failed, rfl⟩ := Option.map_eq_some_iff.mp stepped
      obtain ⟨_, _, contra, _⟩ | ⟨_, same⟩ := accept_cases failed
      · cases contra
      · exact .loops _ loop (by rw [same])
    | some sockfd =>
      simp only [SelectServer.step, SelectServer.accept] at stepped
      split_ifs at stepped with allowed
      obtain ⟨loop, ran, rfl⟩ := Option.map_eq_some_iff.mp stepped
      obtain ⟨fd, addr, same, added⟩ | ⟨contra, _⟩ := accept_cases ran
      · obtain ⟨rfl, rfl⟩ := Prod.mk.inj (Option.some.inj same)
        refine .accepts _ loop _ allowed.1 allowed.2.2.2 ?_
        rw [added]
        exact (addClient_cases _ _ _).imp_right FdPool.SameSlots.clientfd
      · cases contra
  | scan read serverSendPkt serverRecvPkt o =>
    cases turn : s.loop.scan with
    | none => simp [SelectServer.step, turn] at stepped
    | some next =>
      obtain ⟨served, loop⟩ := next
      obtain ⟨slots, positive⟩ := scan_slots turn
      cases served with
      | none =>
        simp only [SelectServer.step, turn, Option.some.injEq] at stepped
        subst stepped
        exact .loops _ loop slots.clientfd
      | some i =>
        simp only [SelectServer.step, turn, SelectServer.serve] at stepped
        cases read with
        | failed => cases stepped
        | closed =>
          obtain rfl := Option.some.inj stepped
          exact .closes _ loop i slots.clientfd (positive i rfl)
        | packet packet =>
          cases socket : s.sockets (s.loop.pool.clientfd i) with
          | none => simp [socket] at stepped
          | some c =>
            simp only [socket] at stepped
            split_ifs at stepped with formed
            obtain ⟨h, handled, rfl⟩ := Option.map_eq_some_iff.mp stepped
            exact .handles packet _ _ o loop i c h slots.clientfd turn ⟨positive i rfl, socket⟩ formed handled

structure SelectServer.Wired (s : SelectServer) : Prop where
  wiring : Wiring s.loop.pool.clientfd s.sockets s.connections
  unused : ∀ c, s.connections ≤ c → s.log c = []
  free : ∀ i, ¬ 0 < s.loop.pool.clientfd i → s.vars i = noVars ∧ s.spent i = false
  fresh : ∀ i c, s.Serves i c → s.log c = [] → s.vars i = noVars ∧ s.spent i = false

theorem SelectServer.Starts.wired {s : SelectServer} (starts : s.Starts) : s.Wired := by
  obtain ⟨pool, _, loop⟩ := starts.loop
  have blank : ∀ i, s.vars i = noVars ∧ s.spent i = false := by simp [starts.vars, starts.spent]
  constructor
  case wiring =>
    apply wiring_empty
    · simp [loop, initPool]
    · simp [starts.sockets]
  case unused => simp [starts.log]
  case free => exact fun i _ => blank i
  case fresh => exact fun i _ _ _ => blank i

theorem SelectServer.Moves.wired {s s' : SelectServer} {e : SelectEvent} (wired : s.Wired) (moves : s.Moves e s') :
    s'.Wired := by
  obtain ⟨wiring, unused, free, fresh⟩ := wired
  cases moves with
  | loops _ loop slots =>
    constructor
    case wiring => exact slots ▸ wiring
    case unused => exact unused
    case free => exact slots ▸ free
    case fresh => simpa only [SelectServer.Serves, slots] using fresh
  | accepts _ loop sockfd positive closed takes =>
    constructor
    case wiring => exact wiring.accept takes positive closed
    case unused => exact fun c new => unused c (Nat.le_of_succ_le new)
    case free =>
      intro i notOccupied
      rcases takes.cases i with same | ⟨_, new⟩
      · exact free i (same ▸ notOccupied)
      · exact absurd positive (new ▸ notOccupied)
    case fresh =>
      intro i c serves silent
      rcases wiring.serves_accept takes closed serves with before | ⟨empty, _⟩
      · exact fresh i c before silent
      · exact free i empty.asymm
  | closes _ loop i slots occupied =>
    constructor
    case wiring =>
      simp only [SelectServer.close, FdPool.closeSlot, slots]
      exact wiring.close
    case unused => exact unused
    case free =>
      intro j notOccupied
      by_cases same : j = i
      · simp [SelectServer.close, same]
      · simp only [SelectServer.close, FdPool.closeSlot, slots, Function.update_of_ne same] at notOccupied ⊢
        exact free j notOccupied
    case fresh =>
      intro j c serves silent
      simp only [SelectServer.Serves, SelectServer.close, FdPool.closeSlot, slots] at serves
      obtain ⟨other, before⟩ := Wiring.serves_close serves
      simp only [SelectServer.close, Function.update_of_ne other]
      exact fresh j c before silent
  | handles packet serverSendPkt serverRecvPkt o loop i c h slots turn serves formed handled =>
    constructor
    case wiring => exact slots ▸ wiring
    case unused =>
      intro c' new
      have other : c' ≠ c := by
        rintro rfl
        exact absurd (wiring.old serves) (Nat.not_lt.mpr new)
      simp only [SelectServer.handled, Function.update_of_ne other]
      exact unused c' new
    case free =>
      intro j notOccupied
      simp only [SelectServer.handled, slots] at notOccupied
      have other : j ≠ i := by
        rintro rfl
        exact notOccupied serves.1
      simp only [SelectServer.handled, Function.update_of_ne other]
      exact free j notOccupied
    case fresh =>
      intro j c' serves' silent
      simp only [SelectServer.Serves, SelectServer.handled, slots] at serves'
      by_cases same : c' = c
      · simp [SelectServer.handled, same] at silent
      · have other : j ≠ i := by
          rintro rfl
          exact same (Option.some.inj (serves'.2.symm.trans serves.2))
        simp only [SelectServer.handled, Function.update_of_ne same] at silent
        simp only [SelectServer.handled, Function.update_of_ne other]
        exact fresh j c' serves' silent

structure SelectServer.Separate (s : SelectServer) : Prop where
  live : ∀ i, s.spent i = false → s.heap.Live (s.vars i).buffer
  apart : ∀ i j, s.spent i = false → s.spent j = false → i ≠ j → (s.vars i).buffer ≠ 0 →
    (s.vars i).buffer ≠ (s.vars j).buffer

theorem SelectServer.Starts.separate {s : SelectServer} (starts : s.Starts) : s.Separate where
  live i _ := by simp [starts.vars, noVars, Heap.Live]
  apart i j _ _ _ valid := by simp [starts.vars, noVars] at valid

-- No delivery and no store uses a pointer that has been freed.
def NoReuse (s : SelectServer) (e : SelectEvent) (_ : SelectServer) : Prop :=
  match e with
  | .scan (.packet packet) _ _ _ => match s.loop.scan with
    | some (some i, _) => s.spent i = true →
        load16 (ofBytes packet) commandAt ≠ dataDelivery ∧ load16 (ofBytes packet) commandAt ≠ dataStore
    | _ => True
  | _ => True

instance (s : SelectServer) (e : SelectEvent) (s' : SelectServer) : Decidable (NoReuse s e s') := by
  unfold NoReuse
  split
  · split <;> infer_instance
  · infer_instance

section Separate

variable {s : SelectServer} {i : Slot} {packet : List UInt8} {serverSendPkt serverRecvPkt : Block} {o : SelectOutcome}
  {h : SlotHandled}

theorem SelectServer.Separate.elsewhere (separate : s.Separate) {j : Slot} {heap' : Heap} {ptr' : Nat}
    (framed : s.heap.Framed heap' (s.vars i).buffer ptr') (distinct : j ≠ i) (valid : s.spent i = false)
    (valid' : s.spent j = false) (block : (s.vars j).buffer ≠ 0) :
    s.heap (s.vars j).buffer ≠ none ∧ heap' (s.vars j).buffer = s.heap (s.vars j).buffer ∧
      ptr' ≠ (s.vars j).buffer := by
  have away := separate.apart j i valid' valid distinct block
  have occupied := (separate.live j valid').resolve_left block
  exact ⟨occupied, framed.same _ away occupied, framed.apart _ away block occupied⟩

variable (formed : WellFormed packet)
  (handled : handleClientRequest s.heap (s.vars i) serverSendPkt
    (receivePkt serverRecvPkt (headerLength + dataSize) packet) o = some h)
  (quiet : s.spent i = true →
    load16 (ofBytes packet) commandAt ≠ dataDelivery ∧ load16 (ofBytes packet) commandAt ≠ dataStore)
include formed handled quiet

theorem spent_idle (spent : s.spent i = true) :
    h.heap = s.heap ∧ h.vars.buffer = (s.vars i).buffer ∧ h.freed = false := by
  obtain ⟨noDelivery, noStore⟩ := quiet spent
  have command := (formed.carries serverRecvPkt).command
  rw [← command] at noDelivery noStore
  exact handle_idle noDelivery noStore handled

theorem SelectServer.Separate.deref (separate : s.Separate) {j : Slot} (distinct : j ≠ i)
    (valid' : s.spent j = false) : h.heap.deref (s.vars j).buffer = s.heap.deref (s.vars j).buffer := by
  by_cases block : (s.vars j).buffer = 0
  · simp [Heap.deref, block]
  · cases spent : s.spent i with
    | true => rw [(spent_idle formed handled quiet spent).1]
    | false =>
      obtain ⟨framed, _⟩ := handle_framed (separate.live i spent) handled
      simp only [Heap.deref, if_neg block]
      exact (separate.elsewhere framed distinct spent valid' block).2.1

theorem SelectServer.Separate.served (separate : s.Separate) (c : Nat) (loop : EventLoop Unit) (entry : Entry) :
    (s.handled i c loop entry h).Separate := by
  -- the slot that has been served, against another one
  have against (j : Slot) (distinct : j ≠ i) (valid : (s.spent i || h.freed) = false) (valid' : s.spent j = false)
      (block : (s.vars j).buffer ≠ 0) : h.vars.buffer ≠ (s.vars j).buffer := by
    obtain ⟨before, _⟩ := Bool.or_eq_false_iff.mp valid
    obtain ⟨framed, _⟩ := handle_framed (separate.live i before) handled
    exact (separate.elsewhere framed distinct before valid' block).2.2
  constructor
  case live =>
    intro j valid
    by_cases same : j = i
    · subst same
      simp only [SelectServer.handled, Function.update_self, Bool.or_eq_false_iff] at valid ⊢
      exact (handle_framed (separate.live j valid.1) handled).2 valid.2
    · simp only [SelectServer.handled, Function.update_of_ne same] at valid ⊢
      have kept := separate.deref formed handled quiet same valid
      rcases separate.live j valid with null | occupied
      · exact .inl null
      · by_cases null : (s.vars j).buffer = 0
        · exact .inl null
        · simp only [Heap.deref, if_neg null] at kept
          exact .inr (kept ▸ occupied)
  case apart =>
    intro j k valid valid' distinct block
    by_cases first : j = i
    · subst first
      simp only [SelectServer.handled, Function.update_self, Function.update_of_ne distinct.symm] at valid valid' block ⊢
      by_cases null : (s.vars k).buffer = 0
      · rwa [null]
      · exact against k distinct.symm valid valid' null
    · simp only [SelectServer.handled, Function.update_of_ne first] at valid block ⊢
      by_cases second : k = i
      · subst second
        simp only [SelectServer.handled, Function.update_self] at valid' ⊢
        exact (against j first valid' valid block).symm
      · simp only [SelectServer.handled, Function.update_of_ne second] at valid' ⊢
        exact separate.apart j k valid valid' distinct block

end Separate

theorem NoReuse.quiet {s s' : SelectServer} {packet : List UInt8} {serverSendPkt serverRecvPkt : Block}
    {o : SelectOutcome} (noReuse : NoReuse s (.scan (.packet packet) serverSendPkt serverRecvPkt o) s') {i : Slot}
    {loop : EventLoop Unit} (turn : s.loop.scan = some (some i, loop)) (spent : s.spent i = true) :
    load16 (ofBytes packet) commandAt ≠ dataDelivery ∧ load16 (ofBytes packet) commandAt ≠ dataStore := by
  simp only [NoReuse, turn] at noReuse
  exact noReuse spent

theorem SelectServer.Moves.separate {s s' : SelectServer} {e : SelectEvent} (separate : s.Separate)
    (noReuse : NoReuse s e s') (moves : s.Moves e s') : s'.Separate := by
  cases moves with
  | loops _ loop slots => exact ⟨separate.live, separate.apart⟩
  | accepts _ loop sockfd positive closed takes => exact ⟨separate.live, separate.apart⟩
  | closes _ loop i slots occupied =>
    constructor
    case live =>
      intro j valid
      by_cases same : j = i
      · exact .inl (by simp [SelectServer.close, same, noVars])
      · simp only [SelectServer.close, Function.update_of_ne same] at valid ⊢
        exact separate.live j valid
    case apart =>
      intro j k valid valid' distinct block
      by_cases first : j = i
      · simp [SelectServer.close, first, noVars] at block
      · simp only [SelectServer.close, Function.update_of_ne first] at valid block ⊢
        by_cases second : k = i
        · simpa [second, noVars] using block
        · simp only [SelectServer.close, Function.update_of_ne second] at valid' ⊢
          exact separate.apart j k valid valid' distinct block
  | handles packet serverSendPkt serverRecvPkt o loop i c h slots turn serves formed handled =>
    exact separate.served formed handled (noReuse.quiet turn) c loop _

end NetProg.P2
