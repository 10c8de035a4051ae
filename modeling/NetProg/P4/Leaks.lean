import NetProg.Net.FdPool
import NetProg.Shared.Handles
import NetProg.Shared.Transition

set_option autoImplicit false

namespace NetProg.P4

open Handles Transition

inductive GetPc where
  | prompt
  -- `openClientSock` for the super node, and up to the `close` behind its answer
  | asking (clientSock : Nat)
  | asked (clientSock : Nat)
  -- `openClientSock` for the peer, the receive loop, and the file
  | answered
  | calling (clientSock : Nat)
  | receiving (clientSock : Nat)
  | received (clientSock : Nat)
  | storing (clientSock storeFd : Nat)

inductive ServePc where
  | selecting
  | sending (fd : Nat)

structure ChildTable where
  opened : Finset Nat
  main : GetPc
  server : ServePc
  -- the slots of `fdPool` that are taken
  clients : List Nat
  -- Ghost record of the run: descriptors that are in no variable any more, sockets for peers, and
  -- files that have been stored.
  lost : List Nat
  calls : Nat
  stored : Nat

inductive TableEvent where
  -- what `socket`, `open` and `accept` return; `none` for -1
  | socket (fd : Option Nat)
  | connect (connects : Bool)
  | answer (found : Bool)
  | receive (fails : Bool)
  | openDest (fd : Option Nat)
  | store (writes : Bool)
  | accept (fd : Nat)
  | hangUp (clientSock : Nat)
  | openData (clientSock fd : Nat)
  | sent

section Steps

variable (limit : Nat) (s : ChildTable)

def ChildTable.opens (fd : Nat) : Option ChildTable :=
  if fd < limit ∧ fd ∉ s.opened then some { s with opened := insert fd s.opened } else none

def ChildTable.close (fd : Nat) : ChildTable := { s with opened := s.opened.erase fd }

def ChildTable.lose (fd : Nat) : ChildTable := { s with main := .prompt, lost := fd :: s.lost }

def ChildTable.socket (fd : Option Nat) : Option ChildTable :=
  match s.main, fd with
  | .prompt, none => some s
  | .prompt, some fd => (s.opens limit fd).map fun s => { s with main := .asking fd }
  | .answered, none => some { s with main := .prompt }
  | .answered, some fd => (s.opens limit fd).map fun s => { s with main := .calling fd, calls := s.calls + 1 }
  | _, _ => none

def ChildTable.connect (connects : Bool) : Option ChildTable :=
  -- `openClientSock` returns -1 and keeps its socket when `connect` fails.
  match s.main with
  | .asking fd => some (if connects then { s with main := .asked fd } else s.lose fd)
  | .calling fd => some (if connects then { s with main := .receiving fd } else s.lose fd)
  | _ => none

def ChildTable.answer (found : Bool) : Option ChildTable :=
  match s.main with
  | .asked fd => some { s.close fd with main := if found then .answered else .prompt }
  | _ => none

def ChildTable.receive (fails : Bool) : Option ChildTable :=
  match s.main with
  | .receiving fd => some (if fails then s.lose fd else { s with main := .received fd })
  | _ => none

def ChildTable.openDest (fd : Option Nat) : Option ChildTable :=
  match s.main, fd with
  | .received clientSock, none => some (s.lose clientSock)
  | .received clientSock, some fd => (s.opens limit fd).map fun s => { s with main := .storing clientSock fd }
  | _, _ => none

def ChildTable.store (writes : Bool) : Option ChildTable :=
  match s.main with
  | .storing clientSock storeFd => some { (s.close storeFd).lose clientSock with
      stored := if writes then s.stored + 1 else s.stored }
  | _ => none

def ChildTable.accept (fd : Nat) : Option ChildTable :=
  match s.server with
  | .selecting => (s.opens limit fd).map fun s =>
      -- `addClient` keeps nothing of a client for which it finds no slot
      if s.clients.length < fdSetSize then { s with clients := s.clients ++ [fd] } else { s with lost := fd :: s.lost }
  | .sending _ => none

def ChildTable.hangUp (clientSock : Nat) : Option ChildTable :=
  match s.server with
  | .selecting =>
    if clientSock ∈ s.clients then some { s.close clientSock with clients := s.clients.erase clientSock } else none
  | .sending _ => none

def ChildTable.openData (clientSock fd : Nat) : Option ChildTable :=
  -- `handleClientRequest` for a client whose file is there
  match s.server with
  | .selecting =>
    if clientSock ∈ s.clients then (s.opens limit fd).map fun s => { s with server := .sending fd } else none
  | .sending _ => none

def ChildTable.sent : Option ChildTable :=
  match s.server with
  | .selecting => none
  | .sending fd => some { s.close fd with server := .selecting }

def ChildTable.step : TableEvent → Option ChildTable
  | .socket fd => s.socket limit fd
  | .connect connects => s.connect connects
  | .answer found => s.answer found
  | .receive fails => s.receive fails
  | .openDest fd => s.openDest limit fd
  | .store writes => s.store writes
  | .accept fd => s.accept limit fd
  | .hangUp clientSock => s.hangUp clientSock
  | .openData clientSock fd => s.openData limit clientSock fd
  | .sent => s.sent

end Steps

structure ChildTable.Starts (limit : Nat) (s : ChildTable) : Prop where
  -- Both threads are in their loops; the listening socket is among the open descriptors.
  main : s.main = .prompt
  server : s.server = .selecting
  clients : s.clients = []
  lost : s.lost = []
  calls : s.calls = 0
  stored : s.stored = 0
  below : ∀ fd ∈ s.opened, fd < limit

def childTable (limit : Nat) : System ChildTable TableEvent where
  init s := s.Starts limit
  step s := s.step limit

def GetPc.held : GetPc → Multiset Nat
  | .prompt | .answered => 0
  | .asking fd | .asked fd | .calling fd | .receiving fd | .received fd => {fd}
  | .storing clientSock storeFd => {clientSock, storeFd}

def ServePc.held : ServePc → Multiset Nat
  | .selecting => 0
  | .sending fd => {fd}

def ChildTable.holders (s : ChildTable) : Multiset Nat :=
  s.main.held + s.server.held + (s.clients : Multiset Nat) + (s.lost : Multiset Nat)

def GetPc.onPeer : GetPc → Nat
  | .calling _ | .receiving _ | .received _ | .storing .. => 1
  | _ => 0

-- `first` is where the run began.
structure ChildTable.Accounted (limit : Nat) (first s : ChildTable) : Prop where
  held : Held s.opened (s.holders + first.opened.val)
  below : ∀ fd ∈ s.opened, fd < limit
  calls : s.calls ≤ s.lost.length + s.main.onPeer
  stored : s.stored = 0 ∨ first.opened.card + s.stored + 1 ≤ limit
  fewer : s.stored ≤ s.lost.length

section Runs

variable {limit : Nat} {first s s' : ChildTable}

theorem starts_accounted (starts : first.Starts limit) : first.Accounted limit first where
  held := by
    simp [Held, ChildTable.holders, starts.main, starts.server, starts.clients, starts.lost, GetPc.held, ServePc.held]
  below := starts.below
  calls := by simp [starts.calls]
  stored := .inl starts.stored
  fewer := by simp [starts.stored]

theorem opens_some {fd : Nat} : s.opens limit fd = some s' ↔
    fd < limit ∧ fd ∉ s.opened ∧ s' = { s with opened := insert fd s.opened } := by
  simp only [ChildTable.opens]
  split_ifs with fresh
  · simp [fresh, eq_comm]
  · simp only [false_iff]
    rintro ⟨low, unused, -⟩
    exact fresh ⟨low, unused⟩

inductive ChildTable.Moves (limit : Nat) (s s' : ChildTable) : Prop where
  | keeps (opened : s'.opened = s.opened) (holders : s'.holders = s.holders)
  | opens (fd : Nat) (low : fd < limit) (unused : fd ∉ s.opened) (opened : s'.opened = insert fd s.opened)
      (holders : s'.holders = fd ::ₘ s.holders)
  | closes (fd : Nat) (opened : s'.opened = s.opened.erase fd) (holders : fd ::ₘ s'.holders = s.holders)

structure ChildTable.Records (s s' : ChildTable) : Prop where
  lost : s.lost <:+ s'.lost
  calls : s'.calls + s.lost.length + s.main.onPeer ≤ s.calls + s'.lost.length + s'.main.onPeer
  stored : s'.stored = s.stored ∨
    s'.stored = s.stored + 1 ∧ s'.lost.length = s.lost.length + 1 ∧ 2 ≤ s.main.held.card

theorem socket_moves {fd : Option Nat} (stepped : s.socket limit fd = some s') : s.Moves limit s' ∧ s.Records s' := by
  simp only [ChildTable.socket] at stepped
  split at stepped
  next =>
    obtain rfl := Option.some.inj stepped
    exact ⟨.keeps rfl rfl, List.suffix_rfl, le_rfl, .inl rfl⟩
  next fd main =>
    obtain ⟨mid, opened, rfl⟩ := Option.map_eq_some_iff.mp stepped
    obtain ⟨low, unused, rfl⟩ := opens_some.mp opened
    refine ⟨.opens fd low unused rfl ?_, List.suffix_rfl, by simp [main, GetPc.onPeer], .inl rfl⟩
    simp [ChildTable.holders, main, GetPc.held, Multiset.singleton_add, Multiset.cons_add]
  next main =>
    obtain rfl := Option.some.inj stepped
    refine ⟨.keeps rfl ?_, List.suffix_rfl, by simp [main, GetPc.onPeer], .inl rfl⟩
    simp [ChildTable.holders, main, GetPc.held]
  next fd main =>
    obtain ⟨mid, opened, rfl⟩ := Option.map_eq_some_iff.mp stepped
    obtain ⟨low, unused, rfl⟩ := opens_some.mp opened
    refine ⟨.opens fd low unused rfl ?_, List.suffix_rfl, by simp [main, GetPc.onPeer]; omega, .inl rfl⟩
    simp [ChildTable.holders, main, GetPc.held, Multiset.singleton_add, Multiset.cons_add]
  next => cases stepped

-- `continue` without a `close`.
theorem lose_moves {fd : Nat} (held : s.main.held = {fd}) : s.Moves limit (s.lose fd) ∧ s.Records (s.lose fd) := by
  refine ⟨.keeps rfl ?_, List.suffix_cons _ _, ?_, .inl rfl⟩
  · have prompt : GetPc.held .prompt = 0 := rfl
    simp only [ChildTable.holders, ChildTable.lose, prompt, held, ← Multiset.cons_coe, ← Multiset.singleton_add,
      zero_add]
    ac_rfl
  · have one : s.main.onPeer ≤ 1 := by cases s.main <;> simp [GetPc.onPeer]
    have prompt : GetPc.onPeer .prompt = 0 := rfl
    simp only [ChildTable.lose, prompt, List.length_cons]
    omega

theorem connect_moves {connects : Bool} (stepped : s.connect connects = some s') : s.Moves limit s' ∧ s.Records s' := by
  simp only [ChildTable.connect] at stepped
  split at stepped
  next fd main =>
    obtain rfl := Option.some.inj stepped
    cases connects with
    | false => exact lose_moves (by rw [main]; rfl)
    | true =>
      refine ⟨.keeps rfl ?_, List.suffix_rfl, by simp [main, GetPc.onPeer], .inl rfl⟩
      simp [ChildTable.holders, main, GetPc.held]
  next fd main =>
    obtain rfl := Option.some.inj stepped
    cases connects with
    | false => exact lose_moves (by rw [main]; rfl)
    | true =>
      refine ⟨.keeps rfl ?_, List.suffix_rfl, by simp [main, GetPc.onPeer], .inl rfl⟩
      simp [ChildTable.holders, main, GetPc.held]
  next => cases stepped

theorem answer_moves {found : Bool} (stepped : s.answer found = some s') : s.Moves limit s' ∧ s.Records s' := by
  simp only [ChildTable.answer] at stepped
  split at stepped
  next fd main =>
    obtain rfl := Option.some.inj stepped
    refine ⟨.closes fd rfl ?_, List.suffix_rfl, ?_, .inl rfl⟩
    · cases found <;>
        simp [ChildTable.holders, ChildTable.close, main, GetPc.held, Multiset.singleton_add, Multiset.cons_add]
    · simp [ChildTable.close, main, GetPc.onPeer]
  next => cases stepped

theorem loop_moves {fails : Bool} (stepped : s.receive fails = some s') : s.Moves limit s' ∧ s.Records s' := by
  simp only [ChildTable.receive] at stepped
  split at stepped
  next fd main =>
    obtain rfl := Option.some.inj stepped
    cases fails with
    | true => exact lose_moves (by rw [main]; rfl)
    | false =>
      refine ⟨.keeps rfl ?_, List.suffix_rfl, by simp [main, GetPc.onPeer], .inl rfl⟩
      simp [ChildTable.holders, main, GetPc.held]
  next => cases stepped

theorem openDest_moves {fd : Option Nat} (stepped : s.openDest limit fd = some s') :
    s.Moves limit s' ∧ s.Records s' := by
  simp only [ChildTable.openDest] at stepped
  split at stepped
  next clientSock main =>
    obtain rfl := Option.some.inj stepped
    exact lose_moves (by rw [main]; rfl)
  next clientSock fd main =>
    obtain ⟨mid, opened, rfl⟩ := Option.map_eq_some_iff.mp stepped
    obtain ⟨low, unused, rfl⟩ := opens_some.mp opened
    refine ⟨.opens fd low unused rfl ?_, List.suffix_rfl, by simp [main, GetPc.onPeer], .inl rfl⟩
    simp only [ChildTable.holders, main, GetPc.held, Multiset.insert_eq_cons, ← Multiset.singleton_add]
    ac_rfl
  next => cases stepped

theorem store_moves {writes : Bool} (stepped : s.store writes = some s') : s.Moves limit s' ∧ s.Records s' := by
  simp only [ChildTable.store] at stepped
  split at stepped
  next clientSock storeFd main =>
    obtain rfl := Option.some.inj stepped
    refine ⟨.closes storeFd rfl ?_, List.suffix_cons _ _, ?_, ?_⟩
    · simp only [ChildTable.holders, ChildTable.lose, ChildTable.close, main, GetPc.held, Multiset.insert_eq_cons,
        ← Multiset.cons_coe, ← Multiset.singleton_add]
      ac_rfl
    · simp only [ChildTable.lose, ChildTable.close, main, GetPc.onPeer, List.length_cons]
      omega
    · cases writes with
      | false => exact .inl rfl
      | true => exact .inr ⟨rfl, rfl, by simp [main, GetPc.held]⟩
  next => cases stepped

theorem accept_moves {fd : Nat} (stepped : s.accept limit fd = some s') : s.Moves limit s' ∧ s.Records s' := by
  simp only [ChildTable.accept] at stepped
  split at stepped
  next server =>
    obtain ⟨mid, opened, rfl⟩ := Option.map_eq_some_iff.mp stepped
    obtain ⟨low, unused, rfl⟩ := opens_some.mp opened
    split_ifs with room
    · refine ⟨.opens fd low unused rfl ?_, List.suffix_rfl, le_rfl, .inl rfl⟩
      simp only [ChildTable.holders, ← Multiset.coe_add, Multiset.coe_singleton, ← Multiset.singleton_add]
      ac_rfl
    · refine ⟨.opens fd low unused rfl ?_, List.suffix_cons _ _, by simp, .inl rfl⟩
      simp only [ChildTable.holders, ← Multiset.cons_coe, ← Multiset.singleton_add]
      ac_rfl
  next => cases stepped

theorem hangUp_moves {clientSock : Nat} (stepped : s.hangUp clientSock = some s') :
    s.Moves limit s' ∧ s.Records s' := by
  simp only [ChildTable.hangUp] at stepped
  split at stepped
  next server =>
    split_ifs at stepped with client
    obtain rfl := Option.some.inj stepped
    refine ⟨.closes clientSock rfl ?_, List.suffix_rfl, le_rfl, .inl rfl⟩
    have clients : (s.clients : Multiset Nat) = {clientSock} + (s.clients.erase clientSock : Multiset Nat) := by
      rw [Multiset.singleton_add, ← Multiset.coe_erase, Multiset.cons_erase (Multiset.mem_coe.mpr client)]
    simp only [ChildTable.holders, ChildTable.close, ← Multiset.singleton_add]
    rw [clients]
    ac_rfl
  next => cases stepped

theorem openData_moves {clientSock fd : Nat} (stepped : s.openData limit clientSock fd = some s') :
    s.Moves limit s' ∧ s.Records s' := by
  simp only [ChildTable.openData] at stepped
  split at stepped
  next server =>
    split_ifs at stepped with client
    obtain ⟨mid, opened, rfl⟩ := Option.map_eq_some_iff.mp stepped
    obtain ⟨low, unused, rfl⟩ := opens_some.mp opened
    refine ⟨.opens fd low unused rfl ?_, List.suffix_rfl, le_rfl, .inl rfl⟩
    simp only [ChildTable.holders, server, ServePc.held, ← Multiset.singleton_add, add_zero]
    ac_rfl
  next => cases stepped

theorem sent_moves (stepped : s.sent = some s') : s.Moves limit s' ∧ s.Records s' := by
  simp only [ChildTable.sent] at stepped
  split at stepped
  next => cases stepped
  next fd server =>
    obtain rfl := Option.some.inj stepped
    refine ⟨.closes fd rfl ?_, List.suffix_rfl, le_rfl, .inl rfl⟩
    simp only [ChildTable.holders, ChildTable.close, server, ServePc.held, ← Multiset.singleton_add, add_zero]
    ac_rfl

theorem step_table {e : TableEvent} (stepped : s.step limit e = some s') : s.Moves limit s' ∧ s.Records s' := by
  cases e with
  | socket fd => exact socket_moves stepped
  | connect connects => exact connect_moves stepped
  | answer found => exact answer_moves stepped
  | receive fails => exact loop_moves stepped
  | openDest fd => exact openDest_moves stepped
  | store writes => exact store_moves stepped
  | accept fd => exact accept_moves stepped
  | hangUp clientSock => exact hangUp_moves stepped
  | openData clientSock fd => exact openData_moves stepped
  | sent => exact sent_moves stepped

theorem moves_held {rest : Multiset Nat} (held : Held s.opened (s.holders + rest)) (moves : s.Moves limit s') :
    Held s'.opened (s'.holders + rest) := by
  cases moves with
  | keeps opened holders => rwa [opened, holders]
  | opens fd low unused opened holders =>
    rw [opened, holders, Multiset.cons_add]
    exact held.opens unused
  | closes fd opened holders =>
    rw [opened]
    rw [← holders, Multiset.cons_add] at held
    exact held.closes

theorem moves_below (below : ∀ fd ∈ s.opened, fd < limit) (moves : s.Moves limit s') :
    ∀ fd ∈ s'.opened, fd < limit := by
  intro fd member
  cases moves with
  | keeps opened holders => exact below fd (opened ▸ member)
  | opens new low unused opened holders =>
    rcases Finset.mem_insert.mp (opened ▸ member) with rfl | old
    · exact low
    · exact below fd old
  | closes gone opened holders => exact below fd (Finset.mem_of_mem_erase (opened ▸ member))

theorem ChildTable.Accounted.card (accounted : first.Accounted limit s) :
    s.main.held.card + s.server.held.card + s.clients.length + s.lost.length + first.opened.card ≤ limit := by
  have bound := accounted.held.card_le accounted.below
  simpa only [ChildTable.holders, Multiset.card_add, Multiset.coe_card, Finset.card_val] using bound

theorem step_accounted (accounted : first.Accounted limit s) {e : TableEvent} (stepped : s.step limit e = some s') :
    first.Accounted limit s' := by
  obtain ⟨moves, records⟩ := step_table stepped
  have room := accounted.card
  have calls := accounted.calls
  have fewer := accounted.fewer
  have longer := records.lost.length_le
  have added := records.calls
  constructor
  case held => exact moves_held accounted.held moves
  case below => exact moves_below accounted.below moves
  case calls => omega
  case stored =>
    rcases records.stored with same | ⟨one, -, both⟩
    · exact same ▸ accounted.stored
    · exact .inr (by omega)
  case fewer => rcases records.stored with same | ⟨one, more, -⟩ <;> omega

theorem run_accounted (starts : first.Starts limit) {events : List TableEvent}
    (ran : (childTable limit).exec first events = some s) : first.Accounted limit s := by
  have preserved (s : ChildTable) (e : TableEvent) (s' : ChildTable) (accounted : first.Accounted limit s)
      (stepped : (childTable limit).step s e = some s') : first.Accounted limit s' := step_accounted accounted stepped
  exact System.exec_invariant preserved (starts_accounted starts) ran

theorem onPeer_held (main : GetPc) : main.onPeer ≤ main.held.card := by
  cases main <;> simp [GetPc.onPeer, GetPc.held]

end Runs

-- Standard input and output, and the listening socket.
def newChild : ChildTable where
  opened := {0, 1, 2, 3}
  main := .prompt
  server := .selecting
  clients := []
  lost := []
  calls := 0
  stored := 0

def oneStored : List TableEvent :=
  [.socket (some 4), .connect true, .answer true, .socket (some 4), .connect true, .receive false,
    .openDest (some 5), .store true]

def oneUnstored : List TableEvent :=
  [.socket (some 5), .connect true, .answer true, .socket (some 5), .connect true, .receive false, .openDest none]

end NetProg.P4
