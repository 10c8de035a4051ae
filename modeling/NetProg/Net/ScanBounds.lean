import Mathlib.Data.Finset.Card
import NetProg.Net.Calls

set_option autoImplicit false

namespace NetProg

open Transition

section Loop

variable {α : Type}

inductive SlotRead where
  -- What `ioctl` says of a client that is ready.
  | ioctlFails
  | closed
  | data
deriving DecidableEq, Repr

inductive PoolEvent (α : Type) where
  | selectFails
  | select (ready : List Int)
  | accept (accepted : Option (Int × α))
  | scan (read : SlotRead)

structure PoolLoop (α : Type) where
  serverSock : Int
  loop : EventLoop α
  -- `FD_SET` of `addClient` has written outside `read_set`.
  fault : Bool
  -- ghosts: the open descriptors, and whether `accept` has failed in this iteration
  isOpen : Int → Bool
  refused : Bool

def PoolLoop.selectFails (s : PoolLoop α) : Option (PoolLoop α) :=
  if s.loop.pc = .selecting then
    let pool := { s.loop.pool with readySet := s.loop.pool.readSet, nready := -1 }
    some { s with loop := { s.loop with pool } }
  else none

def PoolLoop.accept (s : PoolLoop α) : Option (Int × α) → Option (PoolLoop α)
  | none => (s.loop.accept s.serverSock none).map fun loop =>
      { s with loop, refused := s.loop.pool.readySet s.serverSock }
  | some (sockfd, clientAddr) =>
    if 0 < sockfd ∧ s.isOpen sockfd = false then
      (s.loop.accept s.serverSock (some (sockfd, clientAddr))).map fun loop =>
        { s with loop, refused := false
                 fault := s.loop.pool.findSlot.isSome && !inFdSet sockfd
                 isOpen := Function.update s.isOpen sockfd true }
    else none

def PoolLoop.serve (s : PoolLoop α) (i : Slot) (loop : EventLoop α) : SlotRead → PoolLoop α
  | .ioctlFails => { s with loop := { loop with pc := .selecting } }
  | .closed => { s with loop := { loop with pool := loop.pool.closeSlot i }
                        isOpen := Function.update s.isOpen (loop.pool.clientfd i) false }
  | .data => { s with loop }

def PoolLoop.step (s : PoolLoop α) (e : PoolEvent α) : Option (PoolLoop α) :=
  if s.fault then none
  else match e with
    | .selectFails => s.selectFails
    | .select ready => (s.loop.select ready).map fun loop => { s with loop, refused := false }
    | .accept accepted => s.accept accepted
    | .scan read => match s.loop.scan with
      | none => none
      | some (none, loop) => some { s with loop }
      | some (some i, loop) => some (s.serve i loop read)

structure PoolLoop.Starts (s : PoolLoop α) : Prop where
  -- The pool is as it was on the stack but for what `initPool` writes.
  loop : ∃ stack : FdPool α, s.loop = { pool := initPool s.serverSock stack, pc := .selecting }
  fault : s.fault = false
  listens : s.isOpen s.serverSock = true
  refused : s.refused = false

def poolLoop (α : Type) : System (PoolLoop α) (PoolEvent α) where
  init := PoolLoop.Starts
  step := PoolLoop.step

-- The loop of `handleClientFds` reads `clientfd[i]` when its condition holds.
structure PoolLoop.Inside (s : PoolLoop α) : Prop where
  scan : ∀ i, s.loop.pc = .scanning i → (i : Int) ≤ s.loop.pool.maxi ∧ s.loop.pool.nready > 0 → i < fdSetSize
  added : s.fault = false

-- An accepted descriptor that gets a slot is below `FD_SETSIZE`, and behind a failing `accept` the scan of a pool
-- with a large `maxi` does not come to the end of the slots.
def StaysInside (s : PoolLoop α) (e : PoolEvent α) (_ : PoolLoop α) : Prop :=
  match e with
  | .accept (some (sockfd, _)) => s.loop.pool.findSlot.isSome = true → sockfd < fdSetSize
  | .scan read => s.refused = true → fdSetSize ≤ s.loop.pool.maxi → ∀ i : Slot, s.loop.pc = .scanning i →
      i.val + 1 = fdSetSize →
      (0 < s.loop.pool.clientfd i ∧ s.loop.pool.readySet (s.loop.pool.clientfd i) = true) ∧ read = .ioctlFails
  | _ => True

instance (s : PoolLoop α) (e : PoolEvent α) (s' : PoolLoop α) : Decidable (StaysInside s e s') :=
  match e with
  | .accept (some (sockfd, _)) => inferInstanceAs (Decidable (s.loop.pool.findSlot.isSome = true → sockfd < fdSetSize))
  | .accept none => .isTrue trivial
  | .selectFails => .isTrue trivial
  | .select _ => .isTrue trivial
  | .scan read => inferInstanceAs (Decidable (s.refused = true → fdSetSize ≤ s.loop.pool.maxi → ∀ i : Slot,
      s.loop.pc = .scanning i → i.val + 1 = fdSetSize →
      (0 < s.loop.pool.clientfd i ∧ s.loop.pool.readySet (s.loop.pool.clientfd i) = true) ∧ read = .ioctlFails))

def FdPool.isReady (p : FdPool α) (i : Slot) : Prop := 0 < p.clientfd i ∧ p.readySet (p.clientfd i) = true

instance (p : FdPool α) (i : Slot) : Decidable (p.isReady i) :=
  inferInstanceAs (Decidable (0 < p.clientfd i ∧ p.readySet (p.clientfd i) = true))

def FdPool.readyFrom (p : FdPool α) (k : Nat) : Finset Slot := Finset.univ.filter fun i => k ≤ i.val ∧ p.isReady i

theorem mem_readyFrom {p : FdPool α} {k : Nat} {i : Slot} : i ∈ p.readyFrom k ↔ k ≤ i.val ∧ p.isReady i := by
  simp [FdPool.readyFrom]

theorem readyFrom_end (p : FdPool α) {k : Nat} (past : fdSetSize ≤ k) : p.readyFrom k = ∅ := by
  apply Finset.eq_empty_of_forall_notMem
  intro i member
  have low := (mem_readyFrom.mp member).1
  have bound := i.isLt
  omega

theorem readyFrom_skips {p : FdPool α} {i : Slot} (idle : ¬ p.isReady i) : p.readyFrom (i + 1) = p.readyFrom i := by
  ext j
  rw [mem_readyFrom, mem_readyFrom]
  refine and_congr_left fun ready => ⟨fun after => by omega, fun reached => ?_⟩
  have other : j.val ≠ i.val := by
    intro same
    exact idle (Fin.ext same ▸ ready)
  omega

theorem readyFrom_serves {p : FdPool α} {i : Slot} (ready : p.isReady i) :
    (p.readyFrom i).card = (p.readyFrom (i + 1)).card + 1 := by
  have here : i ∈ p.readyFrom i := mem_readyFrom.mpr ⟨le_rfl, ready⟩
  have rest : p.readyFrom (i + 1) = (p.readyFrom i).erase i := by
    ext j
    rw [Finset.mem_erase, mem_readyFrom, mem_readyFrom, ← and_assoc]
    refine and_congr_left fun _ => ⟨fun after => ⟨?_, by omega⟩, fun ⟨other, reached⟩ => ?_⟩
    · rintro rfl
      omega
    · have distinct : j.val ≠ i.val := fun same => other (Fin.ext same)
      omega
  rw [rest, Finset.card_erase_of_mem here]
  have positive := Finset.card_pos.mpr ⟨i, here⟩
  omega

theorem readyFrom_congr {p p' : FdPool α} {k : Nat} (same : ∀ i : Slot, k ≤ i.val → (p'.isReady i ↔ p.isReady i)) :
    p'.readyFrom k = p.readyFrom k := by
  ext i
  rw [mem_readyFrom, mem_readyFrom]
  exact and_congr_right fun reached => same i reached

def one (counted : Bool) : Nat := if counted then 1 else 0

theorem ready_counted {p : FdPool α} {serverSock : Int} {ready : List Int} (sound : p.Sound serverSock)
    (nodup : ready.Nodup) (watched : ∀ fd ∈ ready, p.readSet fd = true)
    (readySet : ∀ fd, p.readySet fd = true ↔ fd ∈ ready) :
    ready.length = one (p.readySet serverSock) + (p.readyFrom 0).card := by
  have image : (p.readyFrom 0).image p.clientfd = ready.toFinset.erase serverSock := by
    ext fd
    simp only [Finset.mem_image, Finset.mem_erase, List.mem_toFinset]
    constructor
    · rintro ⟨i, member, rfl⟩
      obtain ⟨-, occupied, listed⟩ := mem_readyFrom.mp member
      exact ⟨sound.apart i occupied, (readySet _).mp listed⟩
    · rintro ⟨other, listed⟩
      obtain ⟨i, occupied, rfl⟩ := ((sound.readSet fd).mp (watched fd listed)).resolve_left other
      exact ⟨i, mem_readyFrom.mpr ⟨Nat.zero_le _, occupied, (readySet _).mpr listed⟩, rfl⟩
  have card : (p.readyFrom 0).card = (ready.toFinset.erase serverSock).card := by
    rw [← image, Finset.card_image_of_injOn]
    intro i member j _ same
    exact sound.distinct i j (mem_readyFrom.mp member).2.1 same
  rw [card, Finset.card_erase_eq_ite, List.toFinset_card_of_nodup nodup]
  by_cases listed : serverSock ∈ ready
  · have positive := List.length_pos_of_mem listed
    rw [if_pos (List.mem_toFinset.mpr listed), one, if_pos ((readySet _).mpr listed)]
    omega
  · rw [if_neg (mt List.mem_toFinset.mp listed), one, if_neg (mt (readySet _).mp listed), Nat.zero_add]

inductive PoolLoop.Moves (s : PoolLoop α) : PoolEvent α → PoolLoop α → Prop where
  | selectFails (pc : s.loop.pc = .selecting) :
      s.Moves .selectFails
        { s with loop := { s.loop with pool := { s.loop.pool with readySet := s.loop.pool.readSet, nready := -1 } } }
  | selects (ready : List Int) (nodup : ready.Nodup) (watched : ∀ fd ∈ ready, s.loop.pool.readSet fd = true) :
      s.Moves (.select ready)
        { s with loop := { pool := { s.loop.pool with readySet := fun fd => ready.contains fd, nready := ready.length }
                           pc := .accepting }
                 refused := false }
  | nobody (pc : s.loop.pc = .accepting) :
      s.Moves (.accept none)
        { s with loop := { s.loop with pc := .scanning 0 }, refused := s.loop.pool.readySet s.serverSock }
  | accepts (sockfd : Int) (clientAddr : α) (pc : s.loop.pc = .accepting)
      (asked : s.loop.pool.readySet s.serverSock = true) (positive : 0 < sockfd) (closed : s.isOpen sockfd = false) :
      s.Moves (.accept (some (sockfd, clientAddr)))
        { s with loop := { pool := addClient sockfd clientAddr s.loop.pool, pc := .scanning 0 }, refused := false
                 fault := s.loop.pool.findSlot.isSome && !inFdSet sockfd
                 isOpen := Function.update s.isOpen sockfd true }
  | passes (read : SlotRead) (loop : EventLoop α) (scans : s.loop.Scans none loop) :
      s.Moves (.scan read) { s with loop }
  | serves (read : SlotRead) (i : Slot) (loop : EventLoop α) (scans : s.loop.Scans (some i) loop) :
      s.Moves (.scan read) (s.serve i loop read)

theorem PoolLoop.step_moves {s s' : PoolLoop α} {e : PoolEvent α} (stepped : s.step e = some s') :
    s.fault = false ∧ s.Moves e s' := by
  simp only [PoolLoop.step] at stepped
  split_ifs at stepped with fault
  refine ⟨by simpa using fault, ?_⟩
  cases e with
  | selectFails =>
    simp only [PoolLoop.selectFails] at stepped
    split_ifs at stepped with pc
    obtain rfl := Option.some.inj stepped
    exact .selectFails pc
  | select ready =>
    obtain ⟨loop, selected, rfl⟩ := Option.map_eq_some_iff.mp stepped
    obtain ⟨nodup, watched, rfl⟩ := select_ran selected
    exact .selects ready nodup watched
  | accept accepted =>
    cases accepted with
    | none =>
      obtain ⟨loop, ran, rfl⟩ := Option.map_eq_some_iff.mp stepped
      obtain ⟨pc, rfl⟩ := accept_nobody ran
      exact .nobody pc
    | some client =>
      obtain ⟨sockfd, clientAddr⟩ := client
      simp only [PoolLoop.accept] at stepped
      split_ifs at stepped with allowed
      obtain ⟨loop, ran, rfl⟩ := Option.map_eq_some_iff.mp stepped
      obtain ⟨pc, asked, rfl⟩ := accept_somebody ran
      exact .accepts sockfd clientAddr pc asked allowed.1 allowed.2
  | scan read =>
    cases turn : s.loop.scan with
    | none => simp [turn] at stepped
    | some next =>
      obtain ⟨served, loop⟩ := next
      have scans := scan_scans turn
      cases served with
      | none =>
        simp only [turn, Option.some.injEq] at stepped
        exact stepped ▸ .passes read loop scans
      | some i =>
        simp only [turn, Option.some.injEq] at stepped
        exact stepped ▸ .serves read i loop scans

def PoolLoop.Counts (s : PoolLoop α) : Prop :=
  match s.loop.pc with
  | .selecting => True
  | .accepting => s.loop.pool.nready = one (s.loop.pool.readySet s.serverSock) + (s.loop.pool.readyFrom 0).card
  | .scanning k => k ≤ fdSetSize ∧ s.loop.pool.nready = one s.refused + (s.loop.pool.readyFrom k).card

structure PoolLoop.Sound (s : PoolLoop α) : Prop where
  pool : s.loop.pool.Sound s.serverSock
  listens : s.isOpen s.serverSock = true
  held : ∀ i, 0 < s.loop.pool.clientfd i → s.isOpen (s.loop.pool.clientfd i) = true
  -- Nobody is ready who has come since `select`.
  ready : s.loop.pc = .accepting → ∀ fd, s.loop.pool.readySet fd = true → s.isOpen fd = true
  counts : s.Counts

variable {s s' : PoolLoop α} {e : PoolEvent α}

theorem PoolLoop.Sound.select (sound : s.Sound) {ready : List Int} (nodup : ready.Nodup)
    (watched : ∀ fd ∈ ready, s.loop.pool.readSet fd = true) :
    PoolLoop.Sound { s with
      loop := { pool := { s.loop.pool with readySet := fun fd => ready.contains fd, nready := ready.length }
                pc := .accepting }
      refused := false } := by
  have pool := sound.pool.regroup (fun fd => ready.contains fd) ready.length
  refine ⟨pool, sound.listens, sound.held, fun _ fd listed => ?_, ?_⟩
  · have member : fd ∈ ready := by simpa using listed
    rcases (sound.pool.readSet fd).mp (watched fd member) with rfl | ⟨i, occupied, rfl⟩
    · exact sound.listens
    · exact sound.held i occupied
  · have count := ready_counted pool nodup watched fun fd => by simp
    exact (congrArg Int.ofNat count).trans (Int.natCast_add _ _)

theorem PoolLoop.Sound.accepts (sound : s.Sound) {sockfd : Int} {clientAddr : α} (pc : s.loop.pc = .accepting)
    (asked : s.loop.pool.readySet s.serverSock = true) (positive : 0 < sockfd) (closed : s.isOpen sockfd = false) :
    PoolLoop.Sound { s with
      loop := { pool := addClient sockfd clientAddr s.loop.pool, pc := .scanning 0 }, refused := false
      fault := s.loop.pool.findSlot.isSome && !inFdSet sockfd
      isOpen := Function.update s.isOpen sockfd true } := by
  have other : sockfd ≠ s.serverSock := by
    rintro rfl
    exact absurd sound.listens (by simp [closed])
  have unused (i : Slot) : s.loop.pool.clientfd i ≠ sockfd := by
    rintro rfl
    exact absurd (sound.held i positive) (by simp [closed])
  have added := addClient_added sockfd clientAddr s.loop.pool
  obtain ⟨nready, readySet⟩ := added.counts
  have counts := sound.counts
  simp only [PoolLoop.Counts, pc, one, if_pos asked] at counts
  constructor
  case pool => exact sound.pool.added positive other unused added
  case listens =>
    simp only [Function.update_of_ne other.symm]
    exact sound.listens
  case held =>
    intro i occupied
    rcases added.cases i with ⟨same, -⟩ | ⟨-, new, -⟩
    · simp only [same] at occupied ⊢
      rw [Function.update_of_ne (unused i)]
      exact sound.held i occupied
    · simp only [new, Function.update_self]
  case ready => exact fun impossible => nomatch impossible
  case counts =>
    refine ⟨Nat.zero_le _, ?_⟩
    have same : (addClient sockfd clientAddr s.loop.pool).readyFrom 0 = s.loop.pool.readyFrom 0 := by
      refine readyFrom_congr fun i _ => ?_
      simp only [FdPool.isReady, readySet]
      rcases added.cases i with ⟨same, -⟩ | ⟨free, new, -⟩
      · rw [same]
      · -- the client that has just been accepted is not ready
        have idle : s.loop.pool.readySet sockfd ≠ true := fun listed =>
          absurd (sound.ready pc sockfd listed) (by simp [closed])
        rw [new]
        exact iff_of_false (fun ready => idle ready.2) fun ready => by omega
    simp only [same, nready, one, Bool.false_eq_true, if_false]
    omega

theorem PoolLoop.Sound.serves (sound : s.Sound) {i : Slot} {loop : EventLoop α} (scans : s.loop.Scans (some i) loop)
    (read : SlotRead) : (s.serve i loop read).Sound := by
  cases scans with
  | serves _ pc more occupied ready =>
    have counts := sound.counts
    simp only [PoolLoop.Counts, pc] at counts
    have one := readyFrom_serves (p := s.loop.pool) ⟨occupied, ready⟩
    have inside := i.isLt
    cases read with
    | ioctlFails =>
      refine ⟨sound.pool.regroup _ _, sound.listens, sound.held, fun impossible => ?_, trivial⟩
      cases impossible
    | data =>
      refine ⟨sound.pool.regroup _ _, sound.listens, sound.held, fun impossible => ?_, inside, ?_⟩
      · cases impossible
      have same : FdPool.readyFrom { s.loop.pool with nready := s.loop.pool.nready - 1 } (i + 1) =
          s.loop.pool.readyFrom (i + 1) := rfl
      simp only [PoolLoop.serve, same]
      omega
    | closed =>
      have later (j : Slot) (after : i.val + 1 ≤ j.val) : j ≠ i := by
        rintro rfl
        omega
      constructor
      case pool => exact (sound.pool.regroup _ _).close occupied
      case listens =>
        simp only [PoolLoop.serve, Function.update_of_ne (Ne.symm (sound.pool.apart i occupied))]
        exact sound.listens
      case held =>
        intro j positive
        by_cases here : j = i
        · subst here
          simp [PoolLoop.serve, FdPool.closeSlot] at positive
        · simp only [PoolLoop.serve, FdPool.closeSlot, Function.update_of_ne here] at positive ⊢
          rw [Function.update_of_ne fun same => here (sound.pool.distinct j i positive same)]
          exact sound.held j positive
      case ready =>
        intro impossible
        cases impossible
      case counts =>
        refine ⟨inside, ?_⟩
        have same : FdPool.readyFrom (FdPool.closeSlot { s.loop.pool with nready := s.loop.pool.nready - 1 } i) (i + 1) =
            s.loop.pool.readyFrom (i + 1) := by
          refine readyFrom_congr fun j after => ?_
          simp only [FdPool.isReady, FdPool.closeSlot, Function.update_of_ne (later j after)]
        simp only [PoolLoop.serve, same]
        simp only [FdPool.closeSlot]
        omega

theorem PoolLoop.Sound.passes (sound : s.Sound) {loop : EventLoop α} (scans : s.loop.Scans none loop) :
    PoolLoop.Sound { s with loop } := by
  cases scans with
  | skips i pc idle =>
    have counts := sound.counts
    simp only [PoolLoop.Counts, pc] at counts
    refine ⟨sound.pool, sound.listens, sound.held, fun impossible => (nomatch impossible), i.isLt, ?_⟩
    have quiet : ¬ s.loop.pool.isReady i := by
      rintro ⟨occupied, ready⟩
      exact absurd ready (by simp [idle occupied])
    simp only [readyFrom_skips quiet]
    exact counts.2
  | ends k pc done =>
    exact ⟨sound.pool, sound.listens, sound.held, fun impossible => (nomatch impossible), trivial⟩

theorem PoolLoop.Moves.sound (moves : s.Moves e s') (sound : s.Sound) : s'.Sound := by
  cases moves with
  | selectFails pc =>
    refine ⟨sound.pool.regroup _ _, sound.listens, sound.held, fun impossible => ?_, ?_⟩
    · exact absurd (pc.symm.trans impossible) (by decide)
    · simp only [PoolLoop.Counts, pc]
  | selects ready nodup watched => exact sound.select nodup watched
  | nobody pc =>
    have counts := sound.counts
    simp only [PoolLoop.Counts, pc] at counts
    exact ⟨sound.pool, sound.listens, sound.held, fun impossible => (nomatch impossible), Nat.zero_le _, counts⟩
  | accepts sockfd clientAddr pc asked positive closed => exact sound.accepts pc asked positive closed
  | passes read loop scans => exact sound.passes scans
  | serves read i loop scans => exact sound.serves scans read

theorem poolLoop_sound (reached : (poolLoop α).Reachable s) : s.Sound := by
  apply reached.invariant
  · intro s starts
    obtain ⟨stack, loop⟩ := starts.loop
    constructor
    case pool => exact loop ▸ initPool_sound s.serverSock stack
    case listens => exact starts.listens
    case held => simp [loop, initPool]
    case ready => simp [loop]
    case counts => simp [PoolLoop.Counts, loop]
  · exact fun s e s' _ sound _ stepped => (PoolLoop.step_moves stepped).2.sound sound

theorem inside_iff (sound : s.Sound) : s.Inside ↔ s.fault = false ∧
    ¬ (s.loop.pc = .scanning fdSetSize ∧ s.refused = true ∧ fdSetSize ≤ s.loop.pool.maxi) := by
  have counts := sound.counts
  constructor
  · rintro ⟨scan, added⟩
    refine ⟨added, fun ⟨pc, refused, large⟩ => ?_⟩
    simp only [PoolLoop.Counts, pc, one, if_pos refused] at counts
    exact absurd (scan _ pc ⟨large, by omega⟩) (lt_irrefl _)
  · rintro ⟨added, quiet⟩
    refine ⟨fun k pc more => ?_, added⟩
    simp only [PoolLoop.Counts, pc] at counts
    by_contra past
    obtain rfl : k = fdSetSize := by omega
    by_cases refused : s.refused = true
    · exact quiet ⟨pc, refused, more.1⟩
    · rw [readyFrom_end _ le_rfl, one, if_neg refused, Finset.card_empty] at counts
      omega

theorem staysInside_scan {read : SlotRead} {i : Slot} (pc : s.loop.pc = .scanning i) :
    StaysInside s (.scan read) s' ↔ (i.val + 1 = fdSetSize ∧ s.refused = true ∧ fdSetSize ≤ s.loop.pool.maxi →
      s.loop.pool.isReady i ∧ read = .ioctlFails) := by
  simp only [StaysInside, pc, LoopPc.scanning.injEq]
  constructor
  · exact fun stays ⟨last, refused, large⟩ => stays refused large i rfl last
  · intro stays refused large j same last
    obtain rfl := Fin.ext same
    exact stays ⟨last, refused, large⟩

theorem scanned_inside (sound : s'.Sound) (fault : s'.fault = false) {i : Slot} (pc : s'.loop.pc = .scanning (i + 1))
    (refused : s'.refused = s.refused) (maxi : s'.loop.pool.maxi = s.loop.pool.maxi) :
    s'.Inside ↔ ¬ (i.val + 1 = fdSetSize ∧ s.refused = true ∧ fdSetSize ≤ s.loop.pool.maxi) := by
  rw [inside_iff sound, pc, refused, maxi, LoopPc.scanning.injEq]
  exact and_iff_right fault

theorem PoolLoop.Moves.inside (moves : s.Moves e s') (fault : s.fault = false) (sound : s.Sound) :
    s'.Inside ↔ StaysInside s e s' := by
  have later := moves.sound sound
  have quiet (safe : s'.fault = false) (pc : s'.loop.pc = .selecting ∨ s'.loop.pc = .accepting ∨
      s'.loop.pc = .scanning 0) : s'.Inside := by
    rw [inside_iff later]
    refine ⟨safe, fun behind => ?_⟩
    rw [behind.1] at pc
    revert pc
    decide
  cases moves with
  | selectFails pc => exact iff_of_true (quiet fault (.inl pc)) trivial
  | selects ready nodup watched => exact iff_of_true (quiet fault (.inr (.inl rfl))) trivial
  | nobody pc => exact iff_of_true (quiet fault (.inr (.inr rfl))) trivial
  | accepts sockfd clientAddr pc asked positive closed =>
    rw [inside_iff later]
    simp only [StaysInside, LoopPc.scanning.injEq, Bool.and_eq_false_iff, Bool.not_eq_false', inFdSet, decide_eq_true_eq]
    cases s.loop.pool.findSlot.isSome <;> simp [positive.le]
  | passes read loop scans =>
    cases scans with
    | skips i pc idle =>
      rw [staysInside_scan pc, scanned_inside later fault rfl rfl rfl]
      refine ⟨fun quiet last => absurd last quiet, fun stays last => ?_⟩
      obtain ⟨⟨occupied, ready⟩, -⟩ := stays last
      exact absurd ready (by simp [idle occupied])
    | ends k pc done =>
      refine iff_of_true (quiet fault (.inl rfl)) fun refused large i here last => ?_
      -- the listening socket is still counted, so the scan does not end in front of the last slot
      have counts := sound.counts
      simp only [PoolLoop.Counts, pc, one, if_pos refused] at counts
      obtain rfl := LoopPc.scanning.inj (pc.symm.trans here)
      omega
  | serves read i loop scans =>
    cases scans with
    | serves _ pc more occupied ready =>
      rw [staysInside_scan pc]
      cases read with
      | ioctlFails => exact iff_of_true (quiet fault (.inl rfl)) fun _ => ⟨⟨occupied, ready⟩, rfl⟩
      | closed | data =>
        rw [scanned_inside later fault rfl rfl rfl]
        refine ⟨fun quiet last => absurd last quiet, fun stays last => ?_⟩
        cases (stays last).2

theorem scan_stays_inside (α : Type) (s : PoolLoop α) (reached : (poolLoop α).ReachableWhile StaysInside s) :
    s.Inside ∧ ∀ e s', (poolLoop α).step s e = some s' → (s'.Inside ↔ StaysInside s e s') := by
  have steps (s : PoolLoop α) (reached : (poolLoop α).ReachableWhile StaysInside s) (e : PoolEvent α) (s' : PoolLoop α)
      (stepped : (poolLoop α).step s e = some s') : s'.Inside ↔ StaysInside s e s' := by
    obtain ⟨fault, moves⟩ := PoolLoop.step_moves stepped
    exact moves.inside fault (poolLoop_sound reached.reachable)
  refine ⟨?_, steps s reached⟩
  cases reached with
  | initial s starts =>
    obtain ⟨stack, loop⟩ := starts.loop
    exact ⟨fun i pc => by simp [loop] at pc, starts.fault⟩
  | next s₀ e _ before allowed stepped => exact (steps s₀ before e s stepped).mpr allowed

end Loop

def largeMaxi : PoolLoop Nat where
  serverSock := 3
  loop := { pool := initPool 3 { onStack with maxi := 5000 }, pc := .selecting }
  fault := false
  isOpen := fun fd => fd == 3
  refused := false

theorem largeMaxi_starts : largeMaxi.Starts := ⟨⟨_, rfl⟩, rfl, rfl, rfl⟩

theorem one_client_scanned : ∃ s : PoolLoop Nat, s.loop.pool.maxi = 5000 ∧ s.loop.pool.clientfd 0 = 4 ∧
    s.loop.pc = .scanning 1 ∧ s.Inside := by
  obtain ⟨s, ran, maxi, slot, pc⟩ : ∃ s, (poolLoop Nat).execWhile StaysInside largeMaxi
      [.select [3], .accept (some (4, 100)), .scan .data, .select [4], .accept none, .scan .data] = some s ∧
      s.loop.pool.maxi = 5000 ∧ s.loop.pool.clientfd 0 = 4 ∧ s.loop.pc = .scanning 1 := ⟨_, rfl, rfl, rfl, rfl⟩
  have reached := System.execWhile_reachable (.initial _ largeMaxi_starts) ran
  exact ⟨s, maxi, slot, pc, (scan_stays_inside Nat s reached).1⟩

theorem empty_scanned {s : PoolLoop Nat} (reached : (poolLoop Nat).Reachable s) (fault : s.fault = false)
    (pc : s.loop.pc = .scanning 0) (empty : ∀ i, s.loop.pool.clientfd i = -1) (left : s.loop.pool.nready > 0)
    (large : fdSetSize ≤ s.loop.pool.maxi) {k : Nat} (bound : k ≤ fdSetSize) :
    (poolLoop Nat).Reachable { s with loop := { s.loop with pc := .scanning k } } := by
  induction k with
  | zero =>
    rw [← pc]
    exact reached
  | succ k ih =>
    refine .next _ (.scan .data) _ (ih (by omega)) trivial ?_
    have more : (k : Int) ≤ s.loop.pool.maxi ∧ s.loop.pool.nready > 0 := ⟨by omega, left⟩
    have inside : k < fdSetSize := by omega
    have idle : ¬ (s.loop.pool.clientfd ⟨k, inside⟩ > 0 ∧ s.loop.pool.readySet (s.loop.pool.clientfd ⟨k, inside⟩) = true) := by
      rw [empty]
      exact fun ready => absurd ready.1 (by decide)
    simp only [poolLoop, PoolLoop.step, fault, EventLoop.scan, Bool.false_eq_true, if_false, if_pos more, dif_pos inside,
      if_neg idle]

-- `accept` fails in the first iteration, and the scan reads `clientfd[1024]`.
theorem scan_leaves_pool : ¬ ∀ (α : Type) (s : PoolLoop α), (poolLoop α).Reachable s → s.Inside := by
  intro claimed
  obtain ⟨s, ran, fault, pc, empty, left, maxi⟩ : ∃ s, (poolLoop Nat).exec largeMaxi [.select [3], .accept none] = some s ∧
      s.fault = false ∧ s.loop.pc = .scanning 0 ∧ s.loop.pool.clientfd = (fun _ => -1) ∧ s.loop.pool.nready = 1 ∧
      s.loop.pool.maxi = 5000 := ⟨_, rfl, rfl, rfl, rfl, rfl, rfl⟩
  have large : fdSetSize ≤ s.loop.pool.maxi := by
    rw [maxi]
    decide
  have past := empty_scanned (System.exec_reachable (.initial _ largeMaxi_starts) ran) fault pc (fun i => by rw [empty])
    (by omega) large le_rfl
  have inside := (claimed Nat _ past).scan fdSetSize rfl ⟨large, by simp only [left]; decide⟩
  exact absurd inside (lt_irrefl _)

end NetProg
