import NetProg.Net.Pool
import NetProg.Shared.Transition

set_option autoImplicit false

namespace NetProg

open Transition

section Calls

variable {α : Type}

inductive PoolCall (α : Type) where
  | addClient (sockfd : Int) (clientAddr : α)
  | close (i : Slot)

structure PoolCalls (α : Type) where
  pool : FdPool α
  -- `FD_SET` has written outside `read_set`.
  fault : Bool
  -- ghosts: the open descriptors, and the address that `addClient` got with a descriptor last
  isOpen : Int → Bool
  given : Int → Option α

def inFdSet (fd : Int) : Bool := 0 ≤ fd ∧ fd < fdSetSize

def PoolCalls.addClient (s : PoolCalls α) (sockfd : Int) (clientAddr : α) : Option (PoolCalls α) :=
  if 0 < sockfd ∧ s.isOpen sockfd = false then
    some { pool := NetProg.addClient sockfd clientAddr s.pool
           fault := s.pool.findSlot.isSome && !inFdSet sockfd
           isOpen := Function.update s.isOpen sockfd true
           given := Function.update s.given sockfd (some clientAddr) }
  else none

def PoolCalls.close (s : PoolCalls α) (i : Slot) : Option (PoolCalls α) :=
  if 0 < s.pool.clientfd i then
    some { s with pool := s.pool.closeSlot i, isOpen := Function.update s.isOpen (s.pool.clientfd i) false }
  else none

def PoolCalls.step (s : PoolCalls α) (c : PoolCall α) : Option (PoolCalls α) :=
  if s.fault then none
  else match c with
    | .addClient sockfd clientAddr => s.addClient sockfd clientAddr
    | .close i => s.close i

structure PoolCalls.Starts (sockfd : Int) (s : PoolCalls α) : Prop where
  pool : ∃ stack : FdPool α, s.pool = initPool sockfd stack
  fault : s.fault = !inFdSet sockfd
  listens : s.isOpen sockfd = true

def poolCalls (α : Type) (sockfd : Int) : System (PoolCalls α) (PoolCall α) where
  init := PoolCalls.Starts sockfd
  step := PoolCalls.step

def PoolCalls.Watched (s : PoolCalls α) (fd : Int) : Prop :=
  -- A member of `read_set`, which has `FD_SETSIZE` bits.
  inFdSet fd = true ∧ s.pool.readSet fd = true

structure PoolCalls.InOrder (sockfd : Int) (s : PoolCalls α) : Prop where
  readSet : ∀ fd, s.Watched fd ↔ fd = sockfd ∨ ∃ i, 0 < s.pool.clientfd i ∧ s.pool.clientfd i = fd
  distinct : ∀ i j, 0 < s.pool.clientfd i → s.pool.clientfd i = s.pool.clientfd j → i = j
  maxfd : ∀ fd, s.Watched fd → fd ≤ s.pool.maxfd
  maxi : ∀ i, 0 < s.pool.clientfd i → (i : Int) ≤ s.pool.maxi
  clientAddr : ∀ i, 0 < s.pool.clientfd i → s.given (s.pool.clientfd i) = some (s.pool.clientAddr i)

-- A descriptor that gets a slot has a bit in `read_set`.
def FitsFdSet (s : PoolCalls α) (c : PoolCall α) (_ : PoolCalls α) : Prop :=
  match c with
  | .addClient sockfd _ => s.pool.findSlot.isSome = true → sockfd < fdSetSize
  | .close _ => True

instance (s : PoolCalls α) (c : PoolCall α) (s' : PoolCalls α) : Decidable (FitsFdSet s c s') :=
  match c with
  | .addClient sockfd _ => inferInstanceAs (Decidable (s.pool.findSlot.isSome = true → sockfd < fdSetSize))
  | .close _ => inferInstanceAs (Decidable True)

structure PoolCalls.Sound (sockfd : Int) (s : PoolCalls α) : Prop where
  pool : s.pool.Sound sockfd
  listens : s.isOpen sockfd = true
  held : ∀ i, 0 < s.pool.clientfd i → s.isOpen (s.pool.clientfd i) = true
  given : ∀ i, 0 < s.pool.clientfd i → s.given (s.pool.clientfd i) = some (s.pool.clientAddr i)

variable {sockfd : Int} {s s' : PoolCalls α} {c : PoolCall α}

theorem findSlot_isSome {p : FdPool α} {i : Slot} (free : p.clientfd i < 0) : p.findSlot.isSome = true := by
  have stops : p.isFree i = true := by simpa [FdPool.isFree] using free
  obtain ⟨j, found⟩ := Probing.scan_finds p.isFree 0 stops
  exact Option.isSome_iff_exists.mpr ⟨j, found⟩

theorem PoolCalls.Starts.sound (starts : s.Starts sockfd) : s.Sound sockfd := by
  obtain ⟨stack, pool⟩ := starts.pool
  refine ⟨pool ▸ initPool_sound sockfd stack, starts.listens, fun i occupied => ?_, fun i occupied => ?_⟩
  · simp [pool, initPool] at occupied
  · simp [pool, initPool] at occupied

theorem addClient_calls {fd : Int} {clientAddr : α} (stepped : s.addClient fd clientAddr = some s') :
    0 < fd ∧ s.isOpen fd = false ∧ s.pool.Added fd clientAddr s'.pool ∧
      s'.fault = (s.pool.findSlot.isSome && !inFdSet fd) ∧ s'.isOpen = Function.update s.isOpen fd true ∧
      s'.given = Function.update s.given fd (some clientAddr) := by
  simp only [PoolCalls.addClient] at stepped
  split_ifs at stepped with allowed
  obtain rfl := Option.some.inj stepped
  exact ⟨allowed.1, allowed.2, addClient_added fd clientAddr s.pool, rfl, rfl, rfl⟩

theorem addClient_takes {fd : Int} {clientAddr : α} (stepped : s.addClient fd clientAddr = some s')
    (found : s.pool.findSlot.isSome = true) : ∃ i, s'.pool.clientfd i = fd := by
  obtain ⟨i, here⟩ := Option.isSome_iff_exists.mp found
  simp only [PoolCalls.addClient] at stepped
  split_ifs at stepped
  obtain rfl := Option.some.inj stepped
  have slot : FdPool.findSlot { s.pool with nready := s.pool.nready - 1 } = some i := here
  refine ⟨i, ?_⟩
  simp [NetProg.addClient, slot, FdPool.takeSlot]

theorem close_calls {i : Slot} (stepped : s.close i = some s') :
    0 < s.pool.clientfd i ∧ s'.pool = s.pool.closeSlot i ∧ s'.fault = s.fault ∧
      s'.isOpen = Function.update s.isOpen (s.pool.clientfd i) false ∧ s'.given = s.given := by
  simp only [PoolCalls.close] at stepped
  split_ifs at stepped with occupied
  obtain rfl := Option.some.inj stepped
  exact ⟨occupied, rfl, rfl, rfl, rfl⟩

theorem PoolCalls.Sound.addClient (sound : s.Sound sockfd) {fd : Int} {clientAddr : α}
    (stepped : s.addClient fd clientAddr = some s') : s'.Sound sockfd := by
  obtain ⟨positive, closed, added, -, opened, given⟩ := addClient_calls stepped
  have other : fd ≠ sockfd := by
    rintro rfl
    exact absurd sound.listens (by simp [closed])
  have unused (i : Slot) : s.pool.clientfd i ≠ fd := by
    rintro rfl
    exact absurd (sound.held i positive) (by simp [closed])
  constructor
  case pool => exact sound.pool.added positive other unused added
  case listens =>
    rw [opened, Function.update_of_ne other.symm]
    exact sound.listens
  case held =>
    intro i occupied
    rcases added.cases i with ⟨same, -⟩ | ⟨-, new, -⟩
    · rw [same] at occupied ⊢
      rw [opened, Function.update_of_ne (unused i)]
      exact sound.held i occupied
    · rw [new, opened, Function.update_self]
  case given =>
    intro i occupied
    rcases added.cases i with ⟨same, addr⟩ | ⟨-, new, addr⟩
    · rw [same] at occupied ⊢
      rw [given, Function.update_of_ne (unused i), addr]
      exact sound.given i occupied
    · rw [new, given, Function.update_self, addr]

theorem PoolCalls.Sound.close (sound : s.Sound sockfd) {i : Slot} (stepped : s.close i = some s') : s'.Sound sockfd := by
  obtain ⟨occupied, pool, -, closed, given⟩ := close_calls stepped
  have apart {j : Slot} (positive : 0 < s'.pool.clientfd j) :
      s'.pool.clientfd j = s.pool.clientfd j ∧ s.pool.clientfd j ≠ s.pool.clientfd i := by
    simp only [pool, FdPool.closeSlot, Function.update_apply] at positive ⊢
    split_ifs at positive ⊢ with here
    · omega
    · exact ⟨rfl, fun same => here (sound.pool.distinct j i positive same)⟩
  constructor
  case pool =>
    rw [pool]
    exact sound.pool.close occupied
  case listens =>
    rw [closed, Function.update_of_ne (Ne.symm (sound.pool.apart i occupied))]
    exact sound.listens
  case held =>
    intro j positive
    obtain ⟨same, other⟩ := apart positive
    rw [same] at positive ⊢
    rw [closed, Function.update_of_ne other]
    exact sound.held j positive
  case given =>
    intro j positive
    obtain ⟨same, -⟩ := apart positive
    rw [same] at positive ⊢
    rw [given, pool]
    exact sound.given j positive

theorem poolCalls_sound (reached : (poolCalls α sockfd).Reachable s) : s.Sound sockfd := by
  apply reached.invariant
  · exact fun s starts => PoolCalls.Starts.sound starts
  · intro s c s' _ sound _ stepped
    simp only [poolCalls, PoolCalls.step] at stepped
    split_ifs at stepped
    cases c with
    | addClient fd clientAddr => exact sound.addClient stepped
    | close i => exact sound.close stepped

theorem fits_small (fits : FitsFdSet s c s') (stepped : s.step c = some s')
    (small : ∀ i, 0 < s.pool.clientfd i → s.pool.clientfd i < fdSetSize) :
    ∀ i, 0 < s'.pool.clientfd i → s'.pool.clientfd i < fdSetSize := by
  simp only [PoolCalls.step] at stepped
  split_ifs at stepped
  intro i occupied
  cases c with
  | addClient fd clientAddr =>
    obtain ⟨-, -, added, -⟩ := addClient_calls stepped
    rcases added.cases i with ⟨same, -⟩ | ⟨free, new, -⟩
    · rw [same] at occupied ⊢
      exact small i occupied
    · rw [new]
      exact fits (findSlot_isSome free)
  | close j =>
    obtain ⟨-, pool, -⟩ := close_calls stepped
    simp only [pool, FdPool.closeSlot, Function.update_apply] at occupied ⊢
    split_ifs at occupied ⊢
    · omega
    · exact small i occupied

theorem PoolCalls.Sound.inOrder (sound : s.Sound sockfd) (listens : inFdSet sockfd = true)
    (small : ∀ i, 0 < s.pool.clientfd i → s.pool.clientfd i < fdSetSize) : s.InOrder sockfd where
  readSet fd := by
    rw [Watched, sound.pool.readSet]
    refine and_iff_right_of_imp ?_
    rintro (rfl | ⟨i, occupied, rfl⟩)
    · exact listens
    · simpa [inFdSet, occupied.le] using small i occupied
  distinct := sound.pool.distinct
  maxfd fd watched := sound.pool.maxfd fd watched.2
  maxi := sound.pool.used
  clientAddr := sound.given

theorem inOrder_fits (order : s'.InOrder sockfd) (stepped : s.step c = some s') : FitsFdSet s c s' := by
  simp only [PoolCalls.step] at stepped
  split_ifs at stepped
  cases c with
  | close i => exact trivial
  | addClient fd clientAddr =>
    intro found
    obtain ⟨positive, -⟩ := addClient_calls stepped
    obtain ⟨i, slot⟩ := addClient_takes stepped found
    obtain ⟨inside, -⟩ := (order.readSet fd).mpr (.inr ⟨i, slot ▸ positive, slot⟩)
    simp only [inFdSet, decide_eq_true_eq] at inside
    exact inside.2

theorem pool_in_order (α : Type) (sockfd : Int) (listens : inFdSet sockfd = true) (s : PoolCalls α)
    (reached : (poolCalls α sockfd).ReachableWhile FitsFdSet s) :
    s.InOrder sockfd ∧
    (∀ fd clientAddr, (∀ i, 0 < s.pool.clientfd i) →
      addClient fd clientAddr s.pool = { s.pool with nready := s.pool.nready - 1 }) ∧
    ∀ c s', (poolCalls α sockfd).step s c = some s' → (s'.InOrder sockfd ↔ FitsFdSet s c s') := by
  have small : ∀ i, 0 < s.pool.clientfd i → s.pool.clientfd i < fdSetSize := by
    apply reached.invariant
    · intro s starts i occupied
      obtain ⟨stack, pool⟩ := starts.pool
      simp [pool, initPool] at occupied
    · exact fun s c s' _ small fits stepped => fits_small fits stepped small
  refine ⟨(poolCalls_sound reached.reachable).inOrder listens small, fun fd clientAddr full => ?_,
    fun c s' stepped => ?_⟩
  · have added := addClient_added fd clientAddr s.pool
    generalize addClient fd clientAddr s.pool = p at added
    cases added with
    | full => rfl
    | taken i free => exact absurd (full i) (by omega)
  · refine ⟨fun order => inOrder_fits order stepped, fun fits => ?_⟩
    exact (poolCalls_sound (.next s c s' reached.reachable trivial stepped)).inOrder listens
      (fits_small fits stepped small)

end Calls

def onStack : FdPool Nat where
  maxfd := 0
  readSet := fun _ => false
  clientfd := fun _ => 0
  clientAddr := fun _ => 0
  maxi := -7
  readySet := fun _ => false
  nready := 0

def emptyPool : PoolCalls Nat where
  pool := initPool 3 onStack
  fault := false
  isOpen := fun fd => fd == 3
  given := fun _ => none

theorem emptyPool_starts : emptyPool.Starts 3 := ⟨⟨onStack, rfl⟩, rfl, rfl⟩

theorem reused_slot_in_order : ∃ s : PoolCalls Nat, s.pool.clientfd 0 = 6 ∧ s.pool.clientfd 1 = 5 ∧
    s.pool.clientAddr 0 = 102 ∧ s.InOrder 3 := by
  obtain ⟨s, ran, first, second, addr⟩ : ∃ s, (poolCalls Nat 3).execWhile FitsFdSet emptyPool
      [.addClient 4 100, .addClient 5 101, .close 0, .addClient 6 102] = some s ∧ s.pool.clientfd 0 = 6 ∧
      s.pool.clientfd 1 = 5 ∧ s.pool.clientAddr 0 = 102 := ⟨_, rfl, rfl, rfl, rfl⟩
  have reached := System.execWhile_reachable (.initial _ emptyPool_starts) ran
  exact ⟨s, first, second, addr, (pool_in_order Nat 3 rfl s reached).1⟩

-- The descriptor 1024 gets a slot, and no bit in `read_set`.
theorem large_descriptor_out_of_order : ¬ ∀ (α : Type) (sockfd : Int) (s : PoolCalls α), inFdSet sockfd = true →
    (poolCalls α sockfd).Reachable s → s.InOrder sockfd := by
  intro claimed
  obtain ⟨s, ran, slot⟩ : ∃ s, (poolCalls Nat 3).exec emptyPool [.addClient 1024 100] = some s ∧
      s.pool.clientfd 0 = 1024 := ⟨_, rfl, rfl⟩
  have order := claimed Nat 3 s rfl (System.exec_reachable (.initial _ emptyPool_starts) ran)
  have watched := (order.readSet 1024).mpr (.inr ⟨0, by rw [slot]; decide, slot⟩)
  exact absurd watched.1 (by decide)

end NetProg
