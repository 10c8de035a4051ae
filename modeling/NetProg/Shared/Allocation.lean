import Mathlib.Logic.Function.Basic
import NetProg.Shared.Memory

set_option autoImplicit false

namespace Memory

structure Buffer where
  size : Nat
  bytes : Block

def realloc (old : Option Buffer) (size : Nat) (memory : Option Block) : Option Buffer :=
  match old with
  | none => memory.map fun fresh => { size, bytes := fresh }
  | some b =>
    -- a block that shrinks to nothing is freed
    if size = 0 then none
    else memory.map fun fresh => { size, bytes := fun i => if i < b.size then b.bytes i else fresh i }

theorem realloc_size {old : Option Buffer} {size : Nat} {memory : Option Block} {b : Buffer}
    (grown : realloc old size memory = some b) : b.size = size := by
  cases old with
  | none =>
    obtain ⟨fresh, -, rfl⟩ := Option.map_eq_some_iff.mp grown
    rfl
  | some held =>
    simp only [realloc] at grown
    split_ifs at grown
    obtain ⟨fresh, -, rfl⟩ := Option.map_eq_some_iff.mp grown
    rfl

theorem realloc_keeps {old : Option Buffer} {bytes : List UInt8} (null : old = none → bytes = [])
    (block : ∀ b, old = some b → bytes.length ≤ b.size ∧ load b.bytes 0 bytes.length = bytes) {size : Nat}
    {memory : Option Block} {b : Buffer} (grown : realloc old size memory = some b) :
    b.size = size ∧ (bytes.length ≤ size → load b.bytes 0 bytes.length = bytes) := by
  refine ⟨realloc_size grown, fun room => ?_⟩
  cases old with
  | none =>
    obtain rfl := null rfl
    rfl
  | some held =>
    obtain ⟨inside, same⟩ := block held rfl
    simp only [realloc] at grown
    split_ifs at grown
    obtain ⟨fresh, -, rfl⟩ := Option.map_eq_some_iff.mp grown
    refine (load_congr fun i _ high => ?_).trans same
    exact if_pos (by omega)

abbrev Heap := Nat → Option Buffer

def Heap.deref (heap : Heap) (ptr : Nat) : Option Buffer := if ptr = 0 then none else heap ptr

-- `realloc`: `result` is the address that it returns, and what the memory behind the old block holds. There is no
-- result when `ptr` is not a block.
def Heap.realloc (heap : Heap) (ptr size : Nat) (result : Option (Nat × Block)) : Option (Heap × Nat) :=
  if ptr = 0 then
    match result with
    | none => some (heap, 0)
    | some (new, fresh) =>
      if new ≠ 0 ∧ (heap new).isNone then some (Function.update heap new (some { size, bytes := fresh }), new) else none
  else match heap ptr with
    | none => none
    | some b =>
      if size = 0 then some (Function.update heap ptr none, 0)
      else match result with
        | none => some (heap, 0)
        | some (new, fresh) =>
          if new = ptr ∨ new ≠ 0 ∧ (heap new).isNone then
            let grown := { size, bytes := fun i => if i < b.size then b.bytes i else fresh i }
            some (Function.update (Function.update heap ptr none) new (some grown), new)
          else none

def Heap.free (heap : Heap) (ptr : Nat) : Option Heap :=
  if ptr = 0 then some heap
  else match heap ptr with
    | none => none
    | some _ => some (Function.update heap ptr none)

inductive Reallocated (heap : Heap) (ptr : Nat) (result : Option Buffer) : Heap → Nat → Prop where
  | refused (fails : result = none) : Reallocated heap ptr result heap 0
  | emptied (fails : result = none) : Reallocated heap ptr result (Function.update heap ptr none) 0
  | placed (heap' : Heap) (new : Nat) (b : Buffer) (succeeds : result = some b) (valid : new ≠ 0)
      (place : new = ptr ∨ heap new = none) (held : heap' new = some b)
      (others : ∀ other, other ≠ ptr → other ≠ new → heap' other = heap other) :
      Reallocated heap ptr result heap' new

theorem realloc_cases {heap heap' : Heap} {ptr ptr' size : Nat} {result : Option (Nat × Block)}
    (ran : heap.realloc ptr size result = some (heap', ptr')) :
    Reallocated heap ptr (realloc (heap.deref ptr) size (result.map Prod.snd)) heap' ptr' := by
  by_cases null : ptr = 0
  · cases result with
    | none =>
      obtain ⟨rfl, rfl⟩ : heap = heap' ∧ 0 = ptr' := by simpa [Heap.realloc, null] using ran
      exact .refused (by simp [Heap.deref, realloc, null])
    | some block =>
      obtain ⟨new, fresh⟩ := block
      simp only [Heap.realloc, if_pos null] at ran
      split_ifs at ran with unused
      obtain ⟨rfl, rfl⟩ := Prod.mk.inj (Option.some.inj ran)
      have grown : realloc (heap.deref ptr) size (some fresh) = some { size, bytes := fresh } := by
        simp [Heap.deref, realloc, null]
      refine .placed _ new _ grown unused.1 (.inr (Option.isNone_iff_eq_none.mp unused.2)) ?_ ?_
      · exact Function.update_self ..
      · exact fun other _ elsewhere => Function.update_of_ne elsewhere _ _
  · cases here : heap ptr with
    | none => simp [Heap.realloc, null, here] at ran
    | some b =>
      have block : heap.deref ptr = some b := (if_neg null).trans here
      by_cases empty : size = 0
      · obtain ⟨rfl, rfl⟩ : Function.update heap ptr none = heap' ∧ 0 = ptr' := by
          simpa [Heap.realloc, null, here, empty] using ran
        exact .emptied (by simp [realloc, block, empty])
      · cases result with
        | none =>
          obtain ⟨rfl, rfl⟩ : heap = heap' ∧ 0 = ptr' := by simpa [Heap.realloc, null, here, empty] using ran
          exact .refused (by simp [realloc, block, empty])
        | some fresh =>
          obtain ⟨new, fresh⟩ := fresh
          simp only [Heap.realloc, if_neg null, here, if_neg empty] at ran
          split_ifs at ran with place
          obtain ⟨rfl, rfl⟩ := Prod.mk.inj (Option.some.inj ran)
          have valid : new ≠ 0 := by
            rcases place with same | unused
            · rwa [same]
            · exact unused.1
          have grown : realloc (heap.deref ptr) size (some fresh) =
              some { size, bytes := fun i => if i < b.size then b.bytes i else fresh i } := by
            simp [realloc, block, empty]
          refine .placed _ new _ grown valid (place.imp_right fun unused => ?_) ?_ ?_
          · exact Option.isNone_iff_eq_none.mp unused.2
          · exact Function.update_self ..
          · intro other away elsewhere
            rw [Function.update_of_ne elsewhere, Function.update_of_ne away]

theorem realloc_deref {heap heap' : Heap} {ptr ptr' size : Nat} {result : Option (Nat × Block)}
    (ran : heap.realloc ptr size result = some (heap', ptr')) :
    heap'.deref ptr' = realloc (heap.deref ptr) size (result.map Prod.snd) := by
  cases realloc_cases ran with
  | refused fails => rw [fails]; rfl
  | emptied fails => rw [fails]; rfl
  | placed _ _ b succeeds valid place held others => rw [succeeds, Heap.deref, if_neg valid, held]

-- A pointer that may be passed to `realloc` and `free`.
def Heap.Live (heap : Heap) (ptr : Nat) : Prop := ptr = 0 ∨ heap ptr ≠ none

structure Heap.Framed (heap heap' : Heap) (ptr ptr' : Nat) : Prop where
  -- No other block than that at `ptr` is changed, and `ptr'` is none of them.
  same : ∀ other, other ≠ ptr → heap other ≠ none → heap' other = heap other
  apart : ∀ other, other ≠ ptr → other ≠ 0 → heap other ≠ none → ptr' ≠ other

theorem Heap.Framed.refl (heap : Heap) (ptr : Nat) : heap.Framed heap ptr ptr :=
  ⟨fun _ _ _ => rfl, fun _ away _ _ => away.symm⟩

theorem realloc_framed {heap heap' : Heap} {ptr ptr' size : Nat} {result : Option (Nat × Block)}
    (ran : heap.realloc ptr size result = some (heap', ptr')) : heap.Framed heap' ptr ptr' ∧ heap'.Live ptr' := by
  cases realloc_cases ran with
  | refused fails => exact ⟨⟨fun _ _ _ => rfl, fun _ _ valid _ => valid.symm⟩, .inl rfl⟩
  | emptied fails =>
    exact ⟨⟨fun other away _ => Function.update_of_ne away _ _, fun _ _ valid _ => valid.symm⟩, .inl rfl⟩
  | placed _ _ b succeeds valid place held others =>
    have elsewhere : ∀ other, other ≠ ptr → heap other ≠ none → ptr' ≠ other := by
      rintro other away occupied rfl
      exact place.elim away occupied
    constructor
    · exact ⟨fun other away occupied => others other away (elsewhere other away occupied).symm,
        fun other away _ occupied => elsewhere other away occupied⟩
    · exact .inr (by simp [held])

theorem free_framed {heap heap' : Heap} {ptr : Nat} (ran : heap.free ptr = some heap') :
    heap.Framed heap' ptr ptr := by
  refine ⟨fun other away _ => ?_, fun _ away _ _ => away.symm⟩
  simp only [Heap.free] at ran
  split_ifs at ran
  · rw [Option.some.inj ran]
  · split at ran
    · cases ran
    · rw [← Option.some.inj ran, Function.update_of_ne away]

end Memory
