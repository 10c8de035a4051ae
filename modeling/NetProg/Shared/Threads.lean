import Mathlib.Algebra.BigOperators.Fin

set_option autoImplicit false

namespace Threads

section Owned

variable {M T : Type}

-- The owner of a mutex is the thread whose program point says so.
def Owned (owner : M → Option T) (has : T → M → Prop) : Prop := ∀ t m, owner m = some t ↔ has t m

variable {owner : M → Option T} {has has' : T → M → Prop} {t : T} {m : M}

theorem Owned.same (owned : Owned owner has) (same : ∀ t m, has' t m ↔ has t m) : Owned owner has' :=
  fun t m => (owned t m).trans (same t m).symm

theorem Owned.one (owned : Owned owner has) {t' : T} (own : has t m) (other : has t' m) : t = t' :=
  Option.some.inj (((owned t m).mpr own).symm.trans ((owned t' m).mpr other))

theorem Owned.free (owned : Owned owner has) (nobody : ∀ t, ¬ has t m) : owner m = none := by
  cases held : owner m with
  | none => rfl
  | some t => exact absurd ((owned t m).mp held) (nobody t)

-- What one thread does with one mutex; `mine` is what it has at its next program point.
variable [DecidableEq T] {mine : M → Prop}

theorem Owned.keeps (owned : Owned owner has) (same : ∀ m, mine m ↔ has t m) : Owned owner (Function.update has t mine) := by
  intro t' m
  by_cases own : t' = t
  · subst own
    simpa [same] using owned t' m
  · simpa [own] using owned t' m

variable [DecidableEq M]

theorem Owned.takes (owned : Owned owner has) (free : owner m = none) (added : ∀ m', mine m' ↔ has t m' ∨ m' = m) :
    Owned (Function.update owner m (some t)) (Function.update has t mine) := by
  intro t' m'
  have before := owned t' m'
  by_cases own : t' = t
  · subst own
    by_cases here : m' = m
    · simp [here, added]
    · simp [here, added, before]
  · by_cases here : m' = m
    · subst here
      simpa [own, Ne.symm own, free] using before
    · simp [own, here, before]

theorem Owned.gives (owned : Owned owner has) (own : has t m) (removed : ∀ m', mine m' ↔ has t m' ∧ m' ≠ m) :
    Owned (Function.update owner m none) (Function.update has t mine) := by
  intro t' m'
  have before := owned t' m'
  have held := (owned t m).mpr own
  by_cases self : t' = t
  · subst self
    by_cases here : m' = m
    · simp [here, removed]
    · simp [here, removed, before]
  · by_cases here : m' = m
    · subst here
      simpa [self, Ne.symm self, held] using before
    · simp [self, here, before]

end Owned

theorem sum_update {K P N : Type} [Fintype K] [DecidableEq K] [AddCommMonoid N] (value : P → N) (point : K → P) (k : K)
    (p : P) : value (point k) + ∑ j, value (Function.update point k p j) = value p + ∑ j, value (point j) := by
  have others : ∑ j ∈ Finset.univ.erase k, value (Function.update point k p j) =
      ∑ j ∈ Finset.univ.erase k, value (point j) :=
    Finset.sum_congr rfl fun j member => by rw [Function.update_of_ne (Finset.ne_of_mem_erase member)]
  rw [← Finset.add_sum_erase _ _ (Finset.mem_univ k), ← Finset.add_sum_erase _ (fun j => value (point j)) (Finset.mem_univ k),
    others, Function.update_self, add_left_comm]

theorem sum_set {α : Type} (f : α → Nat) {xs : List α} {i : Nat} {old new : α} (here : xs[i]? = some old) :
    ((xs.set i new).map f).sum + f old = (xs.map f).sum + f new := by
  induction xs generalizing i with
  | nil => cases here
  | cons x rest ih =>
    cases i with
    | zero =>
      obtain rfl := Option.some.inj here
      simp only [List.set_cons_zero, List.map_cons, List.sum_cons]
      omega
    | succ i =>
      have later := ih (i := i) (by simpa using here)
      simp only [List.set_cons_succ, List.map_cons, List.sum_cons]
      omega

end Threads
