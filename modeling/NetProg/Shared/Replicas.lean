import Mathlib.Algebra.Group.Basic
import Mathlib.Logic.Function.Basic
import NetProg.Shared.Transition

set_option autoImplicit false

namespace Replication

open Transition

structure Replicas (ι M : Type) where
  held : ι → M
  coming : ι → M

inductive Event (ι M : Type) where
  | update (site : ι) (change : M)
  | arrive (site : ι) (change rest : M)

variable {ι M : Type} [DecidableEq ι] [DecidableEq M] [AddCommMonoid M]

def system : System (Replicas ι M) (Event ι M) where
  init r := (∀ i j, r.held i = r.held j) ∧ ∀ i, r.coming i = 0
  step
    | r, .update site change => some {
        held := Function.update r.held site (r.held site + change)
        coming := fun i => if i = site then r.coming i else r.coming i + change }
    | r, .arrive site change rest =>
      if r.coming site = change + rest then some {
        held := Function.update r.held site (r.held site + change)
        coming := Function.update r.coming site rest }
      else none

def Replicas.total (r : Replicas ι M) (i : ι) : M := r.held i + r.coming i

theorem totals_equal {r : Replicas ι M} (reached : system.Reachable r) : ∀ i j, r.total i = r.total j := by
  apply System.ReachableWhile.invariant _ _ reached
  · rintro r ⟨same, nothing⟩ i j
    rw [Replicas.total, Replicas.total, same i j, nothing i, nothing j]
  · intro r e r' _ equal _ stepped
    cases e with
    | update site change =>
      obtain rfl := Option.some.inj stepped
      have grown (i : ι) : Replicas.total { held := Function.update r.held site (r.held site + change)
                                            coming := fun i => if i = site then r.coming i else r.coming i + change } i =
          r.total i + change := by
        by_cases here : i = site
        · subst here
          simp [Replicas.total, add_right_comm]
        · simp [Replicas.total, here, add_assoc]
      intro i j
      rw [grown, grown, equal i j]
    | arrive site change rest =>
      simp only [system] at stepped
      split_ifs at stepped with due
      obtain rfl := Option.some.inj stepped
      have kept (i : ι) : Replicas.total { held := Function.update r.held site (r.held site + change)
                                           coming := Function.update r.coming site rest } i = r.total i := by
        by_cases here : i = site
        · subst here
          simp [Replicas.total, due, add_assoc]
        · simp [Replicas.total, here]
      intro i j
      rw [kept, kept, equal i j]

end Replication
