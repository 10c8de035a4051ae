import Mathlib.Data.Finset.Card

set_option autoImplicit false

namespace Handles

variable {H : Type} [DecidableEq H] {used : Finset H} {holders : Multiset H} {h : H}

def Held (used : Finset H) (holders : Multiset H) : Prop := used.val = holders

omit [DecidableEq H] in
theorem Held.mem_iff (held : Held used holders) : h ∈ used ↔ h ∈ holders := by
  rw [← Finset.mem_val, held]

omit [DecidableEq H] in
theorem Held.card (held : Held used holders) : holders.card = used.card := congrArg Multiset.card held.symm

theorem Held.opens (held : Held used holders) (unused : h ∉ used) : Held (insert h used) (h ::ₘ holders) :=
  (Finset.insert_val_of_notMem unused).trans (congrArg (h ::ₘ ·) held)

theorem Held.closes (held : Held used (h ::ₘ holders)) : Held (used.erase h) holders := by
  have erased : used.val.erase h = holders := by rw [held, Multiset.erase_cons_head]
  exact (Finset.erase_val used h).trans erased

theorem Held.card_le {used : Finset Nat} {holders : Multiset Nat} (held : Held used holders) {limit : Nat}
    (below : ∀ h ∈ used, h < limit) : holders.card ≤ limit := by
  have inside : used ⊆ Finset.range limit := fun h member => Finset.mem_range.mpr (below h member)
  simpa [held.card] using Finset.card_le_card inside

end Handles
