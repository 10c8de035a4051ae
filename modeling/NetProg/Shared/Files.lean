import Mathlib.Data.List.Basic

set_option autoImplicit false

namespace Files

variable {α : Type}

-- The bytes of a file; `none` when there is no such file.
abbrev File (α : Type) := Option (List α)

def openCreate (file : File α) : List α := file.getD []

def overwrite (old bytes : List α) : List α := bytes ++ old.drop bytes.length

theorem overwrite_exact_iff {old bytes : List α} : overwrite old bytes = bytes ↔ old.length ≤ bytes.length := by
  rw [overwrite, List.append_right_eq_self, List.drop_eq_nil_iff]

theorem overwrite_same_iff {old bytes : List α} : overwrite old bytes = old ↔ bytes <+: old := by
  constructor
  · intro same
    exact ⟨_, same⟩
  · rintro ⟨rest, rfl⟩
    rw [overwrite, List.drop_left]

theorem overwrite_take_iff {old bytes : List α} {n : Nat} (within : n ≤ bytes.length) :
    overwrite old (bytes.take n) = bytes ↔ old.drop n = bytes.drop n := by
  rw [overwrite, List.length_take, Nat.min_eq_left within]
  constructor
  · intro same
    have tail := congrArg (List.drop n) same
    rwa [List.drop_append_of_le_length (by simp [within]), List.drop_take_self, List.nil_append] at tail
  · intro same
    rw [same, List.take_append_drop]

end Files
