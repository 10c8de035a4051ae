import Mathlib.Logic.Function.Basic
import Mathlib.Data.List.Nodup

set_option autoImplicit false

-- `link a` is the pointer stored in node `a`: `none` when `a` is not an allocated node, `some p` when its link
-- field holds the pointer `p`.

namespace Linked

variable {A : Type}

def Segment (link : A → Option (Option A)) : Option A → List A → Option A → Prop
  | first, [], last => first = last
  | first, a :: nodes, last => first = some a ∧ ∃ after, link a = some after ∧ Segment link after nodes last

def walk (link : A → Option (Option A)) : Option A → Nat → List A
  -- The nodes met when `count` links are followed from a pointer.
  | some a, count + 1 => a :: walk link (link a).join count
  | _, _ => []

variable {link link' : A → Option (Option A)}

theorem segment_append (first last : Option A) (before after : List A) :
    Segment link first (before ++ after) last ↔
      ∃ mid, Segment link first before mid ∧ Segment link mid after last := by
  induction before generalizing first with
  | nil => simp [Segment]
  | cons a rest ih =>
    simp only [List.cons_append, Segment, ih]
    constructor
    · rintro ⟨rfl, p, here, mid, left, right⟩
      exact ⟨mid, ⟨rfl, p, here, left⟩, right⟩
    · rintro ⟨mid, ⟨rfl, p, here, left⟩, right⟩
      exact ⟨rfl, p, here, mid, left, right⟩

theorem Segment.congr {first last : Option A} {nodes : List A}
    (same : ∀ a ∈ nodes, link' a = link a) (segment : Segment link first nodes last) :
    Segment link' first nodes last := by
  induction nodes generalizing first with
  | nil => exact segment
  | cons a rest ih =>
    obtain ⟨rfl, p, here, tail⟩ := segment
    refine ⟨rfl, p, (same a (by simp)).trans here, ih ?_ tail⟩
    intro b member
    exact same b (List.mem_cons_of_mem _ member)

theorem Segment.allocated {first last : Option A} {nodes : List A}
    (segment : Segment link first nodes last) : ∀ a ∈ nodes, (link a).isSome := by
  induction nodes generalizing first with
  | nil => simp
  | cons a rest ih =>
    obtain ⟨-, p, here, tail⟩ := segment
    intro b member
    rcases List.mem_cons.mp member with rfl | later
    · simp [here]
    · exact ih tail b later

theorem Segment.head {first last : Option A} {a : A} {rest : List A}
    (segment : Segment link first (a :: rest) last) : first = some a := segment.1

theorem Segment.walk_eq {first last : Option A} {nodes : List A}
    (segment : Segment link first nodes last) : walk link first nodes.length = nodes := by
  induction nodes generalizing first with
  | nil => cases first <;> rfl
  | cons a rest ih =>
    obtain ⟨rfl, p, here, tail⟩ := segment
    simp only [List.length_cons, walk, here, Option.join_some, ih tail]

theorem Segment.extend {first : Option A} {nodes : List A} {final fresh : A}
    (segment : Segment link first (nodes ++ [final]) none)
    (distinct : (nodes ++ [final]).Nodup) (unused : fresh ∉ nodes ++ [final])
    (others : ∀ a, a ≠ final → a ≠ fresh → link' a = link a)
    (redirected : link' final = some (some fresh)) (ended : link' fresh = some none) :
    Segment link' first (nodes ++ [final] ++ [fresh]) none := by
  obtain ⟨mid, left, right⟩ := (segment_append _ _ _ _).mp segment
  have outside : ∀ a ∈ nodes, a ≠ final ∧ a ≠ fresh := by
    intro a member
    constructor
    · rintro rfl
      exact (List.nodup_append.mp distinct).2.2 a member a (by simp) rfl
    · rintro rfl
      simp [member] at unused
  rw [List.append_assoc, segment_append]
  refine ⟨mid, left.congr fun a member => others a (outside a member).1 (outside a member).2, ?_⟩
  exact ⟨right.1, _, redirected, rfl, _, ended, rfl⟩

end Linked
