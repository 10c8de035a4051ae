import Mathlib.Data.Fintype.Card
import Mathlib.Data.Finset.Card
import Mathlib.Data.Fin.Basic
import Mathlib.Data.Multiset.Filter
import Mathlib.Data.Multiset.Fintype
import Mathlib.Data.List.Nodup

set_option autoImplicit false

namespace Probing

variable {n : Nat}

def next (i : Fin n) : Fin n := ⟨(i.val + 1) % n, Nat.mod_lt _ i.pos⟩

def ahead (i : Fin n) (d : Nat) : Fin n := ⟨(i.val + d) % n, Nat.mod_lt _ i.pos⟩

def scan (stop : Fin n → Bool) (i : Fin n) : Nat → Option (Fin n)
  -- The first cell from `i` that stops the scan; `none` when the fuel is used up first.
  | 0 => none
  | fuel + 1 => if stop i then some i else scan stop (next i) fuel

theorem ahead_zero (i : Fin n) : ahead i 0 = i := Fin.ext (Nat.mod_eq_of_lt i.isLt)

theorem ahead_next (i : Fin n) (d : Nat) : ahead (next i) d = ahead i (d + 1) := by
  apply Fin.ext
  simp [ahead, next, Nat.add_assoc, Nat.add_comm 1 d]

theorem exists_ahead (i j : Fin n) : ∃ d < n, ahead i d = j := by
  by_cases before : i.val ≤ j.val
  · refine ⟨j.val - i.val, by omega, Fin.ext ?_⟩
    simp only [ahead]
    rw [show i.val + (j.val - i.val) = j.val by omega, Nat.mod_eq_of_lt j.isLt]
  · refine ⟨n - i.val + j.val, by omega, Fin.ext ?_⟩
    simp only [ahead]
    rw [show i.val + (n - i.val + j.val) = j.val + n by omega, Nat.add_mod_right, Nat.mod_eq_of_lt j.isLt]

theorem scan_eq_some_iff {stop : Fin n → Bool} {i j : Fin n} {fuel : Nat} :
    scan stop i fuel = some j ↔
      ∃ d < fuel, ahead i d = j ∧ stop j = true ∧ ∀ e < d, stop (ahead i e) = false := by
  induction fuel generalizing i with
  | zero => simp [scan]
  | succ fuel ih =>
    by_cases here : stop i = true
    · simp only [scan, here, if_true, Option.some.injEq]
      constructor
      · rintro rfl
        exact ⟨0, by omega, ahead_zero i, here, by omega⟩
      · rintro ⟨d, -, reached, -, clear⟩
        cases d with
        | zero => exact (ahead_zero i).symm.trans reached
        | succ d =>
          have first := clear 0 (by omega)
          simp [ahead_zero, here] at first
    · simp only [scan, here, Bool.false_eq_true, if_false, ih, ahead_next]
      constructor
      · rintro ⟨d, bound, reached, stops, clear⟩
        refine ⟨d + 1, by omega, reached, stops, fun e before => ?_⟩
        cases e with
        | zero => simpa [ahead_zero] using here
        | succ e => exact clear e (by omega)
      · rintro ⟨d, bound, reached, stops, clear⟩
        cases d with
        | zero =>
          rw [← reached, ahead_zero] at stops
          exact absurd stops here
        | succ d => exact ⟨d, by omega, reached, stops, fun e before => clear (e + 1) (by omega)⟩

theorem scan_stops {stop : Fin n → Bool} {i j : Fin n} {fuel : Nat} (found : scan stop i fuel = some j) :
    stop j = true := by
  obtain ⟨_, _, _, stops, _⟩ := scan_eq_some_iff.mp found
  exact stops

theorem scan_finds (stop : Fin n → Bool) (i : Fin n) {j : Fin n} (stops : stop j = true) :
    ∃ k, scan stop i n = some k := by
  have first : ∃ d, d < n ∧ stop (ahead i d) = true := by
    obtain ⟨d, bound, reached⟩ := exists_ahead i j
    exact ⟨d, bound, by rwa [reached]⟩
  refine ⟨ahead i (Nat.find first), scan_eq_some_iff.mpr
    ⟨_, (Nat.find_spec first).1, rfl, (Nat.find_spec first).2, fun e before => ?_⟩⟩
  have bound := (Nat.find_spec first).1
  simpa [Nat.lt_trans before bound] using Nat.find_min first before

theorem scan_within {stop : Fin n → Bool} {i : Fin n} {d : Nat} (stops : stop (ahead i d) = true) :
    ∃ e ≤ d, scan stop i n = some (ahead i e) := by
  obtain ⟨c, found⟩ := scan_finds stop i stops
  obtain ⟨e, -, there, -, before⟩ := scan_eq_some_iff.mp found
  refine ⟨e, ?_, there ▸ found⟩
  by_contra later
  simp [before d (by omega)] at stops

theorem scan_congr {stop : Fin n → Bool} (stop' : Fin n → Bool) {i j : Fin n} {fuel : Nat}
    (found : scan stop i fuel = some j)
    (hit : stop' j = true) (clear : ∀ k, stop k = false → stop' k = false) : scan stop' i fuel = some j := by
  obtain ⟨d, bound, reached, -, before⟩ := scan_eq_some_iff.mp found
  exact scan_eq_some_iff.mpr ⟨d, bound, reached, hit, fun e earlier => clear _ (before e earlier)⟩

theorem scan_eq_none_iff {stop : Fin n → Bool} {i : Fin n} : scan stop i n = none ↔ ∀ j, stop j = false := by
  constructor
  · intro endless j
    by_contra stops
    obtain ⟨k, found⟩ := scan_finds stop i (j := j) (by simpa using stops)
    simp [endless] at found
  · intro never
    by_contra ended
    obtain ⟨k, found⟩ := Option.ne_none_iff_exists'.mp ended
    have stops := scan_stops found
    simp [never] at stops

theorem scan_endless {stop : Fin n → Bool} {i : Fin n} (endless : scan stop i n = none) (fuel : Nat) :
    scan stop i fuel = none := by
  by_contra ended
  obtain ⟨k, found⟩ := Option.ne_none_iff_exists'.mp ended
  have stops := scan_stops found
  simp [scan_eq_none_iff.mp endless] at stops

variable {α K : Type} (key : α → K) (home : K → Fin n)

inductive Built : List α → (Fin n → Option α) → Prop where
  | empty : Built [] fun _ => none
  | store (entries : List α) (cells : Fin n → Option α) (entry : α) (c : Fin n) (before : Built entries cells)
      (free : scan (fun j => (cells j).isNone) (home (key entry)) n = some c) :
      Built (entries ++ [entry]) (Function.update cells c (some entry))

variable {key home} {entries : List α} {cells : Fin n → Option α}

def contents (cells : Fin n → Option α) : Multiset α := Finset.univ.val.filterMap cells

theorem filterMap_congr {β : Type} {f g : β → Option α} {s : Multiset β} (same : ∀ b ∈ s, f b = g b) :
    s.filterMap f = s.filterMap g := by
  induction s using Quotient.inductionOn with
  | h bs => exact congrArg _ (List.filterMap_congr same)

theorem contents_update {c : Fin n} (empty : cells c = none) (entry : α) :
    contents (Function.update cells c (some entry)) = entry ::ₘ contents cells := by
  have split : (Finset.univ : Finset (Fin n)).val = c ::ₘ (Finset.univ.erase c).val := by
    rw [Finset.erase_val, Multiset.cons_erase (Finset.mem_univ_val c)]
  have others : (Finset.univ.erase c).val.filterMap (Function.update cells c (some entry)) =
      (Finset.univ.erase c).val.filterMap cells := by
    refine filterMap_congr fun d member => ?_
    have apart : d ≠ c := Finset.ne_of_mem_erase (Finset.mem_val.mp member)
    simp [apart]
  rw [contents, split, Multiset.filterMap_cons_some _ _ _ (Function.update_self c (some entry) cells), others,
    contents, split, Multiset.filterMap_cons_none _ _ empty]

theorem Built.contents_eq (built : Built key home entries cells) : contents cells = entries := by
  induction built with
  | empty => exact Multiset.eq_zero_of_forall_notMem fun entry => by simp [contents]
  | store entries cells new c before free ih =>
    have empty : cells c = none := by simpa using scan_stops free
    rw [contents_update empty, ih, ← Multiset.coe_add, Multiset.add_comm]
    rfl

theorem Built.mem_iff (built : Built key home entries cells) (entry : α) :
    entry ∈ entries ↔ ∃ c, cells c = some entry := by
  rw [← Multiset.mem_coe, ← built.contents_eq, contents, Multiset.mem_filterMap]
  simp

theorem Built.count (built : Built key home entries cells) :
    (Finset.univ.filter fun c => (cells c).isSome).card = entries.length := by
  induction built with
  | empty => simp
  | store entries cells new c before free ih =>
    have empty : cells c = none := by simpa using scan_stops free
    have grown : (Finset.univ.filter fun j => (Function.update cells c (some new) j).isSome) =
        insert c (Finset.univ.filter fun j => (cells j).isSome) := by
      ext j
      by_cases here : j = c <;> simp [here]
    rw [grown, Finset.card_insert_of_notMem (by simp [empty]), ih, List.length_append]
    rfl

theorem Built.length_le (built : Built key home entries cells) : entries.length ≤ n := by
  rw [← built.count]
  simpa using Finset.card_le_univ (Finset.univ.filter fun c => (cells c).isSome)

theorem Built.exists_empty (built : Built key home entries cells) (room : entries.length < n) :
    ∃ c, cells c = none := by
  by_contra full
  have all : (Finset.univ.filter fun c => (cells c).isSome) = Finset.univ := by
    ext c
    simpa [Option.isSome_iff_ne_none] using fun empty => full ⟨c, empty⟩
  have counted := built.count
  rw [all, Finset.card_univ, Fintype.card_fin] at counted
  omega

theorem Built.can_store (built : Built key home entries cells) (room : entries.length < n) (entry : α) :
    ∃ c, scan (fun j => (cells j).isNone) (home (key entry)) n = some c := by
  obtain ⟨c, empty⟩ := built.exists_empty room
  exact scan_finds _ _ (j := c) (by simp [empty])

theorem Built.hasRoom_iff (built : Built key home entries cells) : entries.length < n ↔ ∃ c, cells c = none := by
  constructor
  · exact built.exists_empty
  · intro ⟨c, hole⟩
    rw [← built.count]
    have missing : c ∉ Finset.univ.filter fun c => (cells c).isSome := by simp [hole]
    have fewer := Finset.card_lt_univ_of_notMem missing
    rwa [Fintype.card_fin] at fewer

theorem Built.noGap (built : Built key home entries cells) {c : Fin n} {entry : α} (stored : cells c = some entry) :
    ∃ d < n, ahead (home (key entry)) d = c ∧ ∀ e ≤ d, cells (ahead (home (key entry)) e) ≠ none := by
  induction built with
  | empty => cases stored
  | store entries cells new c' before free ih =>
    by_cases here : c = c'
    · subst here
      obtain rfl : new = entry := by simpa using stored
      obtain ⟨d, bound, reached, -, passed⟩ := scan_eq_some_iff.mp free
      refine ⟨d, bound, reached, fun e upto => ?_⟩
      rcases Nat.lt_or_eq_of_le upto with earlier | rfl
      · have occupied := passed e earlier
        by_cases there : ahead (home (key new)) e = c
        · simp [there]
        · simpa [there, Option.isSome_iff_ne_none] using occupied
      · simp [reached]
    · obtain ⟨d, bound, reached, passed⟩ := ih (by simpa [here] using stored)
      refine ⟨d, bound, reached, fun e upto => ?_⟩
      -- a filled cell stays filled
      by_cases there : ahead (home (key entry)) e = c'
      · simp [there]
      · simpa [there] using passed e upto

variable [DecidableEq K]

def stopsAt (key : α → K) (cells : Fin n → Option α) (k : K) (c : Fin n) : Bool :=
  -- An empty cell, or one whose entry has the key.
  (cells c).all fun entry => decide (key entry = k)

theorem Built.lookup (built : Built key home entries cells) (room : ∃ c, cells c = none) (k : K) :
    ∃ c, scan (stopsAt key cells k) (home k) n = some c ∧
      cells c = entries.find? fun entry => decide (key entry = k) := by
  induction built with
  | empty =>
    obtain ⟨c, -⟩ := room
    obtain ⟨d, found⟩ := scan_finds (stopsAt key (fun _ => none) k) (home k) (j := c) rfl
    exact ⟨d, found, rfl⟩
  | store entries cells new c before free ih =>
    have empty : cells c = none := by simpa using scan_stops free
    obtain ⟨d, found, content⟩ := ih ⟨c, empty⟩
    rw [List.find?_append]
    by_cases here : d = c
    · subst here
      rw [empty] at content
      rw [← content]
      by_cases same : key new = k
      · -- The scan used to end at the cell that was just filled.
        refine ⟨d, scan_congr _ found (by simp [stopsAt, same]) fun j clear => ?_, by simp [same]⟩
        have other : j ≠ d := by
          rintro rfl
          simp [stopsAt, empty] at clear
        simpa [stopsAt, other] using clear
      · obtain ⟨e, hole⟩ := room
        obtain ⟨g, found'⟩ := scan_finds (stopsAt key (Function.update cells d (some new)) k) (home k) (j := e)
          (by simp [stopsAt, hole])
        refine ⟨g, found', ?_⟩
        have stops := scan_stops found'
        by_cases there : g = d
        · subst there
          simp [stopsAt, same] at stops
        · have absent : ∀ entry, cells g = some entry → key entry ≠ k := by
            intro entry stored
            have member := (before.mem_iff entry).mpr ⟨g, stored⟩
            simpa using List.find?_eq_none.mp content.symm entry member
          cases stored : cells g with
          | none => simp [there, stored, same]
          | some entry => simp [stopsAt, there, stored, absent entry stored] at stops
    · refine ⟨d, scan_congr _ found ?_ fun j clear => ?_, ?_⟩
      · simpa [stopsAt, here] using scan_stops found
      · have other : j ≠ c := by
          rintro rfl
          simp [stopsAt, empty] at clear
        simpa [stopsAt, other] using clear
      · simp only [Function.update_of_ne here, content]
        cases first : entries.find? fun entry => decide (key entry = k) with
        | some entry => rfl
        | none =>
          -- A new entry with this key would have been stored at `d`.
          have different : key new ≠ k := by
            rintro rfl
            rw [first] at content
            have clear : ∀ j, stopsAt key cells (key new) j = false → (cells j).isNone = false := by
              intro j
              cases stored : cells j <;> simp [stopsAt, stored]
            have same := scan_congr (fun j => (cells j).isNone) found (by simp [content]) clear
            exact here (Option.some.inj (same.symm.trans free))
          simp [different]

end Probing
