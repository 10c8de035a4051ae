import Mathlib.Data.List.TakeWhile
import NetProg.Shared.Memory

set_option autoImplicit false

namespace Text

open Memory

def fgetsLine : Nat → List UInt8 → List UInt8
  | 0, _ => []
  | _, [] => []
  | left + 1, c :: rest => if c = 10 then [c] else c :: fgetsLine left rest

-- At the end of the input the block stays as it is.
def fgets (m : Block) (size : Nat) (input : List UInt8) : Block × List UInt8 :=
  if input = [] then (m, [])
  else
    let line := fgetsLine (size - 1) input
    (storeString m 0 line, input.drop line.length)

theorem fgetsLine_whole {line : List UInt8} (single : ∀ c ∈ line, c ≠ 10) {left : Nat} (short : line.length < left)
    (rest : List UInt8) : fgetsLine left (line ++ 10 :: rest) = line ++ [10] := by
  induction line generalizing left with
  | nil =>
    cases left with
    | zero => simp at short
    | succ left => simp [fgetsLine]
  | cons c line ih =>
    cases left with
    | zero => simp at short
    | succ left =>
      have other : c ≠ 10 := single c (by simp)
      rw [List.cons_append, fgetsLine, if_neg other, ih (fun c' member => single c' (by simp [member])) (by simpa using short)]
      rfl

theorem fgets_whole (m : Block) {line : List UInt8} (single : ∀ c ∈ line, c ≠ 10) {size : Nat}
    (short : line.length + 1 < size) (rest : List UInt8) :
    fgets m size (line ++ 10 :: rest) = (storeString m 0 (line ++ [10]), rest) := by
  have whole := fgetsLine_whole single (show line.length < size - 1 by omega) rest
  rw [fgets, if_neg (by simp), whole, show line ++ 10 :: rest = (line ++ [10]) ++ rest by simp]
  simp only [List.drop_left]

structure Strtok where
  token : Option (List UInt8)
  -- the block, and where the next call goes on
  m : Block
  next : Nat

-- `none` when the end of the block comes before a token has ended.
def strtok (delim : UInt8 → Bool) (size : Nat) (m : Block) (start : Nat) : Option Strtok :=
  let bytes := load m start (size - start)
  let skipped := bytes.takeWhile delim
  let token := (bytes.dropWhile delim).takeWhile fun c => c != 0 && !delim c
  let stop := start + skipped.length + token.length
  if size ≤ stop then none
  else if token = [] then some { token := none, m, next := stop }
  else if m stop = 0 then some { token := some token, m, next := stop }
  else some { token := some token, m := store m stop [0], next := stop + 1 }

variable {delim : UInt8 → Bool} {size : Nat} {m : Block} {start : Nat}

theorem load_one {c : UInt8} : load m start [c].length = [c] ↔ m start = c := by simp [load]

structure Ends (delim : UInt8 → Bool) (size : Nat) (m : Block) (start : Nat) (skipped token : List UInt8) : Prop where
  -- What a call of `strtok` goes over, and the byte that ends it.
  skips : ∀ c ∈ skipped, delim c = true
  letters : ∀ c ∈ token, c ≠ 0 ∧ delim c = false
  here : load m start (skipped.length + token.length) = skipped ++ token
  inside : start + skipped.length + token.length < size
  stops : m (start + skipped.length + token.length) = 0 ∨
    token ≠ [] ∧ delim (m (start + skipped.length + token.length)) = true

def strtokEnds (m : Block) (token : List UInt8) (stop : Nat) : Strtok :=
  if token = [] then { token := none, m, next := stop }
  else if m stop = 0 then { token := some token, m, next := stop }
  else { token := some token, m := store m stop [0], next := stop + 1 }

theorem takeWhile_stops {p : UInt8 → Bool} {front rest : List UInt8} {c : UInt8} (all : ∀ c ∈ front, p c = true)
    (stops : p c = false) : (front ++ c :: rest).takeWhile p = front ∧ (front ++ c :: rest).dropWhile p = c :: rest := by
  rw [List.takeWhile_append_of_pos all, List.takeWhile_cons_of_neg (by simp [stops]), List.append_nil,
    List.dropWhile_append_of_pos all, List.dropWhile_cons_of_neg (by simp [stops])]
  exact ⟨rfl, rfl⟩

theorem takeWhile_split (p : UInt8 → Bool) (bytes : List UInt8) : bytes.takeWhile p ++ bytes.dropWhile p = bytes ∧
    (∀ c ∈ bytes.takeWhile p, p c = true) ∧ ∀ c rest, bytes.dropWhile p = c :: rest → p c = false := by
  refine ⟨List.takeWhile_append_dropWhile, fun c member => List.mem_takeWhile_imp member, fun c rest stopped => ?_⟩
  have first := List.head?_dropWhile_not p bytes
  rw [stopped] at first
  exact first

theorem Ends.strtok_eq {skipped token : List UInt8} (nul : delim 0 = false) (ends : Ends delim size m start skipped token) :
    strtok delim size m start = some (strtokEnds m token (start + skipped.length + token.length)) := by
  have inside := ends.inside
  generalize last : m (start + skipped.length + token.length) = c
  obtain ⟨tail, bytes⟩ : ∃ tail, load m start (size - start) = skipped ++ (token ++ c :: tail) := by
    obtain ⟨left, length⟩ := Nat.exists_eq_add_of_le (show skipped.length + token.length + 1 ≤ size - start by omega)
    refine ⟨load m (start + (skipped.length + token.length + 1)) left, ?_⟩
    rw [length, load_add, load_add, ends.here]
    simp [load, ← last, Nat.add_assoc]
  have front : (skipped ++ (token ++ c :: tail)).takeWhile delim = skipped ∧
      (skipped ++ (token ++ c :: tail)).dropWhile delim = token ++ c :: tail := by
    cases token with
    | nil =>
      have zero : c = 0 := last ▸ ends.stops.resolve_right (by simp)
      exact takeWhile_stops ends.skips (by rw [zero, nul])
    | cons first more => exact takeWhile_stops ends.skips (ends.letters first (by simp)).2
  have word : (token ++ c :: tail).takeWhile (fun c => c != 0 && !delim c) = token := by
    refine (takeWhile_stops (fun c member => by simpa using ends.letters c member) ?_).1
    rcases last ▸ ends.stops with zero | ⟨-, delimiter⟩
    · simp [zero]
    · simp [delimiter]
  simp only [strtok, bytes, front.1, front.2, word, if_neg (Nat.not_le.mpr inside), strtokEnds]
  split_ifs <;> rfl

theorem strtok_ends {result : Strtok} (ran : strtok delim size m start = some result) :
    ∃ skipped token, Ends delim size m start skipped token ∧
      result = strtokEnds m token (start + skipped.length + token.length) := by
  simp only [strtok] at ran
  generalize loaded : load m start (size - start) = bytes at ran
  obtain ⟨front, skips, unskipped⟩ := takeWhile_split delim bytes
  obtain ⟨word, letters, ended⟩ := takeWhile_split (fun c => c != 0 && !delim c) (bytes.dropWhile delim)
  generalize bytes.takeWhile delim = skipped at front skips ran
  generalize (bytes.dropWhile delim).takeWhile (fun c => c != 0 && !delim c) = token at word letters ran
  generalize (bytes.dropWhile delim).dropWhile (fun c => c != 0 && !delim c) = rest at word ended
  have whole : load m start (size - start) = (skipped ++ token) ++ rest := by rw [loaded, List.append_assoc, word, front]
  by_cases outside : size ≤ start + skipped.length + token.length
  · simp [outside] at ran
  have length := congrArg List.length whole
  simp only [length_load, List.length_append] at length
  obtain ⟨c, tail, rfl⟩ : ∃ c tail, rest = c :: tail := by
    cases rest with
    | nil =>
      simp only [List.length_nil] at length
      omega
    | cons c tail => exact ⟨c, tail, rfl⟩
  have here : load m start (skipped.length + token.length) = skipped ++ token := by
    rw [← load_take m start (show skipped.length + token.length ≤ size - start by omega), whole,
      List.take_left' List.length_append]
  have last : m (start + skipped.length + token.length) = c := by
    have character := congrArg (fun bytes => bytes[skipped.length + token.length]?) whole
    rw [List.getElem?_append_right (by simp)] at character
    simpa [load, ← Nat.add_assoc, show skipped.length + token.length < size - start by omega] using character
  refine ⟨skipped, token, ⟨skips, fun c member => by simpa using letters c member, here, by omega, ?_⟩, ?_⟩
  · rw [last]
    by_cases zero : c = 0
    · exact .inl zero
    · have delimiter : delim c = true := by simpa [zero] using ended c tail rfl
      refine .inr ⟨?_, delimiter⟩
      rintro rfl
      have other := unskipped c tail word.symm
      simp [delimiter] at other
  · simp only [if_neg outside] at ran
    rw [strtokEnds]
    split_ifs at ran ⊢ <;> exact (Option.some.inj ran).symm

theorem strtok_frame {result : Strtok} (ran : strtok delim size m start = some result) :
    start ≤ result.next ∧ ∀ j ≤ start, result.m j = m j := by
  obtain ⟨skipped, token, ends, rfl⟩ := strtok_ends ran
  rw [strtokEnds]
  split_ifs with noToken zero
  · exact ⟨by simp only []; omega, fun j _ => rfl⟩
  · exact ⟨by simp only []; omega, fun j _ => rfl⟩
  · have nonempty : 0 < token.length := List.length_pos_iff.mpr noToken
    exact ⟨by simp only []; omega, fun j before => store_outside m (by omega)⟩

theorem strtok_again (nul : delim 0 = false) {result : Strtok} (ran : strtok delim size m start = some result)
    {token : List UInt8} (found : result.token = some token) {m' : Block} (kept : ∀ j ≤ result.next, m' j = result.m j) :
    ∃ next, strtok delim size m' start = some { token := some token, m := m', next } ∧
      strtok delim size m' next = some { token := none, m := m', next } := by
  obtain ⟨skipped, word, ends, rfl⟩ := strtok_ends ran
  have nonempty : word ≠ [] := by
    rintro rfl
    cases found
  have facts : word = token ∧ start + skipped.length + word.length ≤ (strtokEnds m word (start + skipped.length + word.length)).next ∧
      (strtokEnds m word (start + skipped.length + word.length)).m (start + skipped.length + word.length) = 0 ∧
      ∀ j < start + skipped.length + word.length,
        (strtokEnds m word (start + skipped.length + word.length)).m j = m j := by
    rw [strtokEnds, if_neg nonempty] at found ⊢
    split_ifs at found ⊢ with zero
    · exact ⟨Option.some.inj found, le_rfl, zero, fun j _ => rfl⟩
    · exact ⟨Option.some.inj found, Nat.le_succ _, load_one.mp (load_store m _ [0]),
        fun j before => store_outside m (.inl before)⟩
  obtain ⟨rfl, upto, zero, before⟩ := facts
  have zero' : m' (start + skipped.length + word.length) = 0 := (kept _ upto).trans zero
  have here : load m' start (skipped.length + word.length) = skipped ++ word := by
    refine (load_congr fun j _ high => ?_).trans ends.here
    rw [kept j (by omega), before j (by omega)]
  have again : Ends delim size m' start skipped word := ⟨ends.skips, ends.letters, here, ends.inside, .inl zero'⟩
  have nothing : Ends delim size m' (start + skipped.length + word.length) [] [] :=
    ⟨by simp, by simp, rfl, ends.inside, .inl zero'⟩
  refine ⟨_, ?_, nothing.strtok_eq nul⟩
  rw [again.strtok_eq nul, strtokEnds, if_neg nonempty, if_pos zero']

def words (delim : UInt8 → Bool) (text : List UInt8) : List (List UInt8) :=
  (text.splitOnP delim).filter fun word => !word.isEmpty

theorem words_skip {skipped : List UInt8} (skips : ∀ c ∈ skipped, delim c = true) (text : List UInt8) :
    words delim (skipped ++ text) = words delim text := by
  induction skipped with
  | nil => rfl
  | cons c rest ih =>
    have first : words delim (c :: (rest ++ text)) = words delim (rest ++ text) := by
      have divided := List.splitOnP_append_cons (p := delim) [] (rest ++ text) (skips c (by simp))
      simpa [words] using congrArg (List.filter fun word => !word.isEmpty) divided
    rw [List.cons_append, first, ih fun c' member => skips c' (by simp [member])]

theorem words_single {token : List UInt8} (letters : ∀ c ∈ token, delim c = false) :
    words delim token = if token = [] then [] else [token] := by
  rw [words, List.splitOnP_eq_singleton letters]
  cases token <;> simp

theorem words_cons (token : List UInt8) {c : UInt8} (delimiter : delim c = true)
    (rest : List UInt8) : words delim (token ++ c :: rest) = words delim token ++ words delim rest := by
  rw [words, List.splitOnP_append_cons token rest delimiter, List.filter_append]
  rfl

theorem load_append {bytes bytes' : List UInt8} : load m start (bytes ++ bytes').length = bytes ++ bytes' ↔
    load m start bytes.length = bytes ∧ load m (start + bytes.length) bytes'.length = bytes' := by
  rw [List.length_append, load_add]
  exact ⟨fun same => List.append_inj same (length_load _ _ _), fun ⟨front, back⟩ => by rw [front, back]⟩

structure TextAt (size : Nat) (m : Block) (start : Nat) (text : List UInt8) : Prop where
  bytes : load m start (text ++ [0]).length = text ++ [0]
  inside : start + text.length < size
  clean : ∀ c ∈ text, c ≠ 0

theorem text_split (delim : UInt8 → Bool) {text : List UInt8} (clean : ∀ c ∈ text, c ≠ 0) :
    ∃ skipped token, (∀ c ∈ skipped, delim c = true) ∧ (∀ c ∈ token, c ≠ 0 ∧ delim c = false) ∧
      (text = skipped ++ token ∨ token ≠ [] ∧ ∃ c rest, delim c = true ∧ text = skipped ++ token ++ c :: rest) := by
  obtain ⟨front, skips, unskipped⟩ := takeWhile_split delim text
  obtain ⟨word, letters, ended⟩ := takeWhile_split (fun c => !delim c) (text.dropWhile delim)
  generalize text.takeWhile delim = skipped at front skips
  generalize (text.dropWhile delim).takeWhile (fun c => !delim c) = token at word letters
  generalize (text.dropWhile delim).dropWhile (fun c => !delim c) = rest at word ended
  have whole : text = skipped ++ token ++ rest := by rw [List.append_assoc, word, front]
  refine ⟨skipped, token, skips, fun c member => ⟨clean c (by simp [whole, member]), by simpa using letters c member⟩, ?_⟩
  cases rest with
  | nil => exact .inl (by rw [whole, List.append_nil])
  | cons c tail =>
    have delimiter : delim c = true := by simpa using ended c tail rfl
    refine .inr ⟨?_, c, tail, delimiter, whole⟩
    rintro rfl
    simpa [delimiter] using unskipped c tail word.symm

theorem textAt_nil (zero : m start = 0) (inside : start < size) : TextAt size m start [] :=
  ⟨load_one.mpr zero, inside, by simp⟩

theorem strtok_words (nul : delim 0 = false) {text : List UInt8} (text_at : TextAt size m start text) :
    (words delim text = [] ∧ ∃ next, strtok delim size m start = some { token := none, m, next }) ∨
      ∃ token rest m' next, words delim text = token :: words delim rest ∧
        strtok delim size m start = some { token := some token, m := m', next } ∧ TextAt size m' next rest := by
  have inside := text_at.inside
  obtain ⟨skipped, token, skips, letters, ended | ⟨nonempty, c, rest, delimiter, rfl⟩⟩ := text_split delim text_at.clean
  · subst ended
    obtain ⟨front, last⟩ := load_append.mp text_at.bytes
    rw [List.length_append, ← Nat.add_assoc] at last inside
    rw [List.length_append] at front
    have zero : m (start + skipped.length + token.length) = 0 := load_one.mp last
    have ran := Ends.strtok_eq nul ⟨skips, letters, front, inside, .inl zero⟩
    rw [words_skip skips, words_single fun c member => (letters c member).2]
    by_cases noToken : token = []
    · rw [strtokEnds, if_pos noToken] at ran
      exact .inl ⟨if_pos noToken, _, ran⟩
    · rw [strtokEnds, if_neg noToken, if_pos zero] at ran
      exact .inr ⟨token, [], m, _, by simp [noToken, words], ran, textAt_nil zero inside⟩
  · have bytes := text_at.bytes
    rw [List.append_assoc] at bytes
    obtain ⟨front, back⟩ := load_append.mp bytes
    obtain ⟨first, last⟩ := load_append.mp (show load m _ ([c] ++ (rest ++ [0])).length = [c] ++ (rest ++ [0]) from back)
    simp only [List.length_append, List.length_cons, ← Nat.add_assoc] at inside
    rw [List.length_append, ← Nat.add_assoc] at first last
    rw [List.length_append] at front
    have here : m (start + skipped.length + token.length) = c := load_one.mp first
    have other : c ≠ 0 := text_at.clean c (by simp)
    have ends : Ends delim size m start skipped token :=
      ⟨skips, letters, front, by omega, .inr ⟨nonempty, here ▸ delimiter⟩⟩
    have ran := ends.strtok_eq nul
    rw [strtokEnds, if_neg nonempty, if_neg (here ▸ other)] at ran
    refine .inr ⟨token, rest, _, _, ?_, ran, ⟨?_, by omega, fun c' member => text_at.clean c' (by simp [member])⟩⟩
    · rw [List.append_assoc, words_skip skips, words_cons token delimiter,
        words_single fun c member => (letters c member).2, if_neg nonempty]
      rfl
    · rw [load_store_apart _ (by simp)]
      exact last

end Text
