import Mathlib.Data.List.Nodup
import NetProg.P2.Names
import NetProg.Shared.Transition

set_option autoImplicit false

namespace NetProg.P2

open Transition

inductive MainPoint where
  | looping
  | creating
  | sleeping
  | returned
deriving DecidableEq, Repr

structure ClientMain where
  numOfThread : Nat
  i : Nat
  -- `threadArgs.threadNum`
  threadNum : Nat
  point : MainPoint
  -- for each thread that has been created the number that it has copied
  threads : List (Option Nat)
deriving DecidableEq, Repr

inductive MainEvent where
  | assign
  | create (succeeds : Bool)
  | wake
  | finish
  | copy (k : Nat)
deriving DecidableEq, Repr

def ClientMain.start (numOfThread threadNum : Nat) : ClientMain :=
  { numOfThread, i := 0, threadNum, point := .looping, threads := [] }

def ClientMain.copy (s : ClientMain) (k : Nat) : Option ClientMain :=
  -- `argStruct threadArg = *(argStruct*) arg`; no thread is left when main has returned.
  match s.point, s.threads[k]? with
  | .returned, _ => none
  | _, some none => some { s with threads := s.threads.set k (some s.threadNum) }
  | _, _ => none

def ClientMain.step (s : ClientMain) (e : MainEvent) : Option ClientMain :=
  match s.point, e with
  | .looping, .assign =>
    if s.i < s.numOfThread then some { s with threadNum := s.i + 1, point := .creating } else none
  | .looping, .finish => if s.i < s.numOfThread then none else some { s with point := .returned }
  | .creating, .create true => some { s with threads := s.threads ++ [none], point := .sleeping }
  | .creating, .create false => some { s with i := s.i + 1, point := .looping }
  | .sleeping, .wake => some { s with i := s.i + 1, point := .looping }
  | _, .copy k => s.copy k
  | _, _ => none

def clientMain (numOfThread : Nat) : System ClientMain MainEvent where
  init s := ∃ threadNum, s = .start numOfThread threadNum
  step := ClientMain.step

def Creates (_ : ClientMain) (e : MainEvent) (_ : ClientMain) : Prop := e ≠ .create false

instance (s : ClientMain) (e : MainEvent) (s' : ClientMain) : Decidable (Creates s e s') :=
  inferInstanceAs (Decidable (e ≠ .create false))

theorem climbing_nodup {l : List Nat} (low : ∀ k v, l[k]? = some v → k + 1 ≤ v) (high : ∀ v ∈ l, v ≤ l.length)
    (distinct : l.Nodup) : l = (List.range l.length).map (· + 1) := by
  -- from the last: it has no other number left, and those before it have not this one
  induction l using List.reverseRecOn with
  | nil => rfl
  | append_singleton earlier last ih =>
    have size : (earlier ++ [last]).length = earlier.length + 1 := List.length_append
    have top : last = earlier.length + 1 := by
      have above := low earlier.length last (by simp)
      have below := high last (by simp)
      omega
    have apart := List.nodup_append.mp distinct
    have rest : earlier = (List.range earlier.length).map (· + 1) := by
      refine ih (fun k v here => low k v ?_) (fun v member => ?_) apart.1
      · rw [List.getElem?_append_left (List.getElem?_eq_some_iff.mp here).1, here]
      · have below := high v (List.mem_append_left _ member)
        have other := apart.2.2 v member last (List.mem_singleton_self last)
        omega
    rw [size, List.range_succ, List.map_append, List.map_singleton, ← rest, top]

theorem nodup_climb (n : Nat) : ((List.range n).map (· + 1)).Nodup :=
  List.Nodup.map Nat.succ_injective List.nodup_range

inductive ClientMain.At (s : ClientMain) : Prop where
  -- What `main` knows at each point when every thread has been created.
  | between (point : s.point = .looping ∨ s.point = .returned) (created : s.threads.length = s.i)
      (assigned : 0 < s.i → s.threadNum = s.i) (bound : s.i ≤ s.numOfThread)
  | creating (point : s.point = .creating) (created : s.threads.length = s.i) (assigned : s.threadNum = s.i + 1)
      (bound : s.i < s.numOfThread)
  | sleeping (point : s.point = .sleeping) (created : s.threads.length = s.i + 1) (assigned : s.threadNum = s.i + 1)
      (bound : s.i < s.numOfThread)

structure ClientMain.Climbs (s : ClientMain) : Prop where
  place : s.At
  copied : ∀ k v, s.threads[k]? = some (some v) → k + 1 ≤ v ∧ v ≤ s.threadNum

section Runs

variable {s s' : ClientMain}

theorem ClientMain.At.climbs (place : s.At) {k : Nat} (created : k < s.threads.length) : k + 1 ≤ s.threadNum := by
  cases place with
  | between _ count assigned _ =>
    have number := assigned (by omega)
    omega
  | creating _ count assigned _ => omega
  | sleeping _ count assigned _ => omega

theorem copy_cases {k : Nat} (stepped : s.copy k = some s') :
    s.point ≠ .returned ∧ s.threads[k]? = some none ∧ s' = { s with threads := s.threads.set k (some s.threadNum) } := by
  simp only [ClientMain.copy] at stepped
  split at stepped
  next => cases stepped
  next here running => exact ⟨running, here, (Option.some.inj stepped).symm⟩
  next => cases stepped

theorem copy_climbs {k : Nat} (climbs : s.Climbs) (stepped : s.copy k = some s') : s'.Climbs := by
  obtain ⟨-, here, rfl⟩ := copy_cases stepped
  have inside := (List.getElem?_eq_some_iff.mp here).1
  constructor
  case place =>
    cases climbs.place with
    | between point created assigned bound => exact .between point (by simpa using created) assigned bound
    | creating point created assigned bound => exact .creating point (by simpa using created) assigned bound
    | sleeping point created assigned bound => exact .sleeping point (by simpa using created) assigned bound
  case copied =>
    intro j v found
    by_cases same : j = k
    · subst same
      obtain rfl : s.threadNum = v := by simpa [inside] using found
      exact ⟨climbs.place.climbs inside, le_rfl⟩
    · exact climbs.copied j v (by simpa [List.getElem?_set, Ne.symm same] using found)

theorem step_climbs {e : MainEvent} (climbs : s.Climbs) (creates : Creates s e s') (stepped : s.step e = some s') :
    s'.Climbs := by
  simp only [ClientMain.step] at stepped
  split at stepped
  next looping =>
    split_ifs at stepped with more
    obtain rfl := Option.some.inj stepped
    cases climbs.place with
    | between _ created assigned bound =>
      refine ⟨.creating rfl created rfl more, fun k v found => ?_⟩
      obtain ⟨low, high⟩ := climbs.copied k v found
      have inside : k < s.threads.length := (List.getElem?_eq_some_iff.mp found).1
      have number := assigned (by omega)
      exact ⟨low, by simp only; omega⟩
    | creating point => simp [looping] at point
    | sleeping point => simp [looping] at point
  next looping =>
    split_ifs at stepped with more
    obtain rfl := Option.some.inj stepped
    cases climbs.place with
    | between _ created assigned bound => exact ⟨.between (.inr rfl) created assigned bound, climbs.copied⟩
    | creating point => simp [looping] at point
    | sleeping point => simp [looping] at point
  next creating =>
    obtain rfl := Option.some.inj stepped
    cases climbs.place with
    | between point => simp [creating] at point
    | creating _ created assigned bound =>
      refine ⟨.sleeping rfl (by simp [created]) assigned bound, fun k v found => climbs.copied k v ?_⟩
      rcases lt_or_ge k s.threads.length with old | new
      · rwa [List.getElem?_append_left old] at found
      · rw [List.getElem?_append_right new, List.getElem?_singleton] at found
        split_ifs at found
        cases found
    | sleeping point => simp [creating] at point
  next => exact absurd rfl creates
  next sleeping =>
    obtain rfl := Option.some.inj stepped
    cases climbs.place with
    | between point => simp [sleeping] at point
    | creating point => simp [sleeping] at point
    | sleeping _ created assigned bound =>
      exact ⟨.between (.inl rfl) created (fun _ => assigned) bound, climbs.copied⟩
  next k _ => exact copy_climbs climbs stepped
  next => cases stepped

theorem step_numOfThread {e : MainEvent} (stepped : s.step e = some s') : s'.numOfThread = s.numOfThread := by
  simp only [ClientMain.step] at stepped
  split at stepped
  next =>
    split_ifs at stepped
    exact Option.some.inj stepped ▸ rfl
  next =>
    split_ifs at stepped
    exact Option.some.inj stepped ▸ rfl
  next => exact Option.some.inj stepped ▸ rfl
  next => exact Option.some.inj stepped ▸ rfl
  next => exact Option.some.inj stepped ▸ rfl
  next =>
    obtain ⟨-, -, rfl⟩ := copy_cases stepped
    rfl
  next => cases stepped

theorem climbs_reachable {n : Nat} (reached : (clientMain n).ReachableWhile Creates s) :
    s.Climbs ∧ s.numOfThread = n := by
  refine reached.invariant (P := fun s => s.Climbs ∧ s.numOfThread = n) ?_ ?_
  · rintro s ⟨threadNum, rfl⟩
    refine ⟨⟨.between (.inl rfl) rfl (fun positive => absurd positive (lt_irrefl 0)) (Nat.zero_le n), ?_⟩, rfl⟩
    simp [ClientMain.start]
  · rintro s e s' _ ⟨climbs, same⟩ creates stepped
    exact ⟨step_climbs climbs creates stepped, (step_numOfThread stepped).trans same⟩

theorem fileNames_injective {n m m' : Nat} (small : n < 100000) (bound : m ≤ n) (bound' : m' ≤ n)
    (same : threadFileName (printThreadNum (UInt32.ofNat m)) = threadFileName (printThreadNum (UInt32.ofNat m'))) :
    m = m' := by
  have value : ∀ k ≤ n, (UInt32.ofNat k).toNat = k := fun k below =>
    UInt32.toNat_ofNat_of_lt' (lt_of_le_of_lt below (small.trans (by decide)))
  have printed : ∀ k ≤ n, printThreadNum (UInt32.ofNat k) = decimal (UInt32.ofNat k) := fun k below =>
    printThreadNum_eq (by rw [value k below]; omega)
  rw [printed m bound, printed m' bound'] at same
  rw [← value m bound, ← value m' bound', threadFileName_injective same]

end Runs

theorem names_differ_iff {n : Nat} (small : n < 100000) {s : ClientMain}
    (reached : (clientMain n).ReachableWhile Creates s) (created : s.i = n) {numbers : List Nat}
    (copied : s.threads = numbers.map some) :
    numbers.length = n ∧ (∀ v ∈ numbers, 1 ≤ v ∧ v ≤ n) ∧
      ((numbers.map fun v => threadFileName (printThreadNum (UInt32.ofNat v))).Nodup ↔
        numbers = (List.range n).map (· + 1)) := by
  obtain ⟨climbs, same⟩ := climbs_reachable reached
  have size : s.threads.length = n ∧ (0 < n → s.threadNum = n) := by
    cases climbs.place with
    | between _ count assigned _ => exact ⟨count.trans created, fun positive => (assigned (created ▸ positive)).trans created⟩
    | creating _ _ _ bound => omega
    | sleeping _ _ _ bound => omega
  have length : numbers.length = n := by rw [← size.1, copied, List.length_map]
  have each : ∀ k v, numbers[k]? = some v → k + 1 ≤ v ∧ v ≤ n := by
    intro k v here
    have inside := (List.getElem?_eq_some_iff.mp here).1
    obtain ⟨low, high⟩ := climbs.copied k v (by rw [copied, List.getElem?_map, here, Option.map_some])
    exact ⟨low, high.trans (size.2 (by omega)).le⟩
  have range : ∀ v ∈ numbers, 1 ≤ v ∧ v ≤ n := by
    intro v member
    obtain ⟨k, here⟩ := List.mem_iff_getElem?.mp member
    obtain ⟨low, high⟩ := each k v here
    exact ⟨by omega, high⟩
  refine ⟨length, range, fun distinct => ?_, fun own => ?_⟩
  · rw [← length]
    exact climbing_nodup (fun k v here => (each k v here).1) (fun v member => length.symm ▸ (range v member).2)
      distinct.of_map
  · rw [own]
    refine List.Nodup.map_on (fun m member m' member' agree => ?_) (nodup_climb n)
    rw [← own] at member member'
    exact fileNames_injective small (range m member).2 (range m' member').2 agree

def lateCopy : List MainEvent :=
  -- The first thread copies its number when `main` has assigned that of the second.
  [.assign, .create true, .wake, .assign, .copy 0, .create true, .copy 1, .wake]

theorem late_copy_same_name :
    ¬ ([2, 2].map fun v => threadFileName (printThreadNum (UInt32.ofNat v))).Nodup := by
  obtain ⟨s, ran, created, copied⟩ : ∃ s, (clientMain 2).execWhile Creates (.start 2 0) lateCopy = some s ∧ s.i = 2 ∧
      s.threads = [2, 2].map some := ⟨_, rfl, rfl, rfl⟩
  have first : (clientMain 2).init (.start 2 0) := ⟨0, rfl⟩
  have reached := System.execWhile_reachable (.initial _ first) ran
  have iff := (names_differ_iff (by decide) reached created copied).2.2
  exact fun distinct => absurd (iff.mp distinct) (by decide)

end NetProg.P2
