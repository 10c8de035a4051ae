import Mathlib.Data.List.Induction
import Mathlib.Logic.Basic

set_option autoImplicit false

namespace Transition

structure System (σ ε : Type) where
  init : σ → Prop
  step : σ → ε → Option σ

namespace System

variable {σ ε : Type}

-- States that a run reaches when each of its steps meets `ok`.
inductive ReachableWhile (sys : System σ ε) (ok : σ → ε → σ → Prop) : σ → Prop where
  | initial (s : σ) (start : sys.init s) : ReachableWhile sys ok s
  | next (s : σ) (e : ε) (s' : σ) (before : ReachableWhile sys ok s) (allowed : ok s e s')
      (stepped : sys.step s e = some s') : ReachableWhile sys ok s'

def Reachable (sys : System σ ε) : σ → Prop := sys.ReachableWhile fun _ _ _ => True

variable {sys : System σ ε} {ok : σ → ε → σ → Prop}

theorem ReachableWhile.invariant {P : σ → Prop} (initially : ∀ s, sys.init s → P s)
    (preserved : ∀ s e s', sys.ReachableWhile ok s → P s → ok s e s' →
      sys.step s e = some s' → P s') {s : σ} (reached : sys.ReachableWhile ok s) : P s := by
  induction reached with
  | initial s start => exact initially s start
  | next s e s' before allowed stepped ih => exact preserved s e s' before ih allowed stepped

theorem ReachableWhile.weaken {weaker : σ → ε → σ → Prop}
    (implied : ∀ s e s', ok s e s' → weaker s e s') {s : σ}
    (reached : sys.ReachableWhile ok s) : sys.ReachableWhile weaker s := by
  induction reached with
  | initial s start => exact .initial s start
  | next s e s' _ allowed stepped ih => exact .next s e s' ih (implied s e s' allowed) stepped

theorem ReachableWhile.reachable {s : σ} (reached : sys.ReachableWhile ok s) : sys.Reachable s :=
  reached.weaken fun _ _ _ _ => trivial

def exec (sys : System σ ε) : σ → List ε → Option σ
  | s, [] => some s
  | s, e :: rest => match sys.step s e with
    | none => none
    | some s' => exec sys s' rest

theorem exec_cons {s s' : σ} {e : ε} (stepped : sys.step s e = some s') (rest : List ε) :
    sys.exec s (e :: rest) = sys.exec s' rest := by
  simp [exec, stepped]

theorem exec_invariant {P : σ → Prop} (preserved : ∀ s e s', P s → sys.step s e = some s' → P s') {s s' : σ}
    {events : List ε} (start : P s) (ran : sys.exec s events = some s') : P s' := by
  induction events generalizing s with
  | nil =>
    simp only [exec, Option.some.injEq] at ran
    exact ran ▸ start
  | cons e rest ih =>
    cases stepped : sys.step s e with
    | none => simp [exec, stepped] at ran
    | some mid =>
      rw [exec_cons stepped] at ran
      exact ih (preserved s e mid start stepped) ran

theorem exec_reachable {s s' : σ} {events : List ε} (start : sys.Reachable s)
    (ran : sys.exec s events = some s') : sys.Reachable s' :=
  exec_invariant (fun s e s' before stepped => .next s e s' before trivial stepped) start ran

theorem exec_append {s mid : σ} {events : List ε} (ran : sys.exec s events = some mid) (later : List ε) :
    sys.exec s (events ++ later) = sys.exec mid later := by
  induction events generalizing s with
  | nil =>
    obtain rfl : s = mid := Option.some.inj ran
    rfl
  | cons e rest ih =>
    cases stepped : sys.step s e with
    | none => simp [exec, stepped] at ran
    | some next =>
      rw [exec_cons stepped] at ran
      rw [List.cons_append, exec_cons stepped]
      exact ih ran

theorem exec_concat {s s' : σ} {events : List ε} {e : ε} :
    sys.exec s (events ++ [e]) = some s' ↔ ∃ mid, sys.exec s events = some mid ∧ sys.step mid e = some s' := by
  cases ran : sys.exec s events with
  | none =>
    simp only [reduceCtorEq, false_and, exists_false, iff_false]
    induction events generalizing s with
    | nil => cases ran
    | cons first rest ih =>
      cases stepped : sys.step s first with
      | none => simp [exec, stepped]
      | some next =>
        rw [exec_cons stepped] at ran
        rw [List.cons_append, exec_cons stepped]
        exact ih ran
  | some mid =>
    rw [exec_append ran]
    cases stepped : sys.step mid e <;> simp [exec, stepped]

theorem exec_induction {P : List ε → σ → Prop} {s : σ} (initially : P [] s)
    (extended : ∀ events mid e next, P events mid → sys.step mid e = some next → P (events ++ [e]) next)
    {events : List ε} {s' : σ} (ran : sys.exec s events = some s') : P events s' := by
  induction events using List.reverseRecOn generalizing s' with
  | nil =>
    obtain rfl : s = s' := Option.some.inj ran
    exact initially
  | append_singleton earlier last ih =>
    obtain ⟨mid, before, stepped⟩ := exec_concat.mp ran
    exact extended earlier mid last s' (ih before) stepped

theorem exec_to {way goal : σ → Prop} {allowed : ε → Prop} (distance : σ → Nat)
    (progress : ∀ s, way s → ∃ e s', allowed e ∧ sys.step s e = some s' ∧
      (goal s' ∨ way s' ∧ distance s' < distance s)) {s : σ} (start : way s) :
    ∃ events s', (∀ e ∈ events, allowed e) ∧ sys.exec s events = some s' ∧ goal s' := by
  induction far : distance s using Nat.strongRecOn generalizing s with
  | ind n ih =>
    obtain ⟨e, s', fine, stepped, reached | ⟨onward, nearer⟩⟩ := progress s start
    · exact ⟨[e], s', by simpa using fine, by rw [exec_cons stepped]; rfl, reached⟩
    · obtain ⟨events, final, all, ran, reached⟩ := ih _ (far ▸ nearer) onward rfl
      refine ⟨e :: events, final, ?_, by rw [exec_cons stepped, ran], reached⟩
      intro e' member
      rcases List.mem_cons.mp member with rfl | later
      · exact fine
      · exact all e' later

theorem exec_length {way : σ → Prop} {allowed : ε → Prop} (distance : σ → Nat)
    (nearer : ∀ s e s', way s → allowed e → sys.step s e = some s' → way s' ∧ distance s' < distance s) {s s' : σ}
    {events : List ε} (start : way s) (all : ∀ e ∈ events, allowed e) (ran : sys.exec s events = some s') :
    events.length + distance s' ≤ distance s := by
  induction events generalizing s with
  | nil =>
    obtain rfl : s = s' := Option.some.inj ran
    simp
  | cons e rest ih =>
    cases stepped : sys.step s e with
    | none => simp [exec, stepped] at ran
    | some mid =>
      rw [exec_cons stepped] at ran
      obtain ⟨onward, closer⟩ := nearer s e mid start (all e (by simp)) stepped
      have later := ih onward (fun e member => all e (by simp [member])) ran
      rw [List.length_cons]
      omega

def execWhile (sys : System σ ε) (ok : σ → ε → σ → Prop) [∀ s e s', Decidable (ok s e s')] :
    σ → List ε → Option σ
  | s, [] => some s
  | s, e :: rest => match sys.step s e with
    | none => none
    | some s' => if ok s e s' then execWhile sys ok s' rest else none

theorem execWhile_reachable [∀ s e s', Decidable (ok s e s')] {s s' : σ} {events : List ε}
    (start : sys.ReachableWhile ok s) (ran : sys.execWhile ok s events = some s') : sys.ReachableWhile ok s' := by
  induction events generalizing s with
  | nil =>
    simp only [execWhile, Option.some.injEq] at ran
    exact ran ▸ start
  | cons e rest ih =>
    cases stepped : sys.step s e with
    | none => simp [execWhile, stepped] at ran
    | some mid =>
      by_cases allowed : ok s e mid
      · exact ih (.next s e mid start allowed stepped) (by simpa [execWhile, stepped, allowed] using ran)
      · simp [execWhile, stepped, allowed] at ran

theorem execWhile_cons [∀ s e s', Decidable (ok s e s')] {s s' : σ} {e : ε} {rest : List ε} :
    sys.execWhile ok s (e :: rest) = some s' ↔
      ∃ mid, sys.step s e = some mid ∧ ok s e mid ∧ sys.execWhile ok mid rest = some s' := by
  cases stepped : sys.step s e with
  | none => simp [execWhile, stepped]
  | some mid => by_cases allowed : ok s e mid <;> simp [execWhile, stepped, allowed]

theorem execWhile_exec [∀ s e s', Decidable (ok s e s')] {s s' : σ} {events : List ε}
    (ran : sys.execWhile ok s events = some s') : sys.exec s events = some s' := by
  induction events generalizing s with
  | nil => exact ran
  | cons e rest ih =>
    obtain ⟨mid, stepped, -, later⟩ := execWhile_cons.mp ran
    rw [exec_cons stepped]
    exact ih later

theorem execWhile_invariant [∀ s e s', Decidable (ok s e s')] {P : σ → Prop}
    (preserved : ∀ s e s', P s → ok s e s' → sys.step s e = some s' → P s') {s s' : σ} {events : List ε} (start : P s)
    (ran : sys.execWhile ok s events = some s') : P s' := by
  induction events generalizing s with
  | nil =>
    obtain rfl : s = s' := Option.some.inj ran
    exact start
  | cons e rest ih =>
    obtain ⟨mid, stepped, allowed, later⟩ := execWhile_cons.mp ran
    exact ih (preserved s e mid start allowed stepped) later

-- `abs` maps every allowed step to an allowed step of `spec` or to no step at all.
def Refines {τ δ : Type} (sys : System σ ε) (ok : σ → ε → σ → Prop) (spec : System τ δ) (allowed : τ → δ → τ → Prop)
    (abs : σ → τ) : Prop :=
  (∀ s, sys.init s → spec.init (abs s)) ∧
    ∀ s e s', ok s e s' → sys.step s e = some s' →
      abs s' = abs s ∨ ∃ d, allowed (abs s) d (abs s') ∧ spec.step (abs s) d = some (abs s')

theorem Refines.reachable {τ δ : Type} {spec : System τ δ} {allowed : τ → δ → τ → Prop} {abs : σ → τ}
    (refines : sys.Refines ok spec allowed abs) {s : σ} (reached : sys.ReachableWhile ok s) :
    spec.ReachableWhile allowed (abs s) := by
  induction reached with
  | initial s start => exact .initial _ (refines.1 s start)
  | next s e s' _ allowed stepped ih =>
    rcases refines.2 s e s' allowed stepped with same | ⟨d, permitted, moved⟩
    · rwa [same]
    · exact .next _ d _ ih permitted moved

-- `related` states stay related when `spec` answers each allowed step with an allowed step of its own or with none.
def Simulates {τ δ : Type} (sys : System σ ε) (ok : σ → ε → σ → Prop) (spec : System τ δ) (allowed : τ → δ → τ → Prop)
    (related : σ → τ → Prop) : Prop :=
  (∀ s, sys.init s → ∃ t, spec.init t ∧ related s t) ∧
    ∀ s t e s', related s t → ok s e s' → sys.step s e = some s' →
      related s' t ∨ ∃ d t', allowed t d t' ∧ spec.step t d = some t' ∧ related s' t'

theorem Simulates.reachable {τ δ : Type} {spec : System τ δ} {allowed : τ → δ → τ → Prop} {related : σ → τ → Prop}
    (simulates : sys.Simulates ok spec allowed related) {s : σ} (reached : sys.ReachableWhile ok s) :
    ∃ t, spec.ReachableWhile allowed t ∧ related s t := by
  induction reached with
  | initial s start =>
    obtain ⟨t, starts, here⟩ := simulates.1 s start
    exact ⟨t, .initial t starts, here⟩
  | next s e s' _ allowed stepped ih =>
    obtain ⟨t, earlier, here⟩ := ih
    rcases simulates.2 s t e s' here allowed stepped with there | ⟨d, t', permitted, moved, there⟩
    · exact ⟨t, earlier, there⟩
    · exact ⟨t', .next t d t' earlier permitted moved, there⟩

end System

end Transition
