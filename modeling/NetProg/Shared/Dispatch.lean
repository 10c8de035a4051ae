import Mathlib.Data.List.Range
import Mathlib.Data.List.Nodup
import Mathlib.Logic.ExistsUnique
import NetProg.Shared.Transition

set_option autoImplicit false

namespace Dispatch

variable {K : Type} [DecidableEq K]

inductive Hand where
  | empty
  | holding (job : Nat)
  | running (job : Nat)
deriving DecidableEq, Repr

def Hand.job : Hand → Option Nat
  | .empty => none
  | .holding n => some n
  | .running n => some n

structure Board (K : Type) where
  submitted : Nat
  waiting : List Nat
  taken : List Nat
  hands : K → Hand
  started : List Nat
  done : List Nat

inductive Move (K : Type) where
  | submit
  | take (k : K)
  | start (k : K)
  | finish (k : K)

def initial : Board K :=
  { submitted := 0, waiting := [], taken := [], hands := fun _ => .empty, started := [], done := [] }

def step (b : Board K) : Move K → Option (Board K)
  | .submit => some { b with submitted := b.submitted + 1, waiting := b.waiting ++ [b.submitted] }
  | .take k => match b.hands k, b.waiting with
    | .empty, n :: rest => some { b with
        waiting := rest, taken := b.taken ++ [n], hands := Function.update b.hands k (.holding n) }
    | _, _ => none
  | .start k => match b.hands k with
    | .holding n => some { b with
        hands := Function.update b.hands k (.running n), started := b.started ++ [n] }
    | _ => none
  | .finish k => match b.hands k with
    | .running n => some { b with hands := Function.update b.hands k .empty, done := b.done ++ [n] }
    | _ => none

def system : Transition.System (Board K) (Move K) where
  init b := b = initial
  step := step

inductive Place (K : Type) where
  | waiting
  | worker (k : K)
  | done

def Board.At (b : Board K) (n : Nat) : Place K → Prop
  | .waiting => n ∈ b.waiting
  | .worker k => (b.hands k).job = some n
  | .done => n ∈ b.done

structure Board.Valid (b : Board K) : Prop where
  order : b.taken ++ b.waiting = List.range b.submitted
  placed : ∀ n ∈ b.taken, n ∈ b.done ∨ ∃ k, (b.hands k).job = some n
  handTaken : ∀ k n, (b.hands k).job = some n → n ∈ b.taken ∧ n ∉ b.done
  handOnce : ∀ k k' n, (b.hands k).job = some n → (b.hands k').job = some n → k = k'
  doneTaken : ∀ n ∈ b.done, n ∈ b.taken
  doneOnce : b.done.Nodup
  startedOnce : b.started.Nodup
  startedTaken : ∀ n ∈ b.started, n ∈ b.taken
  holdingNotStarted : ∀ k n, b.hands k = .holding n → n ∉ b.started
  runningStarted : ∀ k n, b.hands k = .running n → n ∈ b.started
  doneStarted : ∀ n ∈ b.done, n ∈ b.started

omit [DecidableEq K] in
theorem initial_valid : (initial : Board K).Valid := by
  constructor <;> simp [initial, Hand.job]

omit [DecidableEq K] in
theorem Board.Valid.head_fresh {b : Board K} (valid : b.Valid) {n : Nat} {rest : List Nat}
    (line : b.waiting = n :: rest) : n ∉ b.taken := by
  have distinct : (b.taken ++ b.waiting).Nodup := valid.order ▸ List.nodup_range
  intro member
  exact (List.nodup_append.mp distinct).2.2 n member n (by simp [line]) rfl

theorem submit_valid {b b' : Board K} (valid : b.Valid) (moved : step b .submit = some b') : b'.Valid := by
  obtain rfl : _ = b' := Option.some.inj moved
  exact { valid with order := by simp [← List.append_assoc, valid.order, List.range_succ] }

theorem take_valid {b b' : Board K} {k : K} (valid : b.Valid) (moved : step b (.take k) = some b') :
    b'.Valid := by
  obtain ⟨n, rest, idle, line, rfl⟩ : ∃ n rest, b.hands k = .empty ∧ b.waiting = n :: rest ∧
      b' = { b with waiting := rest, taken := b.taken ++ [n], hands := Function.update b.hands k (.holding n) } := by
    simp only [step] at moved
    split at moved
    next n rest idle line => exact ⟨n, rest, idle, line, (Option.some.inj moved).symm⟩
    next => cases moved
  have fresh := valid.head_fresh line
  have notDone : n ∉ b.done := fun member => fresh (valid.doneTaken n member)
  have notStarted : n ∉ b.started := fun member => fresh (valid.startedTaken n member)
  have notHeld : ∀ j, (b.hands j).job ≠ some n := fun j held => fresh (valid.handTaken j n held).1
  constructor
  case order => simpa [line] using valid.order
  case placed =>
    intro m member
    rcases List.mem_append.mp member with old | new
    next =>
      rcases valid.placed m old with done | ⟨j, held⟩
      next => exact .inl done
      next =>
        have other : j ≠ k := by
          rintro rfl
          simp [idle, Hand.job] at held
        exact .inr ⟨j, by simpa [other] using held⟩
    next => exact .inr ⟨k, by simp [Hand.job, List.mem_singleton.mp new]⟩
  case handTaken =>
    intro j m held
    by_cases here : j = k
    next =>
      subst here
      simp only [Function.update_self, Hand.job, Option.some.injEq] at held
      subst held
      exact ⟨by simp, notDone⟩
    next =>
      have old := valid.handTaken j m (by simpa [here] using held)
      exact ⟨by simp [old.1], old.2⟩
  case handOnce =>
    intro j j' m held held'
    by_cases here : j = k <;> by_cases here' : j' = k
    next => rw [here, here']
    next =>
      subst here
      simp only [Function.update_self, Hand.job, Option.some.injEq] at held
      subst held
      exact absurd (by simpa [here'] using held') (notHeld j')
    next =>
      subst here'
      simp only [Function.update_self, Hand.job, Option.some.injEq] at held'
      subst held'
      exact absurd (by simpa [here] using held) (notHeld j)
    next => exact valid.handOnce j j' m (by simpa [here] using held) (by simpa [here'] using held')
  case doneTaken => exact fun m member => List.mem_append_left _ (valid.doneTaken m member)
  case doneOnce => exact valid.doneOnce
  case startedOnce => exact valid.startedOnce
  case startedTaken => exact fun m member => List.mem_append_left _ (valid.startedTaken m member)
  case holdingNotStarted =>
    intro j m holding
    by_cases here : j = k
    next =>
      subst here
      simp only [Function.update_self, Hand.holding.injEq] at holding
      exact holding ▸ notStarted
    next => exact valid.holdingNotStarted j m (by simpa [here] using holding)
  case runningStarted =>
    intro j m running
    by_cases here : j = k
    next => simp [here] at running
    next => exact valid.runningStarted j m (by simpa [here] using running)
  case doneStarted => exact valid.doneStarted

theorem start_valid {b b' : Board K} {k : K} (valid : b.Valid) (moved : step b (.start k) = some b') :
    b'.Valid := by
  obtain ⟨n, holding, rfl⟩ : ∃ n, b.hands k = .holding n ∧ b' = { b with
      hands := Function.update b.hands k (.running n), started := b.started ++ [n] } := by
    simp only [step] at moved
    split at moved
    next n holding => exact ⟨n, holding, (Option.some.inj moved).symm⟩
    next => cases moved
  -- Starting a job does not move it: every hand keeps its job.
  have jobs : ∀ j, (Function.update b.hands k (.running n) j).job = (b.hands j).job := by
    intro j
    by_cases here : j = k
    next => subst here; simp [holding, Hand.job]
    next => simp [here]
  have own : (b.hands k).job = some n := by simp [holding, Hand.job]
  constructor
  case order => exact valid.order
  case placed => simpa only [jobs] using valid.placed
  case handTaken => simpa only [jobs] using valid.handTaken
  case handOnce => simpa only [jobs] using valid.handOnce
  case doneTaken => exact valid.doneTaken
  case doneOnce => exact valid.doneOnce
  case startedOnce =>
    refine List.nodup_append.mpr ⟨valid.startedOnce, by simp, ?_⟩
    intro m member m' last same
    rw [same, List.mem_singleton.mp last] at member
    exact valid.holdingNotStarted k n holding member
  case startedTaken =>
    intro m member
    rcases List.mem_append.mp member with old | new
    next => exact valid.startedTaken m old
    next => exact List.mem_singleton.mp new ▸ (valid.handTaken k n own).1
  case holdingNotStarted =>
    intro j m there
    by_cases here : j = k
    next => simp [here] at there
    next =>
      have there' : b.hands j = .holding m := by simpa [here] using there
      have different : m ≠ n := by
        rintro rfl
        exact here (valid.handOnce j k m (by simp [there', Hand.job]) own)
      simp [valid.holdingNotStarted j m there', different]
  case runningStarted =>
    intro j m running
    by_cases here : j = k
    next =>
      subst here
      simp only [Function.update_self, Hand.running.injEq] at running
      simp [running]
    next => exact List.mem_append_left _ (valid.runningStarted j m (by simpa [here] using running))
  case doneStarted => exact fun m member => List.mem_append_left _ (valid.doneStarted m member)

theorem finish_valid {b b' : Board K} {k : K} (valid : b.Valid) (moved : step b (.finish k) = some b') :
    b'.Valid := by
  obtain ⟨n, running, rfl⟩ : ∃ n, b.hands k = .running n ∧
      b' = { b with hands := Function.update b.hands k .empty, done := b.done ++ [n] } := by
    simp only [step] at moved
    split at moved
    next n running => exact ⟨n, running, (Option.some.inj moved).symm⟩
    next => cases moved
  have own : (b.hands k).job = some n := by simp [running, Hand.job]
  -- After the step a job is in a hand exactly when it was in another worker's hand before.
  have jobs : ∀ j m, (Function.update b.hands k .empty j).job = some m ↔ j ≠ k ∧ (b.hands j).job = some m := by
    intro j m
    by_cases here : j = k
    next => simp [here, Hand.job]
    next => simp [here]
  constructor
  case order => exact valid.order
  case placed =>
    intro m member
    rcases valid.placed m member with done | ⟨j, held⟩
    next => exact .inl (List.mem_append_left _ done)
    next =>
      by_cases here : j = k
      next =>
        subst here
        exact .inl (by simp [Option.some.inj (held.symm.trans own)])
      next => exact .inr ⟨j, (jobs j m).mpr ⟨here, held⟩⟩
  case handTaken =>
    intro j m held
    obtain ⟨other, before⟩ := (jobs j m).mp held
    obtain ⟨taken, notDone⟩ := valid.handTaken j m before
    refine ⟨taken, ?_⟩
    rw [List.mem_append, List.mem_singleton]
    rintro (done | same)
    · exact notDone done
    · exact other (valid.handOnce j k m before (same ▸ own))
  case handOnce =>
    intro j j' m held held'
    exact valid.handOnce j j' m ((jobs j m).mp held).2 ((jobs j' m).mp held').2
  case doneTaken =>
    intro m member
    rcases List.mem_append.mp member with old | new
    next => exact valid.doneTaken m old
    next => exact List.mem_singleton.mp new ▸ (valid.handTaken k n own).1
  case doneOnce =>
    refine List.nodup_append.mpr ⟨valid.doneOnce, by simp, ?_⟩
    intro m member m' last same
    rw [same, List.mem_singleton.mp last] at member
    exact (valid.handTaken k n own).2 member
  case startedOnce => exact valid.startedOnce
  case startedTaken => exact valid.startedTaken
  case holdingNotStarted =>
    intro j m holding
    by_cases here : j = k
    next => simp [here] at holding
    next => exact valid.holdingNotStarted j m (by simpa [here] using holding)
  case runningStarted =>
    intro j m there
    by_cases here : j = k
    next => simp [here] at there
    next => exact valid.runningStarted j m (by simpa [here] using there)
  case doneStarted =>
    intro m member
    rcases List.mem_append.mp member with old | new
    next => exact valid.doneStarted m old
    next => exact List.mem_singleton.mp new ▸ valid.runningStarted k n running

theorem reachable_valid {b : Board K} (reached : system.Reachable b) : b.Valid := by
  refine reached.invariant (fun b start => ?_) fun b move b' _ valid _ moved => ?_
  · exact (show b = initial from start) ▸ initial_valid
  · cases move with
    | submit => exact submit_valid valid moved
    | take k => exact take_valid valid moved
    | start k => exact start_valid valid moved
    | finish k => exact finish_valid valid moved

theorem step_grows {b b' : Board K} {move : Move K} (moved : step b move = some b') :
    b.submitted ≤ b'.submitted ∧ b.taken.length ≤ b'.taken.length ∧ b.done ⊆ b'.done := by
  cases move with
  | submit =>
    obtain rfl : _ = b' := Option.some.inj moved
    exact ⟨Nat.le_succ _, le_rfl, List.Subset.refl _⟩
  | take k =>
    simp only [step] at moved
    split at moved
    next =>
      obtain rfl := Option.some.inj moved
      exact ⟨le_rfl, by simp, List.Subset.refl _⟩
    next => cases moved
  | start k =>
    simp only [step] at moved
    split at moved
    next =>
      obtain rfl := Option.some.inj moved
      exact ⟨le_rfl, le_rfl, List.Subset.refl _⟩
    next => cases moved
  | finish k =>
    simp only [step] at moved
    split at moved
    next =>
      obtain rfl := Option.some.inj moved
      exact ⟨le_rfl, le_rfl, List.subset_append_left _ _⟩
    next => cases moved

omit [DecidableEq K] in
theorem Board.Valid.done_of_hands {b : Board K} (valid : b.Valid) (hands : ∀ k, (b.hands k).job = none) {n : Nat}
    (taken : n < b.taken.length) : n ∈ b.done := by
  have number : b.taken[n] = n := by
    have place := congrArg (·[n]?) valid.order
    have bound : n < b.submitted := by
      have lengths := congrArg List.length valid.order
      simp only [List.length_append, List.length_range] at lengths
      omega
    simpa [List.getElem?_append_left taken, List.getElem?_range bound, List.getElem?_eq_getElem taken] using place
  rcases valid.placed n (number ▸ List.getElem_mem taken) with done | ⟨k, held⟩
  · exact done
  · rw [hands k] at held
    cases held

omit [DecidableEq K] in
theorem Board.Valid.exactly_one_place {b : Board K} (valid : b.Valid) (n : Nat) (known : n < b.submitted) :
    ∃! place, b.At n place := by
  have distinct : (b.taken ++ b.waiting).Nodup := valid.order ▸ List.nodup_range
  have apart : n ∈ b.taken → n ∉ b.waiting := fun taken waiting =>
    (List.nodup_append.mp distinct).2.2 n taken n waiting rfl
  have member : n ∈ b.taken ++ b.waiting := by rw [valid.order]; exact List.mem_range.mpr known
  rcases List.mem_append.mp member with taken | waiting
  · rcases valid.placed n taken with done | ⟨k, held⟩
    · refine ⟨.done, done, ?_⟩
      rintro (_ | k | _) here
      · exact absurd here (apart taken)
      · exact absurd done (valid.handTaken k n here).2
      · rfl
    · refine ⟨.worker k, held, ?_⟩
      rintro (_ | j | _) here
      · exact absurd here (apart taken)
      · rw [valid.handOnce j k n here held]
      · exact absurd here (valid.handTaken k n held).2
  · refine ⟨.waiting, waiting, ?_⟩
    rintro (_ | j | _) here
    · rfl
    · exact absurd waiting (apart (valid.handTaken j n here).1)
    · exact absurd waiting (apart (valid.doneTaken n here))

def TakesOwn (assign : Nat → K) (b : Board K) (move : Move K) (_ : Board K) : Prop :=
  ∀ k n rest, move = .take k → b.waiting = n :: rest → assign n = k

structure Board.InTurn (assign : Nat → K) (b : Board K) : Prop where
  own : ∀ k n, (b.hands k).job = some n → assign n = k
  turn : ∀ n ∈ b.taken, ∀ m ∈ b.taken, n < m → assign n = assign m → n ∈ b.done

omit [DecidableEq K] in
theorem Board.Valid.taken_before {b : Board K} (valid : b.Valid) {n m : Nat} {rest : List Nat}
    (line : b.waiting = n :: rest) (member : m ∈ b.taken) : m < n := by
  have sorted : (b.taken ++ b.waiting).Pairwise (· < ·) := valid.order ▸ List.pairwise_lt_range
  exact (List.pairwise_append.mp sorted).2.2 m member n (by simp [line])

theorem take_inTurn {assign : Nat → K} {b b' : Board K} {k : K} (valid : b.Valid) (inTurn : b.InTurn assign)
    (own : TakesOwn assign b (.take k) b') (moved : step b (.take k) = some b') : b'.InTurn assign := by
  simp only [step] at moved
  split at moved
  next n rest idle line =>
    obtain rfl := Option.some.inj moved
    have mine : assign n = k := own k n rest rfl line
    constructor
    case own =>
      intro j m held
      by_cases here : j = k
      next =>
        subst here
        simp only [Function.update_self, Hand.job, Option.some.injEq] at held
        exact held ▸ mine
      next => exact inTurn.own j m (by simpa [here] using held)
    case turn =>
      intro i early m late before same
      rcases List.mem_append.mp late with old | new
      next =>
        rcases List.mem_append.mp early with old' | new'
        next => exact inTurn.turn i old' m old before same
        next =>
          have after := valid.taken_before line old
          have last := List.mem_singleton.mp new'
          omega
      next =>
        -- Its worker has nothing in hand, so whatever it took before is done.
        obtain rfl := List.mem_singleton.mp new
        have old' : i ∈ b.taken := by
          rcases List.mem_append.mp early with old' | new'
          next => exact old'
          next =>
            have last := List.mem_singleton.mp new'
            omega
        rcases valid.placed i old' with done | ⟨j, held⟩
        next => exact done
        next =>
          have there := inTurn.own j i held
          rw [same, mine] at there
          rw [← there, idle] at held
          cases held
  next => cases moved

theorem step_inTurn {assign : Nat → K} {b b' : Board K} {move : Move K} (valid : b.Valid) (inTurn : b.InTurn assign)
    (own : TakesOwn assign b move b') (moved : step b move = some b') : b'.InTurn assign := by
  cases move with
  | submit =>
    obtain rfl : _ = b' := Option.some.inj moved
    exact ⟨inTurn.own, inTurn.turn⟩
  | take k => exact take_inTurn valid inTurn own moved
  | start k =>
    simp only [step] at moved
    split at moved
    next n holding =>
      obtain rfl := Option.some.inj moved
      refine ⟨fun j m held => ?_, inTurn.turn⟩
      by_cases here : j = k
      next =>
        subst here
        simp only [Function.update_self, Hand.job, Option.some.injEq] at held
        exact inTurn.own j m (by simp [holding, Hand.job, held])
      next => exact inTurn.own j m (by simpa [here] using held)
    next => cases moved
  | finish k =>
    simp only [step] at moved
    split at moved
    next n running =>
      obtain rfl := Option.some.inj moved
      refine ⟨fun j m held => ?_, fun i early m late before same => ?_⟩
      · by_cases here : j = k
        next => simp [here, Hand.job] at held
        next => exact inTurn.own j m (by simpa [here] using held)
      · exact List.mem_append_left _ (inTurn.turn i early m late before same)
    next => cases moved

theorem reachable_inTurn {assign : Nat → K} {b : Board K} (reached : system.ReachableWhile (TakesOwn assign) b) :
    b.InTurn assign := by
  refine reached.invariant (fun b start => ?_) fun b move b' before inTurn own moved => ?_
  · rw [show b = initial from start]
    constructor <;> simp [initial, Hand.job]
  · exact step_inTurn (reachable_valid before.reachable) inTurn own moved

omit [DecidableEq K] in
theorem Board.Valid.taken_eq {b : Board K} (valid : b.Valid) : b.taken = List.range b.taken.length := by
  have early := congrArg (List.take b.taken.length) valid.order
  have lengths := congrArg List.length valid.order
  simp only [List.length_append, List.length_range] at lengths
  rwa [List.take_left, List.take_range, Nat.min_eq_left (by omega)] at early

omit [DecidableEq K] in
theorem Board.InTurn.window {assign : Nat → K} {b : Board K} (inTurn : b.InTurn assign) (valid : b.Valid)
    {round : Nat} (positive : 0 < round) (assigns : ∀ n, assign (n + round) = assign n) {n : Nat} (undone : n ∉ b.done) :
    b.taken.length ≤ n + round := by
  by_contra beyond
  have taken (m : Nat) (early : m < b.taken.length) : m ∈ b.taken := by
    rw [valid.taken_eq]
    exact List.mem_range.mpr early
  exact undone (inTurn.turn n (taken n (by omega)) (n + round) (taken (n + round) (by omega)) (by omega)
    (assigns n).symm)

end Dispatch
