import NetProg.Net.FdPool

set_option autoImplicit false

-- Connections are numbered in the order in which they are accepted; `sockets` is the connection that a descriptor
-- number stands for at the moment.

namespace NetProg

def Serves (clientfd : Slot → Int) (sockets : Int → Option Nat) (i : Slot) (c : Nat) : Prop :=
  0 < clientfd i ∧ sockets (clientfd i) = some c

structure Wiring (clientfd : Slot → Int) (sockets : Int → Option Nat) (accepted : Nat) : Prop where
  connected : ∀ i, 0 < clientfd i → ∃ c, Serves clientfd sockets i c
  distinct : ∀ i j, 0 < clientfd i → clientfd i = clientfd j → i = j
  once : ∀ fd fd' c, sockets fd = some c → sockets fd' = some c → fd = fd'
  numbered : ∀ fd c, sockets fd = some c → c < accepted

variable {clientfd clientfd' : Slot → Int} {sockets : Int → Option Nat} {accepted : Nat}

theorem wiring_empty (free : ∀ i, clientfd i < 0) (closed : ∀ fd, sockets fd = none) :
    Wiring clientfd sockets accepted where
  connected i occupied := absurd occupied (free i).asymm
  distinct i _ occupied := absurd occupied (free i).asymm
  once fd _ _ socket := by simp [closed] at socket
  numbered fd _ socket := by simp [closed] at socket

namespace Wiring

theorem one (wiring : Wiring clientfd sockets accepted) {i j : Slot} {c : Nat} (first : Serves clientfd sockets i c)
    (second : Serves clientfd sockets j c) : i = j :=
  wiring.distinct i j first.1 (wiring.once _ _ c first.2 second.2)

theorem old (wiring : Wiring clientfd sockets accepted) {i : Slot} {c : Nat} (serves : Serves clientfd sockets i c) :
    c < accepted := wiring.numbered _ c serves.2

theorem away (wiring : Wiring clientfd sockets accepted) {fd : Int} (closed : sockets fd = none) {i : Slot}
    (occupied : 0 < clientfd i) : clientfd i ≠ fd := by
  rintro rfl
  obtain ⟨c, _, socket⟩ := wiring.connected i occupied
  exact absurd (closed.symm.trans socket) (by simp)

def Takes (clientfd clientfd' : Slot → Int) (fd : Int) : Prop :=
  -- The new connection has a slot that was free, or none at all.
  (∃ i, clientfd i < 0 ∧ clientfd' = Function.update clientfd i fd) ∨ clientfd' = clientfd

section Accept

variable {fd : Int} (takes : Takes clientfd clientfd' fd)
include takes

theorem Takes.cases (j : Slot) : clientfd' j = clientfd j ∨ clientfd j < 0 ∧ clientfd' j = fd := by
  rcases takes with ⟨i, free, rfl⟩ | rfl
  · by_cases same : j = i
    · subst same
      exact .inr ⟨free, Function.update_self ..⟩
    · exact .inl (Function.update_of_ne same _ _)
  · exact .inl rfl

theorem serves_accept (wiring : Wiring clientfd sockets accepted) (closed : sockets fd = none) {j : Slot} {c : Nat}
    (serves : Serves clientfd' (Function.update sockets fd (some accepted)) j c) :
    Serves clientfd sockets j c ∨ clientfd j < 0 ∧ c = accepted := by
  obtain ⟨occupied, socket⟩ := serves
  rcases takes.cases j with same | ⟨free, new⟩
  · rw [same] at occupied socket
    rw [Function.update_of_ne (wiring.away closed occupied)] at socket
    exact .inl ⟨occupied, socket⟩
  · rw [new, Function.update_self] at socket
    exact .inr ⟨free, (Option.some.inj socket).symm⟩

theorem accept (wiring : Wiring clientfd sockets accepted) (positive : 0 < fd) (closed : sockets fd = none) :
    Wiring clientfd' (Function.update sockets fd (some accepted)) (accepted + 1) where
  connected i occupied := by
    rcases takes.cases i with same | ⟨_, new⟩
    · rw [same] at occupied
      obtain ⟨c, _, socket⟩ := wiring.connected i occupied
      refine ⟨c, same ▸ occupied, ?_⟩
      rw [same, Function.update_of_ne (wiring.away closed occupied), socket]
    · exact ⟨accepted, new ▸ positive, by rw [new, Function.update_self]⟩
  distinct i j occupied same := by
    rcases takes with ⟨k, _, rfl⟩ | rfl
    · simp only [Function.update_apply] at occupied same
      split_ifs at occupied same with first second second
      · rw [first, second]
      · exact absurd same.symm (wiring.away closed (same ▸ positive))
      · exact absurd same (wiring.away closed occupied)
      · exact wiring.distinct i j occupied same
    · exact wiring.distinct i j occupied same
  once fd₁ fd₂ c first second := by
    simp only [Function.update_apply] at first second
    split_ifs at first second with new₁ new₂ new₂
    · rw [new₁, new₂]
    · obtain rfl := Option.some.inj first
      exact absurd (wiring.numbered _ _ second) (lt_irrefl _)
    · obtain rfl := Option.some.inj second
      exact absurd (wiring.numbered _ _ first) (lt_irrefl _)
    · exact wiring.once _ _ c first second
  numbered fd' c socket := by
    simp only [Function.update_apply] at socket
    split_ifs at socket
    · obtain rfl := Option.some.inj socket
      exact Nat.lt_succ_self _
    · exact (wiring.numbered _ _ socket).trans (Nat.lt_succ_self _)

end Accept

section Close

variable {i : Slot}

theorem serves_close {j : Slot} {c : Nat}
    (serves : Serves (Function.update clientfd i (-1)) (Function.update sockets (clientfd i) none) j c) :
    j ≠ i ∧ Serves clientfd sockets j c := by
  obtain ⟨occupied, socket⟩ := serves
  by_cases same : j = i
  · simp [same] at occupied
  · rw [Function.update_of_ne same] at occupied socket
    by_cases shared : clientfd j = clientfd i
    · simp [shared] at socket
    · rw [Function.update_of_ne shared] at socket
      exact ⟨same, occupied, socket⟩

theorem close (wiring : Wiring clientfd sockets accepted) :
    Wiring (Function.update clientfd i (-1)) (Function.update sockets (clientfd i) none) accepted where
  connected j occupied := by
    by_cases same : j = i
    · simp [same] at occupied
    · rw [Function.update_of_ne same] at occupied
      obtain ⟨c, _, socket⟩ := wiring.connected j occupied
      have apart : clientfd j ≠ clientfd i := fun shared => same (wiring.distinct j i occupied shared)
      refine ⟨c, ?_⟩
      rw [Serves, Function.update_of_ne same, Function.update_of_ne apart]
      exact ⟨occupied, socket⟩
  distinct j k occupied same := by
    simp only [Function.update_apply] at occupied same
    split_ifs at occupied same
    all_goals first | omega | exact wiring.distinct j k occupied same
  once fd fd' c first second := by
    simp only [Function.update_apply] at first second
    split_ifs at first second
    exact wiring.once fd fd' c first second
  numbered fd c socket := by
    simp only [Function.update_apply] at socket
    split_ifs at socket
    exact wiring.numbered fd c socket

end Close

end Wiring

end NetProg
