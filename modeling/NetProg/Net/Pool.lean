import NetProg.Net.FdPool

set_option autoImplicit false

namespace NetProg

open Probing

variable {α : Type}

structure FdPool.Sound (sockfd : Int) (p : FdPool α) : Prop where
  readSet : ∀ fd, p.readSet fd = true ↔ fd = sockfd ∨ ∃ i, 0 < p.clientfd i ∧ p.clientfd i = fd
  distinct : ∀ i j, 0 < p.clientfd i → p.clientfd i = p.clientfd j → i = j
  apart : ∀ i, 0 < p.clientfd i → p.clientfd i ≠ sockfd
  free : ∀ i, 0 < p.clientfd i ∨ p.clientfd i = -1
  maxfd : ∀ fd, p.readSet fd = true → fd ≤ p.maxfd
  used : ∀ i, 0 < p.clientfd i → (i : Int) ≤ p.maxi

theorem initPool_sound (sockfd : Int) (p : FdPool α) : (initPool sockfd p).Sound sockfd where
  readSet fd := by simp [initPool]
  distinct i j occupied := by simp [initPool] at occupied
  apart i occupied := by simp [initPool] at occupied
  free i := .inr rfl
  maxfd fd member := by
    simp only [initPool, beq_iff_eq] at member
    exact member.le
  used i occupied := by simp [initPool] at occupied

inductive FdPool.Added (p : FdPool α) (sockfd : Int) (clientAddr : α) : FdPool α → Prop where
  | taken (i : Slot) (free : p.clientfd i < 0) :
      p.Added sockfd clientAddr ({ p with nready := p.nready - 1 }.takeSlot i sockfd clientAddr)
  | full (none_free : ∀ i, ¬ p.clientfd i < 0) : p.Added sockfd clientAddr { p with nready := p.nready - 1 }

theorem FdPool.Added.cases {p p' : FdPool α} {sockfd : Int} {clientAddr : α} (added : p.Added sockfd clientAddr p')
    (i : Slot) : p'.clientfd i = p.clientfd i ∧ p'.clientAddr i = p.clientAddr i ∨
      p.clientfd i < 0 ∧ p'.clientfd i = sockfd ∧ p'.clientAddr i = clientAddr := by
  cases added with
  | full => exact .inl ⟨rfl, rfl⟩
  | taken j free =>
    simp only [takeSlot]
    by_cases here : i = j
    · subst here
      exact .inr ⟨free, Function.update_self .., Function.update_self ..⟩
    · exact .inl ⟨Function.update_of_ne here .., Function.update_of_ne here ..⟩

theorem FdPool.Added.counts {p p' : FdPool α} {sockfd : Int} {clientAddr : α} (added : p.Added sockfd clientAddr p') :
    p'.nready = p.nready - 1 ∧ p'.readySet = p.readySet := by
  cases added <;> exact ⟨rfl, rfl⟩

theorem addClient_added (sockfd : Int) (clientAddr : α) (p : FdPool α) :
    p.Added sockfd clientAddr (addClient sockfd clientAddr p) := by
  simp only [addClient]
  split
  next i found =>
    have free := scan_stops found
    simp only [FdPool.isFree, decide_eq_true_eq] at free
    exact .taken i free
  next nothing =>
    refine .full fun i free => ?_
    have stops : FdPool.isFree { p with nready := p.nready - 1 } i = true := by simpa [FdPool.isFree] using free
    obtain ⟨j, found⟩ := scan_finds _ 0 stops
    exact absurd (nothing.symm.trans found) (by simp)

namespace FdPool.Sound

variable {sockfd fd : Int} {p : FdPool α}

theorem added {p' : FdPool α} {clientAddr : α} (sound : p.Sound sockfd) (positive : 0 < fd) (other : fd ≠ sockfd)
    (unused : ∀ i, p.clientfd i ≠ fd) (added : p.Added fd clientAddr p') : p'.Sound sockfd := by
  cases added with
  | full => exact ⟨sound.readSet, sound.distinct, sound.apart, sound.free, sound.maxfd, sound.used⟩
  | taken i free =>
    constructor
    case readSet =>
      intro fd'
      simp only [takeSlot, Function.update_apply]
      by_cases new : fd' = fd
      · subst new
        refine ⟨fun _ => .inr ⟨i, by simpa using positive⟩, fun _ => by simp⟩
      · rw [if_neg new, sound.readSet fd']
        refine or_congr_right ⟨?_, ?_⟩
        · rintro ⟨j, occupied, rfl⟩
          have elsewhere : j ≠ i := by
            rintro rfl
            omega
          exact ⟨j, by simp [elsewhere, occupied]⟩
        · rintro ⟨j, occupied, same⟩
          split_ifs at occupied same with here
          · exact absurd same.symm new
          · exact ⟨j, occupied, same⟩
    case distinct =>
      intro j k occupied same
      simp only [takeSlot, Function.update_apply] at occupied same
      split_ifs at occupied same with first second second
      · rw [first, second]
      · exact absurd same.symm (unused k)
      · exact absurd same (unused j)
      · exact sound.distinct j k occupied same
    case apart =>
      intro j occupied
      simp only [takeSlot, Function.update_apply] at occupied ⊢
      split_ifs at occupied ⊢
      · exact other
      · exact sound.apart j occupied
    case free =>
      intro j
      simp only [takeSlot, Function.update_apply]
      split_ifs
      · exact .inl positive
      · exact sound.free j
    case maxfd =>
      intro fd' member
      by_cases new : fd' = fd
      · subst new
        simp only [takeSlot]
        split_ifs <;> omega
      · simp only [takeSlot, Function.update_of_ne new] at member ⊢
        have before := sound.maxfd fd' member
        split_ifs <;> omega
    case used =>
      intro j occupied
      by_cases here : j = i
      · subst here
        simp only [takeSlot]
        split_ifs <;> omega
      · simp only [takeSlot, Function.update_of_ne here] at occupied ⊢
        have before := sound.used j occupied
        split_ifs <;> omega

theorem close (sound : p.Sound sockfd) {i : Slot} (occupied : 0 < p.clientfd i) : (p.closeSlot i).Sound sockfd := by
  constructor
  case readSet =>
    intro fd'
    simp only [FdPool.closeSlot, Function.update_apply]
    by_cases closed : fd' = p.clientfd i
    · subst closed
      simp only [if_true, Bool.false_eq_true, false_iff, not_or, not_exists, not_and]
      refine ⟨sound.apart i occupied, fun j positive same => ?_⟩
      split_ifs at positive same with here
      · omega
      · exact here (sound.distinct j i positive same)
    · rw [if_neg closed, sound.readSet fd']
      refine or_congr_right ⟨?_, ?_⟩
      · rintro ⟨j, positive, rfl⟩
        have elsewhere : j ≠ i := by
          rintro rfl
          exact closed rfl
        exact ⟨j, by simp [elsewhere, positive]⟩
      · rintro ⟨j, positive, same⟩
        split_ifs at positive same
        · omega
        · exact ⟨j, positive, same⟩
  case distinct =>
    intro j k positive same
    simp only [FdPool.closeSlot, Function.update_apply] at positive same
    split_ifs at positive same
    all_goals first | omega | exact sound.distinct j k positive same
  case apart =>
    intro j positive
    simp only [FdPool.closeSlot, Function.update_apply] at positive ⊢
    split_ifs at positive ⊢
    · omega
    · exact sound.apart j positive
  case free =>
    intro j
    simp only [FdPool.closeSlot, Function.update_apply]
    split_ifs
    · exact .inr rfl
    · exact sound.free j
  case maxfd =>
    intro fd' member
    simp only [FdPool.closeSlot, Function.update_apply] at member ⊢
    split_ifs at member
    exact sound.maxfd fd' member
  case used =>
    intro j positive
    simp only [FdPool.closeSlot, Function.update_apply] at positive ⊢
    split_ifs at positive
    · omega
    · exact sound.used j positive

-- `readySet` and `nready` are of no account.
theorem regroup (sound : p.Sound sockfd) (readySet : FdSet) (nready : Int) :
    { p with readySet, nready }.Sound sockfd :=
  ⟨sound.readSet, sound.distinct, sound.apart, sound.free, sound.maxfd, sound.used⟩

end FdPool.Sound

inductive EventLoop.Scans (l : EventLoop α) : Option Slot → EventLoop α → Prop where
  | serves (i : Slot) (pc : l.pc = .scanning i) (more : (i : Int) ≤ l.pool.maxi ∧ l.pool.nready > 0)
      (occupied : 0 < l.pool.clientfd i) (ready : l.pool.readySet (l.pool.clientfd i) = true) :
      l.Scans (some i) { pool := { l.pool with nready := l.pool.nready - 1 }, pc := .scanning (i + 1) }
  | skips (i : Slot) (pc : l.pc = .scanning i)
      (idle : 0 < l.pool.clientfd i → l.pool.readySet (l.pool.clientfd i) = false) :
      l.Scans none { l with pc := .scanning (i + 1) }
  | ends (k : Nat) (pc : l.pc = .scanning k) (done : l.pool.maxi < k ∨ l.pool.nready ≤ 0) :
      l.Scans none { l with pc := .selecting }

theorem EventLoop.Scans.slots {l l' : EventLoop α} {turn : Option Slot} (scans : l.Scans turn l') :
    l.pool.SameSlots l'.pool := by
  cases scans <;> exact ⟨rfl, rfl, rfl, rfl, rfl⟩

theorem scan_scans {l l' : EventLoop α} {turn : Option Slot} (scanned : l.scan = some (turn, l')) : l.Scans turn l' := by
  simp only [EventLoop.scan] at scanned
  split at scanned
  next k pc =>
    split_ifs at scanned with more inside ready
    · obtain ⟨rfl, rfl⟩ := Prod.mk.inj (Option.some.inj scanned)
      exact .serves ⟨k, inside⟩ pc more ready.1 ready.2
    · obtain ⟨rfl, rfl⟩ := Prod.mk.inj (Option.some.inj scanned)
      exact .skips ⟨k, inside⟩ pc (by simpa using ready)
    · obtain ⟨rfl, rfl⟩ := Prod.mk.inj (Option.some.inj scanned)
      exact .ends k pc (by omega)
  next => cases scanned

end NetProg
