import NetProg.Shared.Probing

set_option autoImplicit false

-- `initPool`, `addClient` and the loop around `select` are the same in the select server of `p2`, the web server of
-- `p3` and the nodes of `p4`. In `p2` a slot has no address, and `α` is `Unit` there.

namespace NetProg

open Probing

abbrev fdSetSize : Nat := 1024

abbrev Slot := Fin fdSetSize

abbrev FdSet := Int → Bool

structure FdPool (α : Type) where
  maxfd : Int
  readSet : FdSet
  clientfd : Slot → Int
  clientAddr : Slot → α
  maxi : Int
  readySet : FdSet
  nready : Int

section Pool

variable {α : Type}

def initPool (sockfd : Int) (p : FdPool α) : FdPool α :=
  -- `maxi` stays as it is.
  { p with clientfd := fun _ => -1, maxfd := sockfd, readSet := fun fd => fd == sockfd }

def FdPool.isFree (p : FdPool α) (i : Slot) : Bool := p.clientfd i < 0

-- `for ( i = 0; i < FD_SETSIZE; i++ )` as far as the first free slot.
def FdPool.findSlot (p : FdPool α) : Option Slot := scan p.isFree 0 fdSetSize

def FdPool.takeSlot (p : FdPool α) (i : Slot) (sockfd : Int) (clientAddr : α) : FdPool α :=
  { p with clientfd := Function.update p.clientfd i sockfd
           readSet := Function.update p.readSet sockfd true
           clientAddr := Function.update p.clientAddr i clientAddr
           maxfd := if sockfd > p.maxfd then sockfd else p.maxfd
           maxi := if (i : Int) > p.maxi then i else p.maxi }

def addClient (sockfd : Int) (clientAddr : α) (p : FdPool α) : FdPool α :=
  let p := { p with nready := p.nready - 1 }
  match p.findSlot with
  | some i => p.takeSlot i sockfd clientAddr
  | none => p

def FdPool.closeSlot (p : FdPool α) (i : Slot) : FdPool α :=
  { p with readSet := Function.update p.readSet (p.clientfd i) false, clientfd := Function.update p.clientfd i (-1) }

inductive LoopPc where
  -- Where the loop of `main` is: before `select`, before the test of the listening socket, or in
  -- `handleClientFds` at index `i`.
  | selecting
  | accepting
  | scanning (i : Nat)
deriving DecidableEq, Repr

structure EventLoop (α : Type) where
  pool : FdPool α
  pc : LoopPc

def EventLoop.select (l : EventLoop α) (ready : List Int) : Option (EventLoop α) :=
  if l.pc = .selecting ∧ ready.Nodup ∧ ready.all l.pool.readSet then
    some { pool := { l.pool with readySet := fun fd => ready.contains fd, nready := ready.length }, pc := .accepting }
  else none

def EventLoop.accept (l : EventLoop α) (serverSock : Int) (accepted : Option (Int × α)) : Option (EventLoop α) :=
  -- The branch for a new client; `none` when `accept` fails.
  match l.pc with
  | .accepting =>
    if l.pool.readySet serverSock then
      match accepted with
      | some (sockfd, clientAddr) => some { pool := addClient sockfd clientAddr l.pool, pc := .scanning 0 }
      | none => some { l with pc := .scanning 0 }
    else if accepted.isNone then some { l with pc := .scanning 0 }
    else none
  | _ => none

def EventLoop.scan (l : EventLoop α) : Option (Option Slot × EventLoop α) :=
  -- One round of the loop of `handleClientFds`, up to the slot that it serves. It leaves the pool
  -- at an index that is no slot.
  match l.pc with
  | .scanning i =>
    if (i : Int) ≤ l.pool.maxi ∧ l.pool.nready > 0 then
      if inside : i < fdSetSize then
        let clientSock := l.pool.clientfd ⟨i, inside⟩
        if clientSock > 0 ∧ l.pool.readySet clientSock then
          some (some ⟨i, inside⟩, { pool := { l.pool with nready := l.pool.nready - 1 }, pc := .scanning (i + 1) })
        else some (none, { l with pc := .scanning (i + 1) })
      else none
    else some (none, { l with pc := .selecting })
  | _ => none

section Turns

variable {l l' : EventLoop α} {serverSock : Int}

theorem select_ran {ready : List Int} (selected : l.select ready = some l') :
    ready.Nodup ∧ (∀ fd ∈ ready, l.pool.readSet fd = true) ∧
      l' = { pool := { l.pool with readySet := fun fd => ready.contains fd, nready := ready.length }
             pc := .accepting } := by
  simp only [EventLoop.select] at selected
  split_ifs at selected with allowed
  exact ⟨allowed.2.1, by simpa using allowed.2.2, (Option.some.inj selected).symm⟩

theorem accept_nobody (ran : l.accept serverSock none = some l') :
    l.pc = .accepting ∧ l' = { l with pc := .scanning 0 } := by
  simp only [EventLoop.accept] at ran
  split at ran
  next pc =>
    split_ifs at ran
    all_goals exact ⟨pc, (Option.some.inj ran).symm⟩
  next => cases ran

theorem accept_somebody {sockfd : Int} {clientAddr : α}
    (ran : l.accept serverSock (some (sockfd, clientAddr)) = some l') :
    l.pc = .accepting ∧ l.pool.readySet serverSock = true ∧
      l' = { pool := addClient sockfd clientAddr l.pool, pc := .scanning 0 } := by
  simp only [EventLoop.accept] at ran
  split at ran
  next pc =>
    split_ifs at ran with asked failed
    · exact ⟨pc, asked, (Option.some.inj ran).symm⟩
    · cases failed
  next => cases ran

end Turns

structure FdPool.SameSlots (p p' : FdPool α) : Prop where
  clientfd : p'.clientfd = p.clientfd
  clientAddr : p'.clientAddr = p.clientAddr
  readSet : p'.readSet = p.readSet
  maxfd : p'.maxfd = p.maxfd
  maxi : p'.maxi = p.maxi

theorem select_slots {l l' : EventLoop α} {ready : List Int} (selected : l.select ready = some l') :
    l.pool.SameSlots l'.pool := by
  obtain ⟨-, -, rfl⟩ := select_ran selected
  exact ⟨rfl, rfl, rfl, rfl, rfl⟩

theorem scan_slots {l l' : EventLoop α} {turn : Option Slot} (scanned : l.scan = some (turn, l')) :
    l.pool.SameSlots l'.pool ∧ ∀ i, turn = some i → 0 < l.pool.clientfd i := by
  simp only [EventLoop.scan] at scanned
  split at scanned
  next i _ =>
    split_ifs at scanned with more inside ready
    · obtain ⟨rfl, rfl⟩ := Prod.mk.inj (Option.some.inj scanned)
      refine ⟨⟨rfl, rfl, rfl, rfl, rfl⟩, fun j served => ?_⟩
      obtain rfl := Option.some.inj served
      exact ready.1
    · obtain ⟨rfl, rfl⟩ := Prod.mk.inj (Option.some.inj scanned)
      exact ⟨⟨rfl, rfl, rfl, rfl, rfl⟩, by simp⟩
    · obtain ⟨rfl, rfl⟩ := Prod.mk.inj (Option.some.inj scanned)
      exact ⟨⟨rfl, rfl, rfl, rfl, rfl⟩, by simp⟩
  next => cases scanned

theorem addClient_cases (sockfd : Int) (clientAddr : α) (p : FdPool α) :
    (∃ i, p.clientfd i < 0 ∧ (addClient sockfd clientAddr p).clientfd = Function.update p.clientfd i sockfd) ∨
      p.SameSlots (addClient sockfd clientAddr p) := by
  simp only [addClient]
  split
  next i found =>
    have free := scan_stops found
    simp only [FdPool.isFree, decide_eq_true_eq] at free
    exact .inl ⟨i, free, rfl⟩
  next => exact .inr ⟨rfl, rfl, rfl, rfl, rfl⟩

theorem accept_cases {l l' : EventLoop α} {serverSock : Int} {accepted : Option (Int × α)}
    (ran : l.accept serverSock accepted = some l') :
    (∃ sockfd clientAddr, accepted = some (sockfd, clientAddr) ∧ l'.pool = addClient sockfd clientAddr l.pool) ∨
      accepted = none ∧ l'.pool = l.pool := by
  cases accepted with
  | none =>
    obtain ⟨-, rfl⟩ := accept_nobody ran
    exact .inr ⟨rfl, rfl⟩
  | some client =>
    obtain ⟨-, -, rfl⟩ := accept_somebody ran
    exact .inl ⟨client.1, client.2, rfl, rfl⟩

end Pool

end NetProg
