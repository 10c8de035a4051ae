import NetProg.Upload.Session

set_option autoImplicit false

namespace NetProg.Upload

open Memory

def Session.rounds : Session → List (SocketRead × Outcome) → Option (Session × List Effects)
  | s, [] => some (s, [])
  | s, (read, o) :: rest =>
    if s.isOver then some (s, [])
    else match s.iterate read o with
      | none => none
      | some (s, effects) => match s.rounds rest with
        | none => none
        | some (s, later) => some (s, effects :: later)

-- Each read returns one packet.
def packetReads (packets : List (List UInt8 × Outcome)) : List (SocketRead × Outcome) :=
  packets.map fun (packet, o) => (.packet packet, o)

-- The client has closed its side, and every read returns 0.
def closedReads (outcomes : List Outcome) : List (SocketRead × Outcome) := outcomes.map fun o => (.closed, o)

def repliesOf (effects : List Effects) : List (List UInt8) := effects.flatMap Effects.replies

def writesOf (effects : List Effects) : List (List UInt8 × List UInt8) := effects.filterMap Effects.written

section Rounds

variable {s s' : Session} {read : SocketRead} {o : Outcome} {first : List (SocketRead × Outcome)}
  {effects : List Effects} {effect : Effects}

theorem rounds_over (ended : s.isOver = true) (reads : List (SocketRead × Outcome)) :
    s.rounds reads = some (s, []) := by
  cases reads with
  | nil => rfl
  | cons head rest => simp only [Session.rounds, if_pos ended]

theorem rounds_cons (running : s.isOver = false) (ran : s.iterate read o = some (s', effect))
    (rest : List (SocketRead × Outcome)) :
    s.rounds ((read, o) :: rest) = (s'.rounds rest).map fun (final, later) => (final, effect :: later) := by
  cases later : s'.rounds rest <;> simp [Session.rounds, running, ran, later]

theorem rounds_stuck (running : s.isOver = false) (fails : s.iterate read o = none)
    (rest : List (SocketRead × Outcome)) :
    s.rounds ((read, o) :: rest) = none := by
  simp [Session.rounds, running, fails]

theorem rounds_append (ran : s.rounds first = some (s', effects)) (rest : List (SocketRead × Outcome)) :
    s.rounds (first ++ rest) = (s'.rounds rest).map fun (final, later) => (final, effects ++ later) := by
  induction first generalizing s effects with
  | nil =>
    obtain ⟨rfl, rfl⟩ := Prod.mk.inj (Option.some.inj ran)
    cases later : s.rounds rest <;> simp [later]
  | cons head first ih =>
    obtain ⟨read, o⟩ := head
    cases ended : s.isOver with
    | true =>
      obtain ⟨rfl, rfl⟩ := Prod.mk.inj (Option.some.inj ((rounds_over ended _).symm.trans ran))
      simp only [rounds_over ended, Option.map_some, List.append_nil]
    | false =>
      cases stepped : s.iterate read o with
      | none => cases (rounds_stuck ended stepped _).symm.trans ran
      | some next =>
        obtain ⟨mid, effect⟩ := next
        rw [rounds_cons ended stepped] at ran
        obtain ⟨⟨final, later⟩, after, same⟩ := Option.map_eq_some_iff.mp ran
        obtain ⟨rfl, rfl⟩ := Prod.mk.inj same
        rw [List.cons_append, rounds_cons ended stepped, ih after, Option.map_map]
        rfl

end Rounds

def Answered (command : UInt16) : Prop := command = clientHello ∨ command = dataDelivery ∨ command = dataStore

instance (command : UInt16) : Decidable (Answered command) := inferInstanceAs (Decidable (_ ∨ _))

section Closed

variable {s s' : Session} {o : Outcome} {effect : Effects}

theorem reply_replies {seqNum : Nat} {cmd : UInt16} {written : Option (List UInt8 × List UInt8)}
    (ran : some (s.reply seqNum cmd written) = some (s', effect)) : effect.replies.length = 1 := by
  obtain ⟨-, rfl⟩ := Prod.mk.inj (Option.some.inj ran)
  rfl

theorem deliver_replies (ran : s.deliver o = some (s', effect)) : effect.replies.length = 1 := by
  simp only [Session.deliver] at ran
  split at ran
  · exact reply_replies ran
  · split_ifs at ran
    exact reply_replies ran

theorem store_replies (ran : s.store o = some (s', effect)) : effect.replies.length = 1 := by
  simp only [Session.store] at ran
  split at ran
  case isFalse => cases ran
  split at ran
  · cases ran
  split at ran
  case isFalse => exact reply_replies ran
  split at ran
  · cases ran
  · exact reply_replies ran
  · split at ran
    · exact reply_replies ran
    · exact reply_replies ran

theorem handle_replies (answered : Answered (load16 s.serverRecvPkt commandAt))
    (ran : s.handle o = some (s', effect)) : effect.replies.length = 1 := by
  rcases answered with hello | delivery | stores
  · simp only [Session.handle, hello, if_true, Option.some.injEq] at ran
    obtain ⟨-, rfl⟩ := Prod.mk.inj ran
    rfl
  · rw [Session.handle, delivery, if_neg (by decide), if_pos rfl] at ran
    exact deliver_replies ran
  · rw [Session.handle, stores, if_neg (by decide), if_neg (by decide), if_pos rfl] at ran
    exact store_replies ran

theorem handle_unanswered (unanswered : ¬ Answered (load16 s.serverRecvPkt commandAt)) (o : Outcome) :
    ∃ s', s.handle o = some (s', { replies := [], written := none }) ∧ s'.buffer = s.buffer ∧
      s'.bytesRead = s.bytesRead ∧ s'.serverRecvPkt = s.serverRecvPkt := by
  simp only [Answered, not_or] at unanswered
  obtain ⟨noHello, noDelivery, noStore⟩ := unanswered
  rw [Session.handle, if_neg noHello, if_neg noDelivery, if_neg noStore]
  split_ifs
  · exact ⟨_, rfl, rfl, rfl, rfl⟩
  · exact ⟨_, rfl, rfl, rfl, rfl⟩

theorem closed_unanswered (unanswered : ¬ Answered (load16 s.serverRecvPkt commandAt)) (outcomes : List Outcome) :
    ∃ s' effects, s.rounds (closedReads outcomes) = some (s', effects) ∧ s'.buffer = s.buffer ∧
      s'.bytesRead = s.bytesRead ∧ repliesOf effects = [] ∧ writesOf effects = [] := by
  induction outcomes generalizing s with
  | nil => exact ⟨s, [], rfl, rfl, rfl, rfl, rfl⟩
  | cons o outcomes ih =>
    cases ended : s.isOver with
    | true => exact ⟨s, [], rounds_over ended _, rfl, rfl, rfl, rfl⟩
    | false =>
      obtain ⟨mid, ran, buffer, bytesRead, same⟩ := handle_unanswered unanswered o
      obtain ⟨final, effects, later, buffer', bytesRead', replies, writes⟩ := ih (s := mid) (by rwa [same])
      have whole : s.rounds (closedReads (o :: outcomes)) =
          some (final, { replies := [], written := none } :: effects) := by
        have round : s.iterate .closed o = some (mid, { replies := [], written := none }) := ran
        have cons := rounds_cons ended round (closedReads outcomes)
        rwa [later] at cons
      exact ⟨final, _, whole, buffer'.trans buffer, bytesRead'.trans bytesRead, replies, writes⟩

theorem closed_answered (running : s.isOver = false) (answered : Answered (load16 s.serverRecvPkt commandAt))
    (o : Outcome) (outcomes : List Outcome) {effects : List Effects}
    (ran : s.rounds (closedReads (o :: outcomes)) = some (s', effects)) : repliesOf effects ≠ [] := by
  cases handled : s.handle o with
  | none => cases (rounds_stuck running (show s.iterate .closed o = none from handled) _).symm.trans ran
  | some next =>
    obtain ⟨mid, effect⟩ := next
    have round : s.iterate .closed o = some (mid, effect) := handled
    have cons := rounds_cons running round (closedReads outcomes)
    obtain ⟨⟨final, later⟩, -, same⟩ := Option.map_eq_some_iff.mp (cons.symm.trans ran)
    obtain ⟨-, rfl⟩ := Prod.mk.inj same
    have one := handle_replies answered handled
    intro silent
    have none_first : effect.replies = [] := (List.append_eq_nil_iff.mp silent).1
    simp [none_first] at one

end Closed

def ActsOnce (s : Session) (packets : List (List UInt8 × Outcome)) (outcomes : List Outcome) : Prop :=
  -- The buffer, the replies and the writes are those of the packets, however often `read` returns
  -- 0 behind them.
  ∃ s₁ s₂ effects₁ effects₂, s.rounds (packetReads packets) = some (s₁, effects₁) ∧
    s.rounds (packetReads packets ++ closedReads outcomes) = some (s₂, effects₂) ∧
    s₂.buffer = s₁.buffer ∧ s₂.bytesRead = s₁.bytesRead ∧ repliesOf effects₂ = repliesOf effects₁ ∧
    writesOf effects₂ = writesOf effects₁

theorem packets_acted_once {s s₁ : Session} {packets : List (List UInt8 × Outcome)} {effects : List Effects}
    (ran : s.rounds (packetReads packets) = some (s₁, effects)) (outcomes : List Outcome) :
    ActsOnce s packets outcomes ↔
      outcomes = [] ∨ s₁.isOver = true ∨ ¬ Answered (load16 s₁.serverRecvPkt commandAt) := by
  have appended := rounds_append ran (closedReads outcomes)
  constructor
  · rintro ⟨s₁', s₂, effects₁, effects₂, ran', both, -, -, replies, -⟩
    obtain ⟨rfl, rfl⟩ := Prod.mk.inj (Option.some.inj (ran.symm.trans ran'))
    by_contra undecided
    simp only [not_or, Bool.not_eq_true, not_not] at undecided
    obtain ⟨unread, running, answered⟩ := undecided
    obtain ⟨o, rest, rfl⟩ := List.exists_cons_of_ne_nil unread
    obtain ⟨⟨final, later⟩, after, same⟩ := Option.map_eq_some_iff.mp (appended.symm.trans both)
    obtain ⟨-, rfl⟩ := Prod.mk.inj same
    refine closed_answered running answered o rest after ?_
    simpa [repliesOf] using replies
  · intro idle
    have quiet : ∃ s₂ later, s₁.rounds (closedReads outcomes) = some (s₂, later) ∧ s₂.buffer = s₁.buffer ∧
        s₂.bytesRead = s₁.bytesRead ∧ repliesOf later = [] ∧ writesOf later = [] := by
      rcases idle with rfl | ended | unanswered
      · exact ⟨s₁, [], rfl, rfl, rfl, rfl, rfl⟩
      · exact ⟨s₁, [], rounds_over ended _, rfl, rfl, rfl, rfl⟩
      · exact closed_unanswered unanswered outcomes
    obtain ⟨s₂, later, after, buffer, bytesRead, replies, writes⟩ := quiet
    rw [after] at appended
    refine ⟨s₁, s₂, effects, effects ++ later, ran, appended, buffer, bytesRead, ?_, ?_⟩
    · rw [repliesOf, List.flatMap_append]
      exact (congrArg _ replies).trans (List.append_nil _)
    · rw [writesOf, List.filterMap_append]
      exact (congrArg _ writes).trans (List.append_nil _)

def allSucceed : Outcome := { rand := 41, realloc := some fun _ => 0, malloc := true, opens := true, writes := some 1 }

def newSession : Session := .start (fun _ => 0) fun _ => 0

def oneByteUpload : List (List UInt8 × Outcome) :=
  [(message 0 clientHello [], allSucceed), (message 1 dataDelivery [7], allSucceed),
    (message 2 dataStore [97, 0], allSucceed)]

theorem upload_acted_once : ∃ s effects, newSession.rounds (packetReads oneByteUpload) = some (s, effects) ∧
    writesOf effects = [([97], [7])] ∧ ActsOnce newSession oneByteUpload [allSucceed, allSucceed] := by
  obtain ⟨s, effects, ran, writes, ended⟩ : ∃ s effects,
      newSession.rounds (packetReads oneByteUpload) = some (s, effects) ∧ writesOf effects = [([97], [7])] ∧
      s.isOver = true := ⟨_, _, rfl, rfl, rfl⟩
  exact ⟨s, effects, ran, writes, (packets_acted_once ran _).mpr (.inr (.inl ended))⟩

-- A client that closes behind its greeting is greeted again and again.
theorem greeting_answered_again :
    ¬ ∀ (sendUnwritten recvUnwritten : Block) (packets : List (List UInt8 × Outcome)) (outcomes : List Outcome)
      (s : Session) (effects : List Effects),
      (Session.start sendUnwritten recvUnwritten).rounds (packetReads packets) = some (s, effects) →
      ActsOnce (.start sendUnwritten recvUnwritten) packets outcomes := by
  intro claimed
  obtain ⟨s, effects, ran⟩ : ∃ s effects,
      newSession.rounds (packetReads [(message 0 clientHello [], allSucceed)]) = some (s, effects) := ⟨_, _, rfl⟩
  obtain ⟨s₁, s₂, effects₁, effects₂, ran, both, -, -, replies, -⟩ :=
    claimed (fun _ => 0) (fun _ => 0) [(message 0 clientHello [], allSucceed)] [allSucceed] s effects ran
  have once : (newSession.rounds (packetReads [(message 0 clientHello [], allSucceed)])).map
      (fun result => (repliesOf result.2).length) = some 1 := rfl
  have twice : (newSession.rounds (packetReads [(message 0 clientHello [], allSucceed)] ++ closedReads [allSucceed])).map
      (fun result => (repliesOf result.2).length) = some 2 := rfl
  rw [newSession, ran, Option.map_some, Option.some.injEq] at once
  rw [newSession, both, Option.map_some, Option.some.injEq, replies, once] at twice
  cases twice

end NetProg.Upload
