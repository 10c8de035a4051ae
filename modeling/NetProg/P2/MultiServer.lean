import NetProg.Upload.Session

set_option autoImplicit false

namespace NetProg.P2

open Memory Upload

def serve : Session → List (List UInt8 × Outcome) → Option (Session × List Effects)
  -- The rounds of the loop for the packets that `read` returns, until the session is over.
  | s, [] => some (s, [])
  | s, (packet, o) :: rest =>
    if s.isOver then some (s, [])
    else match s.iterate (.packet packet) o with
      | none => none
      | some (s, effects) => match serve s rest with
        | none => none
        | some (s, later) => some (s, effects :: later)

-- `handleClientRequest` of `multi_server_utilities.c`; its packet variables hold any bytes at first.
def MultiServer.handleClientRequest (serverSendPkt serverRecvPkt : Block) (packets : List (List UInt8 × Outcome)) :
    Option (Session × List Effects) :=
  serve (.start serverSendPkt serverRecvPkt) packets

theorem serve_last {s s' : Session} {packets : List (List UInt8 × Outcome)} {effects : List Effects}
    (served : serve s packets = some (s', effects)) (packet : List UInt8) (o : Outcome) :
    serve s (packets ++ [(packet, o)]) =
      if s'.isOver then some (s', effects)
      else match s'.iterate (.packet packet) o with
        | none => none
        | some (s'', last) => some (s'', effects ++ [last]) := by
  induction packets generalizing s effects with
  | nil =>
    obtain ⟨rfl, rfl⟩ := Prod.mk.inj (Option.some.inj served)
    by_cases ended : s.isOver = true
    · simp only [List.nil_append, serve, if_pos ended]
    · cases ran : s.iterate (.packet packet) o <;> simp [serve, ended, ran]
  | cons head rest ih =>
    obtain ⟨first, o'⟩ := head
    by_cases ended : s.isOver = true
    · simp only [serve, if_pos ended, Option.some.injEq, Prod.mk.injEq] at served
      obtain ⟨rfl, rfl⟩ := served
      simp only [List.cons_append, serve, if_pos ended]
    · cases ran : s.iterate (.packet first) o' with
      | none => simp [serve, ended, ran] at served
      | some next =>
        obtain ⟨mid, effect⟩ := next
        cases later : serve mid rest with
        | none => simp [serve, ended, ran, later] at served
        | some final =>
          obtain ⟨s₁, es⟩ := final
          simp only [serve, if_neg ended, ran, later, Option.some.injEq, Prod.mk.injEq] at served
          obtain ⟨rfl, rfl⟩ := served
          simp only [List.cons_append, serve, if_neg ended, ran, ih later]
          split_ifs
          · rfl
          · cases s₁.iterate (.packet packet) o <;> rfl

end NetProg.P2
