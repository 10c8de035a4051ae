import NetProg.P2.SelectServer

set_option autoImplicit false

namespace NetProg.P2

open Memory Upload Transition

theorem WellFormed.carries {packet : List UInt8} (formed : WellFormed packet) (pkt : Block) :
    Carries (receivePkt pkt (headerLength + dataSize) packet) (load16 (ofBytes packet) sequenceAt)
      (load16 (ofBytes packet) commandAt) (packet.drop headerLength) := by
  have low := formed.low
  have whole : packet.take (headerLength + dataSize) = packet := List.take_of_length_le formed.high
  -- a part of the packet, in the variable and as it came
  have part (m : Block) (start len : Nat) (within : start + len ≤ packet.length) :
      load (store m 0 packet) start len = (packet.drop start).take len := by
    have inside := @load_store_within m 0 start len packet within
    rwa [Nat.zero_add] at inside
  have field (start : Nat) (within : start + 2 ≤ packet.length) :
      load16 (store pkt 0 packet) start = load16 (ofBytes packet) start := by
    rw [load16, load16, ofBytes_eq, part _ _ _ within, part _ _ _ within]
  simp only [headerLength] at low
  rw [receivePkt, whole]
  constructor
  case sequence => exact field _ (by simp only [sequenceAt]; omega)
  case length =>
    have total : headerLength + (packet.drop headerLength).length = packet.length := by
      simp only [headerLength, List.length_drop]
      omega
    rw [total, field _ (by simp only [lengthAt]; omega)]
    exact formed.length
  case command => exact field _ (by simp only [commandAt]; omega)
  case data =>
    rw [part _ _ _ (by simp only [dataAt, headerLength, List.length_drop]; omega)]
    exact List.take_of_length_le le_rfl

theorem WellFormed.fits {packet : List UInt8} (formed : WellFormed packet) :
    (packet.drop headerLength).length ≤ dataSize := by
  have high := formed.high
  simp only [headerLength, dataSize, List.length_drop] at high ⊢
  omega

structure Held (heap : Heap) (v : SlotVars) (s : Session) : Prop where
  static : load s.serverSendPkt 0 2 = [staticVersion, staticUserId]
  buffer : s.buffer = heap.deref v.buffer
  bytesRead : s.bytesRead = v.bytesRead

structure Related (heap : Heap) (v : SlotVars) (s : Session) : Prop extends Held heap v s where
  -- `lastSeqNum` is in the header that was sent last.
  sequence : load16 s.serverSendPkt sequenceAt = v.lastSeqNum

theorem held_start (heap : Heap) (sendUnwritten recvUnwritten : Block) :
    Held heap noVars (.start sendUnwritten recvUnwritten) where
  static := initPkt_static sendUnwritten
  buffer := rfl
  bytesRead := rfl

theorem Related.heap {heap heap' : Heap} {v : SlotVars} {s : Session} (related : Related heap v s)
    (same : heap'.deref v.buffer = heap.deref v.buffer) : Related heap' v s :=
  { related with buffer := related.buffer.trans same.symm }

theorem Related.next {heap : Heap} {v : SlotVars} {s : Session} (related : Related heap v s) :
    nextSeq s.serverSendPkt = v.lastSeqNum.toNat + 1 := by
  rw [nextSeq, related.sequence]

theorem sendReply_effects (serverSendPkt : Block) (seqNum : Nat) (cmd : UInt16)
    (written : Option (List UInt8 × List UInt8)) :
    sendReply serverSendPkt seqNum cmd written = { replies := [message (UInt16.ofNat seqNum) cmd []], written } := by
  have nothing : load (initPkt serverSendPkt) dataAt ([] : List UInt8).length = [] := rfl
  have sent := sendPkt_message (initPkt_static serverSendPkt) nothing seqNum cmd
  simp only [List.length_nil, Nat.add_zero] at sent
  simp only [sendReply, sendCmdPkt, sent]

theorem reply_agrees {s : Session} (static : load s.serverSendPkt 0 2 = [staticVersion, staticUserId])
    (serverSendPkt : Block) (seqNum : Nat) (cmd : UInt16) (written : Option (List UInt8 × List UInt8)) :
    (s.reply seqNum cmd written).2 = sendReply serverSendPkt seqNum cmd written := by
  rw [reply_effects static, sendReply_effects]

theorem Held.reply {heap : Heap} {v : SlotVars} {s : Session} (held : Held heap v s) (seqNum : Nat) (cmd : UInt16)
    (written : Option (List UInt8 × List UInt8)) :
    Related heap { v with lastSeqNum := UInt16.ofNat seqNum } (s.reply seqNum cmd written).1 := by
  have sent := reply_sent held.static seqNum cmd written
  exact ⟨⟨sent.static, held.buffer, held.bytesRead⟩, sent.last⟩

section Handle

variable {heap : Heap} {v : SlotVars} {s : Session} {serverSendPkt serverRecvPkt : Block} {o : SelectOutcome}
  {h : SlotHandled} {sequence command : UInt16} {data : List UInt8}

theorem same_dataLen (carries : Carries serverRecvPkt sequence command data)
    (alone : Carries s.serverRecvPkt sequence command data) : dataLen s.serverRecvPkt = dataLen serverRecvPkt := by
  rw [dataLen, dataLen, alone.length, carries.length]

def Agrees (h : SlotHandled) (next : Option (Session × Effects)) : Prop :=
  -- `multi_server` has the same effects, and goes on with the same session or ends it.
  ∃ s', next = some (s', h.effects) ∧ (s'.isOver = false → h.freed = false ∧ Related h.heap h.vars s')

theorem same_data (carries : Carries serverRecvPkt sequence command data)
    (alone : Carries s.serverRecvPkt sequence command data) (fits : data.length ≤ dataSize) :
    load s.serverRecvPkt dataAt (dataLen serverRecvPkt).toNat =
      load serverRecvPkt dataAt (dataLen serverRecvPkt).toNat := by
  rw [carries.dataLen fits, alone.data, carries.data]

theorem agrees_over {next : Option (Session × Effects)} {after : Session} {seqNum : Nat} {cmd : UInt16}
    {written : Option (List UInt8 × List UInt8)} (ran : next = some (after.reply seqNum cmd written))
    (static : load after.serverSendPkt 0 2 = [staticVersion, staticUserId]) (ended : after.isOver = true)
    (effects : h.effects = sendReply serverSendPkt seqNum cmd written) : Agrees h next := by
  refine ⟨(after.reply seqNum cmd written).1, ran.trans (congrArg some (Prod.ext rfl ?_)), fun goesOn => ?_⟩
  · exact (reply_agrees static ..).trans effects.symm
  · exact absurd (ended.symm.trans goesOn) (by decide)

theorem deliver_agrees (related : Related heap v s) (carries : Carries serverRecvPkt sequence command data)
    (alone : Carries s.serverRecvPkt sequence command data) (fits : data.length ≤ dataSize)
    (handled : deliver heap v serverSendPkt serverRecvPkt o = some h) : Agrees h (s.deliver o.seenAlone) := by
  have len := same_dataLen carries alone
  cases ran : heap.realloc v.buffer (v.bytesRead + dataLen serverRecvPkt).toNat o.realloc with
  | none => simp only [deliver, ran, reduceCtorEq] at handled
  | some moved =>
    obtain ⟨heap', buffer⟩ := moved
    have grown := realloc_deref ran
    rw [← related.buffer] at grown
    cases block : heap'.deref buffer with
    | none =>
      simp only [deliver, ran, block, Option.some.injEq] at handled
      subst handled
      rw [block] at grown
      let after := { s with buffer := none, storedError := true }
      have static : load after.serverSendPkt 0 2 = [staticVersion, staticUserId] := related.static
      refine agrees_over ?_ static ?_ rfl
      · simp only [after, Session.deliver, len, related.bytesRead, SelectOutcome.seenAlone, ← grown, related.next]
      · simp [Session.isOver, after]
    | some b =>
      rw [block] at grown
      simp only [deliver, ran, block] at handled
      split_ifs at handled with inside
      obtain rfl := Option.some.inj handled
      have valid : buffer ≠ 0 := by
        rintro rfl
        simp [Heap.deref] at block
      let bytes := store b.bytes v.bytesRead.toNat (load serverRecvPkt dataAt (dataLen serverRecvPkt).toNat)
      let after := { s with buffer := some { b with bytes }, bytesRead := v.bytesRead + dataLen serverRecvPkt }
      have held : Held (Function.update heap' buffer (some { b with bytes }))
          { v with buffer, bytesRead := v.bytesRead + dataLen serverRecvPkt } after :=
        ⟨related.static, by simp [after, Heap.deref, valid], rfl⟩
      refine ⟨(after.reply (v.lastSeqNum.toNat + 1) pktReceived none).1, ?_, fun _ => ⟨rfl, held.reply ..⟩⟩
      simp only [Session.deliver, len, related.bytesRead, SelectOutcome.seenAlone, ← grown, related.next,
        if_pos inside, same_data carries alone fits]
      exact congrArg some (Prod.ext rfl (reply_agrees related.static ..))

theorem store_agrees (related : Related heap v s) (carries : Carries serverRecvPkt sequence command data)
    (alone : Carries s.serverRecvPkt sequence command data) (fits : data.length ≤ dataSize)
    (handled : storeFile heap v serverSendPkt serverRecvPkt o = some h) : Agrees h (s.store o.seenAlone) := by
  have len := same_dataLen carries alone
  have same := same_data carries alone fits
  by_cases inside : o.malloc = true ∧ (dataLen serverRecvPkt).toNat ≤ dataSize
  case neg => simp only [storeFile, if_neg inside, reduceCtorEq] at handled
  cases name : cstring (load serverRecvPkt dataAt (dataLen serverRecvPkt).toNat) with
  | none => simp only [storeFile, if_pos inside, name, reduceCtorEq] at handled
  | some fileName =>
    simp only [storeFile, if_pos inside, name] at handled
    simp only [Session.store, len, SelectOutcome.seenAlone, if_pos inside, same, name, related.next, related.buffer,
      related.bytesRead]
    by_cases opens : o.opens = true
    case neg =>
      rw [if_neg opens] at handled ⊢
      obtain rfl := Option.some.inj handled
      exact agrees_over rfl related.static (by simp [Session.isOver]) rfl
    rw [if_pos opens] at handled ⊢
    cases content : bytesToWrite (heap.deref v.buffer) v.bytesRead.toNat with
    | none => simp only [content, reduceCtorEq] at handled
    | some taken =>
      cases taken with
      | none =>
        simp only [content, Option.some.injEq] at handled
        subst handled
        exact agrees_over rfl related.static (by simp [Session.isOver]) rfl
      | some bytes =>
        cases writes : o.writes with
        | none =>
          simp only [content, writes, Option.some.injEq] at handled
          subst handled
          exact agrees_over rfl related.static (by simp [Session.isOver]) rfl
        | some written =>
          cases released : heap.free v.buffer with
          | none => simp only [content, writes, released, reduceCtorEq] at handled
          | some heap' =>
            simp only [content, writes, released, Option.some.injEq] at handled
            subst handled
            exact agrees_over rfl related.static (by simp [Session.isOver]) rfl

theorem hello_agrees (held : Held heap v s) (carries : Carries serverRecvPkt sequence clientHello data)
    (alone : Carries s.serverRecvPkt sequence clientHello data)
    (handled : handleClientRequest heap v serverSendPkt serverRecvPkt o = some h) :
    Agrees h (s.handle o.seenAlone) := by
  simp only [handleClientRequest, carries.command, if_true, Option.some.injEq] at handled
  subst handled
  refine ⟨(s.reply (o.rand % maxSequence) serverHello none).1, ?_, fun _ => ⟨rfl, held.reply ..⟩⟩
  rw [handle_hello alone]
  exact congrArg some (Prod.ext rfl (reply_agrees held.static ..))

theorem handle_agrees (related : Related heap v s) (carries : Carries serverRecvPkt sequence command data)
    (alone : Carries s.serverRecvPkt sequence command data) (fits : data.length ≤ dataSize)
    (handled : handleClientRequest heap v serverSendPkt serverRecvPkt o = some h) :
    Agrees h (s.handle o.seenAlone) := by
  by_cases hello : command = clientHello
  case pos =>
    subst hello
    exact hello_agrees related.toHeld carries alone handled
  simp only [handleClientRequest, carries.command, if_neg hello] at handled
  simp only [Session.handle, alone.command, if_neg hello]
  by_cases delivery : command = dataDelivery
  case pos =>
    rw [if_pos delivery] at handled ⊢
    exact deliver_agrees related carries alone fits handled
  rw [if_neg delivery] at handled ⊢
  by_cases stores : command = dataStore
  case pos =>
    rw [if_pos stores] at handled ⊢
    exact store_agrees related carries alone fits handled
  -- an ERROR ends the session of `multi_server` only
  rw [if_neg stores] at handled ⊢
  obtain rfl := Option.some.inj handled
  split_ifs
  · exact ⟨{ s with communicationError := true }, rfl, by simp [Session.isOver]⟩
  · exact ⟨s, rfl, fun _ => ⟨rfl, related⟩⟩

section Read

variable {packet : List UInt8} (formed : WellFormed packet)
  (handled : handleClientRequest heap v serverSendPkt
    (receivePkt serverRecvPkt (headerLength + dataSize) packet) o = some h)
include formed handled

theorem iterate_hello (held : Held heap v s) (hello : load16 (ofBytes packet) commandAt = clientHello) :
    Agrees h (s.iterate (.packet packet) o.seenAlone) := by
  have carries := formed.carries serverRecvPkt
  have alone := formed.carries s.serverRecvPkt
  rw [hello] at carries alone
  have received : Held heap v { s with serverRecvPkt := receivePkt s.serverRecvPkt (headerLength + dataSize) packet } :=
    ⟨held.static, held.buffer, held.bytesRead⟩
  exact hello_agrees received carries alone handled

theorem iterate_agrees (related : Related heap v s) : Agrees h (s.iterate (.packet packet) o.seenAlone) := by
  have carries := formed.carries serverRecvPkt
  have alone := formed.carries s.serverRecvPkt
  have received :
      Related heap v { s with serverRecvPkt := receivePkt s.serverRecvPkt (headerLength + dataSize) packet } :=
    ⟨⟨related.static, related.buffer, related.bytesRead⟩, related.sequence⟩
  exact handle_agrees received carries alone formed.fits handled

end Read

theorem deliver_framed (handled : deliver heap v serverSendPkt serverRecvPkt o = some h) :
    heap.Framed h.heap v.buffer h.vars.buffer ∧ h.heap.Live h.vars.buffer := by
  cases ran : heap.realloc v.buffer (v.bytesRead + dataLen serverRecvPkt).toNat o.realloc with
  | none => simp only [deliver, ran, reduceCtorEq] at handled
  | some moved =>
    obtain ⟨heap', buffer⟩ := moved
    obtain ⟨framed, live⟩ := realloc_framed ran
    cases block : heap'.deref buffer with
    | none =>
      simp only [deliver, ran, block, Option.some.injEq] at handled
      subst handled
      exact ⟨framed, live⟩
    | some b =>
      simp only [deliver, ran, block] at handled
      split_ifs at handled
      obtain rfl := Option.some.inj handled
      have valid : buffer ≠ 0 := by
        rintro rfl
        simp [Heap.deref] at block
      refine ⟨⟨fun other away occupied => ?_, framed.apart⟩, .inr (by simp)⟩
      rw [← framed.same other away occupied]
      refine Function.update_of_ne ?_ _ _
      rintro rfl
      exact framed.apart _ away valid occupied rfl

theorem storeFile_cases (handled : storeFile heap v serverSendPkt serverRecvPkt o = some h) :
    h.vars.buffer = v.buffer ∧ (h.heap = heap ∧ h.freed = false ∨
      heap.free v.buffer = some h.heap ∧ h.freed = decide (v.buffer ≠ 0)) := by
  simp only [storeFile] at handled
  grind

theorem storeFile_framed (live : heap.Live v.buffer)
    (handled : storeFile heap v serverSendPkt serverRecvPkt o = some h) :
    heap.Framed h.heap v.buffer h.vars.buffer ∧ (h.freed = false → h.heap.Live h.vars.buffer) := by
  obtain ⟨pointer, ⟨same, _⟩ | ⟨released, freed⟩⟩ := storeFile_cases handled
  · rw [same, pointer]
    exact ⟨.refl _ _, fun _ => live⟩
  · rw [pointer]
    constructor
    · exact free_framed released
    · intro kept
      exact .inl (by simpa [freed] using kept)

theorem handle_idle (noDelivery : load16 serverRecvPkt commandAt ≠ dataDelivery)
    (noStore : load16 serverRecvPkt commandAt ≠ dataStore)
    (handled : handleClientRequest heap v serverSendPkt serverRecvPkt o = some h) :
    h.heap = heap ∧ h.vars.buffer = v.buffer ∧ h.freed = false := by
  simp only [handleClientRequest, if_neg noDelivery, if_neg noStore] at handled
  split_ifs at handled
  all_goals
    obtain rfl := Option.some.inj handled
    exact ⟨rfl, rfl, rfl⟩

theorem handle_framed (live : heap.Live v.buffer)
    (handled : handleClientRequest heap v serverSendPkt serverRecvPkt o = some h) :
    heap.Framed h.heap v.buffer h.vars.buffer ∧ (h.freed = false → h.heap.Live h.vars.buffer) := by
  by_cases delivery : load16 serverRecvPkt commandAt = dataDelivery
  case pos =>
    rw [handleClientRequest, delivery, if_neg (by decide), if_pos rfl] at handled
    exact (deliver_framed handled).imp_right fun alive _ => alive
  by_cases stores : load16 serverRecvPkt commandAt = dataStore
  case pos =>
    rw [handleClientRequest, stores, if_neg (by decide), if_neg (by decide), if_pos rfl] at handled
    exact storeFile_framed live handled
  obtain ⟨same, pointer, _⟩ := handle_idle delivery stores handled
  rw [same, pointer]
  exact ⟨.refl _ _, fun _ => live⟩

end Handle

end NetProg.P2
