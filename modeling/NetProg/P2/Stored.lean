import NetProg.P2.Buffers
import NetProg.Shared.Files
import NetProg.Upload.Rounds

set_option autoImplicit false

namespace NetProg.P2

open Files Memory Upload Transition

def Entry.fileAfter (entry : Entry) (prior : File UInt8) : File UInt8 :=
  match entry.effects.written with
  | none => prior
  | some (_, bytes) => some (overwrite (openCreate prior) (bytes.take (entry.outcome.writes.getD 0)))

structure Records (log : List Entry) : Prop where
  stores : StoresDelivered log
  writes : ∀ entry ∈ log, Effects.answers entry.effects fileStored = true →
    entry.effects.written.isSome ∧ entry.outcome.writes.isSome

section Session

variable {s s' : Session} {packet : List UInt8} {sequence command : UInt16} {data bytes : List UInt8} {o : Outcome}
  {effects : Effects}

theorem reply_answers (static : load s.serverSendPkt 0 2 = [staticVersion, staticUserId]) (seqNum : Nat)
    (cmd command : UInt16) (written : Option (List UInt8 × List UInt8)) :
    Effects.answers (s.reply seqNum cmd written).2 command = (cmd == command) := by
  simp [Effects.answers, reply_effects static, message_command]

structure Session.Keeps (bytes : List UInt8) (packet : List UInt8) (o : Outcome) (s' : Session) (effects : Effects) :
    Prop where
  static : load s'.serverSendPkt 0 2 = [staticVersion, staticUserId]
  buffered : s'.isOver = false → s'.Buffered (deliveredBy bytes { packet, outcome := o, effects })
  own : ∀ name content, effects.written = some (name, content) → content = bytes
  writes : Effects.answers effects fileStored = true → effects.written.isSome ∧ o.writes.isSome

theorem reply_keeps (static : load s.serverSendPkt 0 2 = [staticVersion, staticUserId]) (seqNum : Nat) (cmd : UInt16)
    (written : Option (List UInt8 × List UInt8))
    (buffered : s.isOver = false → s.Buffered (if cmd = pktReceived then bytes ++ packet.drop headerLength
      else if cmd = fileStored then [] else bytes))
    (own : ∀ name content, written = some (name, content) → content = bytes)
    (writes : cmd = fileStored → written.isSome ∧ o.writes.isSome) :
    Session.Keeps bytes packet o (s.reply seqNum cmd written).1 (s.reply seqNum cmd written).2 where
  static := (reply_sent static seqNum cmd written).static
  buffered running := by
    simp only [deliveredBy, reply_answers static, beq_iff_eq]
    obtain ⟨count, block, null⟩ := buffered running
    exact ⟨count, block, null⟩
  own := own
  writes answered := writes (by rwa [reply_answers static, beq_iff_eq] at answered)

theorem deliver_keeps (static : load s.serverSendPkt 0 2 = [staticVersion, staticUserId]) (buffered : s.Buffered bytes)
    (carries : Carries s.serverRecvPkt sequence command data) (fits : data.length ≤ dataSize)
    (same : packet.drop headerLength = data) (ran : s.deliver o = some (s', effects)) :
    Session.Keeps bytes packet o s' effects := by
  have len := carries.dataLen fits
  simp only [Session.deliver] at ran
  split at ran
  next =>
    obtain ⟨rfl, rfl⟩ := Prod.mk.inj (Option.some.inj ran)
    refine reply_keeps (by exact static) _ _ _ (fun running => ?_) (by simp) (fun other => absurd other (by decide))
    simp [Session.isOver] at running
  next b grown =>
    split_ifs at ran with inside
    obtain ⟨rfl, rfl⟩ := Prod.mk.inj (Option.some.inj ran)
    obtain ⟨size, kept⟩ := realloc_keeps buffered.null buffered.block grown
    rw [buffered.count, len] at inside
    have total : (s.bytesRead + dataLen s.serverRecvPkt).toNat = bytes.length + data.length := by
      have sum : (s.bytesRead + dataLen s.serverRecvPkt).toNat = _ :=
        unwrapped_add (by rw [buffered.count, len, ← size]; exact inside.2)
      rwa [buffered.count, len] at sum
    refine reply_keeps (by exact static) _ _ _ (fun _ => ?_) (by simp) (fun other => absurd other (by decide))
    rw [if_pos rfl, same]
    constructor
    case count => rw [List.length_append, ← total]
    case block =>
      intro filled held
      obtain rfl := Option.some.inj held
      simp only [buffered.count, len, carries.data]
      refine ⟨?_, load_store_append (kept (by omega)) data⟩
      rw [List.length_append]
      exact inside.2
    case null => simp

theorem store_keeps (static : load s.serverSendPkt 0 2 = [staticVersion, staticUserId]) (buffered : s.Buffered bytes)
    (ran : s.store o = some (s', effects)) : Session.Keeps bytes packet o s' effects := by
  have taken (content : List UInt8) (found : bytesToWrite s.buffer s.bytesRead.toNat = some (some content)) :
      content = bytes := bytesToWrite_content buffered.null buffered.block (buffered.count ▸ found)
  have failed (written : Option (List UInt8 × List UInt8))
      (own : ∀ name content, written = some (name, content) → content = bytes)
      (reply : some ({ s with storedError := true }.reply (nextSeq s.serverSendPkt) Upload.storedError written) =
        some (s', effects)) : Session.Keeps bytes packet o s' effects := by
    obtain ⟨rfl, rfl⟩ := Prod.mk.inj (Option.some.inj reply)
    refine reply_keeps (by exact static) _ _ _ (fun running => ?_) own (fun other => absurd other (by decide))
    simp [Session.isOver] at running
  simp only [Session.store] at ran
  split at ran
  case isFalse => cases ran
  split at ran
  · cases ran
  next fileName _ =>
    split at ran
    case isFalse => exact failed none (by simp) ran
    split at ran
    · cases ran
    · exact failed none (by simp) ran
    next content found =>
      have own : ∀ name content', some (fileName, content) = some (name, content') → content' = bytes := by
        rintro name content' same
        obtain ⟨-, rfl⟩ := Prod.mk.inj (Option.some.inj same)
        exact taken _ found
      split at ran
      · exact failed _ own ran
      next stored writes =>
        obtain ⟨rfl, rfl⟩ := Prod.mk.inj (Option.some.inj ran)
        refine reply_keeps (by exact static) _ _ _ (fun running => ?_) own (fun _ => ⟨rfl, by simp [writes]⟩)
        simp [Session.isOver] at running

theorem iterate_keeps (static : load s.serverSendPkt 0 2 = [staticVersion, staticUserId]) (buffered : s.Buffered bytes)
    (formed : WellFormed packet) (ran : s.iterate (.packet packet) o = some (s', effects)) :
    Session.Keeps bytes packet o s' effects := by
  have carries := formed.carries s.serverRecvPkt
  let received := { s with serverRecvPkt := receivePkt s.serverRecvPkt (headerLength + dataSize) packet }
  have held : received.Buffered bytes := ⟨buffered.count, buffered.block, buffered.null⟩
  have silent : Session.Keeps bytes packet o received { replies := [], written := none } :=
    ⟨static, fun _ => held, by simp, fun answered => nomatch answered⟩
  change received.handle o = some (s', effects) at ran
  simp only [Session.handle] at ran
  split_ifs at ran
  · obtain ⟨rfl, rfl⟩ := Prod.mk.inj (Option.some.inj ran)
    exact reply_keeps (s := received) static _ _ _ (fun _ => held) (by simp) (fun other => absurd other (by decide))
  · exact deliver_keeps (s := received) static held carries formed.fits rfl ran
  · exact store_keeps (s := received) static held ran
  · obtain ⟨rfl, rfl⟩ := Prod.mk.inj (Option.some.inj ran)
    exact ⟨static, fun running => by simp [Session.isOver] at running, by simp, fun answered => nomatch answered⟩
  · obtain ⟨rfl, rfl⟩ := Prod.mk.inj (Option.some.inj ran)
    exact silent

end Session

def sessionLog (packets : List (List UInt8 × Outcome)) (effects : List Effects) : List Entry :=
  List.zipWith (fun (packet, o) effects => { packet, outcome := o, effects }) packets effects

theorem Records.last {log : List Entry} (records : Records log) {s' : Session} {entry : Entry}
    (keeps : Session.Keeps (delivered log) entry.packet entry.outcome s' entry.effects) : Records (log ++ [entry]) where
  stores := records.stores.last keeps.own
  writes := by
    intro logged member
    rcases List.mem_append.mp member with earlier | last
    · exact records.writes logged earlier
    · obtain rfl := List.mem_singleton.mp last
      exact keeps.writes

theorem rounds_records {before : List Entry} (records : Records before) {s s' : Session}
    {packets : List (List UInt8 × Outcome)} {effects : List Effects} (formed : ∀ packet ∈ packets, WellFormed packet.1)
    (static : load s.serverSendPkt 0 2 = [staticVersion, staticUserId])
    (buffered : s.isOver = false → s.Buffered (delivered before))
    (ran : s.rounds (packetReads packets) = some (s', effects)) : Records (before ++ sessionLog packets effects) := by
  induction packets generalizing s before effects with
  | nil => simpa [sessionLog] using records
  | cons head rest ih =>
    obtain ⟨packet, o⟩ := head
    cases ended : s.isOver with
    | true =>
      obtain ⟨rfl, rfl⟩ := Prod.mk.inj (Option.some.inj ((rounds_over ended _).symm.trans ran))
      simpa [sessionLog] using records
    | false =>
      cases stepped : s.iterate (.packet packet) o with
      | none => cases (rounds_stuck ended stepped _).symm.trans ran
      | some next =>
        obtain ⟨mid, effect⟩ := next
        rw [packetReads, List.map_cons, rounds_cons ended stepped] at ran
        obtain ⟨⟨final, later⟩, after, same⟩ := Option.map_eq_some_iff.mp ran
        obtain ⟨rfl, rfl⟩ := Prod.mk.inj same
        have keeps := iterate_keeps static (buffered ended) (formed _ List.mem_cons_self) stepped
        let entry : Entry := { packet, outcome := o, effects := effect }
        have records' : Records (before ++ [entry]) := records.last keeps
        have buffered' : mid.isOver = false → mid.Buffered (delivered (before ++ [entry])) := by
          rw [delivered, List.foldl_append]
          exact keeps.buffered
        have whole := ih records' (fun packet' member => formed packet' (List.mem_cons_of_mem _ member)) keeps.static
          buffered' after
        rwa [List.append_assoc] at whole

theorem session_records (sendUnwritten recvUnwritten : Block) {s : Session} {packets : List (List UInt8 × Outcome)}
    {effects : List Effects} (formed : ∀ packet ∈ packets, WellFormed packet.1)
    (ran : (Session.start sendUnwritten recvUnwritten).rounds (packetReads packets) = some (s, effects)) :
    Records (sessionLog packets effects) := by
  have nothing : Records [] := by
    constructor
    case stores =>
      intro before entry after split
      simp at split
    case writes => simp
  have empty : (Session.start sendUnwritten recvUnwritten).Buffered [] := by
    constructor
    case count => rfl
    case block => exact fun b held => nomatch held
    case null => exact fun _ => rfl
  exact rounds_records nothing formed (initPkt_static _) (fun _ => empty) ran

theorem serve_rounds (s : Session) (packets : List (List UInt8 × Outcome)) :
    serve s packets = s.rounds (packetReads packets) := by
  induction packets generalizing s with
  | nil => rfl
  | cons head rest ih =>
    obtain ⟨packet, o⟩ := head
    have reads : packetReads ((packet, o) :: rest) = (.packet packet, o) :: packetReads rest := rfl
    rw [reads]
    cases ended : s.isOver with
    | true => simp only [rounds_over ended, serve, ended, if_true]
    | false =>
      cases stepped : s.iterate (.packet packet) o with
      | none => simp [rounds_stuck ended stepped, serve, ended, stepped]
      | some next =>
        obtain ⟨mid, effect⟩ := next
        rw [rounds_cons ended stepped, ← ih]
        cases later : serve mid rest <;> simp [serve, ended, stepped, later]

inductive Served : List Entry → Prop where
  -- What a server can have handled for one client: `p1`, `multi_server`, and `select_server` as long as no slot
  -- loses its buffer to a failing `realloc` or uses one that has been freed.
  | session (sendUnwritten recvUnwritten : Block) (packets : List (List UInt8 × Outcome)) (s : Session)
      (effects : List Effects) (formed : ∀ packet ∈ packets, WellFormed packet.1)
      (ran : (Session.start sendUnwritten recvUnwritten).rounds (packetReads packets) = some (s, effects)) :
      Served (sessionLog packets effects)
  | process (serverSendPkt serverRecvPkt : Block) (packets : List (List UInt8 × Outcome)) (s : Session)
      (effects : List Effects) (formed : ∀ packet ∈ packets, WellFormed packet.1)
      (ran : MultiServer.handleClientRequest serverSendPkt serverRecvPkt packets = some (s, effects)) :
      Served (sessionLog packets effects)
  | slot (s : SelectServer) (reached : selectServer.ReachableWhile KeepsBytes s) (c : Nat) : Served (s.log c)

theorem served_records {log : List Entry} (served : Served log) : Records log := by
  cases served with
  | session sendUnwritten recvUnwritten packets s effects formed ran =>
    exact session_records sendUnwritten recvUnwritten formed ran
  | process serverSendPkt serverRecvPkt packets s effects formed ran =>
    rw [MultiServer.handleClientRequest, serve_rounds] at ran
    exact session_records serverSendPkt serverRecvPkt formed ran
  | slot s reached c =>
    have clean := clean_reachable reached
    exact ⟨clean.stores c, clean.writes c⟩

theorem oneByteUpload_formed : ∀ packet ∈ oneByteUpload, WellFormed packet.1 := by decide

end NetProg.P2
