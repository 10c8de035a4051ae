import NetProg.P1.Transfer

set_option autoImplicit false

namespace NetProg.P1

open Memory Upload Transition

structure Attempt where
  fileName : List UInt8
  -- what `read(fd)` returns, `none` for a failure; 0 behind the last
  reads : List (Option (List UInt8))
  clientRand : Nat
  -- what the four packet variables hold at first
  unwritten : Side → Block
  received : Side → Block

def unread (reads : List (Option (List UInt8))) : Nat := (reads.filterMap id).flatten.length

structure Attempt.Valid (p : Attempt) : Prop where
  text : ∀ c ∈ p.fileName, c ≠ 0
  short : p.fileName.length < dataSize
  chunks : ∀ bytes, some bytes ∈ p.reads → bytes.length ≤ dataSize
  size : unread p.reads < 2 ^ 32

def untilEnd : List (Option (List UInt8)) → Option (List UInt8)
  -- The bytes in front of the first result 0; `none` when a failure comes first.
  | [] => some []
  | none :: _ => none
  | some bytes :: rest => if bytes = [] then some [] else (untilEnd rest).map (bytes ++ ·)

def Attempt.content (p : Attempt) : Option (List UInt8) :=
  -- Behind SERVER_HELLO a result 0 is sent as data, and the client reads on.
  match p.reads with
  | [] => some []
  | none :: _ => none
  | some bytes :: rest => (untilEnd rest).map (bytes ++ ·)

inductive Reading where
  | packet
  | closed
  | failed
deriving DecidableEq, Repr

inductive AttemptEvent where
  | client (reading : Reading)
  | server (reading : Reading) (o : Outcome)

def Reading.result (queue : List (List UInt8)) (peerOver : Bool) : Reading → Option (SocketRead × List (List UInt8))
  -- What `read` makes of the packets on the way, and which of them it leaves there.
  | .packet => match queue with
    | [] => none
    | bytes :: rest => some (.packet bytes, rest)
  | .closed => if queue = [] ∧ peerOver then some (.closed, []) else none
  | .failed => some (.failed, queue)

def Attempt.start (p : Attempt) : Exchange :=
  let (client, packets) := Client.start (p.unwritten .client) (p.received .client) p.reads p.clientRand
  { client, server := .start (p.unwritten .server) (p.received .server), toServer := packets, toClient := [],
    log := packets.map fun packet => (.client, packet), written := [] }

def Attempt.clientStep (p : Attempt) (s : Exchange) (read : SocketRead) (rest : List (List UInt8)) : Option Exchange :=
  (s.client.iterate p.fileName read).map fun (client, packets) =>
    { s with client, toClient := rest, toServer := s.toServer ++ packets
             log := s.log ++ packets.map fun packet => (.client, packet) }

def Attempt.serverStep (s : Exchange) (read : SocketRead) (rest : List (List UInt8)) (o : Outcome) : Option Exchange :=
  (s.server.iterate read o).map fun (server, effects) =>
    { s with server, toServer := rest, toClient := s.toClient ++ effects.replies
             log := s.log ++ effects.replies.map fun packet => (.server, packet)
             written := s.written ++ effects.written.toList }

def Attempt.step (p : Attempt) (s : Exchange) : AttemptEvent → Option Exchange
  | .client reading =>
    if s.client.isOver then none
    else (reading.result s.toClient s.server.isOver).bind fun (read, rest) => p.clientStep s read rest
  | .server reading o =>
    if s.server.isOver then none
    else (reading.result s.toServer s.client.isOver).bind fun (read, rest) => Attempt.serverStep s read rest o

def Attempt.system (p : Attempt) : System Exchange AttemptEvent where
  init s := s = p.start
  step := p.step

def Setting.attempt (p : Setting) : Attempt where
  fileName := p.fileName
  reads := p.chunks.map some
  clientRand := p.clientRand
  unwritten := p.unwritten
  received := p.received

def Setting.attemptEvent (p : Setting) : ExchangeEvent → AttemptEvent
  | .client => .client .packet
  | .server memory stored => .server .packet (p.outcome memory stored)

theorem attempt_step {p : Setting} {s s' : Exchange} {e : ExchangeEvent} (stepped : p.step s e = some s') :
    p.attempt.step s (p.attemptEvent e) = some s' := by
  cases e with
  | client =>
    cases queue : s.toClient with
    | nil => simp [Setting.step, queue] at stepped
    | cons packet rest =>
      simp only [Setting.step, queue] at stepped
      simp only [Attempt.step, Setting.attemptEvent, Reading.result, queue]
      split_ifs at stepped ⊢
      exact stepped
  | server memory stored =>
    cases queue : s.toServer with
    | nil => simp [Setting.step, queue] at stepped
    | cons packet rest =>
      simp only [Setting.step, queue] at stepped
      simp only [Attempt.step, Setting.attemptEvent, Reading.result, queue]
      split_ifs at stepped ⊢
      exact stepped

theorem attempt_reachable {p : Setting} {s : Exchange} (reached : p.system.Reachable s) :
    p.attempt.system.Reachable s := by
  refine System.ReachableWhile.invariant (P := p.attempt.system.Reachable) ?_ ?_ reached
  · rintro s rfl
    exact .initial _ rfl
  · intro s e s' _ before _ stepped
    exact .next s (p.attemptEvent e) s' before trivial (attempt_step stepped)

inductive Taken : List (Option (List UInt8)) → Option (List UInt8) → List (Option (List UInt8)) → Prop where
  | ended : Taken [] (some []) []
  | next (result : Option (List UInt8)) (rest : List (Option (List UInt8))) : Taken (result :: rest) result rest

section Reads

variable {reads rest : List (Option (List UInt8))} {bytes : List UInt8}

theorem readFile_taken (c : Client) :
    ∃ result rest, c.readFile = (result, { c with reads := rest }) ∧ Taken c.reads result rest := by
  cases reads : c.reads with
  | nil =>
    have same : { c with reads := [] } = c := by rw [← reads]
    exact ⟨some [], [], by rw [Client.readFile, reads, same], .ended⟩
  | cons result rest => exact ⟨result, rest, by rw [Client.readFile, reads], .next result rest⟩

theorem Taken.unread (taken : Taken reads (some bytes) rest) : unread reads = bytes.length + unread rest := by
  cases taken with
  | ended => rfl
  | next => simp [P1.unread]

theorem Taken.untilEnd (taken : Taken reads (some bytes) rest) :
    untilEnd reads = if bytes = [] then some [] else (untilEnd rest).map (bytes ++ ·) := by
  cases taken with
  | ended => rfl
  | next => rfl

theorem Taken.content {p : Attempt} (taken : Taken p.reads (some bytes) rest) :
    p.content = (P1.untilEnd rest).map (bytes ++ ·) := by
  generalize held : p.reads = reads at taken
  cases taken with
  | ended => simp [Attempt.content, P1.untilEnd, held]
  | next => simp [Attempt.content, held]

def Short (reads : List (Option (List UInt8))) : Prop := ∀ bytes, some bytes ∈ reads → bytes.length ≤ dataSize

theorem Taken.short (taken : Taken reads (some bytes) rest) (short : Short reads) :
    bytes.length ≤ dataSize ∧ Short rest := by
  cases taken with
  | ended => exact ⟨Nat.zero_le _, short⟩
  | next => exact ⟨short bytes List.mem_cons_self, fun later member => short later (List.mem_cons_of_mem _ member)⟩

end Reads

inductive Request (p : Attempt) (reads : List (Option (List UInt8))) (s : Session) : UInt16 → List UInt8 → Prop where
  -- A packet that the server is to read, when the client has `reads` before it.
  | hello (start : reads = p.reads) (static : load s.serverSendPkt 0 2 = [staticVersion, staticUserId])
      (buffered : s.Buffered []) (null : s.buffer = none) : Request p reads s clientHello []
  | delivery (bytes data : List UInt8) (last : UInt16) (sent : s.Sent last) (buffered : s.Buffered bytes)
      (kept : s.buffer = none ∨ 0 < bytes.length + data.length) (short : data.length ≤ dataSize)
      (content : p.content = (untilEnd reads).map ((bytes ++ data) ++ ·))
      (room : bytes.length + data.length + unread reads < 2 ^ 32) (later : Short reads) :
      Request p reads s dataDelivery data
  | store (bytes : List UInt8) (last : UInt16) (sent : s.Sent last) (buffered : s.Buffered bytes)
      (content : p.content = some bytes) : Request p reads s dataStore (p.fileName ++ [0])
  | failure : Request p reads s error []

inductive Answer (p : Attempt) (reads : List (Option (List UInt8))) (s : Session) : UInt16 → Prop where
  | hello (last : UInt16) (start : reads = p.reads) (sent : s.Sent last) (buffered : s.Buffered [])
      (null : s.buffer = none) : Answer p reads s serverHello
  | received (bytes : List UInt8) (last : UInt16) (sent : s.Sent last) (buffered : s.Buffered bytes)
      (content : p.content = (untilEnd reads).map (bytes ++ ·)) (room : bytes.length + unread reads < 2 ^ 32)
      (later : Short reads) : Answer p reads s pktReceived

inductive Decided (p : Attempt) (s : Session) : UInt16 → List (List UInt8 × List UInt8) → Prop where
  | stored (bytes : List UInt8) (content : p.content = some bytes) (stored : s.fileStored = true)
      (error : s.storedError = false) : Decided p s Upload.fileStored [(p.fileName, bytes)]
  | refused (command : UInt16) (written : List (List UInt8 × List UInt8))
      (kind : command = Upload.error ∨ command = Upload.storedError) (stored : s.fileStored = false)
      (error : s.storedError = true) : Decided p s command written

inductive Reaction (p : Attempt) (reads : List (Option (List UInt8))) (s : Session) : Effects → Prop where
  | answers (sequence command : UInt16) (answer : Answer p reads s command) (on : s.isOver = false) :
      Reaction p reads s { replies := [message sequence command []], written := none }
  | decides (sequence command : UInt16) (written : Option (List UInt8 × List UInt8))
      (decided : Decided p s command written.toList) :
      Reaction p reads s { replies := [message sequence command []], written }
  | breaks (broken : s.communicationError = true) (undecided : s.fileStored = false ∧ s.storedError = false) :
      Reaction p reads s { replies := [], written := none }

section Server

variable {p : Attempt} {reads : List (Option (List UInt8))} {s : Session} {result : Session × Effects} {o : Outcome}

theorem realloc_none (old : Option Buffer) (size : Nat) : Memory.realloc old size none = none := by
  cases old with
  | none => rfl
  | some b => simp [Memory.realloc]

theorem isOver_false : s.isOver = false ↔
    s.fileStored = false ∧ s.storedError = false ∧ s.communicationError = false ∧ s.readError = false := by
  simp [Session.isOver, and_assoc]

theorem refusal {last : UInt16} (sent : s.Sent last) (stored : s.fileStored = false) (failed : s.storedError = true)
    {command : UInt16} (kind : command = error ∨ command = storedError)
    (written : Option (List UInt8 × List UInt8)) (seqNum : Nat) :
    Reaction p reads (s.reply seqNum command written).1 (s.reply seqNum command written).2 := by
  rw [reply_effects sent.static]
  exact .decides _ command written (.refused command _ kind stored failed)

theorem delivery_reaction {sequence last : UInt16} {bytes data : List UInt8}
    (carries : Carries s.serverRecvPkt sequence dataDelivery data) (sent : s.Sent last) (buffered : s.Buffered bytes)
    (kept : s.buffer = none ∨ 0 < bytes.length + data.length) (short : data.length ≤ dataSize)
    (content : p.content = (untilEnd reads).map ((bytes ++ data) ++ ·))
    (room : bytes.length + data.length + unread reads < 2 ^ 32) (later : Short reads) (on : s.isOver = false)
    (handled : s.handle o = some result) :
    Reaction p reads result.1 result.2 := by
  cases memory : o.realloc with
  | none =>
    have refused : s.handle o = some ({ s with buffer := none, storedError := true }.reply
        (nextSeq s.serverSendPkt) error none) := by
      simp only [Session.handle, carries.command, dataDelivery, clientHello, Session.deliver, memory, realloc_none]
      rfl
    rw [Option.some.inj (handled.symm.trans refused)]
    exact refusal (s := { s with buffer := none, storedError := true }) ⟨sent.static, sent.last⟩
      (isOver_false.mp on).1 rfl (.inl rfl) _ _
  | some fresh =>
    obtain ⟨next, ran, sent', grown, same⟩ := handle_delivery carries short sent buffered (by omega) memory kept
    obtain rfl := Option.some.inj (handled.symm.trans ran)
    refine .answers _ pktReceived (.received (bytes ++ data) _ sent' grown content ?_ later) (same.trans on)
    rwa [List.length_append]

theorem store_reaction (valid : p.Valid) {sequence last : UInt16} {bytes : List UInt8}
    (carries : Carries s.serverRecvPkt sequence dataStore (p.fileName ++ [0])) (sent : s.Sent last)
    (buffered : s.Buffered bytes) (content : p.content = some bytes) (on : s.isOver = false)
    (handled : s.handle o = some result) :
    Reaction p reads result.1 result.2 := by
  obtain ⟨unstored, unfailed, -, -⟩ := isOver_false.mp on
  have short : (p.fileName ++ [0]).length ≤ dataSize := by
    rw [List.length_append]
    exact valid.short
  have name : cstring (load s.serverRecvPkt dataAt (p.fileName ++ [0]).length) = some p.fileName := by
    rw [carries.data]
    exact cstring_append_nul valid.text []
  have stores : s.store o = some result := by
    rw [← handled]
    simp only [Session.handle, carries.command, dataStore, dataDelivery, clientHello]
    rfl
  have refused : ∀ written, Reaction p reads
      ({ s with storedError := true }.reply (nextSeq s.serverSendPkt) storedError written).1
      ({ s with storedError := true }.reply (nextSeq s.serverSendPkt) storedError written).2 := fun written =>
    refusal (s := { s with storedError := true }) ⟨sent.static, sent.last⟩ unstored rfl (.inr rfl) written _
  simp only [Session.store, carries.dataLen short, name] at stores
  split_ifs at stores with room opens
  · -- the file has been opened, and `write` is called unless the buffer is a null pointer
    cases found : bytesToWrite s.buffer s.bytesRead.toNat with
    | none => simp [found] at stores
    | some held =>
      cases held with
      | none =>
        simp only [found, Option.some.injEq] at stores
        exact stores ▸ refused none
      | some written =>
        rw [buffered.count] at found
        obtain rfl := bytesToWrite_content buffered.null buffered.block found
        simp only [buffered.count, found] at stores
        cases writes : o.writes with
        | none =>
          simp only [writes, Option.some.injEq] at stores
          exact stores ▸ refused (some (p.fileName, written))
        | some count =>
          simp only [writes, Option.some.injEq] at stores
          have effects := reply_effects (s := { s with buffer := none, fileStored := true }) sent.static
            (nextSeq s.serverSendPkt) fileStored (some (p.fileName, written))
          rw [← stores, effects]
          exact .decides _ fileStored _ (.stored written content rfl unfailed)
  · simp only [Option.some.injEq] at stores
    exact stores ▸ refused none

theorem failure_breaks (sequence : UInt16) (o : Outcome) :
    ∃ packet, s.iterate (.packet (message sequence error [])) o =
      some ({ s with serverRecvPkt := packet, communicationError := true }, { replies := [], written := none }) := by
  let received := receivePkt s.serverRecvPkt (headerLength + dataSize) (message sequence error [])
  have carries : Carries received sequence error [] := receivePkt_carries _ _ _ (Nat.le_add_right _ _)
  refine ⟨received, ?_⟩
  simp only [Session.iterate, Session.handle, received, carries.command]
  rfl

theorem request_reaction (valid : p.Valid) {sequence command : UInt16} {data : List UInt8}
    (request : Request p reads s command data) (on : s.isOver = false)
    (ran : s.iterate (.packet (message sequence command data)) o = some result) :
    Reaction p reads result.1 result.2 := by
  let received := { s with
    serverRecvPkt := receivePkt s.serverRecvPkt (headerLength + dataSize) (message sequence command data) }
  have handled : received.handle o = some result := ran
  cases request with
  | hello start static buffered null =>
    have carries : Carries received.serverRecvPkt sequence clientHello [] :=
      receivePkt_carries _ _ _ (Nat.le_add_right _ _)
    have answered := (handle_hello carries o).symm.trans handled
    rw [← Option.some.inj answered, reply_effects (s := received) static]
    refine .answers _ serverHello (.hello _ start (reply_sent (s := received) static _ _ _) ?_ null) on
    exact ⟨buffered.count, buffered.block, buffered.null⟩
  | delivery bytes data last sent buffered kept short content room later =>
    have carries : Carries received.serverRecvPkt sequence dataDelivery data :=
      receivePkt_carries _ _ _ (Nat.add_le_add_left short headerLength)
    exact delivery_reaction (s := received) carries ⟨sent.static, sent.last⟩
      ⟨buffered.count, buffered.block, buffered.null⟩ kept short content room later on handled
  | store bytes last sent buffered content =>
    have fits : (p.fileName ++ [0]).length ≤ dataSize := by
      rw [List.length_append]
      exact valid.short
    have carries : Carries received.serverRecvPkt sequence dataStore (p.fileName ++ [0]) :=
      receivePkt_carries _ _ _ (Nat.add_le_add_left fits headerLength)
    exact store_reaction (s := received) valid carries ⟨sent.static, sent.last⟩
      ⟨buffered.count, buffered.block, buffered.null⟩ content on handled
  | failure =>
    obtain ⟨packet, broken⟩ := failure_breaks (s := s) sequence o
    rw [Option.some.inj (ran.symm.trans broken)]
    obtain ⟨unstored, unfailed, -, -⟩ := isOver_false.mp on
    exact .breaks rfl ⟨unstored, unfailed⟩

end Server

structure Calm (p : Attempt) (c : Client) : Prop where
  undecided : c.fileStored = false ∧ c.storedError = false
  heard : c.clientRecvPkt = p.received .client ∨ load16 c.clientRecvPkt commandAt = serverHello ∨
    load16 c.clientRecvPkt commandAt = pktReceived

structure Heard (c c' : Client) : Prop where
  packet : c'.clientRecvPkt = c.clientRecvPkt
  readError : c'.readError = c.readError
  fileStored : c'.fileStored = (c.fileStored || decide (load16 c.clientRecvPkt commandAt = Upload.fileStored))
  storedError : c'.storedError = (c.storedError || decide (load16 c.clientRecvPkt commandAt = error ∨
    load16 c.clientRecvPkt commandAt = Upload.storedError))

section Client

variable {p : Attempt} {c c' : Client} {packets : List (List UInt8)}

theorem sendNext_flags {rest : List (Option (List UInt8))} {data : List UInt8} {command : UInt16}
    (asked : load16 c.clientRecvPkt commandAt = serverHello ∨ load16 c.clientRecvPkt commandAt = pktReceived)
    (sent : some ({ c with reads := rest }.sendNext data command) = some (c', packets)) : Heard c c' := by
  obtain ⟨rfl, -⟩ := Prod.mk.inj (Option.some.inj sent)
  refine ⟨rfl, rfl, ?_, ?_⟩
  · rcases asked with hello | received
    · simp [hello, serverHello, fileStored]
    · simp [received, pktReceived, fileStored]
  · rcases asked with hello | received
    · simp [hello, serverHello, error, storedError]
    · simp [received, pktReceived, error, storedError]

theorem handle_heard {fileName : List UInt8} (handled : c.handle fileName = some (c', packets)) : Heard c c' := by
  obtain ⟨result, rest, file, -⟩ := readFile_taken c
  simp only [Client.handle, file] at handled
  by_cases hello : load16 c.clientRecvPkt commandAt = serverHello
  · rw [if_pos hello] at handled
    cases result with
    | none => exact sendNext_flags (.inl hello) handled
    | some bytes => exact sendNext_flags (.inl hello) handled
  rw [if_neg hello] at handled
  by_cases received : load16 c.clientRecvPkt commandAt = pktReceived
  · rw [if_pos received] at handled
    cases result with
    | none => exact sendNext_flags (.inr received) handled
    | some bytes =>
      cases bytes with
      | nil =>
        simp only [Option.ite_none_right_eq_some] at handled
        exact sendNext_flags (.inr received) handled.2
      | cons b bytes => exact sendNext_flags (.inr received) handled
  rw [if_neg received] at handled
  split_ifs at handled with failed stored
  · obtain ⟨rfl, -⟩ := Prod.mk.inj (Option.some.inj handled)
    have other : load16 c.clientRecvPkt commandAt ≠ fileStored := by
      rcases failed with failed | failed <;> rw [failed] <;> decide
    exact ⟨rfl, rfl, by simp [other], by simp [failed]⟩
  · obtain ⟨rfl, -⟩ := Prod.mk.inj (Option.some.inj handled)
    exact ⟨rfl, rfl, by simp [stored], by simp [failed]⟩
  · obtain ⟨rfl, -⟩ := Prod.mk.inj (Option.some.inj handled)
    exact ⟨rfl, rfl, by simp [stored], by simp [failed]⟩

theorem iterate_packet {sequence command : UInt16} {fileName : List UInt8}
    (ran : c.iterate fileName (.packet (message sequence command [])) = some (c', packets)) :
    load16 c'.clientRecvPkt commandAt = command ∧ c'.readError = c.readError ∧
      c'.fileStored = (c.fileStored || decide (command = fileStored)) ∧
      c'.storedError = (c.storedError || decide (command = error ∨ command = storedError)) := by
  have carries : Carries (receivePkt c.clientRecvPkt headerLength (message sequence command [])) sequence command [] :=
    receivePkt_carries _ _ _ (Nat.le_refl _)
  obtain ⟨same, error, stored, failed⟩ := handle_heard ran
  rw [carries.command] at stored failed
  exact ⟨same ▸ carries.command, error, stored, failed⟩

theorem Answer.command {reads : List (Option (List UInt8))} {s : Session} {command : UInt16}
    (answer : Answer p reads s command) : command = serverHello ∨ command = pktReceived := by
  cases answer with
  | hello => exact .inl rfl
  | received => exact .inr rfl

theorem client_requests (valid : p.Valid) {s : Session} {sequence command last : UInt16}
    (answer : Answer p c.reads s command) (sent : c.Sent last)
    (ran : c.iterate p.fileName (.packet (message sequence command [])) = some (c', packets)) :
    ∃ next data, packets = [message (last + 1) next data] ∧ c'.Sent (last + 1) ∧ Request p c'.reads s next data := by
  let received := { c with clientRecvPkt := receivePkt c.clientRecvPkt headerLength (message sequence command []) }
  have carries : Carries received.clientRecvPkt sequence command [] := receivePkt_carries _ _ _ (Nat.le_refl _)
  have handled : received.handle p.fileName = some (c', packets) := ran
  obtain ⟨result, rest, file, taken⟩ := readFile_taken received
  have asks : ∀ data next, some ({ received with reads := rest }.sendNext data next) = some (c', packets) →
      Request p rest s next data →
      ∃ next data, packets = [message (last + 1) next data] ∧ c'.Sent (last + 1) ∧ Request p c'.reads s next data := by
    intro data next same request
    obtain ⟨written, sent'⟩ := sendNext_eq (c := { received with reads := rest }) ⟨sent.static, sent.last⟩ data next
    obtain ⟨rfl, rfl⟩ := Prod.mk.inj (Option.some.inj same)
    exact ⟨next, data, written, sent', request⟩
  cases answer with
  | hello last start sentS buffered null =>
    simp only [Client.handle, carries.command, file, if_true] at handled
    cases result with
    | none => exact asks [] error handled .failure
    | some bytes =>
      have taken' : Taken p.reads (some bytes) rest := start ▸ taken
      obtain ⟨short, later⟩ := taken'.short valid.chunks
      have room := taken'.unread ▸ valid.size
      refine asks bytes dataDelivery handled
        (.delivery [] bytes last sentS buffered (.inl null) short taken'.content ?_ later)
      simpa using room
  | received bytes last sentS buffered content room later =>
    have other : pktReceived ≠ serverHello := by decide
    simp only [Client.handle, carries.command, file, if_neg other, if_true] at handled
    cases result with
    | none => exact asks [] error handled .failure
    | some data =>
      have ends := taken.untilEnd
      have left := taken.unread
      obtain ⟨short, later'⟩ := taken.short later
      cases data with
      | nil =>
        have fits : p.fileName.length + 1 ≤ dataSize := valid.short
        simp only [if_pos fits] at handled
        refine asks (p.fileName ++ [0]) dataStore handled (.store bytes last sentS buffered ?_)
        rw [content, show untilEnd c.reads = some [] from ends]
        simp
      | cons b data =>
        refine asks (b :: data) dataDelivery handled
          (.delivery bytes (b :: data) last sentS buffered (.inr ?_) short ?_ ?_ later')
        · simp
        · rw [content, show untilEnd c.reads = (untilEnd rest).map ((b :: data) ++ ·) from ends, Option.map_map]
          refine congrArg (fun f => (untilEnd rest).map f) (funext fun more => ?_)
          simp
        · have total : unread c.reads = (b :: data).length + unread rest := left
          omega

end Client

structure Unheard (p : Attempt) (c : Client) : Prop where
  -- Only what `clientRecvPkt` held at first can have looked like a verdict.
  stored : c.fileStored = true → load16 (p.received .client) commandAt = fileStored
  failed : c.storedError = true →
    load16 (p.received .client) commandAt = error ∨ load16 (p.received .client) commandAt = storedError
  heard : c.clientRecvPkt = p.received .client ∨ load16 c.clientRecvPkt commandAt = serverHello ∨
    load16 c.clientRecvPkt commandAt = pktReceived

inductive Standing (p : Attempt) (s : Exchange) : Prop where
  -- A request before the server, behind which a client may have left.
  | asked (sequence command : UInt16) (data : List UInt8) (rest : List (List UInt8))
      (request : Request p s.client.reads s.server command data)
      (toServer : s.toServer = message sequence command data :: rest)
      (behind : s.client.readError = false ∧ rest = [] ∧ s.toClient = [] ∧ s.client.Sent sequence ∨
        s.client.readError = true ∧ ∃ last, rest = [message last error []])
      (calm : Calm p s.client) (on : s.server.isOver = false) (written : s.written = [])
  | answered (sequence command last : UInt16) (answer : Answer p s.client.reads s.server command)
      (sent : s.client.Sent last) (toServer : s.toServer = []) (toClient : s.toClient = [message sequence command []])
      (calm : Calm p s.client) (here : s.client.readError = false) (on : s.server.isOver = false)
      (written : s.written = [])
  | left (last : UInt16) (toServer : s.toServer = [message last error []]) (calm : Calm p s.client)
      (gone : s.client.readError = true) (on : s.server.isOver = false) (written : s.written = [])
  | decided (command : UInt16) (decided : Decided p s.server command s.written)
      (news : s.client.fileStored = s.server.fileStored ∧ s.client.storedError = s.server.storedError ∨
        s.client.fileStored = false ∧ s.client.storedError = false ∧
          (s.client.readError = true ∨ ∃ sequence, s.toClient = [message sequence command []]))
  | undecided (finished : s.server.isOver = true) (stored : s.server.fileStored = false)
      (failed : s.server.storedError = false) (unheard : Unheard p s.client)
      (waiting : s.client.isOver = true ∨ s.toClient = [] ∨ ∃ sequence command,
        (command = serverHello ∨ command = pktReceived) ∧ s.toClient = [message sequence command []])

section Standings

variable {p : Attempt} {s s' : Exchange}

theorem serverStep_eq {read : SocketRead} {rest : List (List UInt8)} {o : Outcome}
    (stepped : Attempt.serverStep s read rest o = some s') :
    ∃ server effects, s.server.iterate read o = some (server, effects) ∧
      s' = { s with server, toServer := rest, toClient := s.toClient ++ effects.replies
                    log := s.log ++ effects.replies.map fun packet => (.server, packet)
                    written := s.written ++ effects.written.toList } := by
  obtain ⟨⟨server, effects⟩, ran, same⟩ := Option.map_eq_some_iff.mp stepped
  exact ⟨server, effects, ran, same.symm⟩

theorem clientStep_eq {read : SocketRead} {rest : List (List UInt8)} (stepped : p.clientStep s read rest = some s') :
    ∃ client packets, s.client.iterate p.fileName read = some (client, packets) ∧
      s' = { s with client, toClient := rest, toServer := s.toServer ++ packets
                    log := s.log ++ packets.map fun packet => (.client, packet) } := by
  obtain ⟨⟨client, packets⟩, ran, same⟩ := Option.map_eq_some_iff.mp stepped
  exact ⟨client, packets, ran, same.symm⟩

theorem failed_client {c : Client} {last : UInt16} (sent : c.Sent last) (fileName : List UInt8) :
    c.iterate fileName .failed =
      some ({ (c.sendNext [] error).1 with readError := true }, [message (last + 1) error []]) :=
  congrArg some (Prod.ext rfl (sendNext_eq sent [] error).1)

theorem Calm.isOver {c : Client} (calm : Calm p c) : c.isOver = c.readError := by
  simp [Client.isOver, calm.undecided]

theorem Calm.unheard {c : Client} (calm : Calm p c) : Unheard p c := by
  refine ⟨fun stored => ?_, fun failed => ?_, calm.heard⟩
  · simp [calm.undecided] at stored
  · simp [calm.undecided] at failed

theorem Decided.isOver {server : Session} {command : UInt16} {written : List (List UInt8 × List UInt8)}
    (decided : Decided p server command written) : server.isOver = true := by
  cases decided with
  | stored bytes content stored error => simp [Session.isOver, stored]
  | refused command written kind stored error => simp [Session.isOver, error]

theorem Decided.verdict {server : Session} {command : UInt16} {written : List (List UInt8 × List UInt8)}
    (decided : Decided p server command written) :
    command = fileStored ∧ server.fileStored = true ∧ server.storedError = false ∨
      (command = error ∨ command = storedError) ∧ server.fileStored = false ∧ server.storedError = true := by
  cases decided with
  | stored bytes content stored error => exact .inl ⟨rfl, stored, error⟩
  | refused command written kind stored error => exact .inr ⟨kind, stored, error⟩

-- The command that is handled at the end of the stream is the old one.
theorem Unheard.handle {c c' : Client} (unheard : Unheard p c) (heard : Heard c c') : Unheard p c' := by
  refine ⟨fun stored => ?_, fun failed => ?_, heard.packet ▸ unheard.heard⟩
  · rw [heard.fileStored, Bool.or_eq_true, decide_eq_true_eq] at stored
    rcases stored with before | now
    · exact unheard.stored before
    · rcases unheard.heard with first | hello | received
      · rwa [first] at now
      · exact absurd (hello.symm.trans now) (by decide)
      · exact absurd (received.symm.trans now) (by decide)
  · rw [heard.storedError, Bool.or_eq_true, decide_eq_true_eq] at failed
    rcases failed with before | now
    · exact unheard.failed before
    · rcases unheard.heard with first | hello | received
      · rwa [first] at now
      · rw [hello] at now
        exact absurd now (by decide)
      · rw [received] at now
        exact absurd now (by decide)

theorem start_standing (p : Attempt) : Standing p p.start := by
  obtain ⟨packets, sent⟩ := start_eq (p.unwritten .client) (p.received .client) p.reads p.clientRand
  refine .asked _ clientHello [] [] (.hello rfl (initPkt_static _) ?_ rfl) packets (.inl ⟨rfl, rfl, rfl, sent⟩)
    ⟨⟨rfl, rfl⟩, .inl rfl⟩ rfl rfl
  exact ⟨rfl, fun b held => (by cases held), fun _ => rfl⟩

theorem asked_server (valid : p.Valid) {sequence command : UInt16} {data : List UInt8} {rest : List (List UInt8)}
    (request : Request p s.client.reads s.server command data)
    (behind : s.client.readError = false ∧ rest = [] ∧ s.toClient = [] ∧ s.client.Sent sequence ∨
      s.client.readError = true ∧ ∃ last, rest = [message last error []])
    (calm : Calm p s.client) (on : s.server.isOver = false) (written : s.written = []) {o : Outcome}
    (stepped : Attempt.serverStep s (.packet (message sequence command data)) rest o = some s') : Standing p s' := by
  obtain ⟨server, effects, ran, rfl⟩ := serverStep_eq stepped
  have reaction : Reaction p s.client.reads server effects := request_reaction valid request on ran
  cases reaction with
  | answers number reply answer still =>
    rcases behind with ⟨here, rfl, empty, sent⟩ | ⟨gone, last, rfl⟩
    · refine .answered number reply sequence answer sent rfl ?_ calm here still ?_
      · simp [empty]
      · simp [written]
    · refine .left last rfl calm gone still ?_
      simp [written]
  | decides number reply stores decided =>
    refine .decided reply (by simpa [written] using decided) (.inr ⟨calm.undecided.1, calm.undecided.2, ?_⟩)
    rcases behind with ⟨here, rfl, empty, sent⟩ | ⟨gone, last, rfl⟩
    · exact .inr ⟨number, by simp [empty]⟩
    · exact .inl gone
  | breaks broken undecided =>
    refine .undecided ?_ undecided.1 undecided.2 calm.unheard ?_
    · simp [Session.isOver, broken]
    · rcases behind with ⟨here, rfl, empty, sent⟩ | ⟨gone, last, rfl⟩
      · exact .inr (.inl (by simp [empty]))
      · exact .inl (calm.isOver.trans gone)

theorem failed_server (calm : Calm p s.client) (on : s.server.isOver = false)
    (waiting : s.client.isOver = true ∨ s.toClient = [] ∨ ∃ sequence command,
      (command = serverHello ∨ command = pktReceived) ∧ s.toClient = [message sequence command []])
    {rest : List (List UInt8)} {o : Outcome} (stepped : Attempt.serverStep s .failed rest o = some s') : Standing p s' := by
  obtain ⟨unstored, unfailed, -, -⟩ := isOver_false.mp on
  obtain rfl := Option.some.inj stepped
  refine .undecided ?_ unstored unfailed calm.unheard ?_
  · simp [Session.isOver]
  · simpa using waiting

theorem standing_server (valid : p.Valid) (standing : Standing p s) {reading : Reading} {o : Outcome}
    (stepped : p.step s (.server reading o) = some s') : Standing p s' := by
  simp only [Attempt.step] at stepped
  split_ifs at stepped with finished
  obtain ⟨⟨read, rest⟩, arrived, stepped⟩ := Option.bind_eq_some_iff.mp stepped
  cases standing with
  | asked sequence command data behindIt request toServer behind calm on written =>
    cases reading with
    | packet =>
      obtain ⟨rfl, rfl⟩ : .packet (message sequence command data) = read ∧ behindIt = rest := by
        simpa [Reading.result, toServer] using arrived
      exact asked_server valid request behind calm on written stepped
    | closed => simp [Reading.result, toServer] at arrived
    | failed =>
      obtain ⟨rfl, -⟩ : .failed = read ∧ s.toServer = rest := by simpa [Reading.result] using arrived
      refine failed_server calm on ?_ stepped
      rcases behind with ⟨here, -, empty, sent⟩ | ⟨gone, -⟩
      · exact .inr (.inl empty)
      · exact .inl (calm.isOver.trans gone)
  | answered sequence command last answer sent toServer toClient calm here on written =>
    cases reading with
    | packet => simp [Reading.result, toServer] at arrived
    | closed => simp [Reading.result, toServer, calm.isOver, here] at arrived
    | failed =>
      obtain ⟨rfl, -⟩ : .failed = read ∧ s.toServer = rest := by simpa [Reading.result] using arrived
      exact failed_server calm on (.inr (.inr ⟨sequence, command, answer.command, toClient⟩)) stepped
  | left last toServer calm gone on written =>
    cases reading with
    | packet =>
      obtain ⟨rfl, rfl⟩ : .packet (message last error []) = read ∧ [] = rest := by
        simpa [Reading.result, toServer] using arrived
      obtain ⟨packet, broken⟩ := failure_breaks (s := s.server) last o
      simp only [Attempt.serverStep, broken, Option.map_some, Option.some.injEq] at stepped
      obtain ⟨unstored, unfailed, -, -⟩ := isOver_false.mp on
      rw [← stepped]
      refine .undecided ?_ unstored unfailed calm.unheard (.inl (calm.isOver.trans gone))
      simp [Session.isOver]
    | closed => simp [Reading.result, toServer] at arrived
    | failed =>
      obtain ⟨rfl, -⟩ : .failed = read ∧ s.toServer = rest := by simpa [Reading.result] using arrived
      exact failed_server calm on (.inl (calm.isOver.trans gone)) stepped
  | decided command decided news => exact absurd decided.isOver finished
  | undecided ended stored failed unheard waiting => exact absurd ended finished

theorem asked_client {sequence command : UInt16} {data : List UInt8} {rest : List (List UInt8)}
    (request : Request p s.client.reads s.server command data)
    (toServer : s.toServer = message sequence command data :: rest) (sent : s.client.Sent sequence)
    (drained : rest = []) (calm : Calm p s.client) (on : s.server.isOver = false) (written : s.written = [])
    {left : List (List UInt8)} (stepped : p.clientStep s .failed left = some s') : Standing p s' := by
  obtain ⟨client, packets, ran, rfl⟩ := clientStep_eq stepped
  obtain ⟨rfl, rfl⟩ := Prod.mk.inj (Option.some.inj ((failed_client sent _).symm.trans ran))
  refine .asked sequence command data [message (sequence + 1) error []] request ?_ (.inr ⟨rfl, _, rfl⟩) ⟨?_, calm.heard⟩
    on written
  · simp [toServer, drained]
  · exact calm.undecided

theorem answered_client (valid : p.Valid) {sequence command last : UInt16}
    (answer : Answer p s.client.reads s.server command) (sent : s.client.Sent last) (toServer : s.toServer = [])
    (toClient : s.toClient = [message sequence command []]) (calm : Calm p s.client)
    (here : s.client.readError = false) (on : s.server.isOver = false) (written : s.written = []) {reading : Reading}
    {read : SocketRead} {rest : List (List UInt8)}
    (arrived : reading.result s.toClient s.server.isOver = some (read, rest))
    (stepped : p.clientStep s read rest = some s') : Standing p s' := by
  cases reading with
  | packet =>
    obtain ⟨rfl, rfl⟩ : .packet (message sequence command []) = read ∧ [] = rest := by
      simpa [Reading.result, toClient] using arrived
    obtain ⟨client, packets, ran, rfl⟩ := clientStep_eq stepped
    obtain ⟨next, data, rfl, sent', request⟩ := client_requests valid answer sent ran
    obtain ⟨heard, still, stored, failed⟩ := iterate_packet ran
    have kind := answer.command
    refine .asked (last + 1) next data [] request ?_ (.inl ⟨still.trans here, rfl, rfl, sent'⟩) ⟨⟨?_, ?_⟩, .inr ?_⟩ on
      written
    · simp [toServer]
    · rw [stored, calm.undecided.1]
      rcases kind with rfl | rfl <;> rfl
    · rw [failed, calm.undecided.2]
      rcases kind with rfl | rfl <;> rfl
    · exact heard ▸ kind
  | closed => simp [Reading.result, on] at arrived
  | failed =>
    obtain ⟨rfl, -⟩ : .failed = read ∧ s.toClient = rest := by simpa [Reading.result] using arrived
    obtain ⟨client, packets, ran, rfl⟩ := clientStep_eq stepped
    obtain ⟨rfl, rfl⟩ := Prod.mk.inj (Option.some.inj ((failed_client sent _).symm.trans ran))
    refine .left (last + 1) ?_ ⟨calm.undecided, calm.heard⟩ rfl on written
    simp [toServer]

theorem decided_client {command sequence : UInt16} (decided : Decided p s.server command s.written)
    (unstored : s.client.fileStored = false) (unfailed : s.client.storedError = false)
    (toClient : s.toClient = [message sequence command []]) {reading : Reading} {read : SocketRead}
    {rest : List (List UInt8)} (arrived : reading.result s.toClient s.server.isOver = some (read, rest))
    (stepped : p.clientStep s read rest = some s') : Standing p s' := by
  cases reading with
  | packet =>
    obtain ⟨rfl, rfl⟩ : .packet (message sequence command []) = read ∧ [] = rest := by
      simpa [Reading.result, toClient] using arrived
    obtain ⟨client, packets, ran, rfl⟩ := clientStep_eq stepped
    obtain ⟨-, -, stored, failed⟩ := iterate_packet ran
    refine .decided command decided (.inl ?_)
    rw [unstored] at stored
    rw [unfailed] at failed
    rcases decided.verdict with ⟨rfl, yes, no⟩ | ⟨rfl | rfl, no, yes⟩
    · exact ⟨stored.trans yes.symm, failed.trans no.symm⟩
    · exact ⟨stored.trans no.symm, failed.trans yes.symm⟩
    · exact ⟨stored.trans no.symm, failed.trans yes.symm⟩
  | closed => simp [Reading.result, toClient] at arrived
  | failed =>
    obtain ⟨rfl, -⟩ : .failed = read ∧ s.toClient = rest := by simpa [Reading.result] using arrived
    obtain rfl := Option.some.inj stepped
    exact .decided command decided (.inr ⟨unstored, unfailed, .inl rfl⟩)

theorem undecided_client (ended : s.server.isOver = true) (stored : s.server.fileStored = false)
    (failed : s.server.storedError = false) (unheard : Unheard p s.client)
    (waiting : s.toClient = [] ∨ ∃ sequence command,
      (command = serverHello ∨ command = pktReceived) ∧ s.toClient = [message sequence command []])
    {reading : Reading} {read : SocketRead} {rest : List (List UInt8)}
    (arrived : reading.result s.toClient s.server.isOver = some (read, rest))
    (stepped : p.clientStep s read rest = some s') : Standing p s' := by
  cases reading with
  | packet =>
    rcases waiting with empty | ⟨sequence, command, kind, toClient⟩
    · simp [Reading.result, empty] at arrived
    · obtain ⟨rfl, rfl⟩ : .packet (message sequence command []) = read ∧ [] = rest := by
        simpa [Reading.result, toClient] using arrived
      obtain ⟨client, packets, ran, rfl⟩ := clientStep_eq stepped
      obtain ⟨heard, -, stored', failed'⟩ := iterate_packet ran
      refine .undecided ended stored failed ⟨?_, ?_, .inr (heard ▸ kind)⟩ (.inr (.inl rfl))
      · rw [stored']
        rcases kind with rfl | rfl <;> simpa [serverHello, pktReceived, fileStored] using unheard.stored
      · rw [failed']
        rcases kind with rfl | rfl <;> simpa [serverHello, pktReceived, error, storedError] using unheard.failed
  | closed =>
    obtain ⟨⟨empty, -⟩, rfl, rfl⟩ : (s.toClient = [] ∧ s.server.isOver = true) ∧ .closed = read ∧ [] = rest := by
      simpa [Reading.result] using arrived
    obtain ⟨client, packets, ran, rfl⟩ := clientStep_eq stepped
    exact .undecided ended stored failed (unheard.handle (handle_heard ran)) (.inr (.inl rfl))
  | failed =>
    obtain ⟨rfl, -⟩ : .failed = read ∧ s.toClient = rest := by simpa [Reading.result] using arrived
    obtain rfl := Option.some.inj stepped
    exact .undecided ended stored failed ⟨unheard.stored, unheard.failed, unheard.heard⟩ (.inl (by simp [Client.isOver]))

theorem standing_client (valid : p.Valid) (standing : Standing p s) {reading : Reading}
    (stepped : p.step s (.client reading) = some s') : Standing p s' := by
  simp only [Attempt.step] at stepped
  split_ifs at stepped with finished
  obtain ⟨⟨read, rest⟩, arrived, stepped⟩ := Option.bind_eq_some_iff.mp stepped
  cases standing with
  | asked sequence command data behindIt request toServer behind calm on written =>
    rcases behind with ⟨here, drained, empty, sent⟩ | ⟨gone, -⟩
    · cases reading with
      | packet => simp [Reading.result, empty] at arrived
      | closed => simp [Reading.result, on] at arrived
      | failed =>
        obtain ⟨rfl, -⟩ : .failed = read ∧ s.toClient = rest := by simpa [Reading.result] using arrived
        exact asked_client request toServer sent drained calm on written stepped
    · exact absurd (calm.isOver.trans gone) finished
  | answered sequence command last answer sent toServer toClient calm here on written =>
    exact answered_client valid answer sent toServer toClient calm here on written arrived stepped
  | left last toServer calm gone on written => exact absurd (calm.isOver.trans gone) finished
  | decided command decided news =>
    rcases news with ⟨stored, failed⟩ | ⟨unstored, unfailed, gone | ⟨sequence, toClient⟩⟩
    · -- the client knows the verdict and has left its loop
      exfalso
      rcases decided.verdict with ⟨-, yes, -⟩ | ⟨-, -, yes⟩
      · exact finished (by simp [Client.isOver, stored, yes])
      · exact finished (by simp [Client.isOver, failed, yes])
    · exact absurd (show s.client.isOver = true by simp [Client.isOver, gone]) finished
    · exact decided_client decided unstored unfailed toClient arrived stepped
  | undecided ended stored failed unheard waiting =>
    exact undecided_client ended stored failed unheard (waiting.resolve_left finished) arrived stepped

theorem standing_reachable (valid : p.Valid) (reached : p.system.Reachable s) : Standing p s := by
  refine System.ReachableWhile.invariant (P := Standing p) ?_ ?_ reached
  · rintro s rfl
    exact start_standing p
  · intro s e s' _ standing _ stepped
    cases e with
    | client reading => exact standing_client valid standing stepped
    | server reading o => exact standing_server valid standing stepped

end Standings

structure Agreement (p : Attempt) (s : Exchange) : Prop where
  onePacket : s.client.isOver = false → s.server.isOver = false → s.toServer.length + s.toClient.length = 1
  -- a server that is on behind its client finds a packet and not the end of the stream
  noEnd : s.client.isOver = true → s.server.isOver = false → s.toServer ≠ []
  stored : s.server.fileStored = true → ∃ bytes, p.content = some bytes ∧ s.written = [(p.fileName, bytes)]
  told : s.server.fileStored = true ∨ s.server.storedError = true →
    s.client.fileStored = s.server.fileStored ∧ s.client.storedError = s.server.storedError ∨
      s.client.fileStored = false ∧ s.client.storedError = false ∧
        (s.client.readError = true ∨ ∃ sequence command, s.toClient = [message sequence command []] ∧
          if s.server.fileStored then command = fileStored else command = error ∨ command = storedError)
  success : s.client.fileStored = true → s.server.fileStored = true ∨ load16 (p.received .client) commandAt = fileStored
  failure : s.client.storedError = true → s.server.storedError = true ∨
    load16 (p.received .client) commandAt = error ∨ load16 (p.received .client) commandAt = storedError

section Agreement

variable {p : Attempt} {s : Exchange}

theorem agreement_on (calm : Calm p s.client) (on : s.server.isOver = false)
    (onePacket : s.client.readError = false → s.toServer.length + s.toClient.length = 1)
    (noEnd : s.client.readError = true → s.toServer ≠ []) : Agreement p s := by
  obtain ⟨unstored, unfailed, -, -⟩ := isOver_false.mp on
  constructor
  case onePacket => exact fun here _ => onePacket (calm.isOver ▸ here)
  case noEnd => exact fun gone _ => noEnd (calm.isOver ▸ gone)
  case stored => simp [unstored]
  case told => simp [unstored, unfailed]
  case success => simp [calm.undecided]
  case failure => simp [calm.undecided]

theorem agreement_over (finished : s.server.isOver = true) {command : UInt16} (decided : Decided p s.server command s.written)
    (news : s.client.fileStored = s.server.fileStored ∧ s.client.storedError = s.server.storedError ∨
      s.client.fileStored = false ∧ s.client.storedError = false ∧
        (s.client.readError = true ∨ ∃ sequence, s.toClient = [message sequence command []])) : Agreement p s := by
  have on : ¬s.server.isOver = false := by simp [finished]
  constructor
  case onePacket => exact fun _ still => absurd still on
  case noEnd => exact fun _ still => absurd still on
  case stored =>
    intro stored
    generalize writes : s.written = written at decided
    cases decided with
    | stored bytes content yes no => exact ⟨bytes, content, rfl⟩
    | refused _ _ kind no yes => simp [no] at stored
  case told =>
    intro _
    refine news.imp_right fun unheard => ⟨unheard.1, unheard.2.1, unheard.2.2.imp_right ?_⟩
    rintro ⟨sequence, toClient⟩
    refine ⟨sequence, command, toClient, ?_⟩
    rcases decided.verdict with ⟨same, yes, -⟩ | ⟨kind, no, -⟩
    · rwa [if_pos yes]
    · simpa [no] using kind
  case success =>
    intro stored
    rcases news with ⟨same, -⟩ | ⟨not, -⟩
    · exact .inl (same.symm.trans stored)
    · simp [not] at stored
  case failure =>
    intro failed
    rcases news with ⟨-, same⟩ | ⟨-, not, -⟩
    · exact .inl (same.symm.trans failed)
    · simp [not] at failed

end Agreement

theorem sides_agree {p : Attempt} (valid : p.Valid) {s : Exchange} (reached : p.system.Reachable s) :
    Agreement p s := by
  cases standing_reachable valid reached with
  | asked sequence command data rest request toServer behind calm on written =>
    refine agreement_on calm on (fun here => ?_) (fun _ => by simp [toServer])
    rcases behind with ⟨-, drained, empty, -⟩ | ⟨gone, -⟩
    · simp [toServer, drained, empty]
    · simp [here] at gone
  | answered sequence command last answer sent toServer toClient calm here on written =>
    exact agreement_on calm on (fun _ => by simp [toServer, toClient]) (fun gone => by simp [here] at gone)
  | left last toServer calm gone on written =>
    exact agreement_on calm on (fun here => by simp [here] at gone) (fun _ => by simp [toServer])
  | decided command decided news => exact agreement_over decided.isOver decided news
  | undecided finished stored failed unheard waiting =>
    have on : ¬s.server.isOver = false := by simp [finished]
    exact ⟨fun _ still => absurd still on, fun _ still => absurd still on, by simp [stored], by simp [stored, failed],
      fun yes => .inr (unheard.stored yes), fun yes => .inr (unheard.failed yes)⟩

def unopened : Attempt where
  fileName := [97]
  reads := [some [1, 2]]
  clientRand := 65534
  unwritten := fun _ _ => 0
  received := fun _ _ => 0

def opening (opens : Bool) : Outcome where
  rand := 7
  realloc := some fun _ => 0
  malloc := true
  opens
  writes := some 2

theorem unopened_valid : unopened.Valid where
  text := by simp [unopened]
  short := by decide
  chunks := by simp [unopened, dataSize]
  size := by decide

theorem unopened_refused : ∃ s, unopened.system.Reachable s ∧ s.client.storedError = true ∧
    (s.server.storedError = true ∨ load16 (unopened.received .client) commandAt = error ∨
      load16 (unopened.received .client) commandAt = storedError) := by
  obtain ⟨s, ran, failed⟩ : ∃ s, unopened.system.exec unopened.start [.server .packet (opening true), .client .packet,
      .server .packet (opening true), .client .packet, .server .packet (opening false), .client .packet] = some s ∧
      s.client.storedError = true := ⟨_, rfl, rfl⟩
  have reached := System.exec_reachable (.initial _ rfl) ran
  exact ⟨s, reached, failed, (sides_agree unopened_valid reached).failure failed⟩

-- What `clientRecvPkt` held at first is taken for a verdict when the server leaves before it has answered.
example : ∃ s, { unopened with received := fun _ => ofBytes [0, 0, 0, 0, 0, 0, 0, 7] }.system.exec
    { unopened with received := fun _ => ofBytes [0, 0, 0, 0, 0, 0, 0, 7] }.start
      [.server .failed (opening true), .client .closed] = some s ∧
    s.client.fileStored = true ∧ s.server.fileStored = false := ⟨_, rfl, rfl, rfl⟩

end NetProg.P1
