import Mathlib.Data.List.TakeWhile
import NetProg.P3.Client

set_option autoImplicit false

namespace NetProg.P3

open Memory Transition

structure Exchange.Answers (p : Service) (s : Exchange) : Prop where
  -- one task for each request that has been read
  tasks : s.made * Client.httpReqMsg.length + s.toServer.length = s.asked * Client.httpReqMsg.length
  -- a receive loop ends with the response, all of it and nothing else
  loops : ∀ bytes ∈ s.loops, bytes = responseOf p.file
  -- one that goes on has not got it all, and waits for bytes that will come
  waits : s.pc = .receiving → s.received <+: responseOf p.file ∧ s.received ≠ responseOf p.file ∧
    (s.toServer ≠ [] ∨ s.tasks ≠ [] ∨ s.toClient ≠ [])
  inside : s.pc ≠ .outside

-- What `strstr` looks at, when it stops inside `recvBuff`.
def shown (chunk : List UInt8) : List UInt8 := chunk.takeWhile (· ≠ 0)

structure ChunkFits (p : Service) (received chunk : List UInt8) : Prop where
  terminated : chunk.length < dataSize ∨ 0 ∈ chunk
  -- the last chunk of a response shows the whole end message, and no other chunk does
  marked : endMsg <:+: shown chunk ↔ received ++ chunk = responseOf p.file

def CutsFit (p : Service) (s : Exchange) (e : ExchangeEvent) (_ : Exchange) : Prop :=
  match e with
  | .serverRead n => n = Client.httpReqMsg.length
  | .clientRead n => ChunkFits p s.received (s.toClient.take n)
  | _ => True

instance (p : Service) (received chunk : List UInt8) : Decidable (ChunkFits p received chunk) :=
  decidable_of_iff ((chunk.length < dataSize ∨ 0 ∈ chunk) ∧
      (endMsg <:+: shown chunk ↔ received ++ chunk = responseOf p.file))
    ⟨fun ⟨terminated, marked⟩ => ⟨terminated, marked⟩, fun fits => ⟨fits.terminated, fits.marked⟩⟩

instance (p : Service) (s : Exchange) (e : ExchangeEvent) (s' : Exchange) : Decidable (CutsFit p s e s') := by
  unfold CutsFit
  split <;> infer_instance

theorem cstring_recvBuff (chunk : List UInt8) :
    cstring (recvBuff chunk) = if chunk.length < dataSize ∨ 0 ∈ chunk then some (shown chunk) else none := by
  simp only [recvBuff, cstring_zeros, Nat.sub_pos_iff_lt, shown]

inductive Exchange.Stage (p : Service) (s : Exchange) : Prop where
  | between (idle : s.pc = .sending ∨ s.pc = .closed) (toServer : s.toServer = []) (toClient : s.toClient = [])
      (tasks : s.tasks = []) (made : s.made = s.asked)
  | asked (pc : s.pc = .receiving) (toServer : s.toServer = Client.httpReqMsg) (toClient : s.toClient = [])
      (tasks : s.tasks = []) (received : s.received = []) (made : s.made + 1 = s.asked)
  | answered (left : List UInt8) (pc : s.pc = .receiving) (toServer : s.toServer = [])
      (tasks : s.tasks = if left = [] then [] else [left])
      (stream : s.received ++ s.toClient ++ left = responseOf p.file) (unread : s.toClient ++ left ≠ [])
      (made : s.made = s.asked)

structure Exchange.Sound (p : Service) (s : Exchange) : Prop where
  stage : s.Stage p
  loops : ∀ bytes ∈ s.loops, bytes = responseOf p.file

theorem response_nonempty (file : List UInt8) : responseOf file ≠ [] := by
  simp [responseOf, endMsg, text]

section Steps

variable {p : Service} {s s' : Exchange}

theorem Exchange.Sound.answers (sound : s.Sound p) : s.Answers p := by
  cases sound.stage with
  | between idle toServer toClient tasks made =>
    have notReceiving : s.pc ≠ .receiving ∧ s.pc ≠ .outside := by
      rcases idle with sending | closed
      · simp [sending]
      · simp [closed]
    exact ⟨by simp [made, toServer], sound.loops, fun receiving => absurd receiving notReceiving.1, notReceiving.2⟩
  | asked pc toServer toClient tasks received made =>
    refine ⟨?_, sound.loops, fun _ => ⟨?_, ?_, .inl ?_⟩, by simp [pc]⟩
    · rw [toServer, ← made, Nat.succ_mul]
    · simp [received]
    · rw [received]
      exact (response_nonempty p.file).symm
    · simp [toServer, Client.httpReqMsg, text]
  | answered left pc toServer tasks stream unread made =>
    refine ⟨by simp [made, toServer], sound.loops, fun _ => ⟨?_, ?_, .inr ?_⟩, by simp [pc]⟩
    · rw [List.append_assoc] at stream
      exact ⟨_, stream⟩
    · intro whole
      rw [whole, List.append_assoc, List.append_right_eq_self] at stream
      exact unread stream
    · by_cases nothing : left = []
      · simp only [nothing, List.append_nil] at unread
        exact .inr unread
      · exact .inl (by simp [tasks, nothing])

theorem write_sound (sound : s.Sound p) (ran : s.write p = some s') : s'.Sound p := by
  simp only [Exchange.write] at ran
  split_ifs at ran with sending
  obtain rfl := Option.some.inj ran
  refine ⟨?_, sound.loops⟩
  cases sound.stage with
  | between idle toServer toClient tasks made => exact .asked rfl (by simp [toServer]) toClient tasks rfl (by simp [made])
  | asked pc => simp [pc] at sending
  | answered left pc => simp [pc] at sending

theorem close_sound (sound : s.Sound p) (ran : s.close p = some s') : s'.Sound p := by
  simp only [Exchange.close] at ran
  split_ifs at ran with sending
  obtain rfl := Option.some.inj ran
  refine ⟨?_, sound.loops⟩
  cases sound.stage with
  | between idle toServer toClient tasks made => exact .between (.inr rfl) toServer toClient tasks made
  | asked pc => simp [pc] at sending
  | answered left pc => simp [pc] at sending

theorem serverRead_asked (sound : s.Sound p) {n : Nat} (ran : s.serverRead p n = some s') :
    s.pc = .receiving ∧ s.toServer = Client.httpReqMsg ∧ s.toClient = [] ∧ s.tasks = [] ∧ s.received = [] ∧
      s.made + 1 = s.asked ∧ n ≤ Client.httpReqMsg.length ∧
      s' = { s with toServer := s.toServer.drop n, tasks := s.tasks ++ [responseOf p.file], made := s.made + 1 } := by
  simp only [Exchange.serverRead] at ran
  split_ifs at ran with available
  obtain rfl := Option.some.inj ran
  cases sound.stage with
  | between idle toServer => simp [toServer] at available; omega
  | asked pc toServer toClient tasks received made =>
    exact ⟨pc, toServer, toClient, tasks, received, made, toServer ▸ available.2, rfl⟩
  | answered left pc toServer => simp [toServer] at available; omega

theorem serverRead_sound (sound : s.Sound p) {n : Nat} (whole : n = Client.httpReqMsg.length)
    (ran : s.serverRead p n = some s') : s'.Sound p := by
  obtain ⟨pc, toServer, toClient, tasks, received, made, -, rfl⟩ := serverRead_asked sound ran
  have unread := response_nonempty p.file
  refine ⟨.answered (responseOf p.file) pc ?_ ?_ ?_ ?_ made, sound.loops⟩
  · simp [toServer, whole]
  · simp [tasks, unread]
  · simp [received, toClient]
  · simp [unread]

theorem serverRead_whole (sound : s.Sound p) {n : Nat} (ran : s.serverRead p n = some s') (answers : s'.Answers p) :
    n = Client.httpReqMsg.length := by
  obtain ⟨-, toServer, -, -, -, made, short, rfl⟩ := serverRead_asked sound ran
  have tasks := answers.tasks
  simp only [toServer, made, List.length_drop] at tasks
  omega

theorem respond_sound (sound : s.Sound p) {j n : Nat} (ran : s.respond j n = some s') : s'.Sound p := by
  simp only [Exchange.respond] at ran
  split at ran
  next => cases ran
  next left running =>
    by_cases available : 0 < n ∧ n ≤ left.length
    case neg => simp [available] at ran
    rw [if_pos available] at ran
    obtain rfl := Option.some.inj ran
    refine ⟨?_, sound.loops⟩
    cases sound.stage with
    | between idle toServer toClient tasks made => simp [tasks] at running
    | asked pc toServer toClient tasks => simp [tasks] at running
    | answered left' pc toServer tasks stream unread made =>
      -- there is one task that writes, and it is this one
      split_ifs at tasks with nothing
      · simp [tasks] at running
      · rw [tasks, List.getElem?_singleton] at running
        split_ifs at running with first
        subst first
        obtain rfl := Option.some.inj running
        refine .answered (left'.drop n) pc toServer ?_ ?_ ?_ made
        · by_cases last : n = left'.length
          · simp [tasks, last]
          · have more : left'.drop n ≠ [] := by
              rw [Ne, List.drop_eq_nil_iff]
              omega
            simp [tasks, last, more]
        · rw [← stream]
          simp
        · simpa using unread

inductive Exchange.Reads (s : Exchange) (n : Nat) : Exchange → Prop where
  -- How a `read` of `n` bytes leaves the receive loop.
  | overruns (unterminated : ¬ ((s.toClient.take n).length < dataSize ∨ 0 ∈ s.toClient.take n)) :
      s.Reads n { s with pc := .outside, toClient := s.toClient.drop n, received := s.received ++ s.toClient.take n }
  | ends (terminated : (s.toClient.take n).length < dataSize ∨ 0 ∈ s.toClient.take n)
      (marked : endMsg <:+: shown (s.toClient.take n)) :
      s.Reads n { s with pc := .sending, i := s.i + 1, toClient := s.toClient.drop n
                         received := s.received ++ s.toClient.take n
                         loops := s.loops ++ [s.received ++ s.toClient.take n] }
  | goesOn (terminated : (s.toClient.take n).length < dataSize ∨ 0 ∈ s.toClient.take n)
      (unmarked : ¬ endMsg <:+: shown (s.toClient.take n)) :
      s.Reads n { s with toClient := s.toClient.drop n, received := s.received ++ s.toClient.take n }

theorem clientRead_reads {n : Nat} (ran : s.clientRead n = some s') :
    s.pc = .receiving ∧ 0 < n ∧ n ≤ s.toClient.length ∧ s.Reads n s' := by
  by_cases available : s.pc = .receiving ∧ 0 < n ∧ n ≤ dataSize ∧ n ≤ s.toClient.length
  case neg => simp [Exchange.clientRead, available] at ran
  rw [Exchange.clientRead, if_pos available] at ran
  simp only [cstring_recvBuff] at ran
  obtain ⟨pc, positive, -, within⟩ := available
  refine ⟨pc, positive, within, ?_⟩
  by_cases terminated : (s.toClient.take n).length < dataSize ∨ 0 ∈ s.toClient.take n
  case neg =>
    rw [if_neg terminated] at ran
    obtain rfl := Option.some.inj ran
    exact .overruns terminated
  case pos =>
    rw [if_pos terminated] at ran
    simp only at ran
    split_ifs at ran with marked
    · obtain rfl := Option.some.inj ran
      exact .ends terminated marked
    · obtain rfl := Option.some.inj ran
      exact .goesOn terminated marked

theorem clientRead_answered (sound : s.Sound p) {n : Nat} (ran : s.clientRead n = some s') :
    ∃ left, s.toServer = [] ∧ s.tasks = (if left = [] then [] else [left]) ∧
      s.received ++ s.toClient.take n ++ (s.toClient.drop n ++ left) = responseOf p.file ∧ s.made = s.asked := by
  obtain ⟨pc, positive, within, -⟩ := clientRead_reads ran
  cases sound.stage with
  | between idle toServer toClient tasks made =>
    rcases idle with sending | closed
    · cases pc.symm.trans sending
    · cases pc.symm.trans closed
  | asked pc' toServer toClient =>
    simp only [toClient, List.length_nil] at within
    omega
  | answered left pc' toServer tasks stream unread made =>
    refine ⟨left, toServer, tasks, ?_, made⟩
    rw [← stream]
    conv_rhs => rw [← List.take_append_drop n s.toClient]
    simp only [List.append_assoc]

theorem clientRead_sound (sound : s.Sound p) {n : Nat} (fits : ChunkFits p s.received (s.toClient.take n))
    (ran : s.clientRead n = some s') : s'.Sound p := by
  obtain ⟨left, toServer, tasks, stream, made⟩ := clientRead_answered sound ran
  obtain ⟨pc, positive, within, reads⟩ := clientRead_reads ran
  cases reads with
  | overruns unterminated => exact absurd fits.terminated unterminated
  | ends terminated marked =>
    have whole := fits.marked.mp marked
    rw [← whole, List.append_right_eq_self] at stream
    obtain ⟨toClient, rfl⟩ := List.append_eq_nil_iff.mp stream
    refine ⟨.between (.inl rfl) toServer toClient (by simpa using tasks) made, ?_⟩
    intro bytes member
    rcases List.mem_append.mp member with earlier | last
    · exact sound.loops bytes earlier
    · rw [List.mem_singleton.mp last, whole]
  | goesOn terminated unmarked =>
    refine ⟨.answered left pc toServer tasks ?_ ?_ made, sound.loops⟩
    · rw [← stream]
      simp only [List.append_assoc]
    · intro nothing
      rw [nothing, List.append_nil] at stream
      exact unmarked (fits.marked.mpr stream)

theorem clientRead_fits {n : Nat} (ran : s.clientRead n = some s') (answers : s'.Answers p) :
    ChunkFits p s.received (s.toClient.take n) := by
  obtain ⟨pc, positive, within, reads⟩ := clientRead_reads ran
  cases reads with
  | overruns unterminated => exact absurd rfl answers.inside
  | ends terminated marked =>
    have whole := answers.loops (s.received ++ s.toClient.take n) (by simp)
    exact ⟨terminated, iff_of_true marked whole⟩
  | goesOn terminated unmarked =>
    obtain ⟨-, more, -⟩ := answers.waits pc
    exact ⟨terminated, iff_of_false unmarked more⟩

theorem step_sound (sound : s.Sound p) {e : ExchangeEvent} (fits : CutsFit p s e s') (stepped : s.step p e = some s') :
    s'.Sound p := by
  cases e with
  | write => exact write_sound sound stepped
  | close => exact close_sound sound stepped
  | clientRead n => exact clientRead_sound sound fits stepped
  | serverRead n => exact serverRead_sound sound fits stepped
  | respond j n => exact respond_sound sound stepped

theorem step_fits (sound : s.Sound p) {e : ExchangeEvent} (stepped : s.step p e = some s') (answers : s'.Answers p) :
    CutsFit p s e s' := by
  cases e with
  | write => trivial
  | close => trivial
  | clientRead n => exact clientRead_fits stepped answers
  | serverRead n => exact serverRead_whole sound stepped answers
  | respond j n => trivial

end Steps

theorem connected_sound (p : Service) : connected.Sound p where
  stage := .between (.inl rfl) rfl rfl rfl rfl
  loops := by simp [connected]

theorem exchange_sound {p : Service} {s : Exchange} (reached : (exchange p).ReachableWhile (CutsFit p) s) :
    s.Sound p := by
  apply reached.invariant
  · rintro s rfl
    exact connected_sound p
  · exact fun _ _ _ _ sound fits stepped => step_sound sound fits stepped

structure Service.Plain (p : Service) : Prop where
  -- The file has no NUL, and the end message is in the response only at its end.
  text : 0 ∉ p.file
  once : ¬ endMsg <:+: (responseOf p.file).dropLast

theorem Service.Plain.noNul {p : Service} (plain : p.Plain) : 0 ∉ responseOf p.file := by
  have header : (0 : UInt8) ∉ httpReqMsg := by decide
  have endText : (0 : UInt8) ∉ endMsg := by decide
  simp [responseOf, header, endText, plain.text]

theorem chunkFits_iff {p : Service} (plain : p.Plain) {received chunk later : List UInt8}
    (stream : received ++ chunk ++ later = responseOf p.file) :
    ChunkFits p received chunk ↔ chunk.length < dataSize ∧ (later = [] → endMsg.length ≤ chunk.length) := by
  have whole : received ++ chunk = responseOf p.file ↔ later = [] := by
    rw [← stream, eq_comm, List.append_right_eq_self]
  have noNul : 0 ∉ chunk := by
    intro member
    have inside : (0 : UInt8) ∈ responseOf p.file := by simp [← stream, member]
    exact plain.noNul inside
  have all : shown chunk = chunk := by
    rw [shown, List.takeWhile_eq_self_iff]
    intro c member
    have notNul : c ≠ 0 := fun zero => noNul (zero ▸ member)
    simpa using notNul
  have marked : endMsg <:+: chunk ↔ later = [] ∧ endMsg.length ≤ chunk.length := by
    constructor
    · intro shows
      refine ⟨?_, shows.length_le⟩
      by_contra more
      refine plain.once (shows.trans ?_)
      rw [← stream, List.dropLast_append_of_ne_nil more]
      exact ⟨received, later.dropLast, rfl⟩
    · rintro ⟨rfl, long⟩
      rw [List.append_nil] at stream
      have ends : endMsg <:+ responseOf p.file := List.suffix_append ..
      have tail : chunk <:+ responseOf p.file := ⟨received, stream⟩
      exact (List.suffix_of_suffix_length_le ends tail long).isInfix
  constructor
  · rintro ⟨terminated, shows⟩
    rw [all, whole, marked] at shows
    exact ⟨terminated.resolve_right noNul, fun last => (shows.mpr last).2⟩
  · rintro ⟨small, long⟩
    refine ⟨.inl small, ?_⟩
    rw [all, whole, marked]
    exact ⟨And.left, fun last => ⟨last, long last⟩⟩

theorem answers_iff_cuts_fit (p : Service) {s : Exchange} (reached : (exchange p).ReachableWhile (CutsFit p) s) :
    s.Answers p ∧ (∀ e s', (exchange p).step s e = some s' → (s'.Answers p ↔ CutsFit p s e s')) ∧
      (p.Plain → ∀ n s', (exchange p).step s (.clientRead n) = some s' → (CutsFit p s (.clientRead n) s' ↔
        n < dataSize ∧ (s.received.length + n = (responseOf p.file).length → endMsg.length ≤ n))) := by
  have sound := exchange_sound reached
  refine ⟨sound.answers, fun e s' stepped => ⟨?_, ?_⟩, fun plain n s' stepped => ?_⟩
  · exact step_fits sound stepped
  · exact fun fits => (step_sound sound fits stepped).answers
  · obtain ⟨left, -, -, stream, -⟩ := clientRead_answered sound stepped
    obtain ⟨-, -, within, -⟩ := clientRead_reads stepped
    have count : (s.toClient.take n).length = n := List.length_take_of_le within
    have last : s.toClient.drop n ++ left = [] ↔ s.received.length + n = (responseOf p.file).length := by
      rw [← stream, List.length_append, List.length_append, count, Nat.left_eq_add, List.length_eq_zero_iff]
    have fits := chunkFits_iff plain stream
    rwa [last, count] at fits

def onePage : Service := { reqNum := 2, file := [60] }

example : onePage.Plain := ⟨by decide, by decide +kernel⟩

def oneResponse : List ExchangeEvent := [.write, .serverRead 47, .respond 0 20, .clientRead 20, .respond 0 10, .clientRead 10]

theorem two_requests_answered : ∃ s : Exchange, s.loops = [responseOf [60], responseOf [60]] ∧ s.Answers onePage := by
  have loops : ((exchange onePage).execWhile (CutsFit onePage) connected (oneResponse ++ oneResponse)).map
      Exchange.loops = some [responseOf [60], responseOf [60]] := by decide +kernel
  obtain ⟨s, ran, same⟩ := Option.map_eq_some_iff.mp loops
  have reached := System.execWhile_reachable (.initial _ rfl) ran
  exact ⟨s, same, (answers_iff_cuts_fit onePage reached).1⟩

def waitsInVain (s : Exchange) : Bool :=
  s.pc = .receiving && (s.toServer.isEmpty && s.tasks.isEmpty && s.toClient.isEmpty)

-- An end message that is cut in two leaves the client waiting, and a request that is cut in two makes two tasks.
theorem cut_in_two :
    (¬ ∀ (p : Service) (s : Exchange), ¬ endMsg <:+: p.file → (exchange p).Reachable s → s.Answers p) ∧
    (∃ s, (exchange onePage).Reachable s ∧ s.received = responseOf onePage.file ∧ waitsInVain s = true) ∧
    ∃ s, (exchange onePage).Reachable s ∧ s.asked = 1 ∧ s.made = 2 := by
  have waiting : ∃ s, (exchange onePage).Reachable s ∧ s.received = responseOf onePage.file ∧ waitsInVain s = true := by
    have same : ((exchange onePage).exec connected [.write, .serverRead 47, .respond 0 30, .clientRead 25, .clientRead 5]).map
        (fun s => (s.received, waitsInVain s)) = some (responseOf [60], true) := by decide +kernel
    obtain ⟨s, ran, outcome⟩ := Option.map_eq_some_iff.mp same
    obtain ⟨received, waits⟩ := Prod.mk.inj outcome
    exact ⟨s, System.exec_reachable (.initial _ rfl) ran, received, waits⟩
  refine ⟨fun claimed => ?_, waiting, ?_⟩
  · obtain ⟨s, reached, received, waits⟩ := waiting
    simp only [waitsInVain, Bool.and_eq_true, decide_eq_true_eq] at waits
    obtain ⟨-, more, -⟩ := (claimed onePage s (by decide +kernel) reached).waits waits.1
    exact more received
  · have same : ((exchange onePage).exec connected [.write, .serverRead 20, .serverRead 27]).map
        (fun s => (s.asked, s.made)) = some (1, 2) := by decide +kernel
    obtain ⟨s, ran, outcome⟩ := Option.map_eq_some_iff.mp same
    obtain ⟨asked, made⟩ := Prod.mk.inj outcome
    exact ⟨s, System.exec_reachable (.initial _ rfl) ran, asked, made⟩

end NetProg.P3
