import NetProg.P3.Requests
import NetProg.P3.WebServer

set_option autoImplicit false

namespace NetProg.P3

open Linked Transition

def ResponsePc.writes : ResponsePc → Bool
  | .closing _ => false
  | .returned => false
  | _ => true

def WebServer.writesTo (s : WebServer) (k : Fin thrNum) : Option Int :=
  match s.pool.workers k with
  | .executing _ _ clientSock => if (s.responses k).writes then some clientSock else none
  | _ => none

def WebServer.carried (s : WebServer) : List Int :=
  (s.pool.main.sock s.pool.heap).toList ++
    s.pool.unbegun.filterMap (fun a => (requestOf s.pool.heap a).map Prod.snd) ++
    (List.finRange thrNum).filterMap s.writesTo

def FreshNumber (s : WebServer) (e : WebEvent) (s' : WebServer) : Prop :=
  s'.pool.backlog < uintSize ∧ match e with
    -- `accept` and `fopen` return no number that a response will still be written to
    | .accept (some (sockfd, _)) => s.carried.all (· ≠ sockfd) = true
    | .log _ (.fopen (some fd)) => s.carried.all (· ≠ fd) = true
    | _ => True

instance (s : WebServer) (e : WebEvent) (s' : WebServer) : Decidable (FreshNumber s e s') := by
  unfold FreshNumber
  split <;> infer_instance

inductive WebServer.Moves (s : WebServer) : WebEvent → WebServer → Prop where
  | loops (e : WebEvent) (loop : EventLoop SockAddrIn) : s.Moves e { s with loop }
  | accepts (sockfd : Int) (clientAddr : SockAddrIn) (loop : EventLoop SockAddrIn) :
      s.Moves (.accept (some (sockfd, clientAddr)))
        { s with loop, descriptors := Function.update s.descriptors sockfd (some (.connection s.connections))
                 connections := s.connections + 1 }
  | closes (e : WebEvent) (loop : EventLoop SockAddrIn) (fd : Int) :
      s.Moves e { s with loop, descriptors := Function.update s.descriptors fd none }
  | requests (e : WebEvent) (loop : EventLoop SockAddrIn) (a : Addr) (info : ClientInfo) (pool : PoolState)
      (assignedThrId c : Nat) (asks : s.descriptors info.clientSock = some (.connection c))
      (moved : poolStep s.pool (.mallocInfo a info) = some pool) :
      s.Moves e { s with loop, pool, assignedThrId, request := c }
  | mallocs (e : WebEvent) (a : Addr) (stale : Option Addr) (pool : PoolState)
      (moved : poolStep s.pool (.mallocTask a stale httpResponsePtr) = some pool) : s.Moves e { s with pool }
  | givesUp (e : WebEvent) (pool : PoolState) (moved : poolStep s.pool .mallocFails = some pool) :
      s.Moves e { s with pool }
  | enqueues (e : WebEvent) (pool : PoolState) (moved : poolStep s.pool .enqueue = some pool) :
      s.Moves e { s with pool, requests := s.requests ++ [s.request] }
  | signals (e : WebEvent) (pool : PoolState) (moved : poolStep s.pool .signal = some pool) : s.Moves e { s with pool }
  | begins (e : WebEvent) (k : Fin thrNum) (t f : Nat) (c : Option Addr) (pool : PoolState)
      (before : s.pool.workers k = .logged t f c) (moved : poolStep s.pool (.worker k) = some pool) :
      s.Moves e { s.goto k .opening with pool }
  | works (e : WebEvent) (k : Fin thrNum) (pool : PoolState) (logs : Fin thrNum → LogPc)
      (quiet : ∀ t f c, s.pool.workers k ≠ .logged t f c) (moved : poolStep s.pool (.worker k) = some pool) :
      s.Moves e { s with pool, logs }
  | opensLog (k : Fin thrNum) (fd : Int) (logs : Fin thrNum → LogPc) :
      s.Moves (.log k (.fopen (some fd)))
        { s with logs, descriptors := Function.update s.descriptors fd (some .log) }
  | closesLog (e : WebEvent) (logs : Fin thrNum → LogPc) (fd : Int) :
      s.Moves e { s with logs, descriptors := Function.update s.descriptors fd none }
  | exits (e : WebEvent) : s.Moves e s.exit
  | responds (k : Fin thrNum) (e : ResponseEvent) (s' : WebServer) (t f : Nat) (clientSock : Int)
      (running : s.pool.workers k = .executing t f clientSock)
      (moved : httpResponse s k (serialOf s.pool.heap t) clientSock e = some s') : s.Moves (.respond k e) s'

theorem WebServer.mainStep_moves {s s' : WebServer} {e : WebEvent} (stepped : s.mainStep e = some s') :
    s.Moves e s' := by
  simp only [WebServer.mainStep] at stepped
  split at stepped
  next ready _ =>
    obtain ⟨loop, -, rfl⟩ := Option.map_eq_some_iff.mp stepped
    exact .loops _ loop
  next accepted _ =>
    cases accepted with
    | none =>
      obtain ⟨loop, -, rfl⟩ := Option.map_eq_some_iff.mp stepped
      exact .loops _ loop
    | some accepted =>
      obtain ⟨sockfd, clientAddr⟩ := accepted
      simp only [WebServer.accept] at stepped
      split_ifs at stepped
      obtain ⟨loop, -, rfl⟩ := Option.map_eq_some_iff.mp stepped
      exact .accepts sockfd clientAddr loop
  next nread clntInfo _ =>
    split at stepped
    next => cases stepped
    next loop _ => exact Option.some.inj stepped ▸ .loops _ loop
    next i loop _ =>
      simp only [WebServer.serve] at stepped
      split at stepped
      next => exact Option.some.inj stepped ▸ .loops _ _
      next => exact Option.some.inj stepped ▸ .closes _ _ _
      next =>
        split at stepped
        next c asks =>
          obtain ⟨pool, moved, rfl⟩ := Option.map_eq_some_iff.mp stepped
          exact .requests _ loop _ _ pool _ c asks moved
        next => cases stepped
  next =>
    obtain ⟨pool, moved, rfl⟩ := Option.map_eq_some_iff.mp stepped
    exact .mallocs _ _ _ pool moved
  next =>
    obtain ⟨pool, moved, rfl⟩ := Option.map_eq_some_iff.mp stepped
    exact .givesUp _ pool moved
  next =>
    obtain ⟨pool, moved, rfl⟩ := Option.map_eq_some_iff.mp stepped
    exact .enqueues _ pool moved
  next => cases stepped

theorem WebServer.work_moves {s s' : WebServer} {e : WebEvent} {k : Fin thrNum} (stepped : s.work k = some s') :
    s.Moves e s' := by
  simp only [WebServer.work] at stepped
  split at stepped
  next t f clientSock running =>
    split_ifs at stepped
    obtain ⟨pool, moved, rfl⟩ := Option.map_eq_some_iff.mp stepped
    exact .works _ k pool s.logs (by simp [running]) moved
  next t f c fetched =>
    obtain ⟨pool, moved, rfl⟩ := Option.map_eq_some_iff.mp stepped
    exact .works _ k pool _ (by simp [fetched]) moved
  next t f c before =>
    split_ifs at stepped
    obtain ⟨pool, moved, rfl⟩ := Option.map_eq_some_iff.mp stepped
    exact .begins _ k t f c pool before moved
  next quiet =>
    obtain ⟨pool, moved, rfl⟩ := Option.map_eq_some_iff.mp stepped
    exact .works _ k pool s.logs quiet moved

theorem WebServer.log_moves {s s' : WebServer} {k : Fin thrNum} {e : LogEvent} (stepped : s.log k e = some s') :
    s.Moves (.log k e) s' := by
  simp only [WebServer.log] at stepped
  split at stepped
  next =>
    simp only [writeLog] at stepped
    split at stepped
    next => exact Option.some.inj stepped ▸ .exits _
    next fd _ =>
      split_ifs at stepped
      exact Option.some.inj stepped ▸ .opensLog k fd _
    next fd _ => exact Option.some.inj stepped ▸ .closesLog _ _ fd
    next => cases stepped
  next => cases stepped

theorem WebServer.step_moves {s s' : WebServer} {e : WebEvent} (stepped : s.step e = some s') : s.Moves e s' := by
  simp only [WebServer.step] at stepped
  split_ifs at stepped
  split at stepped
  next =>
    obtain ⟨pool, moved, rfl⟩ := Option.map_eq_some_iff.mp stepped
    exact .signals _ pool moved
  next k => exact work_moves stepped
  next k e => exact log_moves stepped
  next k e =>
    simp only [WebServer.respond] at stepped
    split at stepped
    next t f clientSock running => exact .responds k e s' t f clientSock running stepped
    next => cases stepped
  next e _ _ _ => exact mainStep_moves stepped

structure WebServer.Responds (s : WebServer) (k : Fin thrNum) (serial : Nat) (clientSock : Int) (s' : WebServer) :
    Prop where
  pool : s'.pool = s.pool
  request : s'.request = s.request
  requests : s'.requests = s.requests
  writes : ∀ j, (s'.responses j).writes = true → (s.responses j).writes = true
  descriptors : ∀ fd d, d.writable = true → s'.descriptors fd = some d → s.descriptors fd = some d
  written : ∀ w ∈ s'.written, w ∈ s.written ∨ w.serial = serial ∧ w.target.writable = true ∧
    s.descriptors clientSock = some w.target ∧ (s.responses k).writes = true

theorem exit_responds (s : WebServer) (k : Fin thrNum) (serial : Nat) (clientSock : Int) :
    s.Responds k serial clientSock s.exit :=
  ⟨rfl, rfl, rfl, fun _ same => same, fun _ _ _ same => same, fun _ member => .inl member⟩

theorem goto_writes {s : WebServer} {k : Fin thrNum} {next : ResponsePc}
    (writes : next.writes = true → (s.responses k).writes = true) (j : Fin thrNum)
    (later : ((s.goto k next).responses j).writes = true) : (s.responses j).writes = true := by
  by_cases here : j = k
  · subst here
    exact writes (by simpa [WebServer.goto] using later)
  · simpa [WebServer.goto, here] using later

theorem goto_responds {s : WebServer} {k : Fin thrNum} {next : ResponsePc} {serial : Nat} {clientSock : Int}
    (writes : next.writes = true → (s.responses k).writes = true) :
    s.Responds k serial clientSock (s.goto k next) :=
  ⟨rfl, rfl, rfl, goto_writes writes, fun _ _ _ same => same, fun _ member => .inl member⟩

theorem writeSock_responds {s s' : WebServer} {k : Fin thrNum} {next : ResponsePc} {serial : Nat} {clientSock : Int}
    {bytes : List UInt8} {count : Option Nat} (writes : (s.responses k).writes = true)
    (moved : s.writeSock k serial clientSock bytes count next = some s') : s.Responds k serial clientSock s' := by
  simp only [WebServer.writeSock] at moved
  split at moved
  next => exact Option.some.inj moved ▸ exit_responds s k serial clientSock
  next count =>
    split at moved
    next target stands =>
      split_ifs at moved with takes
      obtain rfl := Option.some.inj moved
      refine ⟨rfl, rfl, rfl, goto_writes fun _ => writes, fun _ _ _ same => same, fun w member => ?_⟩
      rcases List.mem_append.mp member with old | new
      · exact .inl old
      · obtain rfl := List.mem_singleton.mp new
        exact .inr ⟨rfl, takes.1, stands, writes⟩
    next => cases moved

theorem httpResponse_responds {s s' : WebServer} {k : Fin thrNum} {serial : Nat} {clientSock : Int}
    {e : ResponseEvent}
    (moved : httpResponse s k serial clientSock e = some s') : s.Responds k serial clientSock s' := by
  simp only [httpResponse] at moved
  split at moved
  next => exact Option.some.inj moved ▸ exit_responds s k serial clientSock
  next fd pc =>
    split_ifs at moved
    obtain rfl := Option.some.inj moved
    refine ⟨rfl, rfl, rfl, goto_writes fun _ => by simp [pc, ResponsePc.writes], fun other d takes stands => ?_,
      fun _ member => .inl member⟩
    by_cases here : other = fd
    · obtain rfl : Descriptor.file = d := by simpa [here] using stands
      cases takes
    · simpa [here] using stands
  next fd count pc => exact writeSock_responds (by simp [pc, ResponsePc.writes]) moved
  next => exact Option.some.inj moved ▸ exit_responds s k serial clientSock
  next fd pc => exact Option.some.inj moved ▸ goto_responds fun _ => by simp [pc, ResponsePc.writes]
  next fd b rest pc =>
    split_ifs at moved
    exact Option.some.inj moved ▸ goto_responds fun _ => by simp [pc, ResponsePc.writes]
  next fd sendBuf count pc => exact writeSock_responds (by simp [pc, ResponsePc.writes]) moved
  next fd count pc => exact writeSock_responds (by simp [pc, ResponsePc.writes]) moved
  next fd pc =>
    obtain rfl := Option.some.inj moved
    refine ⟨rfl, rfl, rfl, goto_writes (by simp [ResponsePc.writes]), fun other d _ stands => ?_,
      fun _ member => .inl member⟩
    by_cases here : other = fd
    · simp [here] at stands
    · simpa [here] using stands
  next => cases moved

theorem webServer_refines_pool : webServer.Refines FreshNumber pool Counted WebServer.pool := by
  -- Seen from its pool, the web server is a pool.
  constructor
  · exact fun s starts => starts.pool
  · intro s e s' fresh stepped
    have counted : s'.pool.backlog < uintSize := fresh.1
    cases WebServer.step_moves stepped with
    | loops | accepts | closes | opensLog | closesLog | exits => exact .inl rfl
    | requests _ _ a info _ _ _ _ moved => exact .inr ⟨.mallocInfo a info, counted, moved⟩
    | mallocs _ a stale _ moved => exact .inr ⟨.mallocTask a stale httpResponsePtr, counted, moved⟩
    | givesUp _ _ moved => exact .inr ⟨.mallocFails, counted, moved⟩
    | enqueues _ _ moved => exact .inr ⟨.enqueue, counted, moved⟩
    | signals _ _ moved => exact .inr ⟨.signal, counted, moved⟩
    | begins _ k _ _ _ _ _ moved => exact .inr ⟨.worker k, counted, moved⟩
    | works _ k _ _ _ moved => exact .inr ⟨.worker k, counted, moved⟩
    | responds _ _ _ _ _ _ _ moved => exact .inl (httpResponse_responds moved).pool

theorem webServer_tracked {s : WebServer} (reached : webServer.ReachableWhile FreshNumber s) : s.pool.Tracked :=
  reachable_tracked (webServer_refines_pool.reachable reached)

-- What the bytes that a task writes have to go to.
def WebServer.asker (s : WebServer) (serial : Nat) : Option Descriptor := s.requests[serial]?.map .connection

structure WebServer.Answering (s : WebServer) : Prop where
  -- a number that a response will be written to stands for the connection that asked, or for nothing that takes bytes
  unbegun : ∀ a ∈ s.pool.unbegun, ∀ n fd d, requestOf s.pool.heap a = some (n, fd) →
    s.descriptors fd = some d → d.writable = true → s.asker n = some d
  begun : ∀ k t f fd d, s.pool.workers k = .executing t f fd → (s.responses k).writes = true →
    s.descriptors fd = some d → d.writable = true → s.asker (serialOf s.pool.heap t) = some d
  main : ∀ fd d, s.pool.main.sock s.pool.heap = some fd → s.descriptors fd = some d → d.writable = true →
    d = .connection s.request
  numbered : s.requests.length = s.pool.history.enqueued
  answered : ∀ w ∈ s.written, s.asker w.serial = some w.target

theorem WebServer.Starts.answering {s : WebServer} (starts : s.Starts) : s.Answering where
  unbegun a member := by
    have idle : s.pool.unbegun = [] := by rw [starts.pool]; rfl
    simp [idle] at member
  begun k t f fd d running := by simp [starts.pool, threadPoolInit] at running
  main fd d sock := by simp [starts.pool, threadPoolInit, MainPc.sock] at sock
  numbered := by simp [starts.requests, starts.pool, threadPoolInit]
  answered := by simp [starts.written]

theorem WebServer.mem_carried {s : WebServer} {fd : Int} : fd ∈ s.carried ↔
    s.pool.main.sock s.pool.heap = some fd ∨ (∃ a ∈ s.pool.unbegun, ∃ n, requestOf s.pool.heap a = some (n, fd)) ∨
      ∃ k, s.writesTo k = some fd := by
  simp [WebServer.carried]

theorem WebServer.Answering.keep {s s' : WebServer} (answering : s.Answering) (pool : s'.pool = s.pool)
    (request : s'.request = s.request) (requests : s'.requests = s.requests)
    (writes : ∀ j, (s'.responses j).writes = true → (s.responses j).writes = true)
    (descriptors : ∀ fd d, fd ∈ s.carried → d.writable = true → s'.descriptors fd = some d → s.descriptors fd = some d)
    (answered : ∀ w ∈ s'.written, s.asker w.serial = some w.target) : s'.Answering where
  unbegun a member n fd d found stands takes := by
    rw [pool] at member found
    rw [WebServer.asker, requests]
    have carried : fd ∈ s.carried := WebServer.mem_carried.mpr (.inr (.inl ⟨a, member, n, found⟩))
    exact answering.unbegun a member n fd d found (descriptors fd d carried takes stands) takes
  begun k t f fd d running later stands takes := by
    rw [pool] at running ⊢
    rw [WebServer.asker, requests]
    have now := writes k later
    have carried : fd ∈ s.carried :=
      WebServer.mem_carried.mpr (.inr (.inr ⟨k, by simp [WebServer.writesTo, running, now]⟩))
    exact answering.begun k t f fd d running now (descriptors fd d carried takes stands) takes
  main fd d sock stands takes := by
    rw [pool] at sock
    rw [request]
    exact answering.main fd d sock (descriptors fd d (WebServer.mem_carried.mpr (.inl sock)) takes stands) takes
  numbered := by rw [requests, pool, answering.numbered]
  answered w member := by
    rw [WebServer.asker, requests]
    exact answered w member

theorem WebServer.Answering.pool {s s' : WebServer} (answering : s.Answering) (keeps : s.pool.Keeps s'.pool)
    (responses : s'.responses = s.responses) (descriptors : s'.descriptors = s.descriptors)
    (requests : s'.requests = s.requests) (written : s'.written = s.written)
    (main : ∀ fd d, s'.pool.main.sock s'.pool.heap = some fd → s.descriptors fd = some d → d.writable = true →
      d = .connection s'.request) : s'.Answering where
  unbegun a member n fd d found stands takes := by
    obtain ⟨before, same⟩ := keeps.unbegun a member _ found
    rw [WebServer.asker, requests]
    exact answering.unbegun a before n fd d same (descriptors ▸ stands) takes
  begun k t f fd d running writes stands takes := by
    obtain ⟨before, same⟩ := keeps.begun k t f fd running
    rw [WebServer.asker, requests, same]
    exact answering.begun k t f fd d before (responses ▸ writes) (descriptors ▸ stands) takes
  main fd d sock stands takes := main fd d sock (descriptors ▸ stands) takes
  numbered := by rw [requests, keeps.enqueued, answering.numbered]
  answered w member := by
    rw [WebServer.asker, requests]
    exact answering.answered w (written ▸ member)

theorem enqueue_answering {s : WebServer} {pool : PoolState} (answering : s.Answering) (tracked : s.pool.Tracked)
    (room : (queued s.pool.heap s.pool.taskQ).length + 1 < uintSize) (moved : enqueue s.pool = some pool) :
    WebServer.Answering { s with pool, requests := s.requests ++ [s.request] } := by
  obtain ⟨newTask, ready, idle, workers, -, -, history, same, rep⟩ := enqueue_cases tracked.sound room moved
  have longer (n : Nat) (d : Descriptor) (asks : s.asker n = some d) :
      WebServer.asker { s with pool, requests := s.requests ++ [s.request] } n = some d := by
    obtain ⟨c, request, rfl⟩ := Option.map_eq_some_iff.mp asks
    rw [WebServer.asker, List.getElem?_append_left (List.getElem?_eq_some_iff.mp request).1, request]
    rfl
  have serial : serialOf s.pool.heap newTask = s.requests.length :=
    (tracked.numbered newTask ready).trans answering.numbered.symm
  constructor
  case unbegun =>
    intro a member n fd d found stands takes
    have found' : requestOf s.pool.heap a = some (n, fd) := requestOf_sameButLinks same a ▸ found
    have before (old : a ∈ s.pool.unbegun) :
        WebServer.asker { s with pool, requests := s.requests ++ [s.request] } n = some d :=
      longer _ _ (answering.unbegun a old n fd d found' stands takes)
    rcases mem_unbegun.mp member with line | ⟨k, held⟩
    · rw [rep.queued_eq] at line
      rcases List.mem_append.mp line with old | new
      · exact before (mem_unbegun.mpr (.inl old))
      · obtain rfl := List.mem_singleton.mp new
        obtain ⟨t, -, -, here, -, -, rfl, -⟩ := requestOf_some.mp found'
        have last : t.serial = s.requests.length := by simpa [serialOf, here] using serial
        have asked : d = .connection s.request :=
          answering.main fd d (by simp [ready, MainPc.sock, found']) stands takes
        simp [WebServer.asker, last, asked]
    · rw [workers] at held
      exact before (mem_unbegun.mpr (.inr ⟨k, held⟩))
  case begun =>
    intro k t f fd d running writes stands takes
    rw [workers] at running
    obtain ⟨t', found⟩ := tracked.sound.task (.worker k) t (by simp [PoolState.Holds, running, WorkerPc.task])
    rw [serialOf_sameButLinks same found]
    exact longer _ _ (answering.begun k t f fd d running writes stands takes)
  case main => simp [idle, MainPc.sock]
  case numbered => simp [history, answering.numbered]
  case answered => exact fun w member => longer _ _ (answering.answered w member)

theorem begins_answering {s : WebServer} {k : Fin thrNum} {pool : PoolState} (answering : s.Answering)
    (sound : s.pool.Sound) (moved : threadFunc s.pool k = some pool) :
    WebServer.Answering { s.goto k .opening with pool } := by
  obtain ⟨pc, step⟩ := threadFunc_step sound moved
  constructor
  case unbegun =>
    intro a member n fd d found stands takes
    obtain ⟨before, same⟩ := threadFunc_unbegun sound moved member found
    exact answering.unbegun a before n fd d same stands takes
  case begun =>
    intro j t f fd d running writes stands takes
    obtain ⟨same, ⟨before, other⟩ | ⟨rfl, ⟨p, logged⟩, request⟩⟩ := threadFunc_executing sound moved running
    · rw [same]
      exact answering.begun j t f fd d before (by simpa [WebServer.goto, other] using writes) stands takes
    · rw [same]
      have member : t ∈ s.pool.unbegun := mem_unbegun.mpr (.inr ⟨j, by simp [logged, WorkerPc.held]⟩)
      exact answering.unbegun t member _ fd d request stands takes
  case main => exact fun fd d sock stands takes => answering.main fd d (step.sock sock) stands takes
  case numbered => exact answering.numbered.trans step.enqueued.symm
  case answered => exact answering.answered

theorem WebServer.Answering.opens {s : WebServer} (answering : s.Answering) {fd : Int} {new : Option Descriptor}
    (unused : new ≠ none → fd ∉ s.carried) {logs : Fin thrNum → LogPc} {loop : EventLoop SockAddrIn}
    {connections : Nat} :
    WebServer.Answering { s with logs, loop, connections, descriptors := Function.update s.descriptors fd new } := by
  refine answering.keep rfl rfl rfl (fun _ same => same) (fun fd' d carried _ stands => ?_) answering.answered
  replace stands : Function.update s.descriptors fd new fd' = some d := stands
  by_cases here : fd' = fd
  · subst here
    rw [Function.update_self] at stands
    exact absurd carried (unused (by simp [stands]))
  · rwa [Function.update_of_ne here] at stands

theorem not_carried {s : WebServer} {fd : Int} (fresh : s.carried.all (· ≠ fd) = true) : fd ∉ s.carried := by
  intro carried
  simpa using List.all_eq_true.mp fresh fd carried

theorem WebServer.Moves.answering {s s' : WebServer} {e : WebEvent} (answering : s.Answering)
    (tracked : s.pool.Tracked) (fresh : FreshNumber s e s') (moves : s.Moves e s') : s'.Answering := by
  have sound := tracked.sound
  cases moves with
  | loops _ loop => exact answering.keep rfl rfl rfl (fun _ same => same) (fun _ _ _ _ same => same) answering.answered
  | accepts sockfd clientAddr loop => exact answering.opens fun _ => not_carried fresh.2
  | closes _ loop fd => exact answering.opens (by simp)
  | opensLog k fd logs => exact answering.opens fun _ => not_carried fresh.2
  | closesLog _ logs fd => exact answering.opens (by simp)
  | exits _ => exact answering.keep rfl rfl rfl (fun _ same => same) (fun _ _ _ _ same => same) answering.answered
  | requests _ loop a info pool assignedThrId c asks moved =>
    simp only [poolStep, sound.safe, Bool.false_eq_true, if_false] at moved
    obtain ⟨free, -, rfl⟩ := mallocInfo_cases moved
    refine answering.pool (allocate_keeps sound free _ rfl rfl rfl rfl) rfl rfl rfl rfl fun fd d sock stands _ => ?_
    obtain rfl : info.clientSock = fd := by simpa [MainPc.sock, Heap.info] using sock
    exact Option.some.inj (stands.symm.trans asks)
  | mallocs _ a stale pool moved =>
    simp only [poolStep, sound.safe, Bool.false_eq_true, if_false] at moved
    have main (fd : Int) (d : Descriptor) (sock : pool.main.sock pool.heap = some fd) :=
      answering.main fd d (mallocTask_sock moved sock)
    obtain ⟨free, clntInfo, -, rfl⟩ := mallocTask_cases moved
    exact answering.pool (allocate_keeps sound free _ rfl rfl rfl rfl) rfl rfl rfl rfl main
  | givesUp _ pool moved =>
    simp only [poolStep, sound.safe, Bool.false_eq_true, if_false] at moved
    obtain rfl := mallocFails_cases moved
    refine answering.pool ⟨fun _ member _ found => ⟨member, found⟩, fun _ _ _ _ running => ⟨running, rfl⟩, rfl⟩
      rfl rfl rfl rfl ?_
    simp [MainPc.sock]
  | enqueues _ pool moved =>
    have room := tracked.room (e := .enqueue) fresh.1 moved rfl
    simp only [poolStep, sound.safe, Bool.false_eq_true, if_false] at moved
    exact enqueue_answering answering tracked room moved
  | signals _ pool moved =>
    simp only [poolStep, sound.safe, Bool.false_eq_true, if_false, Option.some.injEq] at moved
    subst moved
    refine answering.pool (signal_keeps sound) rfl rfl rfl rfl fun fd d sock => answering.main fd d ?_
    rcases signalThreadFunc_cases sound with ⟨-, same⟩ | ⟨_, _, _, _, -, -, -, shape⟩
    · rwa [same] at sock
    · rwa [shape] at sock
  | begins _ k t f c pool before moved =>
    simp only [poolStep, sound.safe, Bool.false_eq_true, if_false] at moved
    exact begins_answering answering sound moved
  | works _ k pool logs quiet moved =>
    simp only [poolStep, sound.safe, Bool.false_eq_true, if_false] at moved
    obtain ⟨pc, step⟩ := threadFunc_step sound moved
    exact answering.pool (worker_keeps sound moved quiet) rfl rfl rfl rfl
      fun fd d sock => answering.main fd d (step.sock sock)
  | responds k e _ t f clientSock running moved =>
    have responds := httpResponse_responds moved
    refine answering.keep responds.pool responds.request responds.requests responds.writes
      (fun fd d _ takes stands => responds.descriptors fd d takes stands) fun w member => ?_
    rcases responds.written w member with old | ⟨serial, takes, stands, writes⟩
    · exact answering.answered w old
    · rw [serial]
      exact answering.begun k t f clientSock w.target running writes stands takes

theorem responses_reach_askers {s : WebServer} (reached : webServer.ReachableWhile FreshNumber s) :
    ∀ w ∈ s.written, s.requests[w.serial]?.map .connection = some w.target := by
  have both : s.Answering := by
    apply reached.invariant (P := WebServer.Answering)
    · exact fun _ starts => WebServer.Starts.answering starts
    · intro s e s' before answering fresh stepped
      exact (WebServer.step_moves stepped).answering answering (webServer_tracked before) fresh
  exact both.answered

def newWebServer : WebServer where
  serverSock := 3
  pool := threadPoolInit
  loop :=
    { pool := initPool 3 { maxfd := 0, readSet := fun _ => false, clientfd := fun _ => 0
                           clientAddr := fun _ => someClient.clientAddr, maxi := 0, readySet := fun _ => false
                           nready := 0 }
      pc := .selecting }
  assignedThrId := 0
  descriptors := fun fd => if fd = 3 then some .listening else none
  logs := fun _ => .returned
  responses := fun _ => .returned
  exited := false
  connections := 0
  request := 0
  requests := []
  written := []

theorem newWebServer_starts : newWebServer.Starts where
  loop := ⟨_, by decide, rfl⟩
  pool := rfl
  assignedThrId := rfl
  listening := rfl
  nobody fd c := by
    simp only [newWebServer]
    split_ifs <;> simp
  connections := rfl
  requests := rfl
  written := rfl

def connects : List WebEvent := [.select [3], .accept (some (4, someClient.clientAddr)), .scan none 0]

def asks : List WebEvent :=
  [.select [4], .accept none, .scan (some 1) 0, .mallocTask 1 none, .enqueue, .scan none 0]

def hangsUp : List WebEvent := [.select [4], .accept none, .scan (some 0) 0, .scan none 0]

def answers : List WebEvent :=
  [.signal, .work 0, .work 0, .work 0, .work 0, .work 0, .log 0 (.fopen (some 5)), .log 0 .fclose, .work 0,
    .respond 0 (.openFile (some 5)), .respond 0 (.write (some 19))]

theorem one_client_reached : ∃ s : WebServer, s.written = [{ serial := 0, target := .connection 0, bytes := httpReqMsg }] ∧
    ∀ w ∈ s.written, s.requests[w.serial]?.map .connection = some w.target := by
  obtain ⟨s, ran, written⟩ : ∃ s, webServer.execWhile FreshNumber newWebServer (connects ++ asks ++ answers) = some s ∧
      s.written = [{ serial := 0, target := .connection 0, bytes := httpReqMsg }] := ⟨_, rfl, rfl⟩
  exact ⟨s, written, responses_reach_askers (System.execWhile_reachable (.initial _ newWebServer_starts) ran)⟩

-- The client hangs up before its task is begun, and the next client gets its number and its response.
theorem response_reaches_next_client :
    ¬ ∀ s : WebServer, webServer.Reachable s → ∀ w ∈ s.written,
      s.requests[w.serial]?.map .connection = some w.target := by
  intro claimed
  obtain ⟨s, ran, requests, written⟩ : ∃ s,
      webServer.exec newWebServer (connects ++ asks ++ hangsUp ++ connects ++ answers) = some s ∧
      s.requests = [0] ∧ s.written = [{ serial := 0, target := .connection 1, bytes := httpReqMsg }] := ⟨_, rfl, rfl, rfl⟩
  have asked := claimed s (System.exec_reachable (.initial _ newWebServer_starts) ran) _
    (written ▸ List.mem_singleton_self _)
  simp [requests] at asked

end NetProg.P3
