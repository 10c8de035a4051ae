import NetProg.P3.Ownership
import NetProg.P3.Responses
import NetProg.P3.Rotation

set_option autoImplicit false

namespace NetProg.P3

open Linked Transition

-- Every `malloc` succeeds, no post is left over, and `taskQ.len` can count the tasks that are queued.
def TakesTurns (s : WebServer) (e : WebEvent) (s' : WebServer) : Prop :=
  s'.pool.backlog < uintSize ∧ match e with
    | .mallocFails => False
    | .work k => s.pool.workers k = .waiting → s.pool.NextFor k
    | .enqueue => ∀ k, (s.pool.workers k).awake = true → s'.pool.NextFor k
    | _ => True

instance (s : WebServer) (e : WebEvent) (s' : WebServer) : Decidable (TakesTurns s e s') := by
  cases e <;> exact inferInstanceAs (Decidable (_ ∧ _))

def WebEvent.call : WebEvent → Option PoolEvent
  | .mallocTask a stale => some (.mallocTask a stale httpResponsePtr)
  | .mallocFails => some .mallocFails
  | .enqueue => some .enqueue
  | .signal => some .signal
  | .work k => some (.worker k)
  | _ => none

inductive WebServer.Calls (s : WebServer) (e : WebEvent) (s' : WebServer) : Prop where
  | nothing (pool : s'.pool = s.pool) (assigned : s'.assignedThrId = s.assignedThrId)
  | request (a : Addr) (clntInfo : ClientInfo) (moved : poolStep s.pool (.mallocInfo a clntInfo) = some s'.pool)
      (given : clntInfo.assignedThrId = s.assignedThrId) (next : s'.assignedThrId = (s.assignedThrId + 1) % 10)
  | call (c : PoolEvent) (makes : e.call = some c) (moved : poolStep s.pool c = some s'.pool)
      (assigned : s'.assignedThrId = s.assignedThrId)

section Calls

variable {s s' : WebServer}

theorem writeSock_assigned {k : Fin thrNum} {serial : Nat} {clientSock : Int} {bytes : List UInt8} {count : Option Nat}
    {next : ResponsePc} (moved : s.writeSock k serial clientSock bytes count next = some s') :
    s'.assignedThrId = s.assignedThrId := by
  simp only [WebServer.writeSock] at moved
  split at moved
  next => exact Option.some.inj moved ▸ rfl
  next =>
    split at moved
    next =>
      split_ifs at moved
      exact Option.some.inj moved ▸ rfl
    next => cases moved

theorem log_calls {k : Fin thrNum} {e : LogEvent} (stepped : s.log k e = some s') : s.Calls (.log k e) s' := by
  simp only [WebServer.log] at stepped
  split at stepped
  next =>
    simp only [writeLog] at stepped
    split at stepped
    next => exact Option.some.inj stepped ▸ .nothing rfl rfl
    next =>
      split_ifs at stepped
      exact Option.some.inj stepped ▸ .nothing rfl rfl
    next => exact Option.some.inj stepped ▸ .nothing rfl rfl
    next => cases stepped
  next => cases stepped

theorem httpResponse_assigned {k : Fin thrNum} {serial : Nat} {clientSock : Int} {e : ResponseEvent}
    (moved : httpResponse s k serial clientSock e = some s') : s'.assignedThrId = s.assignedThrId := by
  simp only [httpResponse] at moved
  split at moved
  next => exact Option.some.inj moved ▸ rfl
  next =>
    split_ifs at moved
    exact Option.some.inj moved ▸ rfl
  next => exact writeSock_assigned moved
  next => exact Option.some.inj moved ▸ rfl
  next => exact Option.some.inj moved ▸ rfl
  next =>
    split_ifs at moved
    exact Option.some.inj moved ▸ rfl
  next => exact writeSock_assigned moved
  next => exact writeSock_assigned moved
  next => exact Option.some.inj moved ▸ rfl
  next => cases moved

theorem map_calls {e : WebEvent} {c : PoolEvent} {after : PoolState → WebServer} (makes : e.call = some c)
    (stepped : (poolStep s.pool c).map after = some s') (pool : ∀ p, (after p).pool = p)
    (assigned : ∀ p, (after p).assignedThrId = s.assignedThrId) : s.Calls e s' := by
  obtain ⟨p, moved, rfl⟩ := Option.map_eq_some_iff.mp stepped
  exact .call c makes (by rw [pool, moved]) (assigned p)

theorem work_calls {k : Fin thrNum} (stepped : s.work k = some s') : s.Calls (.work k) s' := by
  simp only [WebServer.work] at stepped
  split at stepped
  next =>
    split_ifs at stepped
    exact map_calls rfl stepped (fun _ => rfl) fun _ => rfl
  next => exact map_calls rfl stepped (fun _ => rfl) fun _ => rfl
  next =>
    split_ifs at stepped
    exact map_calls rfl stepped (fun _ => rfl) fun _ => rfl
  next => exact map_calls rfl stepped (fun _ => rfl) fun _ => rfl

theorem accept_calls {e : WebEvent} {accepted : Option (Int × SockAddrIn)} (stepped : s.accept accepted = some s') :
    s.Calls e s' := by
  cases accepted with
  | none =>
    obtain ⟨loop, -, rfl⟩ := Option.map_eq_some_iff.mp stepped
    exact .nothing rfl rfl
  | some accepted =>
    obtain ⟨sockfd, clientAddr⟩ := accepted
    simp only [WebServer.accept] at stepped
    split_ifs at stepped
    obtain ⟨loop, -, rfl⟩ := Option.map_eq_some_iff.mp stepped
    exact .nothing rfl rfl

theorem serve_calls {e : WebEvent} {i : Slot} {loop : EventLoop SockAddrIn} {nread : Option Nat} {clntInfo : Addr}
    (stepped : s.serve i loop nread clntInfo = some s') : s.Calls e s' := by
  simp only [WebServer.serve] at stepped
  split at stepped
  next => exact Option.some.inj stepped ▸ .nothing rfl rfl
  next => exact Option.some.inj stepped ▸ .nothing rfl rfl
  next =>
    split at stepped
    next =>
      obtain ⟨pool, moved, rfl⟩ := Option.map_eq_some_iff.mp stepped
      exact .request _ _ moved rfl rfl
    next => cases stepped

theorem mainStep_calls {e : WebEvent} (stepped : s.mainStep e = some s') : s.Calls e s' := by
  simp only [WebServer.mainStep] at stepped
  split at stepped
  next =>
    obtain ⟨loop, -, rfl⟩ := Option.map_eq_some_iff.mp stepped
    exact .nothing rfl rfl
  next => exact accept_calls stepped
  next =>
    split at stepped
    next => cases stepped
    next => exact Option.some.inj stepped ▸ .nothing rfl rfl
    next => exact serve_calls stepped
  next => exact map_calls rfl stepped (fun _ => rfl) fun _ => rfl
  next => exact map_calls rfl stepped (fun _ => rfl) fun _ => rfl
  next => exact map_calls rfl stepped (fun _ => rfl) fun _ => rfl
  next => cases stepped

theorem step_calls {e : WebEvent} (stepped : s.step e = some s') : s.Calls e s' := by
  simp only [WebServer.step] at stepped
  split_ifs at stepped
  split at stepped
  next => exact map_calls rfl stepped (fun _ => rfl) fun _ => rfl
  next => exact work_calls stepped
  next => exact log_calls stepped
  next =>
    simp only [WebServer.respond] at stepped
    split at stepped
    next => exact .nothing (httpResponse_responds stepped).pool (httpResponse_assigned stepped)
    next => cases stepped
  next => exact mainStep_calls stepped

end Calls

def MainPc.asked : MainPc → Nat
  | .idle => 0
  | _ => 1

def WebServer.Deals (s : WebServer) (p : PoolState) : Prop :=
  p = s.pool ∧ s.assignedThrId = (p.history.enqueued + p.main.asked) % thrNum

theorem poolStep_asked {p p' : PoolState} {e : PoolEvent} (moved : poolStep p e = some p')
    (asks : ∀ a clntInfo, e ≠ .mallocInfo a clntInfo) (fails : e ≠ .mallocFails) :
    p'.history.enqueued + p'.main.asked = p.history.enqueued + p.main.asked := by
  simp only [poolStep, poolStep_safe moved, Bool.false_eq_true, if_false] at moved
  cases e with
  | mallocInfo a clntInfo => exact absurd rfl (asks a clntInfo)
  | mallocFails => exact absurd rfl fails
  | mallocTask a stale funcPtr =>
    obtain ⟨-, clntInfo, ready, rfl⟩ := mallocTask_cases moved
    simp [ready, MainPc.asked]
  | enqueue =>
    rcases enqueue_shape moved with rfl | ⟨newTask, heap, taskQ, ready, -, rfl⟩
    · rfl
    · simp [ready, MainPc.asked]
  | signal =>
    obtain ⟨taskCheck, fault, shape⟩ := signalThreadFunc_shape p
    rw [← Option.some.inj moved, shape]
  | worker k =>
    rcases threadFunc_follows moved with rfl | ⟨pc, step⟩
    · rfl
    · rw [step.enqueued, step.main]

theorem webServer_deals : System.Simulates webServer TakesTurns pool InRotation WebServer.Deals := by
  constructor
  · intro s starts
    exact ⟨threadPoolInit, rfl, starts.pool.symm, starts.assignedThrId⟩
  · rintro s p e s' ⟨rfl, turn⟩ turns stepped
    cases step_calls stepped with
    | nothing same assigned => exact .inl ⟨same.symm, assigned.trans turn⟩
    | request a clntInfo moved given next =>
      have ran := moved
      simp only [poolStep, poolStep_safe moved, Bool.false_eq_true, if_false] at ran
      have idle := mallocInfo_idle ran
      obtain ⟨-, -, shape⟩ := mallocInfo_cases ran
      have now : s.assignedThrId = s.pool.history.enqueued % thrNum := by simpa [idle, MainPc.asked] using turn
      refine .inr ⟨.mallocInfo a clntInfo, s'.pool, ⟨⟨turns.1, trivial⟩, given.trans now⟩, moved, rfl, ?_⟩
      rw [next, now, shape]
      simp [MainPc.asked]
    | call c makes moved assigned =>
      have fits : InRotation s.pool c s'.pool ∧ (∀ a clntInfo, c ≠ .mallocInfo a clntInfo) ∧ c ≠ .mallocFails := by
        cases e with
        | mallocTask a stale =>
          obtain rfl := Option.some.inj makes
          exact ⟨⟨⟨turns.1, trivial⟩, trivial⟩, by simp, by simp⟩
        | mallocFails => exact absurd turns.2 id
        | enqueue =>
          obtain rfl := Option.some.inj makes
          exact ⟨⟨⟨turns.1, turns.2⟩, trivial⟩, by simp, by simp⟩
        | signal =>
          obtain rfl := Option.some.inj makes
          exact ⟨⟨⟨turns.1, trivial⟩, trivial⟩, by simp, by simp⟩
        | work k =>
          obtain rfl := Option.some.inj makes
          exact ⟨⟨⟨turns.1, turns.2⟩, trivial⟩, by simp, by simp⟩
        | select | accept | scan | log | respond => cases makes
      refine .inr ⟨c, s'.pool, fits.1, moved, rfl, ?_⟩
      rw [assigned, poolStep_asked moved fits.2.1 fits.2.2]
      exact turn

theorem requests_take_turns {s : WebServer} (reached : webServer.ReachableWhile TakesTurns s) :
    (∀ n k, (n, k) ∈ s.pool.history.executed → k.val = n % thrNum) ∧
      (∀ n m, n < m → m ∈ s.pool.history.dequeued → n % thrNum = m % thrNum → n ∈ s.pool.history.finished) ∧
      ∀ n, n ∉ s.pool.history.finished → s.pool.history.dequeued.length ≤ n + thrNum := by
  obtain ⟨p, run, rfl, -⟩ := webServer_deals.reachable reached
  have dealt := rotation_dealt run
  have valid := Dispatch.reachable_valid dealt.tracked.dispatch
  have inTurn := Dispatch.reachable_inTurn dealt.board
  refine ⟨fun n k executed => ?_, fun n m before dequeued same => ?_, fun n undone => ?_⟩
  · exact (congrArg Fin.val (dealt.rotates.executed n k executed)).symm
  · have earlier : n ∈ (board s.pool).taken := by
      have member : m ∈ (board s.pool).taken := dequeued
      rw [valid.taken_eq, List.mem_range] at member ⊢
      omega
    exact inTurn.turn n earlier m dequeued before (Fin.ext same)
  · exact inTurn.window valid (by decide) (fun m => Fin.ext (by simp [threadOf])) undone

theorem one_request_takes_turn : ∃ s : WebServer, s.pool.history.executed = [(0, 0)] ∧
    s.pool.history.dequeued.length ≤ 0 + thrNum := by
  obtain ⟨s, ran, executed, finished⟩ : ∃ s,
      webServer.execWhile TakesTurns newWebServer (connects ++ asks ++ answers) = some s ∧
      s.pool.history.executed = [(0, 0)] ∧ s.pool.history.finished = [] := ⟨_, rfl, rfl, rfl⟩
  have reached := System.execWhile_reachable (.initial _ newWebServer_starts) ran
  exact ⟨s, executed, (requests_take_turns reached).2.2 0 (by simp [finished])⟩

end NetProg.P3
