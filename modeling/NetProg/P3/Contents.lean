import NetProg.P3.Client
import NetProg.P3.Descriptors

set_option autoImplicit false

namespace NetProg.P3

open Linked Transition

def WebServer.serial (s : WebServer) (k : Fin thrNum) : Nat :=
  match s.pool.workers k with
  | .executing taskPtr _ _ => serialOf s.pool.heap taskPtr
  | _ => 0

def WebServer.received (s : WebServer) (c : Nat) : List UInt8 :=
  (s.written.filter fun w => w.target = .connection c).flatMap Written.bytes

structure FileServer where
  -- The web server beside the file that it sends.
  web : WebServer
  -- what each worker has not read of the file that it has open
  unread : Fin thrNum → List UInt8
  -- Ghost record of the run: how many bytes of each task `write` did not take.
  missed : Nat → Nat

def FileServer.account (content : List UInt8) (s : FileServer) : WebEvent → Option FileServer
  | .respond k (.openFile (some _)) => some { s with unread := Function.update s.unread k content }
  | .respond k (.read (some bytes)) =>
    -- `read` returns nothing at the end of the file only
    if bytes <+: s.unread k ∧ (bytes = [] → s.unread k = []) then
      some { s with unread := Function.update s.unread k ((s.unread k).drop bytes.length) }
    else none
  | .respond k (.write (some count)) =>
    let n := s.web.serial k
    let left := (s.web.responses k).sends.length - count
    some { s with missed := Function.update s.missed n (s.missed n + left) }
  | _ => some s

def FileServer.step (content : List UInt8) (s : FileServer) (e : WebEvent) : Option FileServer :=
  (s.account content e).bind fun after => (s.web.step e).map fun web => { after with web }

def fileServer (content : List UInt8) : System FileServer WebEvent where
  init s := s.web.Starts ∧ ∀ n, s.missed n = 0
  step := FileServer.step content

def FreshRun (s : FileServer) (e : WebEvent) (s' : FileServer) : Prop := FreshNumber s.web e s'.web

instance (s : FileServer) (e : WebEvent) (s' : FileServer) : Decidable (FreshRun s e s') :=
  inferInstanceAs (Decidable (FreshNumber s.web e s'.web))

theorem FileServer.step_some {content : List UInt8} {s s' : FileServer} {e : WebEvent} :
    s.step content e = some s' ↔
      ∃ after, s.account content e = some after ∧ s.web.step e = some s'.web ∧ s'.unread = after.unread ∧
        s'.missed = after.missed := by
  simp only [FileServer.step, Option.bind_eq_some_iff, Option.map_eq_some_iff]
  constructor
  · rintro ⟨after, accounted, web, stepped, rfl⟩
    exact ⟨after, accounted, stepped, rfl, rfl⟩
  · rintro ⟨after, accounted, stepped, unread, missed⟩
    exact ⟨after, accounted, s'.web, stepped, by rw [← unread, ← missed]⟩

theorem FileServer.step_web {content : List UInt8} {s s' : FileServer} {e : WebEvent}
    (stepped : s.step content e = some s') : s.web.step e = some s'.web := by
  obtain ⟨-, -, web, -⟩ := FileServer.step_some.mp stepped
  exact web

theorem fileServer_web {content : List UInt8} {s : FileServer} (reached : (fileServer content).ReachableWhile FreshRun s) :
    webServer.ReachableWhile FreshNumber s.web := by
  have refines : (fileServer content).Refines FreshRun webServer FreshNumber FileServer.web :=
    ⟨fun _ starts => starts.1, fun s e s' fresh stepped => .inr ⟨e, fresh, FileServer.step_web stepped⟩⟩
  exact refines.reachable reached

inductive Given (content : List UInt8) : ResponsePc → List UInt8 → List UInt8 → Prop where
  | opening (unread : List UInt8) : Given content .opening unread []
  | header (fd : Int) : Given content (.header fd) content []
  | reading (fd : Int) (read unread : List UInt8) (whole : read ++ unread = content) :
      Given content (.reading fd) unread (httpReqMsg ++ read)
  | sending (fd : Int) (read sendBuf unread : List UInt8) (whole : read ++ (sendBuf ++ unread) = content) :
      Given content (.sending fd sendBuf) unread (httpReqMsg ++ read)
  | ending (fd : Int) : Given content (.ending fd) [] (httpReqMsg ++ content)
  | closing (fd : Int) : Given content (.closing fd) [] (responseOf content)
  | returned : Given content .returned [] (responseOf content)

structure FileServer.Gave (s : FileServer) (n : Nat) (given : List UInt8) : Prop where
  order : (s.web.writtenFor n).Sublist given
  counted : (s.web.writtenFor n).length + s.missed n = given.length

structure FileServer.Advances (content : List UInt8) (s : FileServer) (k : Fin thrNum) (n : Nat) (s' : FileServer) :
    Prop where
  pool : s'.web.pool = s.web.pool
  workers : ∀ j, j ≠ k → s'.web.responses j = s.web.responses j ∧ s'.unread j = s.unread j
  tasks : ∀ m, m ≠ n → s'.web.writtenFor m = s.web.writtenFor m ∧ s'.missed m = s.missed m
  own : ∀ given, Given content (s.web.responses k) (s.unread k) given → s.Gave n given →
    ∃ given', Given content (s'.web.responses k) (s'.unread k) given' ∧ s'.Gave n given'

section Calls

variable {content : List UInt8} {s s' : FileServer} {k : Fin thrNum} {n : Nat}

theorem FileServer.Gave.congr {given : List UInt8} (gave : s.Gave n given) (sent : s'.web.writtenFor n = s.web.writtenFor n)
    (missed : s'.missed n = s.missed n) : s'.Gave n given :=
  ⟨sent ▸ gave.order, by rw [sent, missed, gave.counted]⟩

theorem sent_append {web web' : WebServer} {w : Written} (written : web'.written = web.written ++ [w]) (m : Nat) :
    web'.writtenFor m = web.writtenFor m ++ if w.serial = m then w.bytes else [] := by
  by_cases same : w.serial = m <;> simp [WebServer.writtenFor, written, same]

theorem advances_quiet (pool : s'.web.pool = s.web.pool) (written : s'.web.written = s.web.written)
    (missed : s'.missed = s.missed) (responses : ∀ j, j ≠ k → s'.web.responses j = s.web.responses j)
    (unread : ∀ j, j ≠ k → s'.unread j = s.unread j)
    (own : ∀ given, Given content (s.web.responses k) (s.unread k) given →
      Given content (s'.web.responses k) (s'.unread k) given) : s.Advances content k n s' := by
  have sent (m : Nat) : s'.web.writtenFor m = s.web.writtenFor m := by simp only [WebServer.writtenFor, written]
  have same (m : Nat) : s'.missed m = s.missed m := congrFun missed m
  exact ⟨pool, fun j other => ⟨responses j other, unread j other⟩, fun m _ => ⟨sent m, same m⟩,
    fun given here gave => ⟨given, own given here, gave.congr (sent n) (same n)⟩⟩

theorem Given.prefix_response {pc : ResponsePc} {unread given : List UInt8} (here : Given content pc unread given) :
    given <+: responseOf content := by
  cases here with
  | opening => exact List.nil_prefix
  | header => exact List.nil_prefix
  | reading fd read unread whole =>
    exact ⟨unread ++ endMsg, by simp [responseOf, ← whole]⟩
  | sending fd read sendBuf unread whole =>
    exact ⟨sendBuf ++ unread ++ endMsg, by simp [responseOf, ← whole]⟩
  | ending => exact ⟨endMsg, by simp [responseOf]⟩
  | closing => exact List.prefix_rfl
  | returned => exact List.prefix_rfl

theorem goto_advances {next : ResponsePc} (responses : s'.web.responses = Function.update s.web.responses k next)
    (pool : s'.web.pool = s.web.pool) (written : s'.web.written = s.web.written) (missed : s'.missed = s.missed)
    (unread : ∀ j, j ≠ k → s'.unread j = s.unread j)
    (own : ∀ given, Given content (s.web.responses k) (s.unread k) given → Given content next (s'.unread k) given) :
    s.Advances content k n s' := by
  refine advances_quiet pool written missed (fun j other => ?_) unread fun given here => ?_
  · rw [responses, Function.update_of_ne other]
  · rw [responses, Function.update_self]
    exact own given here

theorem exit_advances (web : s'.web = s.web.exit) (unread : s'.unread = s.unread) (missed : s'.missed = s.missed) :
    s.Advances content k n s' := by
  refine advances_quiet ?_ ?_ missed ?_ (fun j _ => congrFun unread j) ?_ <;> simp only [web, unread]
  · rfl
  · rfl
  · exact fun _ _ => rfl
  · exact fun given here => here

theorem write_advances {pc next : ResponsePc} {clientSock : Int} {count : Option Nat} {after : FileServer}
    (at_pc : s.web.responses k = pc) (serial : s.web.serial k = n)
    (accounted : s.account content (.respond k (.write count)) = some after)
    (moved : s.web.writeSock k n clientSock pc.sends count next = some s'.web) (unread : s'.unread = after.unread)
    (missed : s'.missed = after.missed)
    (given : ∀ given, Given content pc (s.unread k) given → Given content next (s.unread k) (given ++ pc.sends)) :
    s.Advances content k n s' := by
  simp only [WebServer.writeSock] at moved
  split at moved
  next =>
    obtain rfl := Option.some.inj accounted
    exact exit_advances (Option.some.inj moved).symm unread missed
  next count =>
    obtain rfl := Option.some.inj accounted
    simp only [serial, at_pc] at unread missed
    split at moved
    next target _ =>
      split_ifs at moved with fits
      have web := (Option.some.inj moved).symm
      have written : s'.web.written =
          s.web.written ++ [{ serial := n, target, bytes := pc.sends.take count }] := by rw [web]
      have responses : s'.web.responses = Function.update s.web.responses k next := by rw [web]; rfl
      constructor
      case pool => rw [web]; rfl
      case workers => exact fun j other => ⟨by rw [responses, Function.update_of_ne other], by rw [unread]⟩
      case tasks =>
        intro m other
        rw [sent_append written, if_neg (Ne.symm other), List.append_nil, missed, Function.update_of_ne other]
        exact ⟨rfl, rfl⟩
      case own =>
        intro before here gave
        refine ⟨before ++ pc.sends, ?_, ?_, ?_⟩
        · rw [responses, unread, Function.update_self]
          exact given before (at_pc ▸ here)
        · rw [sent_append written, if_pos rfl]
          exact gave.order.append (List.take_sublist _ _)
        · have counted := gave.counted
          rw [sent_append written, if_pos rfl, missed, Function.update_self]
          simp only [List.length_append, List.length_take, Nat.min_eq_left fits.2]
          omega
    next => cases moved

theorem respond_web {call : ResponseEvent} {t f : Nat} {clientSock : Int}
    (running : s.web.pool.workers k = .executing t f clientSock) {web : WebServer}
    (stepped : s.web.step (.respond k call) = some web) :
    httpResponse s.web k (serialOf s.web.pool.heap t) clientSock call = some web := by
  simp only [WebServer.step] at stepped
  split_ifs at stepped
  simpa only [WebServer.respond, running] using stepped

theorem account_read {after : FileServer} {bytes : List UInt8}
    (accounted : s.account content (.respond k (.read (some bytes))) = some after) :
    bytes <+: s.unread k ∧ (bytes = [] → s.unread k = []) ∧
      after = { s with unread := Function.update s.unread k ((s.unread k).drop bytes.length) } := by
  obtain ⟨⟨cut, ends⟩, same⟩ := Option.ite_none_right_eq_some.mp accounted
  exact ⟨cut, ends, (Option.some.inj same).symm⟩

theorem account_quiet {e : WebEvent} (other : ∀ k call, e = .respond k call → False) : s.account content e = some s := by
  cases e with
  | respond k call => exact absurd rfl (other k call)
  | select | accept | scan | mallocTask | mallocFails | enqueue | signal | work | log => rfl

theorem call_advances {call : ResponseEvent} {t f : Nat} {clientSock : Int}
    (running : s.web.pool.workers k = .executing t f clientSock) (stepped : s.step content (.respond k call) = some s') :
    s.Advances content k (serialOf s.web.pool.heap t) s' := by
  obtain ⟨after, accounted, web, unread, missed⟩ := FileServer.step_some.mp stepped
  have serial : s.web.serial k = serialOf s.web.pool.heap t := by simp only [WebServer.serial, running]
  have moved := respond_web running web
  simp only [httpResponse] at moved
  split at moved
  next at_pc =>
    obtain rfl := Option.some.inj accounted
    exact exit_advances (Option.some.inj moved).symm unread missed
  next fd at_pc =>
    obtain rfl := Option.some.inj accounted
    split_ifs at moved
    have web := (Option.some.inj moved).symm
    have responses : s'.web.responses = Function.update s.web.responses k (.header fd) := by rw [web]; rfl
    refine goto_advances responses (by rw [web]; rfl) (by rw [web]; rfl) missed ?_ fun given here => ?_
    · exact fun j other => unread ▸ Function.update_of_ne other _ _
    · rw [at_pc] at here
      cases here
      simpa [unread] using Given.header fd
  next fd count at_pc =>
    refine write_advances at_pc serial accounted moved unread missed fun given here => ?_
    generalize s.unread k = unread at here ⊢
    cases here
    exact .reading fd [] content rfl
  next at_pc =>
    obtain rfl := Option.some.inj accounted
    exact exit_advances (Option.some.inj moved).symm unread missed
  next fd at_pc =>
    obtain ⟨-, ends, rfl⟩ := account_read accounted
    have web := (Option.some.inj moved).symm
    have responses : s'.web.responses = Function.update s.web.responses k (.ending fd) := by rw [web]; rfl
    refine goto_advances responses (by rw [web]; rfl) (by rw [web]; rfl) missed ?_ fun given here => ?_
    · exact fun j other => unread ▸ Function.update_of_ne other _ _
    · rw [at_pc, ends rfl] at here
      cases here with
      | reading _ read _ whole =>
        obtain rfl : read = content := by simpa using whole
        simpa [unread, ends rfl] using Given.ending fd
  next fd b rest at_pc =>
    obtain ⟨⟨later, cut⟩, -, rfl⟩ := account_read accounted
    split_ifs at moved
    have web := (Option.some.inj moved).symm
    have responses : s'.web.responses = Function.update s.web.responses k (.sending fd (b :: rest)) := by rw [web]; rfl
    refine goto_advances responses (by rw [web]; rfl) (by rw [web]; rfl) missed ?_ fun given here => ?_
    · exact fun j other => unread ▸ Function.update_of_ne other _ _
    · rw [at_pc, ← cut] at here
      simp only [unread, Function.update_self, ← cut, List.drop_left]
      cases here with
      | reading _ read _ whole => exact .sending fd read (b :: rest) later whole
  next fd sendBuf count at_pc =>
    refine write_advances at_pc serial accounted moved unread missed fun given here => ?_
    cases here with
    | sending _ read _ _ whole =>
      rw [List.append_assoc]
      exact .reading fd (read ++ sendBuf) _ (by rw [List.append_assoc, whole])
  next fd count at_pc =>
    refine write_advances at_pc serial accounted moved unread missed fun given here => ?_
    generalize s.unread k = unread at here ⊢
    cases here
    exact .closing fd
  next fd at_pc =>
    obtain rfl := Option.some.inj accounted
    have web := (Option.some.inj moved).symm
    have responses : s'.web.responses = Function.update s.web.responses k .returned := by rw [web]; rfl
    refine goto_advances responses (by rw [web]; rfl) (by rw [web]; rfl) missed (fun j _ => congrFun unread j) ?_
    intro given here
    rw [at_pc] at here
    rw [unread]
    generalize s.unread k = unread at here ⊢
    cases here
    exact .returned
  next => cases moved

end Calls

section Tasks

variable {p p' : PoolState} {k : Fin thrNum}

theorem quiet_tasks {e : PoolEvent} (tracked : p.Tracked) (counted : Counted p e p') (quiet : ∀ k, e ≠ .worker k)
    (stepped : poolStep p e = some p') : p'.history.executed = p.history.executed ∧
      p'.history.finished = p.history.finished ∧
      ∀ k t, (p.workers k).task = some t → serialOf p'.heap t = serialOf p.heap t := by
  have sound := tracked.sound
  have room := tracked.room counted stepped
  simp only [poolStep, poolStep_safe stepped, Bool.false_eq_true, if_false] at stepped
  have allocated {a : Addr} (free : p.heap a = none) (new : Option Object) (k : Fin thrNum) (t : Addr)
      (held : (p.workers k).task = some t) : serialOf (Function.update p.heap a new) t = serialOf p.heap t :=
    serialOf_update_other (sound.not_held free (o := .worker k) held) new
  cases e with
  | mallocInfo a clntInfo =>
    obtain ⟨free, -, rfl⟩ := mallocInfo_cases stepped
    exact ⟨rfl, rfl, allocated free _⟩
  | mallocTask a stale funcPtr =>
    obtain ⟨free, clntInfo, -, rfl⟩ := mallocTask_cases stepped
    exact ⟨rfl, rfl, allocated free _⟩
  | mallocFails =>
    obtain rfl := mallocFails_cases stepped
    exact ⟨rfl, rfl, fun _ _ _ => rfl⟩
  | enqueue =>
    obtain ⟨newTask, -, -, -, -, -, history, same, -⟩ := enqueue_cases sound (room rfl) stepped
    refine ⟨by rw [history], by rw [history], fun k t held => ?_⟩
    obtain ⟨task, found⟩ := sound.task (.worker k) t held
    exact serialOf_sameButLinks same found
  | signal =>
    obtain ⟨_, _, shape⟩ := signalThreadFunc_shape p
    rw [← Option.some.inj stepped, shape]
    exact ⟨rfl, rfl, fun _ _ _ => rfl⟩
  | worker k => exact absurd rfl (quiet k)

theorem threadFunc_history (stepped : threadFunc p k = some p') :
    p.history.executed <+: p'.history.executed ∧ ∀ n ∈ p'.history.finished,
      n ∈ p.history.finished ∨ ∃ t, p.workers k = .argFreed t ∧ serialOf p.heap t = n := by
  cases pc : p.workers k with
  | waiting =>
    simp only [threadFunc, pc, Option.map_eq_some_iff] at stepped
    obtain ⟨taskCheck, -, rfl⟩ := stepped
    exact ⟨List.prefix_rfl, fun n => .inl⟩
  | woken | leaving | executing =>
    simp only [threadFunc, pc, Option.some.injEq] at stepped
    subst stepped
    exact ⟨List.prefix_rfl, fun n => .inl⟩
  | counted =>
    simp only [threadFunc, pc] at stepped
    split at stepped <;> obtain rfl := Option.some.inj stepped <;> exact ⟨List.prefix_rfl, fun n => .inl⟩
  | dequeued taskPtr =>
    cases taskPtr with
    | none =>
      simp only [threadFunc, pc, Option.some.injEq] at stepped
      subst stepped
      exact ⟨List.prefix_rfl, fun n => .inl⟩
    | some taskPtr =>
      simp only [threadFunc, pc] at stepped
      split at stepped <;> obtain rfl := Option.some.inj stepped <;> exact ⟨List.prefix_rfl, fun n => .inl⟩
  | fetched taskPtr f c =>
    simp only [threadFunc, pc] at stepped
    split at stepped <;> obtain rfl := Option.some.inj stepped <;> exact ⟨List.prefix_rfl, fun n => .inl⟩
  | logged taskPtr f c =>
    simp only [threadFunc, pc] at stepped
    split at stepped <;> obtain rfl := Option.some.inj stepped
    · exact ⟨List.prefix_rfl, fun n => .inl⟩
    · exact ⟨List.prefix_append _ _, fun n => .inl⟩
  | executed taskPtr =>
    simp only [threadFunc, pc] at stepped
    split at stepped
    next => exact Option.some.inj stepped ▸ ⟨List.prefix_rfl, fun n => .inl⟩
    next t _ =>
      cases freed : freeArg p.heap t.arg <;> rw [freed] at stepped <;> obtain rfl := Option.some.inj stepped <;>
        exact ⟨List.prefix_rfl, fun n => .inl⟩
  | argFreed taskPtr =>
    simp only [threadFunc, pc] at stepped
    split at stepped
    next => exact Option.some.inj stepped ▸ ⟨List.prefix_rfl, fun n => .inl⟩
    next t found =>
      obtain rfl := Option.some.inj stepped
      refine ⟨List.prefix_rfl, fun n member => ?_⟩
      rcases List.mem_append.mp member with old | new
      · exact .inl old
      · exact .inr ⟨taskPtr, rfl, by rw [serialOf, found, List.mem_singleton.mp new]; rfl⟩

theorem WorkerStep.serial {pc : WorkerPc} (moved : WorkerStep p k p' pc) (sound : p.Sound) {j : Fin thrNum} {t : Addr}
    (before : (p.workers j).task = some t) (after : (p'.workers j).task = some t) :
    serialOf p'.heap t = serialOf p.heap t := by
  by_cases own : j = k
  · subst own
    rcases moved.heap with same | ⟨b, ⟨t', info, owns, found⟩ | ⟨held, gone⟩, freed⟩
    · rw [same]
    · rw [freed]
      refine serialOf_update_other ?_ none
      rintro rfl
      obtain ⟨task, here⟩ := sound.task (.worker j) t before
      rw [info_some, task_some.mp here] at found
      cases found
    · -- a worker whose argument is gone frees its task and leaves
      have follows := moved.follows
      have gone : (p.workers j).argGone = true := gone
      rw [moved.workers, Function.update_self] at after
      generalize p.workers j = old at gone follows
      cases follows <;> simp [WorkerPc.argGone, WorkerPc.task] at gone after
  · exact moved.serials sound (o := .worker j) before (by simpa using own)

theorem work_cases {s s' : WebServer} (stepped : s.work k = some s') :
    ∃ pool, poolStep s.pool (.worker k) = some pool ∧
      ((∃ t f c, s.pool.workers k = .logged t f c) ∧ s' = { s.goto k .opening with pool } ∨
        (∀ t f c, s.pool.workers k ≠ .logged t f c) ∧ (∃ logs, s' = { s with pool, logs }) ∧
          ∀ t f fd, s.pool.workers k = .executing t f fd → s.responses k = .returned) := by
  simp only [WebServer.work] at stepped
  split at stepped
  next t f clientSock running =>
    split_ifs at stepped with returned
    obtain ⟨pool, moved, rfl⟩ := Option.map_eq_some_iff.mp stepped
    exact ⟨pool, moved, .inr ⟨by simp [running], ⟨s.logs, rfl⟩, fun _ _ _ _ => returned⟩⟩
  next t f c fetched =>
    obtain ⟨pool, moved, rfl⟩ := Option.map_eq_some_iff.mp stepped
    exact ⟨pool, moved, .inr ⟨by simp [fetched], ⟨_, rfl⟩, by simp [fetched]⟩⟩
  next t f c logged =>
    split_ifs at stepped
    obtain ⟨pool, moved, rfl⟩ := Option.map_eq_some_iff.mp stepped
    exact ⟨pool, moved, .inl ⟨⟨t, f, c, logged⟩, rfl⟩⟩
  next executing _ logged =>
    obtain ⟨pool, moved, rfl⟩ := Option.map_eq_some_iff.mp stepped
    exact ⟨pool, moved, .inr ⟨logged, ⟨s.logs, rfl⟩, fun t f fd running => absurd running (executing t f fd)⟩⟩

structure WebServer.Quiet (s s' : WebServer) : Prop where
  responses : s'.responses = s.responses
  written : s'.written = s.written
  pool : s'.pool = s.pool ∨ ∃ call, (∀ k, call ≠ PoolEvent.worker k) ∧ poolStep s.pool call = some s'.pool

theorem log_quiet {s s' : WebServer} {e : LogEvent} (stepped : s.log k e = some s') : s.Quiet s' := by
  simp only [WebServer.log] at stepped
  split at stepped
  next =>
    simp only [writeLog] at stepped
    split at stepped
    next => exact Option.some.inj stepped ▸ ⟨rfl, rfl, .inl rfl⟩
    next =>
      split_ifs at stepped
      exact Option.some.inj stepped ▸ ⟨rfl, rfl, .inl rfl⟩
    next => exact Option.some.inj stepped ▸ ⟨rfl, rfl, .inl rfl⟩
    next => cases stepped
  next => cases stepped

theorem mainStep_quiet {s s' : WebServer} {e : WebEvent} (stepped : s.mainStep e = some s') : s.Quiet s' := by
  simp only [WebServer.mainStep] at stepped
  split at stepped
  next =>
    obtain ⟨loop, -, rfl⟩ := Option.map_eq_some_iff.mp stepped
    exact ⟨rfl, rfl, .inl rfl⟩
  next accepted _ =>
    cases accepted with
    | none =>
      obtain ⟨loop, -, rfl⟩ := Option.map_eq_some_iff.mp stepped
      exact ⟨rfl, rfl, .inl rfl⟩
    | some client =>
      simp only [WebServer.accept] at stepped
      split_ifs at stepped
      obtain ⟨loop, -, rfl⟩ := Option.map_eq_some_iff.mp stepped
      exact ⟨rfl, rfl, .inl rfl⟩
  next =>
    split at stepped
    next => cases stepped
    next => exact Option.some.inj stepped ▸ ⟨rfl, rfl, .inl rfl⟩
    next =>
      simp only [WebServer.serve] at stepped
      split at stepped
      next => exact Option.some.inj stepped ▸ ⟨rfl, rfl, .inl rfl⟩
      next => exact Option.some.inj stepped ▸ ⟨rfl, rfl, .inl rfl⟩
      next =>
        split at stepped
        next =>
          obtain ⟨pool, moved, rfl⟩ := Option.map_eq_some_iff.mp stepped
          exact ⟨rfl, rfl, .inr ⟨_, by simp, moved⟩⟩
        next => cases stepped
  next =>
    obtain ⟨pool, moved, rfl⟩ := Option.map_eq_some_iff.mp stepped
    exact ⟨rfl, rfl, .inr ⟨_, by simp, moved⟩⟩
  next =>
    obtain ⟨pool, moved, rfl⟩ := Option.map_eq_some_iff.mp stepped
    exact ⟨rfl, rfl, .inr ⟨_, by simp, moved⟩⟩
  next =>
    simp only [WebServer.enqueue] at stepped
    obtain ⟨pool, moved, rfl⟩ := Option.map_eq_some_iff.mp stepped
    exact ⟨rfl, rfl, .inr ⟨_, by simp, moved⟩⟩
  next => cases stepped

end Tasks

structure FileServer.Serves (content : List UInt8) (s : FileServer) : Prop where
  unbegun : ∀ n, n ∉ s.web.pool.history.executed.map Prod.fst → s.web.writtenFor n = [] ∧ s.missed n = 0
  running : ∀ k t f fd, s.web.pool.workers k = .executing t f fd →
    ∃ given, Given content (s.web.responses k) (s.unread k) given ∧ s.Gave (serialOf s.web.pool.heap t) given
  called : ∀ k t, s.web.pool.workers k = .executed t ∨ s.web.pool.workers k = .argFreed t →
    s.Gave (serialOf s.web.pool.heap t) (responseOf content)
  finished : ∀ n ∈ s.web.pool.history.finished, s.Gave n (responseOf content)

section Runs

variable {content : List UInt8} {s s' : FileServer}

theorem FileServer.Serves.pool (serves : s.Serves content) (written : s'.web.written = s.web.written)
    (missed : s'.missed = s.missed) (executed : s.web.pool.history.executed <+: s'.web.pool.history.executed)
    (running : ∀ k t f fd, s'.web.pool.workers k = .executing t f fd →
      s.web.pool.workers k = .executing t f fd ∧ serialOf s'.web.pool.heap t = serialOf s.web.pool.heap t ∧
          s'.web.responses k = s.web.responses k ∧ s'.unread k = s.unread k ∨
        s'.web.responses k = .opening ∧
          serialOf s'.web.pool.heap t ∉ s.web.pool.history.executed.map Prod.fst)
    (called : ∀ k t, s'.web.pool.workers k = .executed t ∨ s'.web.pool.workers k = .argFreed t →
      serialOf s'.web.pool.heap t = serialOf s.web.pool.heap t ∧
        (s.web.pool.workers k = .executed t ∨ s.web.pool.workers k = .argFreed t ∨
          s.web.responses k = .returned ∧ ∃ f fd, s.web.pool.workers k = .executing t f fd))
    (finished : ∀ n ∈ s'.web.pool.history.finished, n ∈ s.web.pool.history.finished ∨
      ∃ k t, s.web.pool.workers k = .argFreed t ∧ serialOf s.web.pool.heap t = n) : s'.Serves content := by
  have sent (n : Nat) : s'.web.writtenFor n = s.web.writtenFor n := by simp only [WebServer.writtenFor, written]
  have kept {n : Nat} {given : List UInt8} (gave : s.Gave n given) : s'.Gave n given :=
    gave.congr (sent n) (congrFun missed n)
  constructor
  case unbegun =>
    intro n unbegun
    rw [sent, missed]
    exact serves.unbegun n fun begun => unbegun ((executed.map Prod.fst).subset begun)
  case running =>
    intro k t f fd now
    rcases running k t f fd now with ⟨before, serial, responses, unread⟩ | ⟨opening, fresh⟩
    · obtain ⟨given, here, gave⟩ := serves.running k t f fd before
      exact ⟨given, by rw [responses, unread]; exact here, serial ▸ kept gave⟩
    · obtain ⟨nothing, unsent⟩ := serves.unbegun _ fresh
      refine ⟨[], opening ▸ .opening _, ?_, ?_⟩
      · rw [sent, nothing]
      · rw [sent, missed, nothing, unsent]
        rfl
  case called =>
    intro k t now
    obtain ⟨serial, before | before | ⟨returned, f, fd, before⟩⟩ := called k t now
    · exact serial ▸ kept (serves.called k t (.inl before))
    · exact serial ▸ kept (serves.called k t (.inr before))
    · obtain ⟨given, here, gave⟩ := serves.running k t f fd before
      rw [returned] at here
      generalize s.unread k = unread at here
      cases here
      exact serial ▸ kept gave
  case finished =>
    intro n member
    rcases finished n member with old | ⟨k, t, before, rfl⟩
    · exact kept (serves.finished n old)
    · exact kept (serves.called k t (.inr before))

theorem FileServer.Serves.advance (serves : s.Serves content) (tracked : s.web.pool.Tracked) {k : Fin thrNum}
    {t f : Nat} {clientSock : Int} (running : s.web.pool.workers k = .executing t f clientSock)
    (advances : s.Advances content k (serialOf s.web.pool.heap t) s') : s'.Serves content := by
  have valid := Dispatch.reachable_valid tracked.dispatch
  obtain ⟨pool, workers, tasks, own⟩ := advances
  have kept {n : Nat} {given : List UInt8} (other : n ≠ serialOf s.web.pool.heap t) (gave : s.Gave n given) :
      s'.Gave n given := gave.congr (tasks n other).1 (tasks n other).2
  have here : (board s.web.pool).hands k = .running (serialOf s.web.pool.heap t) := by
    simp [board, running, handOf]
  -- the task is the only one that this worker has, and no other worker has it
  have apart {j : Fin thrNum} {n : Nat} (other : j ≠ k) (there : (board s.web.pool).hands j = .running n) :
      n ≠ serialOf s.web.pool.heap t := by
    rintro rfl
    exact other (valid.handOnce j k _ (by rw [there]; rfl) (by rw [here]; rfl))
  constructor
  case unbegun =>
    intro n unbegun
    rw [pool] at unbegun
    have other : n ≠ serialOf s.web.pool.heap t := by
      rintro rfl
      exact unbegun (valid.runningStarted k _ here)
    rw [(tasks n other).1, (tasks n other).2]
    exact serves.unbegun n unbegun
  case running =>
    intro j t' f' fd there
    rw [pool] at there ⊢
    by_cases same : j = k
    · subst same
      obtain ⟨rfl, -, -⟩ := WorkerPc.executing.inj (running.symm.trans there)
      obtain ⟨given, now, gave⟩ := serves.running j t f clientSock running
      exact own given now gave
    · obtain ⟨given, now, gave⟩ := serves.running j t' f' fd there
      refine ⟨given, by rw [(workers j same).1, (workers j same).2]; exact now, kept (apart same ?_) gave⟩
      simp [board, there, handOf]
  case called =>
    intro j t' there
    rw [pool] at there ⊢
    have same : j ≠ k := by
      rintro rfl
      simp [running] at there
    refine kept (apart same ?_) (serves.called j t' there)
    rcases there with there | there <;> simp [board, there, handOf]
  case finished =>
    intro n member
    rw [pool] at member
    refine kept ?_ (serves.finished n member)
    rintro rfl
    exact (valid.handTaken k _ (by rw [here]; rfl)).2 member

theorem FileServer.Serves.quiet (serves : s.Serves content) (tracked : s.web.pool.Tracked)
    (counted : s'.web.pool.backlog < uintSize) (quiet : s.web.Quiet s'.web) (unread : s'.unread = s.unread)
    (missed : s'.missed = s.missed) : s'.Serves content := by
  have same : s'.web.pool.workers = s.web.pool.workers ∧
      s'.web.pool.history.executed = s.web.pool.history.executed ∧
      s'.web.pool.history.finished = s.web.pool.history.finished ∧
      ∀ k t, (s.web.pool.workers k).task = some t → serialOf s'.web.pool.heap t = serialOf s.web.pool.heap t := by
    rcases quiet.pool with same | ⟨call, own, stepped⟩
    · rw [same]
      exact ⟨rfl, rfl, rfl, fun _ _ _ => rfl⟩
    · exact ⟨poolStep_workers own stepped, quiet_tasks tracked counted own stepped⟩
  obtain ⟨workers, executed, finished, serials⟩ := same
  refine serves.pool quiet.written missed (executed ▸ List.prefix_rfl) ?_ ?_ fun n member => .inl (finished ▸ member)
  · intro k t f fd running
    rw [workers] at running
    refine .inl ⟨running, serials k t (by rw [running]; rfl), congrFun quiet.responses k, congrFun unread k⟩
  · intro k t called
    rw [workers] at called
    refine ⟨serials k t ?_, called.imp_right .inl⟩
    rcases called with called | called <;> rw [called] <;> rfl

theorem FileServer.Serves.work (serves : s.Serves content) (tracked : s.web.pool.Tracked) {k : Fin thrNum}
    (stepped : s.web.work k = some s'.web) (unread : s'.unread = s.unread) (missed : s'.missed = s.missed) :
    s'.Serves content := by
  have sound := tracked.sound
  have valid := Dispatch.reachable_valid tracked.dispatch
  obtain ⟨pool, ran, shape⟩ := work_cases stepped
  simp only [poolStep, sound.safe, Bool.false_eq_true, if_false] at ran
  obtain ⟨pc, moved⟩ := threadFunc_step sound ran
  obtain ⟨executed, finished⟩ := threadFunc_history ran
  have same : s'.web.pool = pool ∧ s'.web.written = s.web.written ∧
      ∀ j, j ≠ k ∨ (∀ t f c, s.web.pool.workers k ≠ .logged t f c) → s'.web.responses j = s.web.responses j := by
    rcases shape with ⟨⟨t, f, c, logged⟩, web⟩ | ⟨-, ⟨logs, web⟩, -⟩ <;> rw [web]
    · refine ⟨rfl, rfl, fun j other => Function.update_of_ne ?_ _ _⟩
      exact other.resolve_right fun quiet => quiet t f c logged
    · exact ⟨rfl, rfl, fun _ _ => rfl⟩
  obtain ⟨rfl, written, responses⟩ := same
  refine serves.pool written missed executed ?_ ?_ ?_
  · intro j t f fd running
    obtain ⟨serial, ⟨before, other⟩ | ⟨rfl, ⟨c, logged⟩, -⟩⟩ := threadFunc_executing sound ran running
    · exact .inl ⟨before, serial, responses j (.inl other), congrFun unread j⟩
    · have holding : (board s.web.pool).hands j = .holding (serialOf s.web.pool.heap t) := by
        simp [board, logged, handOf]
      refine .inr ⟨?_, serial ▸ valid.holdingNotStarted j _ holding⟩
      rcases shape with ⟨-, web⟩ | ⟨quiet, -⟩
      · rw [web]
        exact Function.update_self _ _ _
      · exact absurd logged (quiet t f c)
  · intro j t called
    have after : (s'.web.pool.workers j).task = some t := by rcases called with called | called <;> rw [called] <;> rfl
    have before : (s.web.pool.workers j).task = some t ∧ (s.web.pool.workers j = .executed t ∨
        s.web.pool.workers j = .argFreed t ∨
          s.web.responses j = .returned ∧ ∃ f fd, s.web.pool.workers j = .executing t f fd) := by
      by_cases own : j = k
      · subst own
        rw [moved.workers, Function.update_self] at called
        have follows := moved.follows
        generalize now : s.web.pool.workers j = old at follows
        rcases called with rfl | rfl <;> cases follows
        next f fd =>
          refine ⟨rfl, .inr (.inr ⟨?_, f, fd, rfl⟩)⟩
          rcases shape with ⟨⟨t, f, c, logged⟩, -⟩ | ⟨-, -, returned⟩
          · cases now.symm.trans logged
          · exact returned t f fd now
        next => exact ⟨rfl, .inl rfl⟩
      · rw [moved.workers, Function.update_of_ne own] at after called
        exact ⟨after, called.imp_right .inl⟩
    exact ⟨moved.serial sound before.1 after, before.2⟩
  · intro n member
    refine (finished n member).imp_right ?_
    rintro ⟨t, before, serial⟩
    exact ⟨k, t, before, serial⟩

theorem step_serves (serves : s.Serves content) (tracked : s.web.pool.Tracked) {e : WebEvent} (fresh : FreshRun s e s')
    (stepped : s.step content e = some s') : s'.Serves content := by
  obtain ⟨after, accounted, web, unread, missed⟩ := FileServer.step_some.mp stepped
  have counted : s'.web.pool.backlog < uintSize := fresh.1
  simp only [WebServer.step] at web
  split_ifs at web
  split at web
  next =>
    obtain rfl := Option.some.inj accounted
    obtain ⟨pool, moved, same⟩ := Option.map_eq_some_iff.mp web
    refine serves.quiet tracked counted ⟨by rw [← same], by rw [← same], .inr ⟨.signal, by simp, ?_⟩⟩ unread missed
    rw [moved, ← same]
  next k =>
    obtain rfl := Option.some.inj accounted
    exact serves.work tracked web unread missed
  next k call =>
    obtain rfl := Option.some.inj accounted
    exact serves.quiet tracked counted (log_quiet web) unread missed
  next k call =>
    simp only [WebServer.respond] at web
    split at web
    next t f clientSock running => exact serves.advance tracked running (call_advances running stepped)
    next => cases web
  next e _ _ other =>
    obtain rfl := Option.some.inj ((account_quiet other).symm.trans accounted)
    exact serves.quiet tracked counted (mainStep_quiet web) unread missed

theorem reachable_serves (reached : (fileServer content).ReachableWhile FreshRun s) : s.Serves content := by
  refine reached.invariant (P := FileServer.Serves content) ?_ ?_
  · rintro s ⟨starts, nothing⟩
    have sent (n : Nat) : s.web.writtenFor n = [] := by simp [WebServer.writtenFor, starts.written]
    constructor
    case unbegun => exact fun n _ => ⟨sent n, nothing n⟩
    case running => simp [starts.pool, threadPoolInit]
    case called => simp [starts.pool, threadPoolInit]
    case finished => simp [starts.pool, threadPoolInit]
  · exact fun s e s' before serves fresh stepped =>
      step_serves serves (webServer_tracked (fileServer_web before)) fresh stepped

theorem FileServer.Serves.sent_sublist (serves : s.Serves content) (tracked : s.web.pool.Tracked) (n : Nat) :
    (s.web.writtenFor n).Sublist (responseOf content) := by
  have valid := Dispatch.reachable_valid tracked.dispatch
  by_cases begun : n ∈ (board s.web.pool).started
  · rcases valid.placed n (valid.startedTaken n begun) with done | ⟨k, held⟩
    · exact (serves.finished n done).order
    · have running : (board s.web.pool).hands k = .running n := by
        cases hand : (board s.web.pool).hands k with
        | empty => simp [hand, Dispatch.Hand.job] at held
        | holding m =>
          obtain rfl : m = n := by simpa [hand, Dispatch.Hand.job] using held
          exact absurd begun (valid.holdingNotStarted k m hand)
        | running m =>
          obtain rfl : m = n := by simpa [hand, Dispatch.Hand.job] using held
          rfl
      simp only [board, handOf] at running
      split at running <;> cases running
      next t f fd now =>
        obtain ⟨given, here, gave⟩ := serves.running k t f fd now
        exact gave.order.trans here.prefix_response.sublist
      next t now => exact (serves.called k t (.inl now)).order
      next t now => exact (serves.called k t (.inr now)).order
  · rw [(serves.unbegun n begun).1]
    exact List.nil_sublist _

theorem reachable_answering {web : WebServer} (reached : webServer.ReachableWhile FreshNumber web) : web.Answering := by
  apply reached.invariant (P := WebServer.Answering)
  · exact fun _ starts => WebServer.Starts.answering starts
  · exact fun s e s' before answering fresh stepped =>
      (WebServer.step_moves stepped).answering answering (webServer_tracked before) fresh

theorem received_sent {web : WebServer} (answering : web.Answering) {n c : Nat}
    (once : ∀ m, web.requests[m]? = some c ↔ m = n) : web.received c = web.writtenFor n := by
  have same : ∀ w ∈ web.written, decide (w.target = .connection c) = decide (w.serial = n) := by
    intro w member
    obtain ⟨c', request, target⟩ := Option.map_eq_some_iff.mp (answering.answered w member)
    rw [decide_eq_decide, ← target, Descriptor.connection.injEq]
    constructor
    · rintro rfl
      exact (once _).mp request
    · rintro rfl
      exact Option.some.inj (request.symm.trans ((once _).mpr rfl))
  rw [WebServer.received, WebServer.writtenFor, List.filter_congr same]

end Runs

def newFileServer : FileServer := { web := newWebServer, unread := fun _ => [], missed := fun _ => 0 }

def answersWhole : List WebEvent :=
  answers ++ [.respond 0 (.read (some [65])), .respond 0 (.write (some 1)), .respond 0 (.read (some [])),
    .respond 0 (.write (some 10)), .respond 0 .close, .work 0, .work 0, .work 0]

end NetProg.P3
