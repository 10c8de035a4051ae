import NetProg.P3.Responses

set_option autoImplicit false

namespace NetProg.P3

open Transition

def ResponsePc.fd : ResponsePc → Option Int
  | .header fd | .reading fd | .sending fd _ | .ending fd | .closing fd => some fd
  | .opening | .returned => none

def LogPc.fd : LogPc → Option Int
  | .writing fd => some fd
  | .opening | .returned => none

def WebServer.fileOf (s : WebServer) (k : Fin thrNum) : Option (Int × Descriptor) :=
  -- The file that a worker has open, and how.
  match s.pool.workers k with
  | .logged .. => (s.logs k).fd.map (·, .log)
  | .executing .. => (s.responses k).fd.map (·, .file)
  | _ => none

def Descriptor.isFile : Descriptor → Bool
  | .file | .log => true
  | .listening | .connection _ => false

abbrev WebServer.clientfd (s : WebServer) : Slot → Int := s.loop.pool.clientfd

def HasRoom (s : WebServer) (e : WebEvent) (_ : WebServer) : Prop :=
  match e with
  -- `addClient` has a slot
  | .accept (some _) => s.loop.pool.findSlot.isSome = true
  | _ => True

instance (s : WebServer) (e : WebEvent) (s' : WebServer) : Decidable (HasRoom s e s') := by
  unfold HasRoom
  split <;> infer_instance

inductive WebServer.Handles (s : WebServer) (e : WebEvent) (s' : WebServer) : Prop where
  | nothing (clientfd : s'.clientfd = s.clientfd) (descriptors : s'.descriptors = s.descriptors)
      (files : s'.fileOf = s.fileOf)
  | accepts (fd : Int) (c : Nat) (valid : 0 ≤ fd) (closed : s.descriptors fd = none)
      (descriptors : s'.descriptors = Function.update s.descriptors fd (some (.connection c)))
      (files : s'.fileOf = s.fileOf)
      (takes : HasRoom s e s' → ∃ i, s.clientfd i < 0 ∧ s'.clientfd = Function.update s.clientfd i fd)
  | closes (i : Slot) (occupied : 0 < s.clientfd i) (clientfd : s'.clientfd = Function.update s.clientfd i (-1))
      (descriptors : s'.descriptors = Function.update s.descriptors (s.clientfd i) none) (files : s'.fileOf = s.fileOf)
  | opens (k : Fin thrNum) (fd : Int) (d : Descriptor) (file : d.isFile = true) (closed : s.descriptors fd = none)
      (descriptors : s'.descriptors = Function.update s.descriptors fd (some d)) (before : s.fileOf k = none)
      (files : s'.fileOf = Function.update s.fileOf k (some (fd, d))) (clientfd : s'.clientfd = s.clientfd)
  | finishes (k : Fin thrNum) (fd : Int) (d : Descriptor) (before : s.fileOf k = some (fd, d))
      (descriptors : s'.descriptors = Function.update s.descriptors fd none)
      (files : s'.fileOf = Function.update s.fileOf k none) (clientfd : s'.clientfd = s.clientfd)

section Steps

variable {s s' : WebServer}

theorem addClient_takes_slot {α : Type} {p : FdPool α} (room : p.findSlot.isSome = true) (sockfd : Int)
    (clientAddr : α) :
    ∃ i, p.clientfd i < 0 ∧ (addClient sockfd clientAddr p).clientfd = Function.update p.clientfd i sockfd := by
  obtain ⟨i, found⟩ := Option.isSome_iff_exists.mp room
  have free := Probing.scan_stops found
  simp only [FdPool.isFree, decide_eq_true_eq] at free
  have here : { p with nready := p.nready - 1 }.findSlot = some i := found
  exact ⟨i, free, by simp only [addClient, here, FdPool.takeSlot]⟩

theorem accept_handles {accepted : Option (Int × SockAddrIn)} (stepped : s.accept accepted = some s') :
    s.Handles (.accept accepted) s' := by
  simp only [WebServer.accept] at stepped
  split at stepped
  next =>
    obtain ⟨loop, ran, rfl⟩ := Option.map_eq_some_iff.mp stepped
    obtain ⟨-, rfl⟩ := accept_nobody ran
    exact .nothing rfl rfl rfl
  next sockfd clientAddr =>
    split_ifs at stepped with fresh
    obtain ⟨loop, ran, rfl⟩ := Option.map_eq_some_iff.mp stepped
    obtain ⟨-, -, rfl⟩ := accept_somebody ran
    exact .accepts sockfd s.connections fresh.1 fresh.2.2 rfl rfl fun room => addClient_takes_slot room sockfd clientAddr

theorem files_congr (pool : s'.pool.workers = s.pool.workers) (logs : s'.logs = s.logs)
    (responses : s'.responses = s.responses) : s'.fileOf = s.fileOf := by
  funext k
  simp only [WebServer.fileOf, pool, logs, responses]

theorem poolStep_workers {p p' : PoolState} {e : PoolEvent} (quiet : ∀ k, e ≠ .worker k)
    (stepped : poolStep p e = some p') : p'.workers = p.workers := by
  simp only [poolStep, poolStep_safe stepped, Bool.false_eq_true, if_false] at stepped
  cases e with
  | mallocInfo a clntInfo => obtain ⟨-, -, rfl⟩ := mallocInfo_cases stepped; rfl
  | mallocTask a stale funcPtr => obtain ⟨-, -, -, rfl⟩ := mallocTask_cases stepped; rfl
  | mallocFails => obtain rfl := mallocFails_cases stepped; rfl
  | enqueue => obtain rfl | ⟨_, _, _, -, -, rfl⟩ := enqueue_shape stepped <;> rfl
  | signal =>
    obtain ⟨_, _, shape⟩ := signalThreadFunc_shape p
    rw [← Option.some.inj stepped, shape]
  | worker k => exact absurd rfl (quiet k)

theorem pool_handles {e : WebEvent} {call : PoolEvent} (quiet : ∀ k, call ≠ .worker k) {pool : PoolState}
    (stepped : poolStep s.pool call = some pool) (clientfd : s'.clientfd = s.clientfd)
    (descriptors : s'.descriptors = s.descriptors) (same : s'.pool = pool) (logs : s'.logs = s.logs)
    (responses : s'.responses = s.responses) : s.Handles e s' :=
  .nothing clientfd descriptors (files_congr (same ▸ poolStep_workers quiet stepped) logs responses)

theorem serve_handles {e : WebEvent} {i : Slot} {loop : EventLoop SockAddrIn} {nread : Option Nat} {clntInfo : Addr}
    (scanned : s.loop.scan = some (some i, loop)) (stepped : s.serve i loop nread clntInfo = some s') :
    s.Handles e s' := by
  obtain ⟨slots, served⟩ := scan_slots scanned
  simp only [WebServer.serve] at stepped
  split at stepped
  next =>
    obtain rfl := Option.some.inj stepped
    exact .nothing slots.clientfd rfl rfl
  next =>
    obtain rfl := Option.some.inj stepped
    refine .closes i (served i rfl) ?_ rfl rfl
    simp [WebServer.clientfd, FdPool.closeSlot, slots.clientfd]
  next =>
    split at stepped
    next =>
      obtain ⟨pool, moved, rfl⟩ := Option.map_eq_some_iff.mp stepped
      exact pool_handles (by simp) moved slots.clientfd rfl rfl rfl rfl
    next => cases stepped

theorem mainStep_handles {e : WebEvent} (stepped : s.mainStep e = some s') : s.Handles e s' := by
  simp only [WebServer.mainStep] at stepped
  split at stepped
  next ready _ =>
    obtain ⟨loop, selected, rfl⟩ := Option.map_eq_some_iff.mp stepped
    exact .nothing (select_slots selected).clientfd rfl rfl
  next accepted _ => exact accept_handles stepped
  next nread clntInfo _ =>
    split at stepped
    next => cases stepped
    next loop scanned =>
      obtain rfl := Option.some.inj stepped
      exact .nothing (scan_slots scanned).1.clientfd rfl rfl
    next i loop scanned => exact serve_handles scanned stepped
  next =>
    obtain ⟨pool, moved, rfl⟩ := Option.map_eq_some_iff.mp stepped
    exact pool_handles (by simp) moved rfl rfl rfl rfl rfl
  next =>
    obtain ⟨pool, moved, rfl⟩ := Option.map_eq_some_iff.mp stepped
    exact pool_handles (by simp) moved rfl rfl rfl rfl rfl
  next =>
    simp only [WebServer.enqueue] at stepped
    obtain ⟨pool, moved, rfl⟩ := Option.map_eq_some_iff.mp stepped
    exact pool_handles (by simp) moved rfl rfl rfl rfl rfl
  next => cases stepped

theorem worker_moves {p p' : PoolState} {k : Fin thrNum} (stepped : poolStep p (.worker k) = some p') :
    (p'.workers k = p.workers k ∨ (p.workers k).Follows (p'.workers k)) ∧ ∀ j, j ≠ k → p'.workers j = p.workers j := by
  simp only [poolStep, poolStep_safe stepped, Bool.false_eq_true, if_false] at stepped
  rcases threadFunc_follows stepped with rfl | ⟨pc, moved⟩
  · exact ⟨.inl rfl, fun _ _ => rfl⟩
  · rw [moved.workers, Function.update_self]
    exact ⟨.inr moved.follows, fun j other => Function.update_of_ne other _ _⟩

theorem fileOf_none {k : Fin thrNum} (logging : ∀ t f c, s.pool.workers k = .logged t f c → (s.logs k).fd = none)
    (executing : ∀ t f fd, s.pool.workers k = .executing t f fd → (s.responses k).fd = none) : s.fileOf k = none := by
  simp only [WebServer.fileOf]
  split
  next t f c logged => rw [logging t f c logged, Option.map_none]
  next t f fd running => rw [executing t f fd running, Option.map_none]
  next => rfl

theorem log_files {k : Fin thrNum} {t f : Nat} {c : Option Addr} (logged : s.pool.workers k = .logged t f c)
    (next : LogPc) : (s.setLog k next).fileOf = Function.update s.fileOf k (next.fd.map (·, .log)) := by
  funext j
  by_cases own : j = k
  · subst own
    simp [WebServer.fileOf, WebServer.setLog, logged]
  · simp [WebServer.fileOf, WebServer.setLog, own]

theorem log_handles {e : WebEvent} {k : Fin thrNum} {call : LogEvent} (stepped : s.log k call = some s') :
    s.Handles e s' := by
  simp only [WebServer.log] at stepped
  split at stepped
  next t f c logged =>
    have file : s.fileOf k = (s.logs k).fd.map (·, .log) := by simp only [WebServer.fileOf, logged]
    simp only [writeLog] at stepped
    split at stepped
    next => exact Option.some.inj stepped ▸ .nothing rfl rfl rfl
    next fd pc =>
      split_ifs at stepped with fresh
      obtain rfl := Option.some.inj stepped
      exact .opens k fd .log rfl fresh.2 rfl (by rw [file, pc]; rfl) (log_files logged _) rfl
    next fd pc =>
      obtain rfl := Option.some.inj stepped
      exact .finishes k fd .log (by rw [file, pc]; rfl) rfl (log_files logged _) rfl
    next => cases stepped
  next => cases stepped

theorem work_quiet {e : WebEvent} {k : Fin thrNum} {pool : PoolState} {logs : Fin thrNum → LogPc}
    {responses : Fin thrNum → ResponsePc} (moved : poolStep s.pool (.worker k) = some pool)
    (others : ∀ j, j ≠ k → logs j = s.logs j ∧ responses j = s.responses j) (nothing : s.fileOf k = none)
    (logging : ∀ t f c, pool.workers k = .logged t f c → (logs k).fd = none)
    (executing : ∀ t f fd, pool.workers k = .executing t f fd → (responses k).fd = none) :
    s.Handles e { s with pool, logs, responses } := by
  refine .nothing rfl rfl (funext fun j => ?_)
  by_cases own : j = k
  · rw [own, nothing]
    exact fileOf_none logging executing
  · simp only [WebServer.fileOf, (worker_moves moved).2 j own, others j own]

theorem work_handles {e : WebEvent} {k : Fin thrNum} (stepped : s.work k = some s') : s.Handles e s' := by
  simp only [WebServer.work] at stepped
  split at stepped
  next t f clientSock running =>
    split_ifs at stepped with returned
    obtain ⟨pool, moved, rfl⟩ := Option.map_eq_some_iff.mp stepped
    have nothing : (s.responses k).fd = none := by rw [returned]; rfl
    refine work_quiet moved (fun _ _ => ⟨rfl, rfl⟩) (fileOf_none (by simp [running]) fun _ _ _ _ => nothing) ?_
      fun _ _ _ _ => nothing
    intro t' f' c' logged
    rcases (worker_moves moved).1 with same | follows
    · simp [logged, running] at same
    · rw [running, logged] at follows
      cases follows
  next t f c fetched =>
    obtain ⟨pool, moved, rfl⟩ := Option.map_eq_some_iff.mp stepped
    refine work_quiet moved (fun j other => ⟨Function.update_of_ne other _ _, rfl⟩)
      (fileOf_none (by simp [fetched]) (by simp [fetched])) (fun _ _ _ _ => by simp [WebServer.setLog, LogPc.fd]) ?_
    intro t' f' fd' running
    rcases (worker_moves moved).1 with same | follows
    · simp [fetched, running] at same
    · rw [fetched, running] at follows
      cases follows
  next t f c logged =>
    split_ifs at stepped with returned
    obtain ⟨pool, moved, rfl⟩ := Option.map_eq_some_iff.mp stepped
    have nothing : (s.logs k).fd = none := by rw [returned]; rfl
    exact work_quiet moved (fun j other => ⟨rfl, Function.update_of_ne other _ _⟩)
      (fileOf_none (fun _ _ _ _ => nothing) (by simp [logged])) (fun _ _ _ _ => nothing)
      fun _ _ _ _ => by simp [WebServer.goto, ResponsePc.fd]
  next executing fetched logged =>
    obtain ⟨pool, moved, rfl⟩ := Option.map_eq_some_iff.mp stepped
    refine work_quiet moved (fun _ _ => ⟨rfl, rfl⟩)
      (fileOf_none (fun t f c now => absurd now (logged t f c)) fun t f fd now => absurd now (executing t f fd)) ?_ ?_
    · intro t f c now
      rcases (worker_moves moved).1 with same | follows
      · exact absurd (same.symm.trans now) (logged t f c)
      · rw [now] at follows
        generalize before : s.pool.workers k = old at follows
        cases follows
        exact absurd before (fetched t f c)
    · intro t f fd now
      rcases (worker_moves moved).1 with same | follows
      · exact absurd (same.symm.trans now) (executing t f fd)
      · rw [now] at follows
        generalize before : s.pool.workers k = old at follows
        cases follows
        exact absurd before (logged _ _ _)

theorem goto_files {k : Fin thrNum} {t f : Nat} {clientSock : Int}
    (running : s.pool.workers k = .executing t f clientSock) (next : ResponsePc) :
    (s.goto k next).fileOf = Function.update s.fileOf k (next.fd.map (·, .file)) := by
  funext j
  by_cases own : j = k
  · subst own
    simp [WebServer.fileOf, WebServer.goto, running]
  · simp [WebServer.fileOf, WebServer.goto, own]

theorem goto_same_file {k : Fin thrNum} {t f : Nat} {clientSock : Int}
    (running : s.pool.workers k = .executing t f clientSock) {next : ResponsePc}
    (same : next.fd = (s.responses k).fd) : (s.goto k next).fileOf = s.fileOf := by
  rw [goto_files running, same]
  refine Function.update_eq_self_iff.mpr ?_
  simp [WebServer.fileOf, running]

theorem writeSock_handles {e : WebEvent} {k : Fin thrNum} {t f serial : Nat} {sock clientSock : Int} {bytes : List UInt8}
    {count : Option Nat} {next : ResponsePc} (running : s.pool.workers k = .executing t f sock)
    (same : next.fd = (s.responses k).fd) (moved : s.writeSock k serial clientSock bytes count next = some s') :
    s.Handles e s' := by
  simp only [WebServer.writeSock] at moved
  split at moved
  next => exact Option.some.inj moved ▸ .nothing rfl rfl rfl
  next =>
    split at moved
    next =>
      split_ifs at moved
      obtain rfl := Option.some.inj moved
      exact .nothing rfl rfl (goto_same_file running same)
    next => cases moved

theorem httpResponse_handles {k : Fin thrNum} {t f serial : Nat} {sock clientSock : Int} {e : WebEvent}
    {call : ResponseEvent} (running : s.pool.workers k = .executing t f sock)
    (moved : httpResponse s k serial clientSock call = some s') : s.Handles e s' := by
  have file : s.fileOf k = (s.responses k).fd.map (·, .file) := by simp only [WebServer.fileOf, running]
  simp only [httpResponse] at moved
  split at moved
  next => exact Option.some.inj moved ▸ .nothing rfl rfl rfl
  next fd pc =>
    split_ifs at moved with fresh
    obtain rfl := Option.some.inj moved
    exact .opens k fd .file rfl fresh.2 rfl (by rw [file, pc]; rfl) (goto_files running _) rfl
  next fd count pc => exact writeSock_handles running (by rw [pc]; rfl) moved
  next => exact Option.some.inj moved ▸ .nothing rfl rfl rfl
  next fd pc => exact Option.some.inj moved ▸ .nothing rfl rfl (goto_same_file running (by rw [pc]; rfl))
  next fd b rest pc =>
    split_ifs at moved
    exact Option.some.inj moved ▸ .nothing rfl rfl (goto_same_file running (by rw [pc]; rfl))
  next fd sendBuf count pc => exact writeSock_handles running (by rw [pc]; rfl) moved
  next fd count pc => exact writeSock_handles running (by rw [pc]; rfl) moved
  next fd pc =>
    obtain rfl := Option.some.inj moved
    exact .finishes k fd .file (by rw [file, pc]; rfl) rfl (goto_files running _) rfl
  next => cases moved

theorem step_handles {e : WebEvent} (stepped : s.step e = some s') : s.Handles e s' := by
  simp only [WebServer.step] at stepped
  split_ifs at stepped
  split at stepped
  next =>
    obtain ⟨pool, moved, rfl⟩ := Option.map_eq_some_iff.mp stepped
    exact pool_handles (by simp) moved rfl rfl rfl rfl rfl
  next k => exact work_handles stepped
  next k e => exact log_handles stepped
  next k e =>
    simp only [WebServer.respond] at stepped
    split at stepped
    next t f clientSock running => exact httpResponse_handles running stepped
    next => cases stepped
  next e _ _ _ => exact mainStep_handles stepped

end Steps

structure WebServer.Holds (first s : WebServer) : Prop where
  -- `first` is where the run began.
  kept : ∀ fd d, first.descriptors fd = some d → s.descriptors fd = some d
  listening : ∀ fd, s.descriptors fd = some .listening → first.descriptors fd = some .listening
  slots : ∀ i, 0 ≤ s.clientfd i → ∃ c, s.descriptors (s.clientfd i) = some (.connection c)
  slotOnce : ∀ i j, 0 ≤ s.clientfd i → s.clientfd i = s.clientfd j → i = j
  connections : ∀ fd c, s.descriptors fd = some (.connection c) → ∃ i, 0 ≤ s.clientfd i ∧ s.clientfd i = fd
  files : ∀ k fd d, s.fileOf k = some (fd, d) →
    s.descriptors fd = some d ∧ first.descriptors fd = none ∧ d.isFile = true
  fileOnce : ∀ k k' fd d d', s.fileOf k = some (fd, d) → s.fileOf k' = some (fd, d') → k = k'
  openFiles : ∀ fd d, d.isFile = true → s.descriptors fd = some d →
    first.descriptors fd = some d ∨ ∃ k, s.fileOf k = some (fd, d)

section Runs

variable {first s s' : WebServer}

theorem starts_holds (starts : first.Starts) : first.Holds first := by
  obtain ⟨stack, -, loop⟩ := starts.loop
  have free : ∀ i, first.clientfd i = -1 := by simp [WebServer.clientfd, loop, initPool]
  have noFile : ∀ k, first.fileOf k = none := by
    exact fun k => fileOf_none (by simp [starts.pool, threadPoolInit]) (by simp [starts.pool, threadPoolInit])
  constructor
  case kept => exact fun fd d here => here
  case listening => exact fun fd here => here
  case slots => simp [free]
  case slotOnce => simp [free]
  case connections => exact fun fd c here => absurd here (starts.nobody fd c)
  case files => simp [noFile]
  case fileOnce => simp [noFile]
  case openFiles => exact fun fd d _ here => .inl here

theorem accepts_holds (holds : first.Holds s) {fd : Int} {c : Nat} (valid : 0 ≤ fd) (closed : s.descriptors fd = none)
    (descriptors : s'.descriptors = Function.update s.descriptors fd (some (.connection c)))
    (files : s'.fileOf = s.fileOf) {i : Slot} (free : s.clientfd i < 0)
    (clientfd : s'.clientfd = Function.update s.clientfd i fd) : first.Holds s' := by
  have other : ∀ {fd' d}, s.descriptors fd' = some d → fd' ≠ fd := by
    rintro fd' d here rfl
    simp [closed] at here
  have old : ∀ {fd' d}, s.descriptors fd' = some d → s'.descriptors fd' = some d := by
    intro fd' d here
    rw [descriptors, Function.update_of_ne (other here), here]
  have slot : ∀ j, j ≠ i → s'.clientfd j = s.clientfd j := fun j away => by rw [clientfd, Function.update_of_ne away]
  have new : s'.clientfd i = fd := by rw [clientfd, Function.update_self]
  have apart : ∀ j, 0 ≤ s.clientfd j → s.clientfd j ≠ fd := by
    intro j taken
    obtain ⟨d, here⟩ := holds.slots j taken
    exact other here
  constructor
  case kept => exact fun fd' d here => old (holds.kept fd' d here)
  case listening =>
    intro fd' here
    by_cases same : fd' = fd
    · simp [descriptors, same] at here
    · exact holds.listening fd' (by simpa [descriptors, same] using here)
  case slots =>
    intro j taken
    by_cases same : j = i
    · exact ⟨c, by rw [same, new, descriptors, Function.update_self]⟩
    · rw [slot j same] at taken ⊢
      obtain ⟨d, here⟩ := holds.slots j taken
      exact ⟨d, old here⟩
  case slotOnce =>
    intro j j' taken agree
    by_cases same : j = i <;> by_cases same' : j' = i
    · rw [same, same']
    · rw [same, new, slot j' same'] at agree
      exact absurd agree.symm (apart j' (agree ▸ valid))
    · rw [same', new, slot j same] at agree
      exact absurd agree (apart j (agree ▸ valid))
    · rw [slot j same] at taken agree
      exact holds.slotOnce j j' taken (agree.trans (slot j' same'))
  case connections =>
    intro fd' d here
    by_cases same : fd' = fd
    · exact ⟨i, new.symm ▸ valid, new.trans same.symm⟩
    · obtain ⟨j, taken, at_j⟩ := holds.connections fd' d (by simpa [descriptors, same] using here)
      have away : j ≠ i := by
        rintro rfl
        exact absurd taken (by omega)
      exact ⟨j, by rwa [slot j away], by rwa [slot j away]⟩
  case files =>
    intro k fd' d held
    rw [files] at held
    obtain ⟨here, unused⟩ := holds.files k fd' d held
    exact ⟨old here, unused⟩
  case fileOnce => exact files ▸ holds.fileOnce
  case openFiles =>
    intro fd' d file here
    by_cases same : fd' = fd
    · obtain rfl : Descriptor.connection c = d := by simpa [descriptors, same] using here
      cases file
    · rw [files]
      exact holds.openFiles fd' d file (by simpa [descriptors, same] using here)

theorem closes_holds (starts : first.Starts) (holds : first.Holds s) {i : Slot} (occupied : 0 < s.clientfd i)
    (clientfd : s'.clientfd = Function.update s.clientfd i (-1))
    (descriptors : s'.descriptors = Function.update s.descriptors (s.clientfd i) none)
    (files : s'.fileOf = s.fileOf) : first.Holds s' := by
  obtain ⟨c, connected⟩ := holds.slots i occupied.le
  have old : ∀ {fd d}, s'.descriptors fd = some d → s.descriptors fd = some d := by
    intro fd d here
    by_cases same : fd = s.clientfd i
    · simp [descriptors, same] at here
    · simpa [descriptors, same] using here
  have still : ∀ {fd d}, fd ≠ s.clientfd i → s.descriptors fd = some d → s'.descriptors fd = some d := by
    intro fd d away here
    rw [descriptors, Function.update_of_ne away, here]
  have slot : ∀ j, j ≠ i → s'.clientfd j = s.clientfd j := fun j away => by rw [clientfd, Function.update_of_ne away]
  have gone : ∀ j, 0 ≤ s'.clientfd j → j ≠ i := by
    rintro j taken rfl
    simp [clientfd] at taken
  have apart : ∀ j, j ≠ i → 0 ≤ s.clientfd j → s.clientfd j ≠ s.clientfd i := fun j away taken same =>
    away (holds.slotOnce j i taken same)
  constructor
  case kept =>
    intro fd d here
    refine still ?_ (holds.kept fd d here)
    rintro rfl
    obtain rfl := Option.some.inj ((holds.kept _ d here).symm.trans connected)
    exact starts.nobody _ c here
  case listening => exact fun fd here => holds.listening fd (old here)
  case slots =>
    intro j taken
    have away := gone j taken
    rw [slot j away] at taken ⊢
    obtain ⟨d, here⟩ := holds.slots j taken
    exact ⟨d, still (apart j away taken) here⟩
  case slotOnce =>
    intro j j' taken agree
    have away := gone j taken
    have away' := gone j' (agree ▸ taken)
    rw [slot j away] at taken agree
    exact holds.slotOnce j j' taken (agree.trans (slot j' away'))
  case connections =>
    intro fd d here
    obtain ⟨j, taken, at_j⟩ := holds.connections fd d (old here)
    have away : j ≠ i := by
      rintro rfl
      simp [descriptors, at_j] at here
    exact ⟨j, by rwa [slot j away], by rwa [slot j away]⟩
  case files =>
    intro k fd d held
    rw [files] at held
    obtain ⟨here, unused, file⟩ := holds.files k fd d held
    refine ⟨still ?_ here, unused, file⟩
    rintro rfl
    obtain rfl := Option.some.inj (here.symm.trans connected)
    cases file
  case fileOnce => exact files ▸ holds.fileOnce
  case openFiles =>
    intro fd d file here
    rw [files]
    exact holds.openFiles fd d file (old here)

theorem opens_holds (holds : first.Holds s) {k : Fin thrNum} (idle : s.fileOf k = none) {fd : Int} {d : Descriptor}
    (file : d.isFile = true) (closed : s.descriptors fd = none)
    (descriptors : s'.descriptors = Function.update s.descriptors fd (some d))
    (files : s'.fileOf = Function.update s.fileOf k (some (fd, d))) (clientfd : s'.clientfd = s.clientfd) :
    first.Holds s' := by
  have other : ∀ {fd' d'}, s.descriptors fd' = some d' → fd' ≠ fd := by
    rintro fd' d' here rfl
    simp [closed] at here
  have old : ∀ {fd' d'}, s.descriptors fd' = some d' → s'.descriptors fd' = some d' := by
    intro fd' d' here
    rw [descriptors, Function.update_of_ne (other here), here]
  -- a descriptor that is no file is not the new one
  have before : ∀ {fd' d'}, d'.isFile = false → s'.descriptors fd' = some d' → s.descriptors fd' = some d' := by
    intro fd' d' noFile here
    by_cases same : fd' = fd
    · obtain rfl : d = d' := by simpa [descriptors, same] using here
      simp [file] at noFile
    · simpa [descriptors, same] using here
  have mine : ∀ {fd' d'}, s'.fileOf k = some (fd', d') → fd' = fd ∧ d' = d := by
    intro fd' d' held
    rw [files, Function.update_self] at held
    cases held
    exact ⟨rfl, rfl⟩
  have theirs : ∀ {j : Fin thrNum} {fd' d'}, j ≠ k → s'.fileOf j = some (fd', d') → s.fileOf j = some (fd', d') := by
    intro j fd' d' away held
    rwa [files, Function.update_of_ne away] at held
  have unused : first.descriptors fd = none := by
    by_contra used
    obtain ⟨d', here⟩ := Option.ne_none_iff_exists'.mp used
    exact other (holds.kept fd d' here) rfl
  constructor
  case kept => exact fun fd' d' here => old (holds.kept fd' d' here)
  case listening => exact fun fd' here => holds.listening fd' (before rfl here)
  case slots =>
    intro i taken
    rw [clientfd] at taken ⊢
    obtain ⟨c, here⟩ := holds.slots i taken
    exact ⟨c, old here⟩
  case slotOnce => exact clientfd ▸ holds.slotOnce
  case connections =>
    intro fd' c here
    rw [clientfd]
    exact holds.connections fd' c (before rfl here)
  case files =>
    intro j fd' d' held
    by_cases own : j = k
    · subst own
      obtain ⟨rfl, rfl⟩ := mine held
      exact ⟨by rw [descriptors, Function.update_self], unused, file⟩
    · obtain ⟨here, never⟩ := holds.files j fd' d' (theirs own held)
      exact ⟨old here, never⟩
  case fileOnce =>
    intro j j' fd' d₁ d₂ held held'
    by_cases own : j = k <;> by_cases own' : j' = k
    · rw [own, own']
    · subst own
      obtain ⟨rfl, -⟩ := mine held
      exact absurd rfl (other (holds.files j' _ _ (theirs own' held')).1)
    · subst own'
      obtain ⟨rfl, -⟩ := mine held'
      exact absurd rfl (other (holds.files j _ _ (theirs own held)).1)
    · exact holds.fileOnce j j' fd' d₁ d₂ (theirs own held) (theirs own' held')
  case openFiles =>
    intro fd' d' isFile here
    by_cases same : fd' = fd
    · obtain rfl : d = d' := by simpa [descriptors, same] using here
      exact .inr ⟨k, by rw [files, Function.update_self, same]⟩
    · rcases holds.openFiles fd' d' isFile (by simpa [descriptors, same] using here) with first | ⟨j, held⟩
      · exact .inl first
      · have away : j ≠ k := by
          rintro rfl
          simp [idle] at held
        exact .inr ⟨j, by rw [files, Function.update_of_ne away, held]⟩

theorem finishes_holds (holds : first.Holds s) {k : Fin thrNum} {fd : Int} {d : Descriptor}
    (before : s.fileOf k = some (fd, d))
    (descriptors : s'.descriptors = Function.update s.descriptors fd none)
    (files : s'.fileOf = Function.update s.fileOf k none) (clientfd : s'.clientfd = s.clientfd) : first.Holds s' := by
  obtain ⟨here, unused, file⟩ := holds.files k fd d before
  have old : ∀ {fd' d'}, s'.descriptors fd' = some d' → s.descriptors fd' = some d' := by
    intro fd' d' stands
    by_cases same : fd' = fd
    · simp [descriptors, same] at stands
    · simpa [descriptors, same] using stands
  have still : ∀ {fd' d'}, fd' ≠ fd → s.descriptors fd' = some d' → s'.descriptors fd' = some d' := by
    intro fd' d' away stands
    rw [descriptors, Function.update_of_ne away, stands]
  have held : ∀ {j fd' d'}, s'.fileOf j = some (fd', d') → j ≠ k ∧ s.fileOf j = some (fd', d') := by
    intro j fd' d' now
    by_cases own : j = k
    · simp [files, own] at now
    · exact ⟨own, by simpa [files, own] using now⟩
  constructor
  case kept =>
    intro fd' d' stands
    refine still ?_ (holds.kept fd' d' stands)
    rintro rfl
    simp [unused] at stands
  case listening => exact fun fd' stands => holds.listening fd' (old stands)
  case slots =>
    intro i taken
    rw [clientfd] at taken ⊢
    obtain ⟨c, stands⟩ := holds.slots i taken
    refine ⟨c, still ?_ stands⟩
    intro same
    rw [same] at stands
    obtain rfl := Option.some.inj (here.symm.trans stands)
    cases file
  case slotOnce => exact clientfd ▸ holds.slotOnce
  case connections =>
    intro fd' c stands
    rw [clientfd]
    exact holds.connections fd' c (old stands)
  case files =>
    intro j fd' d' now
    obtain ⟨away, was⟩ := held now
    obtain ⟨stands, never⟩ := holds.files j fd' d' was
    refine ⟨still ?_ stands, never⟩
    rintro rfl
    exact away (holds.fileOnce j k _ _ _ was before)
  case fileOnce => exact fun j j' fd' d₁ d₂ now now' => holds.fileOnce j j' fd' d₁ d₂ (held now).2 (held now').2
  case openFiles =>
    intro fd' d' isFile stands
    rcases holds.openFiles fd' d' isFile (old stands) with earlier | ⟨j, was⟩
    · exact .inl earlier
    · have away : j ≠ k := by
        rintro rfl
        obtain ⟨rfl, rfl⟩ := Prod.mk.inj (Option.some.inj (before.symm.trans was))
        simp [descriptors] at stands
      exact .inr ⟨j, by rw [files, Function.update_of_ne away, was]⟩

theorem step_holds (starts : first.Starts) (holds : first.Holds s) {e : WebEvent} (room : HasRoom s e s')
    (stepped : s.step e = some s') : first.Holds s' := by
  cases step_handles stepped with
  | nothing clientfd descriptors files =>
    constructor
    case kept => exact descriptors ▸ holds.kept
    case listening => exact descriptors ▸ holds.listening
    case slots => exact clientfd ▸ descriptors ▸ holds.slots
    case slotOnce => exact clientfd ▸ holds.slotOnce
    case connections => exact clientfd ▸ descriptors ▸ holds.connections
    case files => exact files ▸ descriptors ▸ holds.files
    case fileOnce => exact files ▸ holds.fileOnce
    case openFiles => exact files ▸ descriptors ▸ holds.openFiles
  | accepts fd c valid closed descriptors files takes =>
    obtain ⟨i, free, clientfd⟩ := takes room
    exact accepts_holds holds valid closed descriptors files free clientfd
  | closes i occupied clientfd descriptors files => exact closes_holds starts holds occupied clientfd descriptors files
  | opens k fd d file closed descriptors before files clientfd =>
    exact opens_holds holds before file closed descriptors files clientfd
  | finishes k fd d before descriptors files clientfd => exact finishes_holds holds before descriptors files clientfd

end Runs

end NetProg.P3
