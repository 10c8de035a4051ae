import NetProg.P3.Assignment
import NetProg.Shared.Threads

set_option autoImplicit false

-- `thr_pool.c` and `task_queue.c` one lock, unlock, wait and broadcast at a time. What a thread does while it has a
-- mutex is the step of the pool for that section.

namespace NetProg.P3

open Linked Threads Transition

inductive Mutex where
  -- `mutexQueueRW`, the mutex of `taskCheck`, and `mutexThreadCnt`.
  | queue
  | sem
  | threadCnt
deriving DecidableEq, Repr

inductive Thread where
  | main
  | signal
  | worker (k : Fin thrNum)
deriving DecidableEq, Repr

inductive MainAt where
  -- The main thread and `mutexQueueRW`.
  | outside
  | inside
  | unlocking
deriving DecidableEq, Repr

inductive SignalAt where
  | locking
  | checking
  -- in `bSemPost`
  | posting (assignedThrId : Fin thrNum)
  | storing (assignedThrId : Fin thrNum)
  | broadcasting (assignedThrId : Fin thrNum)
  | unlockingSem
  | unlocking
deriving DecidableEq, Repr

inductive WorkerAt where
  | outside
  | inside (m : Mutex)
  | unlocking (m : Mutex)
  -- in `pthread_cond_wait`, and after a broadcast
  | blocked
  | wakened
deriving DecidableEq, Repr

structure LockedPool where
  pool : PoolState
  mainAt : MainAt
  signalAt : SignalAt
  workerAt : Fin thrNum → WorkerAt
  owner : Mutex → Option Thread

inductive LockEvent where
  | mallocInfo (a : Addr) (clntInfo : ClientInfo)
  | mallocTask (a : Addr) (stale : Option Addr) (funcPtr : Nat)
  | mallocFails
  | main
  | signal
  | worker (k : Fin thrNum)
  | spurious (k : Fin thrNum)

def LockedPool.lock (s : LockedPool) (t : Thread) (m : Mutex) : Option LockedPool :=
  if s.owner m = none then some { s with owner := Function.update s.owner m (some t) } else none

def LockedPool.unlock (s : LockedPool) (m : Mutex) : LockedPool :=
  { s with owner := Function.update s.owner m none }

def LockedPool.put (s : LockedPool) (k : Fin thrNum) (point : WorkerAt) : LockedPool :=
  { s with workerAt := Function.update s.workerAt k point }

def prepares (s : LockedPool) (e : PoolEvent) : Option LockedPool :=
  -- Main's way to `enqueueTask` takes no mutex.
  match s.mainAt with
  | .outside => (poolStep s.pool e).map fun pool => { s with pool }
  | _ => none

def mainStep (s : LockedPool) : Option LockedPool :=
  match s.mainAt, s.pool.main with
  | .outside, .taskReady _ => (s.lock .main .queue).map fun s => { s with mainAt := .inside }
  | .inside, _ => (enqueue s.pool).map fun pool => { s with pool, mainAt := .unlocking }
  | .unlocking, _ => some { s.unlock .queue with mainAt := .outside }
  | _, _ => none

def signalStep (s : LockedPool) : Option LockedPool :=
  match s.signalAt with
  | .locking => (s.lock .signal .queue).map fun s => { s with signalAt := .checking }
  | .checking =>
    if s.pool.taskQ.len = 0 then some { s with signalAt := .unlocking }
    else match headAssigned s.pool.heap s.pool.taskQ with
      | none => some { s with pool := s.pool.crash }
      | some id =>
        if inside : id < thrNum then some { s with signalAt := .posting ⟨id, inside⟩ }
        else some { s with pool := s.pool.crash }
  | .posting id => (s.lock .signal .sem).map fun s => { s with signalAt := .storing id }
  | .storing id => some { s with pool := { s.pool with taskCheck := bSemPost id }, signalAt := .broadcasting id }
  | .broadcasting _ => some { s with
      workerAt := fun k => if s.workerAt k = .blocked then .wakened else s.workerAt k
      signalAt := .unlockingSem }
  | .unlockingSem => some { s.unlock .sem with signalAt := .unlocking }
  | .unlocking => some { s.unlock .queue with signalAt := .locking }

def mutexOf : WorkerPc → Option Mutex
  | .waiting => some .sem
  | .woken => some .threadCnt
  | .counted => some .queue
  | .leaving => some .threadCnt
  | _ => none

def workerStep (s : LockedPool) (k : Fin thrNum) : Option LockedPool :=
  match s.workerAt k with
  | .outside => match mutexOf (s.pool.workers k) with
    | some m => (s.lock (.worker k) m).map fun s => s.put k (.inside m)
    | none => (threadFunc s.pool k).map fun pool => { s with pool }
  | .inside m =>
    if s.pool.workers k = .waiting ∧ s.pool.taskCheck k ≠ 1 then some ((s.unlock m).put k .blocked)
    else (threadFunc s.pool k).map fun pool => { s.put k (.unlocking m) with pool }
  | .unlocking m => some ((s.unlock m).put k .outside)
  | .blocked => none
  | .wakened => (s.lock (.worker k) .sem).map fun s => s.put k (.inside .sem)

def spuriousWakeUp (s : LockedPool) (k : Fin thrNum) : Option LockedPool :=
  match s.workerAt k with
  | .blocked => some (s.put k .wakened)
  | _ => none

def LockedPool.step (s : LockedPool) (e : LockEvent) : Option LockedPool :=
  if s.pool.fault then none
  else match e with
    | .mallocInfo a clntInfo => prepares s (.mallocInfo a clntInfo)
    | .mallocTask a stale funcPtr => prepares s (.mallocTask a stale funcPtr)
    | .mallocFails => prepares s .mallocFails
    | .main => mainStep s
    | .signal => signalStep s
    | .worker k => workerStep s k
    | .spurious k => spuriousWakeUp s k

structure LockedPool.Starts (s : LockedPool) : Prop where
  pool : s.pool = threadPoolInit
  mainAt : s.mainAt = .outside
  signalAt : s.signalAt = .locking
  -- the last worker may still have the mutex of `numActiveThreads++`
  workers : (s.workerAt = fun _ => .outside) ∧ (s.owner = fun _ => none) ∨ ∃ last,
    s.workerAt = Function.update (fun _ => .outside) last (.unlocking .threadCnt) ∧
      s.owner = Function.update (fun _ => none) .threadCnt (some (.worker last))

def lockedPool : System LockedPool LockEvent where
  init := LockedPool.Starts
  step := LockedPool.step

def LockedPool.load (s : LockedPool) : Nat :=
  -- The tasks queued, and the one whose `enqueueTask` has the queue.
  match s.mainAt with
  | .inside => s.pool.backlog + 1
  | _ => s.pool.backlog

def Roomy (_ : LockedPool) (_ : LockEvent) (s' : LockedPool) : Prop := s'.load < uintSize

instance (s : LockedPool) (e : LockEvent) (s' : LockedPool) : Decidable (Roomy s e s') :=
  inferInstanceAs (Decidable (_ < uintSize))

theorem LockedPool.backlog_le_load (s : LockedPool) : s.pool.backlog ≤ s.load := by
  cases point : s.mainAt <;> simp [LockedPool.load, point]

def PoolEvent.Prepares : PoolEvent → Prop
  | .mallocInfo _ _ => True
  | .mallocTask _ _ _ => True
  | .mallocFails => True
  | _ => False

inductive LockedPool.Moves (s : LockedPool) : LockedPool → Prop where
  | prepares (e : PoolEvent) (pool : PoolState) (kind : e.Prepares) (point : s.mainAt = .outside)
      (stepped : poolStep s.pool e = some pool) : s.Moves { s with pool }
  | mainLocks (newTask : Addr) (point : s.mainAt = .outside) (ready : s.pool.main = .taskReady newTask)
      (free : s.owner .queue = none) :
      s.Moves { s with owner := Function.update s.owner .queue (some .main), mainAt := .inside }
  | enqueues (pool : PoolState) (point : s.mainAt = .inside) (stepped : poolStep s.pool .enqueue = some pool) :
      s.Moves { s with pool, mainAt := .unlocking }
  | mainUnlocks (point : s.mainAt = .unlocking) : s.Moves { s.unlock .queue with mainAt := .outside }
  | signalLocks (point : s.signalAt = .locking) (free : s.owner .queue = none) :
      s.Moves { s with owner := Function.update s.owner .queue (some .signal), signalAt := .checking }
  | finds (id : Fin thrNum) (point : s.signalAt = .checking) (nonempty : s.pool.taskQ.len ≠ 0)
      (head : headAssigned s.pool.heap s.pool.taskQ = some id.val) : s.Moves { s with signalAt := .posting id }
  | passes (point : s.signalAt = .checking) (empty : s.pool.taskQ.len = 0) : s.Moves { s with signalAt := .unlocking }
  | crashes (point : s.signalAt = .checking) (stepped : poolStep s.pool .signal = some s.pool.crash) :
      s.Moves { s with pool := s.pool.crash }
  | semLocks (id : Fin thrNum) (point : s.signalAt = .posting id) (free : s.owner .sem = none) :
      s.Moves { s with owner := Function.update s.owner .sem (some .signal), signalAt := .storing id }
  | stores (id : Fin thrNum) (point : s.signalAt = .storing id) :
      s.Moves { s with pool := { s.pool with taskCheck := bSemPost id }, signalAt := .broadcasting id }
  | broadcasts (id : Fin thrNum) (point : s.signalAt = .broadcasting id) :
      s.Moves { s with
        workerAt := fun k => if s.workerAt k = .blocked then .wakened else s.workerAt k
        signalAt := .unlockingSem }
  | semUnlocks (point : s.signalAt = .unlockingSem) : s.Moves { s.unlock .sem with signalAt := .unlocking }
  | signalUnlocks (point : s.signalAt = .unlocking) : s.Moves { s.unlock .queue with signalAt := .locking }
  | locks (k : Fin thrNum) (m : Mutex) (free : s.owner m = none)
      (point : s.workerAt k = .outside ∧ mutexOf (s.pool.workers k) = some m ∨ s.workerAt k = .wakened ∧ m = .sem) :
      s.Moves { s.put k (.inside m) with owner := Function.update s.owner m (some (.worker k)) }
  | runs (k : Fin thrNum) (pool : PoolState) (point : s.workerAt k = .outside)
      (need : mutexOf (s.pool.workers k) = none) (stepped : poolStep s.pool (.worker k) = some pool) :
      s.Moves { s with pool }
  | blocks (k : Fin thrNum) (m : Mutex) (point : s.workerAt k = .inside m) (pc : s.pool.workers k = .waiting)
      (other : s.pool.taskCheck k ≠ 1) : s.Moves ((s.unlock m).put k .blocked)
  | acts (k : Fin thrNum) (m : Mutex) (pool : PoolState) (point : s.workerAt k = .inside m)
      (stepped : poolStep s.pool (.worker k) = some pool) : s.Moves { s.put k (.unlocking m) with pool }
  | unlocks (k : Fin thrNum) (m : Mutex) (point : s.workerAt k = .unlocking m) :
      s.Moves ((s.unlock m).put k .outside)
  | wakes (k : Fin thrNum) (point : s.workerAt k = .blocked) : s.Moves (s.put k .wakened)

theorem lock_some {s s' : LockedPool} {t : Thread} {m : Mutex} (locked : s.lock t m = some s') :
    s.owner m = none ∧ s' = { s with owner := Function.update s.owner m (some t) } := by
  simp only [LockedPool.lock] at locked
  split_ifs at locked with free
  exact ⟨free, (Option.some.inj locked).symm⟩

section Inversion

variable {s s' : LockedPool}

theorem prepares_moves {e : PoolEvent} (kind : e.Prepares) (stepped : prepares s e = some s') : s.Moves s' := by
  simp only [prepares] at stepped
  split at stepped
  next point =>
    obtain ⟨pool, moved, rfl⟩ := Option.map_eq_some_iff.mp stepped
    exact .prepares e pool kind point moved
  next => cases stepped

theorem mainStep_moves (safe : s.pool.fault = false) (stepped : mainStep s = some s') : s.Moves s' := by
  simp only [mainStep] at stepped
  split at stepped
  next newTask point ready =>
    obtain ⟨locked, moved, rfl⟩ := Option.map_eq_some_iff.mp stepped
    obtain ⟨free, rfl⟩ := lock_some moved
    exact .mainLocks newTask point ready free
  next point =>
    obtain ⟨pool, moved, rfl⟩ := Option.map_eq_some_iff.mp stepped
    exact .enqueues pool point (by simpa [poolStep, safe] using moved)
  next point =>
    obtain rfl := Option.some.inj stepped
    exact .mainUnlocks point
  next => cases stepped

theorem signalStep_moves (safe : s.pool.fault = false) (stepped : signalStep s = some s') : s.Moves s' := by
  simp only [signalStep] at stepped
  split at stepped
  next point =>
    obtain ⟨locked, moved, rfl⟩ := Option.map_eq_some_iff.mp stepped
    obtain ⟨free, rfl⟩ := lock_some moved
    exact .signalLocks point free
  next point =>
    split_ifs at stepped with empty
    · obtain rfl := Option.some.inj stepped
      exact .passes point empty
    · split at stepped
      next missing =>
        obtain rfl := Option.some.inj stepped
        exact .crashes point (by simp [poolStep, safe, signalThreadFunc, empty, missing])
      next id head =>
        split_ifs at stepped with inside
        · obtain rfl := Option.some.inj stepped
          exact .finds ⟨id, inside⟩ point empty head
        · obtain rfl := Option.some.inj stepped
          exact .crashes point (by simp [poolStep, safe, signalThreadFunc, empty, head, inside])
  next id point =>
    obtain ⟨locked, moved, rfl⟩ := Option.map_eq_some_iff.mp stepped
    obtain ⟨free, rfl⟩ := lock_some moved
    exact .semLocks id point free
  next id point =>
    obtain rfl := Option.some.inj stepped
    exact .stores id point
  next id point =>
    obtain rfl := Option.some.inj stepped
    exact .broadcasts id point
  next point =>
    obtain rfl := Option.some.inj stepped
    exact .semUnlocks point
  next point =>
    obtain rfl := Option.some.inj stepped
    exact .signalUnlocks point

theorem workerStep_moves (safe : s.pool.fault = false) {k : Fin thrNum} (stepped : workerStep s k = some s') :
    s.Moves s' := by
  simp only [workerStep] at stepped
  split at stepped
  next point =>
    split at stepped
    next m need =>
      obtain ⟨locked, moved, rfl⟩ := Option.map_eq_some_iff.mp stepped
      obtain ⟨free, rfl⟩ := lock_some moved
      exact .locks k m free (.inl ⟨point, need⟩)
    next need =>
      obtain ⟨pool, moved, rfl⟩ := Option.map_eq_some_iff.mp stepped
      exact .runs k pool point need (by simpa [poolStep, safe] using moved)
  next m point =>
    split_ifs at stepped with waits
    · obtain rfl := Option.some.inj stepped
      exact .blocks k m point waits.1 waits.2
    · obtain ⟨pool, moved, rfl⟩ := Option.map_eq_some_iff.mp stepped
      exact .acts k m pool point (by simpa [poolStep, safe] using moved)
  next m point =>
    obtain rfl := Option.some.inj stepped
    exact .unlocks k m point
  next => cases stepped
  next point =>
    obtain ⟨locked, moved, rfl⟩ := Option.map_eq_some_iff.mp stepped
    obtain ⟨free, rfl⟩ := lock_some moved
    exact .locks k .sem free (.inr ⟨point, rfl⟩)

theorem LockedPool.step_moves {e : LockEvent} (stepped : s.step e = some s') : s.Moves s' := by
  simp only [LockedPool.step] at stepped
  split_ifs at stepped with fault
  have safe : s.pool.fault = false := by simpa using fault
  cases e with
  | mallocInfo | mallocTask | mallocFails => exact prepares_moves (by exact trivial) stepped
  | main => exact mainStep_moves safe stepped
  | signal => exact signalStep_moves safe stepped
  | worker k => exact workerStep_moves safe stepped
  | spurious k =>
    simp only [spuriousWakeUp] at stepped
    split at stepped
    next point =>
      obtain rfl := Option.some.inj stepped
      exact .wakes k point
    next => cases stepped

end Inversion

def MainAt.Has : MainAt → Mutex → Prop
  | .outside, _ => False
  | _, m => m = .queue

def SignalAt.Has : SignalAt → Mutex → Prop
  | .locking, _ => False
  | .checking, m => m = .queue
  | .posting _, m => m = .queue
  | .unlocking, m => m = .queue
  | _, m => m = .queue ∨ m = .sem

def WorkerAt.Has : WorkerAt → Mutex → Prop
  | .inside m, m' => m' = m
  | .unlocking m, m' => m' = m
  | _, _ => False

def LockedPool.Has (s : LockedPool) : Thread → Mutex → Prop
  | .main => s.mainAt.Has
  | .signal => s.signalAt.Has
  | .worker k => (s.workerAt k).Has

def SignalAt.posts : SignalAt → Option (Fin thrNum)
  | .posting id => some id
  | .storing id => some id
  | .broadcasting id => some id
  | _ => none

def LockedPool.Asleep (s : LockedPool) : Prop :=
  ∀ k, s.workerAt k = .blocked ∨ s.workerAt k = .wakened → s.pool.workers k = .waiting

inductive LockedPool.Effect (s s' : LockedPool) : Prop where
  | same (pool : s'.pool = s.pool)
      (posts : s.pool.taskQ.len = 0 → s.signalAt.posts = none → s'.signalAt.posts = none)
  | steps (e : PoolEvent) (signalAt : s'.signalAt = s.signalAt) (stepped : poolStep s.pool e = some s'.pool)
  | posts (id : Fin thrNum) (here : s.signalAt.posts = some id)
      (pool : s'.pool = { s.pool with taskCheck := bSemPost id })

theorem LockedPool.Moves.effect {s s' : LockedPool} (moves : s.Moves s') : s.Effect s' := by
  cases moves with
  | prepares e pool kind point stepped => exact .steps e rfl stepped
  | enqueues pool point stepped => exact .steps .enqueue rfl stepped
  | crashes point stepped => exact .steps .signal rfl stepped
  | runs k pool point need stepped => exact .steps (.worker k) rfl stepped
  | acts k m pool point stepped => exact .steps (.worker k) rfl stepped
  | finds id point nonempty head => exact .same rfl fun empty => absurd empty nonempty
  | stores id point => exact .posts id (by rw [point]; rfl) rfl
  | semLocks id point free => exact .same rfl fun _ unposted => by simp [point, SignalAt.posts] at unposted
  | signalLocks | passes | broadcasts | semUnlocks | signalUnlocks => exact .same rfl fun _ _ => rfl
  | _ => exact .same rfl fun _ unposted => unposted

structure LockedPool.Locked (s : LockedPool) : Prop where
  owned : Owned s.owner s.Has
  inside : ∀ k m, s.workerAt k = .inside m → mutexOf (s.pool.workers k) = some m
  asleep : s.Asleep
  enqueueing : s.mainAt = .inside → ∃ newTask, s.pool.main = .taskReady newTask
  -- The post is for the head as long as the signal thread has the queue.
  posts : ∀ id, s.signalAt.posts = some id → s.pool.taskQ.len ≠ 0 ∧ s.pool.NextFor id
  posted : ∀ id, s.signalAt = .broadcasting id → s.pool.taskCheck id = 1

structure QueueKept (s s' : PoolState) : Prop where
  len : s'.taskQ.len = s.taskQ.len
  line : queued s'.heap s'.taskQ = queued s.heap s.taskQ
  infos : ∀ a ∈ queued s.heap s.taskQ, infoOf s'.heap a = infoOf s.heap a

section Kept

variable {s s' : PoolState}

theorem QueueKept.next (kept : QueueKept s s') (sound : s.Sound) (sound' : s'.Sound) {k : Fin thrNum}
    (next : s.NextFor k) : s'.NextFor k := by
  rw [sound'.next_iff, kept.line]
  intro a rest front
  rw [assignedTo_congr (kept.infos a (by simp [front]))]
  exact (sound.next_iff k).mp next a rest front

theorem QueueKept.of_allocate {a : Addr} {o : Object} (sound : s.Sound) (free : s.heap a = none)
    (heap : s'.heap = Function.update s.heap a (some o)) (taskQ : s'.taskQ = s.taskQ) : QueueKept s s' := by
  refine ⟨by rw [taskQ], ?_, fun b member => ?_⟩
  · rw [heap, taskQ]
    exact (sound.rep_allocate free _).queued_eq
  · rw [heap]
    exact infoOf_allocate sound free _ (o := .queue) member rfl

theorem prepares_kept {e : PoolEvent} (sound : s.Sound) (kind : e.Prepares) (stepped : poolStep s e = some s') :
    QueueKept s s' ∧ s'.workers = s.workers ∧ s'.taskCheck = s.taskCheck := by
  simp only [poolStep, sound.safe, Bool.false_eq_true, if_false] at stepped
  cases e with
  | mallocInfo a clntInfo =>
    obtain ⟨free, -, rfl⟩ := mallocInfo_cases stepped
    exact ⟨.of_allocate sound free rfl rfl, rfl, rfl⟩
  | mallocTask a stale funcPtr =>
    obtain ⟨free, clntInfo, -, rfl⟩ := mallocTask_cases stepped
    exact ⟨.of_allocate sound free rfl rfl, rfl, rfl⟩
  | mallocFails =>
    obtain rfl := mallocFails_cases stepped
    exact ⟨⟨rfl, rfl, fun _ _ => rfl⟩, rfl, rfl⟩
  | enqueue | signal | worker => cases kind

theorem WorkerStep.kept {k : Fin thrNum} {pc : WorkerPc} (moved : WorkerStep s k s' pc) (sound : s.Sound)
    (quiet : s.workers k ≠ .counted) : QueueKept s s' :=
  ⟨by rw [moved.taskQ quiet], moved.line sound quiet,
    fun a member => moved.infos sound (o := .queue) member rfl (by simp)⟩

theorem threadFunc_taskCheck {k : Fin thrNum} (sound : s.Sound) (stepped : threadFunc s k = some s') :
    s'.taskCheck = if s.workers k = .waiting then Function.update s.taskCheck k 0 else s.taskCheck := by
  rcases threadFunc_follows stepped with rfl | ⟨pc, moved⟩
  · cases (threadFunc_sound sound stepped).safe
  · exact moved.taskCheck

theorem poolStep_worker {k : Fin thrNum} (safe : s.fault = false) (stepped : poolStep s (.worker k) = some s') :
    threadFunc s k = some s' := by
  simpa [poolStep, safe] using stepped

end Kept

section Locked

variable {s s' : LockedPool}

theorem has_put (s : LockedPool) (k : Fin thrNum) (point : WorkerAt) (owner : Mutex → Option Thread) :
    ({ s.put k point with owner } : LockedPool).Has = Function.update s.Has (.worker k) point.Has := by
  funext t
  cases t with
  | main | signal => simp [LockedPool.Has, LockedPool.put]
  | worker j =>
    by_cases own : j = k
    · subst own
      simp [LockedPool.Has, LockedPool.put]
    · simp [LockedPool.Has, LockedPool.put, own]

theorem LockedPool.Locked.put (locked : s.Locked) {owner : Mutex → Option Thread} {k : Fin thrNum} {point : WorkerAt}
    (owned : Owned owner (Function.update s.Has (.worker k) point.Has))
    (inside : ∀ m, point = .inside m → mutexOf (s.pool.workers k) = some m)
    (asleep : point = .blocked ∨ point = .wakened → s.pool.workers k = .waiting) :
    LockedPool.Locked { s.put k point with owner } := by
  refine ⟨by rwa [has_put], fun j m here => ?_, fun j here => ?_, locked.enqueueing, locked.posts, locked.posted⟩
  · by_cases own : j = k
    · subst own
      exact inside m (by simpa [LockedPool.put] using here)
    · exact locked.inside j m (by simpa [LockedPool.put, own] using here)
  · by_cases own : j = k
    · subst own
      exact asleep (by simpa [LockedPool.put] using here)
    · exact locked.asleep j (by simpa [LockedPool.put, own] using here)

theorem LockedPool.Locked.takes (locked : s.Locked) {k : Fin thrNum} {m : Mutex} (free : s.owner m = none)
    (nothing : ∀ m', ¬ (s.workerAt k).Has m') (need : mutexOf (s.pool.workers k) = some m) :
    LockedPool.Locked { s.put k (.inside m) with owner := Function.update s.owner m (some (.worker k)) } := by
  have added : ∀ m', (WorkerAt.inside m).Has m' ↔ s.Has (.worker k) m' ∨ m' = m := fun m' =>
    (or_iff_right (nothing m')).symm
  refine locked.put (locked.owned.takes free added) (fun m' same => ?_) (by simp)
  obtain rfl := WorkerAt.inside.inj same
  exact need

theorem LockedPool.Locked.gives (locked : s.Locked) {k : Fin thrNum} {m : Mutex} {point : WorkerAt}
    (own : ∀ m', (s.workerAt k).Has m' ↔ m' = m) (nothing : ∀ m', ¬ point.Has m')
    (asleep : point = .blocked ∨ point = .wakened → s.pool.workers k = .waiting) :
    ((s.unlock m).put k point).Locked := by
  have had : s.Has (.worker k) m := (own m).mpr rfl
  have removed : ∀ m', point.Has m' ↔ s.Has (.worker k) m' ∧ m' ≠ m := fun m' => by
    simp [LockedPool.Has, nothing, own]
  refine locked.put (locked.owned.gives had removed) (fun m' same => ?_) asleep
  subst same
  exact absurd rfl (nothing m')

theorem LockedPool.Locked.stays (locked : s.Locked) {k : Fin thrNum} {point : WorkerAt}
    (same : ∀ m, point.Has m ↔ (s.workerAt k).Has m) (away : ∀ m, point ≠ .inside m)
    (asleep : point = .blocked ∨ point = .wakened → s.pool.workers k = .waiting) : (s.put k point).Locked :=
  locked.put (locked.owned.keeps same) (fun m here => absurd here (away m)) asleep

theorem has_queue {id : Fin thrNum} (here : s.signalAt.posts = some id) : s.Has .signal .queue := by
  cases pc : s.signalAt with
  | posting | storing | broadcasting => simp [LockedPool.Has, pc, SignalAt.Has]
  | _ => simp [pc, SignalAt.posts] at here

theorem LockedPool.Locked.worker (locked : s.Locked) (sound : s.pool.Sound) {pool : PoolState} (sound' : pool.Sound)
    {k : Fin thrNum} (away : ∀ m, s.workerAt k ≠ .inside m) (awake : s.workerAt k ≠ .blocked ∧ s.workerAt k ≠ .wakened)
    (mine : ∀ m, mutexOf (s.pool.workers k) = some m → s.Has (.worker k) m)
    (stepped : threadFunc s.pool k = some pool) : LockedPool.Locked { s with pool } := by
  obtain ⟨pc, moved⟩ := threadFunc_step sound stepped
  have others : ∀ j, j ≠ k → pool.workers j = s.pool.workers j := fun j other => by simp [moved.workers, other]
  refine ⟨locked.owned, fun j m here => ?_, fun j here => ?_, fun here => ?_, fun id here => ?_, fun id here => ?_⟩
  · have other : j ≠ k := by
      rintro rfl
      exact away m here
    rw [others j other]
    exact locked.inside j m here
  · have other : j ≠ k := by
      rintro rfl
      exact here.elim awake.1 awake.2
    rw [others j other]
    exact locked.asleep j here
  · rw [moved.main]
    exact locked.enqueueing here
  · -- The signal thread has the queue, so the worker does not dequeue.
    have quiet : s.pool.workers k ≠ .counted := by
      intro counted
      cases locked.owned.one (has_queue here) (mine .queue (by rw [counted]; rfl))
    have kept := moved.kept sound quiet
    obtain ⟨nonempty, next⟩ := locked.posts id here
    exact ⟨by rw [kept.len]; exact nonempty, kept.next sound sound' next⟩
  · have quiet : s.pool.workers k ≠ .waiting := by
      intro waiting
      have here' : s.signalAt = .broadcasting id := here
      have signal : s.Has .signal .sem := by simp [LockedPool.Has, here', SignalAt.Has]
      cases locked.owned.one signal (mine .sem (by rw [waiting]; rfl))
    rw [threadFunc_taskCheck sound stepped, if_neg quiet]
    exact locked.posted id here

theorem has_main (s : LockedPool) (point : MainAt) (owner : Mutex → Option Thread) :
    ({ s with owner, mainAt := point } : LockedPool).Has = Function.update s.Has .main point.Has := by
  funext t
  cases t <;> simp [LockedPool.Has]

theorem LockedPool.Locked.main (locked : s.Locked) {owner : Mutex → Option Thread} {point : MainAt}
    (owned : Owned owner (Function.update s.Has .main point.Has))
    (enqueueing : point = .inside → ∃ newTask, s.pool.main = .taskReady newTask) :
    LockedPool.Locked { s with owner, mainAt := point } :=
  ⟨by rwa [has_main], locked.inside, locked.asleep, enqueueing, locked.posts, locked.posted⟩

theorem has_signal (s : LockedPool) (point : SignalAt) (owner : Mutex → Option Thread) :
    ({ s with owner, signalAt := point } : LockedPool).Has = Function.update s.Has .signal point.Has := by
  funext t
  cases t <;> simp [LockedPool.Has]

theorem LockedPool.Locked.signal (locked : s.Locked) {owner : Mutex → Option Thread} {point : SignalAt}
    (owned : Owned owner (Function.update s.Has .signal point.Has))
    (posts : ∀ id, point.posts = some id → s.pool.taskQ.len ≠ 0 ∧ s.pool.NextFor id)
    (posted : ∀ id, point ≠ .broadcasting id) : LockedPool.Locked { s with owner, signalAt := point } :=
  ⟨by rwa [has_signal], locked.inside, locked.asleep, locked.enqueueing, posts,
    fun id here => absurd here (posted id)⟩

theorem LockedPool.Locked.prepares (locked : s.Locked) {pool : PoolState} (sound : s.pool.Sound) (sound' : pool.Sound)
    {e : PoolEvent} (kind : e.Prepares) (point : s.mainAt = .outside) (stepped : poolStep s.pool e = some pool) :
    LockedPool.Locked { s with pool } := by
  obtain ⟨kept, workers, taskCheck⟩ := prepares_kept sound kind stepped
  refine ⟨locked.owned, fun k m here => ?_, fun k here => ?_, fun here => ?_, fun id here => ?_, fun id here => ?_⟩
  · rw [workers]
    exact locked.inside k m here
  · rw [workers]
    exact locked.asleep k here
  · rw [point] at here
    cases here
  · obtain ⟨nonempty, next⟩ := locked.posts id here
    exact ⟨by rw [kept.len]; exact nonempty, kept.next sound sound' next⟩
  · rw [taskCheck]
    exact locked.posted id here

theorem LockedPool.Locked.enqueues (locked : s.Locked) {pool : PoolState} (sound : s.pool.Sound)
    (room : (queued s.pool.heap s.pool.taskQ).length + 1 < uintSize) (point : s.mainAt = .inside)
    (ran : enqueue s.pool = some pool) : LockedPool.Locked { s with pool, mainAt := .unlocking } := by
  obtain ⟨-, -, -, workers, -, taskCheck, -⟩ := enqueue_cases sound room ran
  refine ⟨locked.owned.same fun t m => ?_, fun k m here => ?_, fun k here => ?_, by simp, fun id here => ?_,
    fun id here => ?_⟩
  · cases t <;> simp [LockedPool.Has, point, MainAt.Has]
  · rw [workers]
    exact locked.inside k m here
  · rw [workers]
    exact locked.asleep k here
  · -- The signal thread would have the queue as well.
    have main : s.Has .main .queue := by simp [LockedPool.Has, point, MainAt.Has]
    cases locked.owned.one main (has_queue here)
  · rw [taskCheck]
    exact locked.posted id here

theorem LockedPool.Locked.broadcasts (locked : s.Locked) {id : Fin thrNum} (point : s.signalAt = .broadcasting id) :
    LockedPool.Locked { s with
      workerAt := fun k => if s.workerAt k = .blocked then .wakened else s.workerAt k
      signalAt := .unlockingSem } := by
  refine ⟨locked.owned.same fun t m => ?_, fun k m here => ?_, fun k here => ?_, locked.enqueueing,
    by simp [SignalAt.posts], by simp⟩
  · cases t with
    | main => rfl
    | signal => simp [LockedPool.Has, point, SignalAt.Has]
    | worker k => by_cases waits : s.workerAt k = .blocked <;> simp [LockedPool.Has, waits, WorkerAt.Has]
  · by_cases waits : s.workerAt k = .blocked
    · simp [waits] at here
    · exact locked.inside k m (by simpa [waits] using here)
  · by_cases waits : s.workerAt k = .blocked
    · exact locked.asleep k (.inl waits)
    · exact locked.asleep k (by simpa [waits] using here)

theorem LockedPool.Moves.locked (moves : s.Moves s') (locked : s.Locked) (tracked : s.pool.Tracked)
    (sound' : s'.pool.Sound) (room : s.load < uintSize) : s'.Locked := by
  have owned := locked.owned
  have sound := tracked.sound
  cases moves with
  | prepares e pool kind point stepped => exact locked.prepares sound sound' kind point stepped
  | mainLocks newTask point ready free =>
    have added : ∀ m, MainAt.inside.Has m ↔ s.Has .main m ∨ m = .queue := by simp [LockedPool.Has, point, MainAt.Has]
    exact locked.main (owned.takes free added) fun _ => ⟨newTask, ready⟩
  | enqueues pool point stepped =>
    have fits : (queued s.pool.heap s.pool.taskQ).length + 1 < uintSize := by
      rw [← tracked.backlog]
      simpa [LockedPool.load, point] using room
    exact locked.enqueues sound fits point (by simpa [poolStep, sound.safe] using stepped)
  | mainUnlocks point =>
    have had : s.Has .main .queue := by simp [LockedPool.Has, point, MainAt.Has]
    have removed : ∀ m, MainAt.outside.Has m ↔ s.Has .main m ∧ m ≠ .queue := by simp [LockedPool.Has, point, MainAt.Has]
    exact locked.main (owned.gives had removed) (by simp)
  | signalLocks point free =>
    have added : ∀ m, SignalAt.checking.Has m ↔ s.Has .signal m ∨ m = .queue := by
      simp [LockedPool.Has, point, SignalAt.Has]
    exact locked.signal (owned.takes free added) (by simp [SignalAt.posts]) (by simp)
  | finds id point nonempty head =>
    have same : ∀ m, (SignalAt.posting id).Has m ↔ s.Has .signal m := by simp [LockedPool.Has, point, SignalAt.Has]
    refine locked.signal (owned.keeps same) (fun id' here => ?_) (by simp)
    obtain rfl : id = id' := Option.some.inj here
    exact ⟨nonempty, .inr head⟩
  | passes point empty =>
    have same : ∀ m, SignalAt.unlocking.Has m ↔ s.Has .signal m := by simp [LockedPool.Has, point, SignalAt.Has]
    exact locked.signal (owned.keeps same) (by simp [SignalAt.posts]) (by simp)
  | crashes point stepped => cases sound'.safe
  | semLocks id point free =>
    have added : ∀ m, (SignalAt.storing id).Has m ↔ s.Has .signal m ∨ m = .sem := by
      simp [LockedPool.Has, point, SignalAt.Has]
    refine locked.signal (owned.takes free added) (fun id' here => ?_) (by simp)
    exact locked.posts id' (by rw [point]; exact here)
  | stores id point =>
    refine ⟨owned.same fun t m => ?_, locked.inside, locked.asleep, locked.enqueueing, fun id' same => ?_,
      fun id' same => ?_⟩
    · cases t <;> simp [LockedPool.Has, point, SignalAt.Has]
    · exact locked.posts id' (by rw [point]; exact same)
    · obtain rfl := SignalAt.broadcasting.inj same
      simp [bSemPost]
  | broadcasts id point => exact locked.broadcasts point
  | semUnlocks point =>
    have had : s.Has .signal .sem := by simp [LockedPool.Has, point, SignalAt.Has]
    have removed : ∀ m, SignalAt.unlocking.Has m ↔ s.Has .signal m ∧ m ≠ .sem := fun m => by
      cases m <;> simp [LockedPool.Has, point, SignalAt.Has]
    exact locked.signal (owned.gives had removed) (by simp [SignalAt.posts]) (by simp)
  | signalUnlocks point =>
    have had : s.Has .signal .queue := by simp [LockedPool.Has, point, SignalAt.Has]
    have removed : ∀ m, SignalAt.locking.Has m ↔ s.Has .signal m ∧ m ≠ .queue := by
      simp [LockedPool.Has, point, SignalAt.Has]
    exact locked.signal (owned.gives had removed) (by simp [SignalAt.posts]) (by simp)
  | locks k m free point =>
    rcases point with ⟨point, need⟩ | ⟨point, rfl⟩
    · exact locked.takes free (by simp [point, WorkerAt.Has]) need
    · have need : mutexOf (s.pool.workers k) = some .sem := by
        rw [locked.asleep k (.inr point)]
        rfl
      exact locked.takes free (by simp [point, WorkerAt.Has]) need
  | runs k pool point need stepped =>
    exact locked.worker sound sound' (by simp [point]) (by simp [point]) (by simp [need])
      (poolStep_worker sound.safe stepped)
  | blocks k m point pc other =>
    exact locked.gives (by simp [point, WorkerAt.Has]) (by simp [WorkerAt.Has]) fun _ => pc
  | acts k m pool point stepped =>
    have need := locked.inside k m point
    have before : (s.put k (.unlocking m)).Locked :=
      locked.stays (by simp [point, WorkerAt.Has]) (by simp) (by simp)
    refine before.worker sound sound' (k := k) (by simp [LockedPool.put]) (by simp [LockedPool.put]) (fun m' mine => ?_)
      (poolStep_worker sound.safe stepped)
    obtain rfl : m = m' := Option.some.inj (need.symm.trans mine)
    simp [LockedPool.Has, LockedPool.put, WorkerAt.Has]
  | unlocks k m point => exact locked.gives (by simp [point, WorkerAt.Has]) (by simp [WorkerAt.Has]) (by simp)
  | wakes k point => exact locked.stays (by simp [point, WorkerAt.Has]) (by simp) fun _ => locked.asleep k (.inl point)

theorem LockedPool.Moves.pool (moves : s.Moves s') (locked : s.Locked) (sound : s.pool.Sound) :
    s'.pool = s.pool ∨ ∃ e, NetProg.P3.pool.step s.pool e = some s'.pool := by
  cases moves.effect with
  | same pool => exact .inl pool
  | steps e _ stepped => exact .inr ⟨e, stepped⟩
  | posts id here pool =>
    obtain ⟨nonempty, next⟩ := locked.posts id here
    have head := next.resolve_left nonempty
    refine .inr ⟨.signal, ?_⟩
    simp [NetProg.P3.pool, poolStep, sound.safe, signalThreadFunc, nonempty, head, pool]

end Locked

structure LockedPool.Tracked (s : LockedPool) : Prop where
  pool : NetProg.P3.pool.ReachableWhile Counted s.pool
  locked : s.Locked
  room : s.load < uintSize

theorem LockedPool.Starts.tracked {s : LockedPool} (starts : s.Starts) : s.Tracked := by
  have pool := starts.pool
  refine ⟨pool ▸ .initial _ rfl, ?_, by simp only [LockedPool.load, starts.mainAt, pool]; decide⟩
  rcases starts.workers with ⟨workers, owner⟩ | ⟨last, workers, owner⟩
  · refine ⟨fun t m => ?_, by simp [workers], by simp [LockedPool.Asleep, workers], by simp [starts.mainAt],
      by simp [starts.signalAt, SignalAt.posts], by simp [starts.signalAt]⟩
    cases t <;> simp [LockedPool.Has, owner, workers, starts.mainAt, starts.signalAt, MainAt.Has, SignalAt.Has,
      WorkerAt.Has]
  · refine ⟨fun t m => ?_, fun k m here => ?_, fun k here => ?_, by simp [starts.mainAt],
      by simp [starts.signalAt, SignalAt.posts], by simp [starts.signalAt]⟩
    · rw [owner]
      cases t with
      | main => cases m <;> simp [LockedPool.Has, starts.mainAt, MainAt.Has]
      | signal => cases m <;> simp [LockedPool.Has, starts.signalAt, SignalAt.Has]
      | worker k =>
        by_cases own : k = last
        · subst own
          cases m <;> simp [LockedPool.Has, workers, WorkerAt.Has]
        · cases m <;> simp [LockedPool.Has, workers, WorkerAt.Has, own, Ne.symm own]
    · by_cases own : k = last <;> simp [workers, own] at here
    · by_cases own : k = last <;> simp [workers, own] at here

theorem LockedPool.Tracked.step {s s' : LockedPool} {e : LockEvent} (tracked : s.Tracked) (roomy : Roomy s e s')
    (stepped : s.step e = some s') : s'.Tracked := by
  have known := reachable_tracked tracked.pool
  have moves := LockedPool.step_moves stepped
  have pool : NetProg.P3.pool.ReachableWhile Counted s'.pool := by
    rcases moves.pool tracked.locked known.sound with same | ⟨e, moved⟩
    · rw [same]
      exact tracked.pool
    · have counted : s'.pool.backlog < uintSize := lt_of_le_of_lt s'.backlog_le_load roomy
      exact .next _ e _ tracked.pool counted moved
  exact ⟨pool, moves.locked tracked.locked known (reachable_tracked pool).sound tracked.room, roomy⟩

theorem locked_tracked {s : LockedPool} (reached : lockedPool.ReachableWhile Roomy s) : s.Tracked := by
  apply reached.invariant
  · exact fun _ starts => LockedPool.Starts.tracked starts
  · exact fun _ _ _ _ tracked roomy stepped => tracked.step roomy stepped

def PoolState.unlocked (p : PoolState) : LockedPool where
  pool := p
  mainAt := .outside
  signalAt := .locking
  workerAt := fun _ => .outside
  owner := fun _ => none

section Sections

variable {p p' : PoolState}

theorem main_section (safe : p.fault = false) (safe' : p'.fault = false) (stepped : enqueue p = some p') :
    lockedPool.exec p.unlocked [.main, .main, .main] = some p'.unlocked := by
  obtain ⟨newTask, ready⟩ : ∃ newTask, p.main = .taskReady newTask := by
    rcases enqueue_shape stepped with rfl | ⟨newTask, heap, taskQ, ready, -⟩
    · cases safe'
    · exact ⟨newTask, ready⟩
  simp [System.exec, lockedPool, LockedPool.step, PoolState.unlocked, mainStep, LockedPool.lock, LockedPool.unlock, safe,
    safe', ready, stepped]

theorem signal_section (safe : p.fault = false) (safe' : (signalThreadFunc p).fault = false) :
    ∃ events, lockedPool.exec p.unlocked events = some (signalThreadFunc p).unlocked := by
  by_cases empty : p.taskQ.len = 0
  · refine ⟨[.signal, .signal, .signal], ?_⟩
    simp [System.exec, lockedPool, LockedPool.step, PoolState.unlocked, signalStep, LockedPool.lock, LockedPool.unlock,
      safe, empty, signalThreadFunc]
  cases head : headAssigned p.heap p.taskQ with
  | none => simp [signalThreadFunc, empty, head, PoolState.crash] at safe'
  | some id =>
    by_cases inside : id < thrNum
    · refine ⟨List.replicate 7 .signal, ?_⟩
      simp [List.replicate, System.exec, lockedPool, LockedPool.step, PoolState.unlocked, signalStep, LockedPool.lock,
        LockedPool.unlock, safe, empty, signalThreadFunc, head, inside]
      funext m
      cases m <;> simp
    · simp [signalThreadFunc, empty, head, inside, PoolState.crash] at safe'

theorem worker_section {k : Fin thrNum} (safe : p.fault = false) (safe' : p'.fault = false)
    (stepped : threadFunc p k = some p') : ∃ events, lockedPool.exec p.unlocked events = some p'.unlocked := by
  cases need : mutexOf (p.workers k) with
  | none =>
    refine ⟨[.worker k], ?_⟩
    simp [System.exec, lockedPool, LockedPool.step, PoolState.unlocked, workerStep, safe, need, stepped]
  | some m =>
    have awake : ¬ (p.workers k = .waiting ∧ p.taskCheck k ≠ 1) := by
      rintro ⟨waiting, other⟩
      simp [threadFunc, waiting, bSemWait, other] at stepped
    refine ⟨[.worker k, .worker k, .worker k], ?_⟩
    simp [System.exec, lockedPool, LockedPool.step, PoolState.unlocked, workerStep, LockedPool.lock, LockedPool.unlock,
      LockedPool.put, safe, safe', need, stepped, awake]

end Sections

theorem unlocked_reachable {p : PoolState} (reached : pool.Reachable p) (safe : p.fault = false) :
    lockedPool.Reachable p.unlocked := by
  induction reached with
  | initial p start =>
    obtain rfl : p = threadPoolInit := start
    exact .initial _ ⟨rfl, rfl, rfl, .inl ⟨rfl, rfl⟩⟩
  | next p e p' _ _ stepped ih =>
    have before : p.fault = false := poolStep_safe stepped
    have moved : poolStep p e = some p' := stepped
    have start := ih before
    simp only [poolStep, before, Bool.false_eq_true, if_false] at moved
    cases e with
    | mallocInfo a clntInfo =>
      refine .next _ (.mallocInfo a clntInfo) _ start trivial ?_
      simp [lockedPool, LockedPool.step, prepares, PoolState.unlocked, before, poolStep, moved]
    | mallocTask a stale funcPtr =>
      refine .next _ (.mallocTask a stale funcPtr) _ start trivial ?_
      simp [lockedPool, LockedPool.step, prepares, PoolState.unlocked, before, poolStep, moved]
    | mallocFails =>
      refine .next _ .mallocFails _ start trivial ?_
      simp [lockedPool, LockedPool.step, prepares, PoolState.unlocked, before, poolStep, moved]
    | enqueue => exact System.exec_reachable start (main_section before safe moved)
    | signal =>
      obtain rfl := Option.some.inj moved
      obtain ⟨events, ran⟩ := signal_section before safe
      exact System.exec_reachable start ran
    | worker k =>
      obtain ⟨events, ran⟩ := worker_section before safe moved
      exact System.exec_reachable start ran

end NetProg.P3
