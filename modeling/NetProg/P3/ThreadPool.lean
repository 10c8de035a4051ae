import NetProg.P3.TaskQueue
import NetProg.Shared.Dispatch

set_option autoImplicit false

-- `thr_pool.c` as a transition system. Every section under a mutex is one step; what a thread does between two
-- sections is broken into one step for each object that it reads or frees.

namespace NetProg.P3

open Linked Transition

inductive MainPc where
  -- The main thread, from `malloc` in `handleClientRequest` to `enqueueTask`.
  | idle
  | infoReady (clntInfo : Addr)
  | taskReady (newTask : Addr)
deriving DecidableEq, Repr

inductive WorkerPc where
  | waiting
  | woken
  | counted
  | dequeued (taskPtr : Option Addr)
  | fetched (taskPtr : Addr) (funcExec : Nat) (clntInfo : Option Addr)
  | logged (taskPtr : Addr) (funcExec : Nat) (clntInfo : Option Addr)
  | executing (taskPtr : Addr) (funcExec : Nat) (clientSock : Int)
  | executed (taskPtr : Addr)
  | argFreed (taskPtr : Addr)
  | leaving
deriving DecidableEq, Repr

-- Ghost record of the run, tasks named by their serial numbers.
structure History where
  enqueued : Nat
  dequeued : List Nat
  executed : List (Nat × Fin thrNum)
  finished : List Nat
deriving DecidableEq, Repr

structure PoolState where
  heap : Heap
  taskQ : TaskQueue
  taskCheck : BSem
  numWorkingThreads : Int
  main : MainPc
  workers : Fin thrNum → WorkerPc
  -- A thread has followed a NULL or freed pointer, or freed a block twice.
  fault : Bool
  history : History

def threadPoolInit : PoolState where
  -- The pool that `threadPoolInit` returns, every thread at its first `bSemWait`.
  heap := fun _ => none
  taskQ := initTaskQueue
  taskCheck := bSemInit 0
  numWorkingThreads := 0
  main := .idle
  workers := fun _ => .waiting
  fault := false
  history := { enqueued := 0, dequeued := [], executed := [], finished := [] }

inductive PoolEvent where
  | mallocInfo (a : Addr) (clntInfo : ClientInfo)
  | mallocTask (a : Addr) (stale : Option Addr) (funcPtr : Nat)
  | mallocFails
  | enqueue
  | signal
  | worker (k : Fin thrNum)

def PoolState.crash (s : PoolState) : PoolState := { s with fault := true }

def PoolState.goto (s : PoolState) (k : Fin thrNum) (pc : WorkerPc) : PoolState :=
  { s with workers := Function.update s.workers k pc }

def serialOf (h : Heap) (a : Addr) : Nat := ((h.task (some a)).map Task.serial).getD 0

def mallocInfo (s : PoolState) (a : Addr) (clntInfo : ClientInfo) : Option PoolState :=
  -- `handleClientRequest` fills in the client info; `handleClientFds` keeps thread ids below
  -- `thrNum`.
  match s.main with
  | .idle =>
    if s.heap a = none ∧ clntInfo.assignedThrId < thrNum then
      some { s with heap := Function.update s.heap a (some (.info clntInfo)), main := .infoReady a }
    else none
  | _ => none

def mallocTask (s : PoolState) (a : Addr) (stale : Option Addr) (funcPtr : Nat) : Option PoolState :=
  -- `malloc` in `threadPoolEnqueue`; the new block still holds a stale `prev`.
  match s.main with
  | .infoReady clntInfo =>
    if s.heap a = none then
      let newTask := { prev := stale, function := funcPtr, arg := some clntInfo, serial := s.history.enqueued }
      some { s with heap := Function.update s.heap a (some (.task newTask)), main := .taskReady a }
    else none
  | _ => none

def mallocFails (s : PoolState) : Option PoolState :=
  -- `threadPoolEnqueue` gives up; nobody frees the client info.
  match s.main with
  | .infoReady _ => some { s with main := .idle }
  | _ => none

def enqueue (s : PoolState) : Option PoolState :=
  match s.main with
  | .taskReady newTask => match enqueueTask s.heap s.taskQ newTask with
    | none => some s.crash
    | some (heap, taskQ) => some { s with
        heap, taskQ, main := .idle, history := { s.history with enqueued := s.history.enqueued + 1 } }
  | _ => none

def headAssigned (h : Heap) (taskQ : TaskQueue) : Option Nat :=
  (h.task taskQ.head).bind fun t => (h.info t.arg).map ClientInfo.assignedThrId

def signalThreadFunc (s : PoolState) : PoolState :=
  if s.taskQ.len = 0 then s
  else match headAssigned s.heap s.taskQ with
    | none => s.crash
    | some id =>
      if inside : id < thrNum then { s with taskCheck := bSemPost ⟨id, inside⟩ } else s.crash

def freeArg (h : Heap) : Option Addr → Option Heap
  | none => some h
  | some arg => if (h arg).isSome then some (h.free arg) else none

def threadFunc (s : PoolState) (k : Fin thrNum) : Option PoolState :=
  match s.workers k with
  | .waiting => (bSemWait s.taskCheck k).map fun taskCheck => { s.goto k .woken with taskCheck }
  | .woken => some { s.goto k .counted with numWorkingThreads := s.numWorkingThreads + 1 }
  | .counted => match dequeueTask s.heap s.taskQ with
    | none => some s.crash
    | some (taskQ, taskPtr) => some { s.goto k (.dequeued taskPtr) with
        taskQ
        history := { s.history with dequeued := s.history.dequeued ++ taskPtr.toList.map (serialOf s.heap) } }
  | .dequeued none => some (s.goto k .leaving)
  | .dequeued (some taskPtr) => match s.heap.task (some taskPtr) with
    | none => some s.crash
    | some t => some (s.goto k (.fetched taskPtr t.function t.arg))
  -- writeLog reads the client's address
  | .fetched taskPtr funcExec clntInfo => match s.heap.info clntInfo with
    | none => some s.crash
    | some _ => some (s.goto k (.logged taskPtr funcExec clntInfo))
  -- the called function reads the descriptor through its argument first
  | .logged taskPtr funcExec clntInfo => match s.heap.info clntInfo with
    | none => some s.crash
    | some c => some { s.goto k (.executing taskPtr funcExec c.clientSock) with
        history := { s.history with executed := s.history.executed ++ [(serialOf s.heap taskPtr, k)] } }
  | .executing taskPtr _ _ => some (s.goto k (.executed taskPtr))
  | .executed taskPtr => match s.heap.task (some taskPtr) with
    | none => some s.crash
    | some t => (freeArg s.heap t.arg).elim (some s.crash) fun heap =>
        some { s.goto k (.argFreed taskPtr) with heap }
  | .argFreed taskPtr => match s.heap.task (some taskPtr) with
    | none => some s.crash
    | some t => some { s.goto k .leaving with
        heap := s.heap.free taskPtr
        history := { s.history with finished := s.history.finished ++ [t.serial] } }
  | .leaving => some { s.goto k .waiting with numWorkingThreads := s.numWorkingThreads - 1 }

def poolStep (s : PoolState) (e : PoolEvent) : Option PoolState :=
  if s.fault then none
  else match e with
    | .mallocInfo a clntInfo => mallocInfo s a clntInfo
    | .mallocTask a stale funcPtr => mallocTask s a stale funcPtr
    | .mallocFails => mallocFails s
    | .enqueue => enqueue s
    | .signal => some (signalThreadFunc s)
    | .worker k => threadFunc s k

def pool : System PoolState PoolEvent where
  init s := s = threadPoolInit
  step := poolStep

def PoolState.backlog (s : PoolState) : Nat := s.history.enqueued - s.history.dequeued.length

def Counted (_ : PoolState) (_ : PoolEvent) (s' : PoolState) : Prop := s'.backlog < uintSize

instance (s : PoolState) (e : PoolEvent) (s' : PoolState) : Decidable (Counted s e s') :=
  inferInstanceAs (Decidable (s'.backlog < uintSize))

end NetProg.P3
