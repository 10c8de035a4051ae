import NetProg.Net.FdPool
import NetProg.P3.ThreadPool

set_option autoImplicit false

namespace NetProg.P3

open Transition

inductive Descriptor where
  | listening
  | connection (c : Nat)
  -- a file that is open for reading
  | file
  -- a file that `writeLog` has open
  | log
deriving DecidableEq, Repr

-- Whether `write` to it takes bytes.
def Descriptor.writable : Descriptor → Bool
  | .connection _ | .log => true
  | .listening | .file => false

abbrev dataSize : Nat := 750000

def text (s : String) : List UInt8 := s.toList.map fun c => UInt8.ofNat c.toNat

def httpReqMsg : List UInt8 := text "HTTP/1.1 200 OK\r\n\r\n"

def endMsg : List UInt8 := text "\nHTTP/END\n"

inductive ResponsePc where
  -- Where a call of `httpResponse` is, with its file descriptor.
  | opening
  | header (fd : Int)
  | reading (fd : Int)
  | sending (fd : Int) (sendBuf : List UInt8)
  | ending (fd : Int)
  | closing (fd : Int)
  | returned
deriving DecidableEq, Repr

inductive ResponseEvent where
  -- A call that `httpResponse` makes, and how it turns out.
  | openFile (fd : Option Int)
  | write (count : Option Nat)
  | read (bytes : Option (List UInt8))
  | close

inductive LogPc where
  -- Where a call of `writeLog` is, with its file descriptor.
  | opening
  | writing (fd : Int)
  | returned
deriving DecidableEq, Repr

inductive LogEvent where
  | fopen (fd : Option Int)
  | fclose

structure Written where
  -- Bytes that have been written for a task, and what they went to.
  serial : Nat
  target : Descriptor
  bytes : List UInt8
deriving DecidableEq, Repr

structure WebServer where
  serverSock : Int
  pool : PoolState
  loop : EventLoop SockAddrIn
  assignedThrId : Nat
  descriptors : Int → Option Descriptor
  logs : Fin thrNum → LogPc
  responses : Fin thrNum → ResponsePc
  -- a thread has called `exit`
  exited : Bool
  -- Ghost record of the run: the connection of the request that main is enqueueing, and of the request behind
  -- each task, tasks named by their serial numbers.
  connections : Nat
  request : Nat
  requests : List Nat
  written : List Written

def WebServer.exit (s : WebServer) : WebServer := { s with exited := true }

def WebServer.goto (s : WebServer) (k : Fin thrNum) (pc : ResponsePc) : WebServer :=
  { s with responses := Function.update s.responses k pc }

def WebServer.setLog (s : WebServer) (k : Fin thrNum) (pc : LogPc) : WebServer :=
  { s with logs := Function.update s.logs k pc }

def writeLog (s : WebServer) (k : Fin thrNum) (e : LogEvent) : Option WebServer :=
  match s.logs k, e with
  -- nothing looks at the result of `fopen`, and `fprintf` to NULL ends the process
  | .opening, .fopen none => some s.exit
  | .opening, .fopen (some fd) =>
    if 0 ≤ fd ∧ s.descriptors fd = none then
      some { s.setLog k (.writing fd) with descriptors := Function.update s.descriptors fd (some .log) }
    else none
  | .writing fd, .fclose =>
    some { s.setLog k .returned with descriptors := Function.update s.descriptors fd none }
  | _, _ => none

def WebServer.writeSock (s : WebServer) (k : Fin thrNum) (serial : Nat) (clientSock : Int) (bytes : List UInt8)
    (count : Option Nat) (next : ResponsePc) : Option WebServer :=
  -- The bytes go to what the number stands for at this moment, whatever it is.
  match count with
  | none => some s.exit
  | some count => match s.descriptors clientSock with
    | some target =>
      if target.writable = true ∧ count ≤ bytes.length then
        some { s.goto k next with written := s.written ++ [{ serial, target, bytes := bytes.take count }] }
      else none
    | none => none

def httpResponse (s : WebServer) (k : Fin thrNum) (serial : Nat) (clientSock : Int) (e : ResponseEvent) :
    Option WebServer :=
  match s.responses k, e with
  | .opening, .openFile none => some s.exit
  | .opening, .openFile (some fd) =>
    if 0 ≤ fd ∧ s.descriptors fd = none then
      some { s.goto k (.header fd) with descriptors := Function.update s.descriptors fd (some .file) }
    else none
  | .header fd, .write count => s.writeSock k serial clientSock httpReqMsg count (.reading fd)
  | .reading _, .read none => some s.exit
  | .reading fd, .read (some []) => some (s.goto k (.ending fd))
  | .reading fd, .read (some (b :: rest)) =>
    if (b :: rest).length ≤ dataSize then some (s.goto k (.sending fd (b :: rest))) else none
  | .sending fd sendBuf, .write count => s.writeSock k serial clientSock sendBuf count (.reading fd)
  | .ending fd, .write count => s.writeSock k serial clientSock endMsg count (.closing fd)
  | .closing fd, .close =>
    some { s.goto k .returned with descriptors := Function.update s.descriptors fd none }
  | _, _ => none

def WebServer.respond (s : WebServer) (k : Fin thrNum) (e : ResponseEvent) : Option WebServer :=
  match s.pool.workers k with
  | .executing taskPtr _ clientSock => httpResponse s k (serialOf s.pool.heap taskPtr) clientSock e
  | _ => none

def WebServer.log (s : WebServer) (k : Fin thrNum) (e : LogEvent) : Option WebServer :=
  match s.pool.workers k with
  | .logged .. => writeLog s k e
  | _ => none

def WebServer.work (s : WebServer) (k : Fin thrNum) : Option WebServer :=
  -- A step of `threadFunc`; it calls `writeLog` and `httpResponse`, and goes on when the call has returned.
  match s.pool.workers k with
  | .executing .. =>
    if s.responses k = .returned then (poolStep s.pool (.worker k)).map fun pool => { s with pool } else none
  | .fetched .. => (poolStep s.pool (.worker k)).map fun pool => { s.setLog k .opening with pool }
  | .logged .. =>
    if s.logs k = .returned then (poolStep s.pool (.worker k)).map fun pool => { s.goto k .opening with pool }
    else none
  | _ => (poolStep s.pool (.worker k)).map fun pool => { s with pool }

def WebServer.accept (s : WebServer) (accepted : Option (Int × SockAddrIn)) : Option WebServer :=
  match accepted with
  | none => (s.loop.accept s.serverSock none).map fun loop => { s with loop }
  | some (sockfd, clientAddr) =>
    if 0 ≤ sockfd ∧ sockfd < fdSetSize ∧ s.descriptors sockfd = none then
      (s.loop.accept s.serverSock (some (sockfd, clientAddr))).map fun loop =>
        { s with loop, descriptors := Function.update s.descriptors sockfd (some (.connection s.connections))
                 connections := s.connections + 1 }
    else none

def WebServer.serve (s : WebServer) (i : Slot) (loop : EventLoop SockAddrIn) (nread : Option Nat) (clntInfo : Addr) :
    Option WebServer :=
  -- `handleClientFds` for one slot, as far as the `malloc` of `handleClientRequest`; `nread` is
  -- what `ioctl` says.
  let clientSock := s.loop.pool.clientfd i
  match nread with
  | none => some { s with loop := { loop with pc := .selecting } }
  | some 0 =>
    some { s with loop := { loop with pool := loop.pool.closeSlot i }
                  descriptors := Function.update s.descriptors clientSock none }
  | some (_ + 1) => match s.descriptors clientSock with
    | some (.connection c) =>
      let info := { clientSock, clientAddr := loop.pool.clientAddr i, assignedThrId := s.assignedThrId }
      (poolStep s.pool (.mallocInfo clntInfo info)).map fun pool =>
        { s with loop, pool, assignedThrId := (s.assignedThrId + 1) % 10, request := c }
    | _ => none

inductive WebEvent where
  | select (ready : List Int)
  | accept (accepted : Option (Int × SockAddrIn))
  | scan (nread : Option Nat) (clntInfo : Addr)
  | mallocTask (a : Addr) (stale : Option Addr)
  | mallocFails
  | enqueue
  | signal
  | work (k : Fin thrNum)
  | log (k : Fin thrNum) (e : LogEvent)
  | respond (k : Fin thrNum) (e : ResponseEvent)

abbrev httpResponsePtr : Nat := 0

def WebServer.enqueue (s : WebServer) : Option WebServer :=
  (poolStep s.pool .enqueue).map fun pool => { s with pool, requests := s.requests ++ [s.request] }

def WebServer.mainStep (s : WebServer) (e : WebEvent) : Option WebServer :=
  match s.pool.main, e with
  | .idle, .select ready => (s.loop.select ready).map fun loop => { s with loop }
  | .idle, .accept accepted => s.accept accepted
  | .idle, .scan nread clntInfo => match s.loop.scan with
    | none => none
    | some (none, loop) => some { s with loop }
    | some (some i, loop) => s.serve i loop nread clntInfo
  | _, .mallocTask a stale => (poolStep s.pool (.mallocTask a stale httpResponsePtr)).map fun pool => { s with pool }
  | _, .mallocFails => (poolStep s.pool .mallocFails).map fun pool => { s with pool }
  | _, .enqueue => s.enqueue
  | _, _ => none

def WebServer.step (s : WebServer) (e : WebEvent) : Option WebServer :=
  -- a fault ends the process as `exit` does
  if s.exited ∨ s.pool.fault then none
  else match e with
    | .signal => (poolStep s.pool .signal).map fun pool => { s with pool }
    | .work k => s.work k
    | .log k e => s.log k e
    | .respond k e => s.respond k e
    | e => s.mainStep e

structure WebServer.Starts (s : WebServer) : Prop where
  loop : ∃ pool : FdPool SockAddrIn, pool.maxi < fdSetSize ∧
    s.loop = { pool := initPool s.serverSock pool, pc := .selecting }
  pool : s.pool = threadPoolInit
  assignedThrId : s.assignedThrId = 0
  listening : s.descriptors s.serverSock = some .listening
  nobody : ∀ fd c, s.descriptors fd ≠ some (.connection c)
  connections : s.connections = 0
  requests : s.requests = []
  written : s.written = []

def webServer : System WebServer WebEvent where
  init := WebServer.Starts
  step := WebServer.step

end NetProg.P3
