import NetProg.P3.WebServer
import NetProg.Shared.Memory

set_option autoImplicit false

namespace NetProg.P3

open Memory Transition

def Client.httpReqMsg : List UInt8 := text "GET /index.html/ HTTP/1.1\r\nHost: index.html\r\n\r\n"

structure Service where
  -- The number of requests that the client makes, and the file that answers them.
  reqNum : Nat
  file : List UInt8

def responseOf (file : List UInt8) : List UInt8 := httpReqMsg ++ file ++ endMsg

inductive ClientPc where
  | sending
  | receiving
  -- `strstr` has gone past the end of `recvBuff`
  | outside
  | closed
deriving DecidableEq, Repr

structure Exchange where
  pc : ClientPc
  i : Nat
  -- what has been written and not been read
  toServer : List UInt8
  toClient : List UInt8
  -- what each of the running tasks still has to write
  tasks : List (List UInt8)
  -- Ghost record of the run: the requests that have been written, the tasks that have been made, what the
  -- receive loop has read, and what each of those that have ended has read.
  asked : Nat
  made : Nat
  received : List UInt8
  loops : List (List UInt8)

inductive ExchangeEvent where
  | write
  | close
  | clientRead (n : Nat)
  | serverRead (n : Nat)
  | respond (j n : Nat)

-- `recvBuff` behind a `memset` and a `read` that has returned these bytes.
def recvBuff (chunk : List UInt8) : List UInt8 := chunk ++ List.replicate (dataSize - chunk.length) 0

def Exchange.write (p : Service) (s : Exchange) : Option Exchange :=
  if s.pc = .sending ∧ s.i < p.reqNum then
    some { s with pc := .receiving, toServer := s.toServer ++ Client.httpReqMsg, asked := s.asked + 1, received := [] }
  else none

def Exchange.close (p : Service) (s : Exchange) : Option Exchange :=
  if s.pc = .sending ∧ ¬ s.i < p.reqNum then some { s with pc := .closed } else none

def Exchange.clientRead (s : Exchange) (n : Nat) : Option Exchange :=
  if s.pc = .receiving ∧ 0 < n ∧ n ≤ dataSize ∧ n ≤ s.toClient.length then
    let chunk := s.toClient.take n
    let received := s.received ++ chunk
    let s := { s with toClient := s.toClient.drop n, received }
    match cstring (recvBuff chunk) with
    | none => some { s with pc := .outside }
    | some recvd =>
      if endMsg <:+: recvd then some { s with pc := .sending, i := s.i + 1, loops := s.loops ++ [received] }
      else some s
  else none

def Exchange.serverRead (p : Service) (s : Exchange) (n : Nat) : Option Exchange :=
  if 0 < n ∧ n ≤ s.toServer.length then
    some { s with toServer := s.toServer.drop n, tasks := s.tasks ++ [responseOf p.file], made := s.made + 1 }
  else none

def Exchange.respond (s : Exchange) (j n : Nat) : Option Exchange :=
  match s.tasks[j]? with
  | none => none
  | some left =>
    if 0 < n ∧ n ≤ left.length then
      some { s with toClient := s.toClient ++ left.take n
                    tasks := if n = left.length then s.tasks.eraseIdx j else s.tasks.set j (left.drop n) }
    else none

def Exchange.step (p : Service) (s : Exchange) : ExchangeEvent → Option Exchange
  | .write => s.write p
  | .close => s.close p
  | .clientRead n => s.clientRead n
  | .serverRead n => s.serverRead p n
  | .respond j n => s.respond j n

def connected : Exchange where
  pc := .sending
  i := 0
  toServer := []
  toClient := []
  tasks := []
  asked := 0
  made := 0
  received := []
  loops := []

def exchange (p : Service) : System Exchange ExchangeEvent where
  init s := s = connected
  step := Exchange.step p

def ResponsePc.left (file : List UInt8) : ResponsePc → List UInt8
  -- What a call of `httpResponse` has still to write, when `file` has not been read yet.
  | .opening => httpReqMsg ++ file ++ endMsg
  | .header _ => httpReqMsg ++ file ++ endMsg
  | .reading _ => file ++ endMsg
  | .sending _ sendBuf => sendBuf ++ file ++ endMsg
  | .ending _ => endMsg
  | .closing _ => []
  | .returned => []

def ResponsePc.sends : ResponsePc → List UInt8
  | .header _ => httpReqMsg
  | .sending _ sendBuf => sendBuf
  | .ending _ => endMsg
  | _ => []

def GoesWell (pc : ResponsePc) (file file' : List UInt8) : ResponseEvent → Prop
  -- `write` takes all the bytes, and `read` returns the next bytes of the file, none of them only at its end.
  | .openFile fd => fd.isSome ∧ file' = file
  | .write count => count = some pc.sends.length ∧ file' = file
  | .read none => False
  | .read (some bytes) => file = bytes ++ file' ∧ (bytes = [] → file = [])
  | .close => file' = file

def WebServer.writtenFor (s : WebServer) (serial : Nat) : List UInt8 :=
  (s.written.filter fun written => written.serial = serial).flatMap Written.bytes

section Response

variable {s s' : WebServer} {k : Fin thrNum} {serial : Nat} {clientSock : Int}

theorem writeSock_writes {bytes : List UInt8} {next : ResponsePc}
    (ran : s.writeSock k serial clientSock bytes (some bytes.length) next = some s') :
    s'.writtenFor serial = s.writtenFor serial ++ bytes ∧ s'.responses k = next := by
  simp only [WebServer.writeSock] at ran
  split at ran
  next target _ =>
    split_ifs at ran with takes
    obtain rfl := Option.some.inj ran
    constructor
    · simp [WebServer.writtenFor]
    · simp [WebServer.goto]
  next => cases ran

theorem goto_left (s : WebServer) (k : Fin thrNum) (pc : ResponsePc) (serial : Nat) (file : List UInt8) :
    (s.goto k pc).writtenFor serial ++ ((s.goto k pc).responses k).left file =
      s.writtenFor serial ++ pc.left file := by
  simp [WebServer.goto, WebServer.writtenFor]

theorem httpResponse_left {e : ResponseEvent} {file file' : List UInt8} (well : GoesWell (s.responses k) file file' e)
    (ran : httpResponse s k serial clientSock e = some s') :
    s'.writtenFor serial ++ (s'.responses k).left file' = s.writtenFor serial ++ (s.responses k).left file := by
  cases e with
  | openFile fd =>
    obtain ⟨opened, rfl⟩ := well
    obtain ⟨fd, rfl⟩ := Option.isSome_iff_exists.mp opened
    cases pc : s.responses k with
    | opening =>
      simp only [httpResponse, pc] at ran
      split_ifs at ran
      obtain rfl := Option.some.inj ran
      exact goto_left s k (.header fd) serial file'
    | _ => simp [httpResponse, pc] at ran
  | write count =>
    obtain ⟨rfl, rfl⟩ := well
    cases pc : s.responses k with
    | header fd =>
      simp only [httpResponse, pc] at ran
      obtain ⟨written, next⟩ := writeSock_writes ran
      simp [written, next, ResponsePc.left]
    | sending fd sendBuf =>
      simp only [httpResponse, pc] at ran
      obtain ⟨written, next⟩ := writeSock_writes ran
      simp [written, next, ResponsePc.left]
    | ending fd =>
      simp only [httpResponse, pc] at ran
      obtain ⟨written, next⟩ := writeSock_writes ran
      simp [written, next, ResponsePc.left]
    | _ => simp [httpResponse, pc] at ran
  | read bytes =>
    cases bytes with
    | none => exact well.elim
    | some bytes =>
      obtain ⟨rfl, ended⟩ := well
      cases pc : s.responses k with
      | reading fd =>
        cases bytes with
        | nil =>
          obtain rfl : file' = [] := ended rfl
          simp only [httpResponse, pc, Option.some.injEq] at ran
          subst ran
          exact goto_left s k (.ending fd) serial []
        | cons b rest =>
          simp only [httpResponse, pc] at ran
          split_ifs at ran
          obtain rfl := Option.some.inj ran
          rw [goto_left]
          simp [ResponsePc.left]
      | _ => simp [httpResponse, pc] at ran
  | close =>
    obtain rfl := well
    cases pc : s.responses k with
    | closing fd =>
      simp only [httpResponse, pc, Option.some.injEq] at ran
      subst ran
      exact goto_left s k .returned serial file'
    | _ => simp [httpResponse, pc] at ran

inductive Responding (k : Fin thrNum) (serial : Nat) (clientSock : Int) (s : WebServer) (file : List UInt8) :
    WebServer → List UInt8 → Prop where
  -- A call of `httpResponse` goes on, among steps that belong to other threads and tasks.
  | begun : Responding k serial clientSock s file s file
  | call (s' s'' : WebServer) (rest rest' : List UInt8) (e : ResponseEvent)
      (before : Responding k serial clientSock s file s' rest) (well : GoesWell (s'.responses k) rest rest' e)
      (ran : httpResponse s' k serial clientSock e = some s'') : Responding k serial clientSock s file s'' rest'
  | other (s' s'' : WebServer) (rest : List UInt8) (before : Responding k serial clientSock s file s' rest)
      (pc : s''.responses k = s'.responses k) (written : s''.writtenFor serial = s'.writtenFor serial) :
      Responding k serial clientSock s file s'' rest

theorem response_written {file rest : List UInt8} (running : Responding k serial clientSock s file s' rest)
    (begins : s.responses k = .opening) (ends : s'.responses k = .returned) :
    s'.writtenFor serial = s.writtenFor serial ++ responseOf file := by
  have kept : s'.writtenFor serial ++ (s'.responses k).left rest =
      s.writtenFor serial ++ (s.responses k).left file := by
    clear ends
    induction running with
    | begun => rfl
    | call s' s'' rest rest' e before well ran ih => exact (httpResponse_left well ran).trans ih
    | other s' s'' rest before pc written ih =>
      rw [pc, written]
      exact ih
  rw [begins, ends] at kept
  simpa [ResponsePc.left, responseOf] using kept

end Response

end NetProg.P3
