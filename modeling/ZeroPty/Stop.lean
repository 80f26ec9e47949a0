import ZeroPty.Client
import ZeroPty.Record
import ZeroPty.Connect

/-!
# Stopping a session

`run_named_stop` on one session: what it reads of the record, the request it sends, and how it waits for the server to go away. What
the polls and the probes find is an argument; time passes in steps of 100 milliseconds, as the loops count it. It installs no signal
handlers, so a write to a connection that was reset ends it with SIGPIPE, unless that was ignored when it was started.
-/

namespace ZeroPty

open Memory Stream

/-- `OPTY_STOP_WAIT_MS` -/
def optyStopWaitMs : Nat := 7000

/-- What a poll of the connection comes to: EINTR, another error, nothing in 100 milliseconds, something to read, the end of the
connection alone, or events that are none of these. -/
inductive StopPoll where
  | interrupted
  | failed
  | timeout
  | input
  | hangup
  | other
  deriving DecidableEq, Repr

/-- What `run_named_stop` looks at. -/
structure StopWorld where
  home : Option CString
  files : Files
  fopen : Except Errno Unit
  malloc : Nat → Alloc UInt8
  /-- Whether the endpoint accepts a connection, at each probe of it. -/
  accepts : Nat → Bool
  /-- The socket, if there is a connection. -/
  connect : Except Errno (Sink Errno)
  /-- Whether SIGPIPE was ignored already when the process was started. -/
  ignoresSigpipe : Bool
  /-- The polls; all later ones find nothing. -/
  polls : List StopPoll
  /-- What the server answers. -/
  answer : Source Errno
  alloc : Bool

/-- What `run_named_stop` tells on its standard error; when it is killed it tells nothing. -/
inductive StopReport where
  | invalidName
  | noSession
  | noControlToken
  | alreadyDead
  | badGracefulInput
  | notConnected
  | notSent
  | killed
  | refused (text : List UInt8)
  | failed
  | stillListening
  | stopped
  deriving DecidableEq, Repr

/-- What `run_named_stop` returns, if it returns. -/
def StopReport.status : StopReport → Option Nat
  | .killed => none
  | .alreadyDead | .stopped => some 0
  | _ => some 1

/-- The loop of polls after the request: a report when it ends with a status of 1. -/
def stopWait (alloc : Bool) (answer : Source Errno) (waited : Nat) : List StopPoll → Option StopReport
  | [] => none
  | poll :: polls =>
    if optyStopWaitMs ≤ waited then none
    else
      match poll with
      | .interrupted | .other => stopWait alloc answer waited polls
      | .failed => some .failed
      | .timeout => stopWait alloc answer (waited + 100) polls
      | .hangup => none
      | .input =>
        match optyRecvFrame alloc answer with
        | (.ok (some frame), _) => if frame.type = msgError then some (.refused frame.payload) else none
        | (.ok none, _) => none
        | (.error _, _) => some .failed

/-- `opty_wait_endpoint_dead`, from the probe `n` on: the probe that finds nobody. -/
def optyWaitEndpointDead (accepts : Nat → Bool) (timeoutMs n waited : Nat) : Option Nat :=
  if waited ≤ timeoutMs then
    if accepts n = false then some n else optyWaitEndpointDead accepts timeoutMs (n + 1) (waited + 100)
  else none
termination_by timeoutMs + 1 - waited

/-- `run_named_stop` after the request was sent. -/
def stopAfterRequest (w : StopWorld) : StopReport :=
  match stopWait w.alloc w.answer 0 w.polls with
  | some report => report
  | none =>
    match optyWaitEndpointDead w.accepts optyStopWaitMs 1 0 with
    | some _ => .stopped
    | none => .stillListening

/-- A request that could not be sent: a write that fails with EPIPE comes with SIGPIPE. -/
def stopSendFailed (w : StopWorld) (e : Errno) : StopReport := if e = .epipe ∧ w.ignoresSigpipe = false then .killed else .notSent

/-- `run_named_stop`: what it tells, and the socket when there is a connection. -/
def runNamedStop (w : StopWorld) (session : CString) : StopReport × Option (Sink Errno) :=
  if optyIsSessionName session.bytes = false then (.invalidName, none)
  else
    match optyReadSessionInfo w.home w.fopen w.malloc w.files session with
    | .error _ => (.noSession, none)
    | .ok info =>
      if info.controlToken = [] then (.noControlToken, none)
      else if w.accepts 0 = false then (.alreadyDead, none)
      else
        match optyDecodeGracefulInput info.gracefulInput optyMaxGracefulInput with
        | .error _ => (.badGracefulInput, none)
        | .ok input =>
          match w.connect with
          | .error _ => (.notConnected, none)
          | .ok sock =>
            match optySendControlShutdown sock (some (.ofBytes info.controlToken)) (.mem input) with
            | (.error e, sock) => (stopSendFailed w e, some sock)
            | (.ok (), sock) => (stopAfterRequest w, some sock)

end ZeroPty
