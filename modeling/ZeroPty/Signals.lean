import ZeroPty.Accept

/-!
# Signals and the calls that block

The loops of `main` of the server and of `run_session`, one step between two points at which a handler can run. A handler that runs in
the thread that is blocked in `accept` or `poll` ends the call with EINTR; the handlers are installed without `SA_RESTART`. What a
connection or a terminal does is part of the action.
-/

namespace ZeroPty

open Transition

/-! ## The server -/

/-- Where `main` of the server is: at the top of its loop, in what it does there when a shutdown was requested, about to call `accept`
or blocked in it, in what it does after EINTR, with a connection, asleep, in the shutdown after another error, or out of the loop. -/
inductive AcceptPc where
  | top
  | clear
  | request
  | call
  | accept
  | interrupted
  | clearAgain
  | requestAgain
  | add
  | sleep
  | requestFailed
  | left
  deriving DecidableEq, Repr

/-- The loop, `g_shutdown_requested`, and whether the listener is open. -/
structure AcceptLoop where
  pc : AcceptPc
  shutdownRequested : Bool
  listening : Bool
  deriving DecidableEq, Repr

/-- What `accept` comes to: a connection, an error, or nothing yet. -/
inductive AcceptResult where
  | connection
  | failed (e : AcceptErrno)
  | nothing

/-- The actions: `main` goes on; a handler runs, in the thread of `main` or in another one; another thread closes the listener. -/
inductive AcceptAct where
  | main (accept : AcceptResult)
  | signal (inMain : Bool)
  | closeListener

/-- What `main` does with an error of `accept`. -/
def AcceptErrno.pc : AcceptErrno → AcceptPc
  | .eintr => .interrupted
  | .ebadf | .einval => .left
  | .emfile | .enfile | .enomem | .enobufs => .sleep
  | .econnaborted | .eproto | .other _ => .requestFailed

/-- What `main` does when `accept` returns. -/
def AcceptResult.pc? : AcceptResult → Option AcceptPc
  | .connection => some .add
  | .failed e => some e.pc
  | .nothing => none

/-- A step of `main`. `server_request_shutdown` closes the listener. -/
def acceptLoopMain (s : AcceptLoop) (accept : AcceptResult) : Outcome AcceptLoop :=
  match s.pc with
  | .top => .next { s with pc := if s.shutdownRequested then .clear else .call }
  | .clear => .next { s with pc := .request, shutdownRequested := false }
  | .request => .next { s with pc := .call, listening := false }
  | .call => .next { s with pc := if s.listening then accept.pc?.getD .accept else .left }
  | .accept =>
    match accept.pc? with
    | some pc => .next { s with pc := pc }
    | none => .blocked
  | .interrupted => .next { s with pc := if s.shutdownRequested then .clearAgain else .top }
  | .clearAgain => .next { s with pc := .requestAgain, shutdownRequested := false }
  | .requestAgain => .next { s with pc := .top, listening := false }
  | .add | .sleep => .next { s with pc := .top }
  | .requestFailed => .next { s with pc := .left, listening := false }
  | .left => .blocked

/-- One action. A listener that is shut down wakes `accept` with EINVAL. -/
def acceptLoopStep (s : AcceptLoop) : AcceptAct → Outcome AcceptLoop
  | .main accept => acceptLoopMain s accept
  | .signal inMain => .next { s with pc := if s.pc = .accept ∧ inMain then .interrupted else s.pc, shutdownRequested := true }
  | .closeListener => .next { s with pc := if s.pc = .accept then .left else s.pc, listening := false }

/-! ## The client -/

/-- Where `run_session` is: sending the intro; at the tests of the flags; about to call `poll` or blocked in it; with what `poll`
returned; receiving, sending the size, reading and sending the input, with the errors of these; or back. -/
inductive PollPc where
  | intro
  | introFailed (e : Errno)
  | testTerminate
  | testWinch
  | clearWinch
  | call
  | poll
  | receive (sock stdin : Bool)
  | receiveFailed (e : Errno)
  | processFailed
  | resize (stdin : Bool)
  | resizeFailed (e : Errno) (stdin : Bool)
  | input (stdin : Bool)
  | send
  | sendFailed (e : Errno)
  | returned (rc : Int)
  deriving DecidableEq, Repr

/-- The loop, `g_terminate_pending`, `g_sigwinch_pending` and the locals of `run_session`. -/
structure SessionLoop where
  pc : PollPc
  terminatePending : Bool
  sigwinchPending : Bool
  sawWelcome : Bool
  resizeSent : Bool
  resizePending : Bool
  deriving DecidableEq, Repr

/-- What `poll` comes to: what is ready, an error other than EINTR, or nothing yet. -/
inductive PollReturn where
  | ready (sock stdin : Bool)
  | failed
  | nothing

/-- What `opty_recv_frame` and `process_server_frame` come to. -/
inductive ReceiveResult where
  | closed
  | failed (e : Errno)
  | processed (rc : Int) (sawWelcome : Bool)

/-- What the read of the input comes to. -/
inductive InputResult where
  | interrupted
  | ended
  | bytes

/-- What the connection and the terminal do in a step. -/
structure SessionEnv where
  send : Except Errno Unit
  poll : PollReturn
  receive : ReceiveResult
  input : InputResult

/-- The actions: `run_session` goes on, or a handler runs. -/
inductive SessionAct where
  | go (env : SessionEnv)
  | terminate
  | sigwinch

/-- What the loops around a sender do after a failure: they return, or they send again. -/
def SessionLoop.sendAgain (s : SessionLoop) (e : Errno) (pc : PollPc) : PollPc :=
  if s.terminatePending then .returned 0 else if e ≠ .eintr then .returned 1 else pc

/-- What is done when `poll` returns. -/
def PollReturn.pc? : PollReturn → Option PollPc
  | .ready sock stdin => some (.receive sock stdin)
  | .failed => some (.returned 1)
  | .nothing => none

/-- A step of `run_session`. -/
def runSessionGo (s : SessionLoop) (env : SessionEnv) : Outcome SessionLoop :=
  match s.pc with
  | .intro =>
    match env.send with
    | .ok () => .next { s with pc := .testTerminate }
    | .error e => .next { s with pc := .introFailed e }
  | .introFailed e => .next { s with pc := s.sendAgain e .intro }
  | .testTerminate => .next { s with pc := if s.terminatePending then .returned 0 else .testWinch }
  | .testWinch => .next { s with pc := if s.sigwinchPending then .clearWinch else .call }
  | .clearWinch => .next { s with pc := .call, sigwinchPending := false, resizePending := true }
  | .call => .next { s with pc := env.poll.pc?.getD .poll }
  | .poll =>
    match env.poll.pc? with
    | some pc => .next { s with pc := pc }
    | none => .blocked
  | .receive sock stdin =>
    if sock then
      match env.receive with
      | .closed => .next { s with pc := .returned 0 }
      | .failed e => .next { s with pc := .receiveFailed e }
      | .processed rc sawWelcome =>
        .next { s with
          pc := if rc < 0 then .processFailed else if 0 < rc then .returned 1 else .resize stdin
          sawWelcome := sawWelcome }
    else .next { s with pc := .resize stdin }
  | .receiveFailed e =>
    .next { s with pc := if s.terminatePending then .returned 0 else if e = .eintr then .testTerminate else .returned 1 }
  | .processFailed => .next { s with pc := if s.terminatePending then .returned 0 else .returned (-1) }
  | .resize stdin =>
    if s.sawWelcome ∧ (!s.resizeSent || s.resizePending) then
      match env.send with
      | .ok () => .next { s with pc := .input stdin, resizeSent := true, resizePending := false }
      | .error e => .next { s with pc := .resizeFailed e stdin }
    else .next { s with pc := .input stdin }
  | .resizeFailed e stdin => .next { s with pc := s.sendAgain e (.resize stdin) }
  | .input stdin =>
    if stdin then
      match env.input with
      | .interrupted => .next { s with pc := .testTerminate }
      | .ended => .next { s with pc := .returned 0 }
      | .bytes => .next { s with pc := .send }
    else .next { s with pc := .testTerminate }
  | .send =>
    match env.send with
    | .ok () => .next { s with pc := .testTerminate }
    | .error e => .next { s with pc := .sendFailed e }
  | .sendFailed e => .next { s with pc := s.sendAgain e .send }
  | .returned _ => .blocked

/-- A handler runs: `poll` ends with EINTR, and everything else goes on. -/
def PollPc.interrupt (pc : PollPc) : PollPc := if pc = .poll then .testTerminate else pc

/-- One action. -/
def runSessionStep (s : SessionLoop) : SessionAct → Outcome SessionLoop
  | .go env => runSessionGo s env
  | .terminate => .next { s with pc := s.pc.interrupt, terminatePending := true }
  | .sigwinch => .next { s with pc := s.pc.interrupt, sigwinchPending := true }

end ZeroPty
