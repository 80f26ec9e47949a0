import Mathlib.Logic.Function.Basic
import ZeroPty.Lib.Transition

/-!
# The child and who waits for it

What `server_request_shutdown` does about the child, in any number of requests at once, next to the PTY thread's final wait and the
child itself. An action is what a thread does between two uses of `child_mu` or around one call of `waitpid` or `kill`, so the
holder of `child_mu` is part of the state, and a thread at a `pthread_mutex_lock` that is held is a thread whose action is
blocked. `child_pid` is a process that was started.

The events are there for the theorems only: the calls of `kill`, the `waitpid` that returned the status, the writes of
`child_reaped`, and how the waits of a request ended.
-/

namespace ZeroPty

open Transition

/-- The signals of the escalation. -/
inductive Signal where
  | hup
  | term
  | kill
  deriving DecidableEq, Repr

/-- The child: it runs; it has exited and was not waited for; or its status was returned, and its pid may be another's. -/
inductive Proc where
  | running
  | exited (status : Nat)
  | reaped
  deriving DecidableEq, Repr

/-- What `waitpid` returns. -/
inductive WaitResult where
  | status (status : Nat)
  | notYet
  | interrupted
  | noChild
  | failed
  deriving DecidableEq, Repr

/-- What `server_poll_child_locked` returns: 1, 0 or -1. -/
inductive PollResult where
  | gone
  | running
  | failed
  deriving DecidableEq, Repr

/-- Where a thread is. The first half is `server_wait_child_deadline`, which comes before the signal `sig` and has waited so many
milliseconds; then `server_signal_child`; then `server_wait_child_blocking`. A place that begins with `lock` is a
`pthread_mutex_lock` of `child_mu`; at `idle` and `reading` a thread has not got here, at `done` it is past. -/
inductive ChildPc where
  | idle
  | reading
  | lockPoll (sig : Signal) (waited : Nat)
  | poll (sig : Signal) (waited : Nat)
  | storePoll (sig : Signal) (waited : Nat) (status : Nat)
  | unlockPoll (sig : Signal) (waited : Nat) (r : PollResult)
  | lockSignal (sig : Signal)
  | signal (sig : Signal)
  | unlockSignal (sig : Signal)
  | lockBlocking
  | blocking
  | storeBlocking (status : Nat)
  | unlockBlocking
  | done
  deriving DecidableEq, Repr

/-- The threads: the PTY thread, and the requests for a shutdown. -/
inductive Who where
  | pty
  | request (t : Nat)
  deriving DecidableEq, Repr

/-- What is recorded. -/
inductive ChildEvent where
  | expired (sig : Signal)
  | kill (sig : Signal)
  | ended
  | waited (status : Nat)
  | reaped (status : Option Nat)
  deriving DecidableEq, Repr

/-- The child, the fields under `child_mu`, and the threads. -/
structure ChildSys where
  proc : Proc
  terminal : Bool
  killed : Bool
  childReaped : Bool
  childStatus : Nat
  holder : Option Who
  pc : Who → ChildPc
  events : List (Who × ChildEvent)

/-- The child was started. -/
def ChildSys.init : ChildSys :=
  { proc := .running, terminal := true, killed := false, childReaped := false, childStatus := 0, holder := none,
    pc := fun who => match who with | .pty => .reading | .request _ => .idle, events := [] }

/-- A thread goes on. -/
def ChildSys.goto (s : ChildSys) (who : Who) (p : ChildPc) : ChildSys := { s with pc := Function.update s.pc who p }

/-- Something is recorded. -/
def ChildSys.record (s : ChildSys) (who : Who) (e : ChildEvent) : ChildSys := { s with events := s.events ++ [(who, e)] }

/-- The grace before each signal, `OPTY_STOP_GRACE_MS` and `OPTY_STOP_SIGNAL_GRACE_MS`. -/
def Signal.grace : Signal → Nat
  | .hup => 2000
  | .term => 1000
  | .kill => 1000

/-- Where `server_request_shutdown` goes on after a signal. -/
def Signal.next : Signal → ChildPc
  | .hup => .lockPoll .term 0
  | .term => .lockPoll .kill 0
  | .kill => .lockBlocking

/-- Whether `waitpid` can return this: the status of a child that has exited; that it has not exited yet, when it is not to block;
an error at any time. -/
def Proc.allows (proc : Proc) (hang : Bool) : WaitResult → Bool
  | .status status => decide (proc = .exited status)
  | .notYet => !hang && decide (proc = .running)
  | .interrupted | .noChild | .failed => true

/-- The actions: the child, or what it started, closes the terminal; the child exits; a request begins; the PTY thread sees the end
of the terminal; a thread goes on, and `waitpid` returns what the action says if it is called. -/
inductive ChildAct where
  | closeTerminal
  | exit (status : Nat)
  | request (t : Nat)
  | eof
  | thread (who : Who) (r : WaitResult)

/-- `pthread_mutex_lock(&srv->child_mu)`. -/
def ChildSys.lock (s : ChildSys) (who : Who) (p : ChildPc) : Outcome ChildSys :=
  if s.holder = none then .next ({ s with holder := some who }.goto who p) else .blocked

/-- `pthread_mutex_unlock(&srv->child_mu)`. -/
def ChildSys.unlock (s : ChildSys) (who : Who) (p : ChildPc) : ChildSys := { s with holder := none }.goto who p

/-- `waitpid` returns a status. -/
def ChildSys.waited (s : ChildSys) (who : Who) (status : Nat) : ChildSys :=
  { s with proc := .reaped }.record who (.waited status)

/-- `child_reaped = 1`, and `child_status` if there is one. -/
def ChildSys.reap (s : ChildSys) (who : Who) (status : Option Nat) : ChildSys :=
  { s with childReaped := true, childStatus := status.getD s.childStatus }.record who (.reaped status)

/-- One call of `waitpid` in `server_poll_child_locked`, or none when `child_reaped` is set. -/
def serverPollChildLocked (s : ChildSys) (who : Who) (sig : Signal) (waited : Nat) (r : WaitResult) : Outcome ChildSys :=
  if s.childReaped then .next (s.goto who (.unlockPoll sig waited .gone))
  else if s.proc.allows false r then
    match r with
    | .status status => .next ((s.waited who status).goto who (.storePoll sig waited status))
    | .notYet => .next (s.goto who (.unlockPoll sig waited .running))
    | .interrupted => .next s
    | .noChild => .next ((s.reap who none).goto who (.unlockPoll sig waited .gone))
    | .failed => .next (s.goto who (.unlockPoll sig waited .failed))
  else .blocked

/-- One turn of the loop of `server_wait_child_blocking`. -/
def serverWaitChildBlocking (s : ChildSys) (who : Who) (r : WaitResult) : Outcome ChildSys :=
  if s.childReaped then .next (s.goto who .unlockBlocking)
  else if s.proc.allows true r then
    match r with
    | .status status => .next ((s.waited who status).goto who (.storeBlocking status))
    | .interrupted => .next s
    | .noChild => .next ((s.reap who none).goto who .unlockBlocking)
    | .notYet | .failed => .next (s.goto who .unlockBlocking)
  else .blocked

/-- `kill`. -/
def ChildSys.kill (s : ChildSys) (sig : Signal) : ChildSys := { s with killed := s.killed || decide (sig = Signal.kill) }

/-- The section of `server_signal_child`. -/
def serverSignalChild (s : ChildSys) (who : Who) (sig : Signal) : ChildSys :=
  if s.childReaped then s.goto who (.unlockSignal sig)
  else ((s.kill sig).record who (.kill sig)).goto who (.unlockSignal sig)

/-- The end of a turn of `server_wait_child_deadline`, and where `server_request_shutdown` goes on after it. -/
def serverWaitChildDeadline (s : ChildSys) (who : Who) (sig : Signal) (waited : Nat) : PollResult → ChildSys
  | .gone | .failed => (s.record who .ended).unlock who .done
  | .running =>
    if sig.grace ≤ waited then (s.record who (.expired sig)).unlock who (.lockSignal sig)
    else s.unlock who (.lockPoll sig (waited + 50))

/-- An action of a thread. -/
def childThreadStep (s : ChildSys) (who : Who) (r : WaitResult) : Outcome ChildSys :=
  match s.pc who with
  | .idle | .reading | .done => .blocked
  | .lockPoll sig waited => s.lock who (.poll sig waited)
  | .poll sig waited => serverPollChildLocked s who sig waited r
  | .storePoll sig waited status => .next ((s.reap who (some status)).goto who (.unlockPoll sig waited .gone))
  | .unlockPoll sig waited done => .next (serverWaitChildDeadline s who sig waited done)
  | .lockSignal sig => s.lock who (.signal sig)
  | .signal sig => .next (serverSignalChild s who sig)
  | .unlockSignal sig => .next (s.unlock who sig.next)
  | .lockBlocking => s.lock who .blocking
  | .blocking => serverWaitChildBlocking s who r
  | .storeBlocking status => .next ((s.reap who (some status)).goto who .unlockBlocking)
  | .unlockBlocking => .next (s.unlock who .done)

/-- One action. -/
def childStep (s : ChildSys) : ChildAct → Outcome ChildSys
  | .closeTerminal => .next { s with terminal := false }
  | .exit status => if s.proc = .running then .next { s with proc := .exited status } else .blocked
  | .request t => if s.pc (.request t) = .idle then .next (s.goto (.request t) (.lockPoll .hup 0)) else .blocked
  | .eof => if s.pc .pty = .reading ∧ s.terminal = false then .next (s.goto .pty .lockBlocking) else .blocked
  | .thread who r => childThreadStep s who r

end ZeroPty
