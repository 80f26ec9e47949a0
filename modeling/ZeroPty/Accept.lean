import ZeroPty.Threads

/-!
# The accept loop

The loop of `main` around `accept`: the flag that the signal handler sets, and what each error of `accept` leads to. Everything else
`main` and the other threads do is an action of `Threads`.
-/

namespace ZeroPty

open Transition

/-- The errors of `accept`. -/
inductive AcceptErrno where
  | eintr
  | ebadf
  | einval
  | emfile
  | enfile
  | enomem
  | enobufs
  | econnaborted
  | eproto
  | other (n : Nat)
  deriving DecidableEq, Repr

/-- The server with `g_shutdown_requested`. -/
structure Daemon where
  server : Sys
  shutdownRequested : Bool

/-- The server when its loop begins. -/
def Daemon.init (server : Sys) : Daemon := ⟨server, false⟩

/-- The actions: an action of a thread other than what `main` does about signals and errors of `accept`; SIGHUP, SIGINT, SIGTERM or
SIGQUIT is delivered; `main` is at the top of its loop; `accept` fails. -/
inductive DaemonAct where
  | thread (a : Act)
  | signal
  | top
  | acceptFailed (e : AcceptErrno)

/-- An action of the server, after which `g_shutdown_requested` is as given. -/
def Daemon.act (d : Daemon) (a : Act) (shutdownRequested : Bool) : Outcome Daemon :=
  match step d.server a with
  | .blocked => .blocked
  | .fault => .fault
  | .next s => .next ⟨s, shutdownRequested⟩

/-- `accept` fails. A listener that is open is neither a bad descriptor nor an invalid one. -/
def acceptFailedStep (d : Daemon) : AcceptErrno → Outcome Daemon
  | .eintr => if d.shutdownRequested then d.act (.signal false) false else .next d
  | .ebadf | .einval => d.act .leave d.shutdownRequested
  | .emfile | .enfile | .enomem | .enobufs => .next d
  | .econnaborted | .eproto | .other _ => d.act (.signal true) d.shutdownRequested

/-- One action. -/
def daemonStep (d : Daemon) : DaemonAct → Outcome Daemon
  | .thread (.signal _) | .thread .leave => .blocked
  | .thread a => d.act a d.shutdownRequested
  | .signal => .next { d with shutdownRequested := true }
  | .top => if d.server.main = .accept ∧ d.shutdownRequested then d.act (.signal false) false else .blocked
  | .acceptFailed e => if d.server.main = .accept then acceptFailedStep d e else .blocked

end ZeroPty
