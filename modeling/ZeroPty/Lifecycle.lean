import ZeroPty.Sockets
import ZeroPty.Client

/-!
# The life of a client

`run_client_endpoint`: its checks, the terminal and the log, and its loop over attempts to connect with the pauses between them. What a
session comes to is part of the attempt; `Client` and `Signals` say what it does. `intros` and `delays` are there for the theorems only:
what each session introduced itself with, and the pauses.
-/

namespace ZeroPty

open Resources

/-! ## The terminal -/

/-- The terminal and what the process knows of it: `g_raw_mode_enabled`, and whether `restore_terminal` is called at exit. -/
structure Terminal where
  raw : Bool
  rawModeEnabled : Bool
  atexit : Bool
  deriving DecidableEq, Repr

/-- What the calls for the terminal come to: `isatty`, `tcgetattr`, and `tcsetattr` to raw mode and back. -/
structure TerminalWorld where
  isatty : Bool
  tcgetattr : Bool
  setRaw : Bool
  setSaved : Bool

/-- As the client finds it. -/
def Terminal.start : Terminal := ⟨false, false, false⟩

/-- `enable_raw_mode` -/
def enableRawMode (w : TerminalWorld) (t : Terminal) : Option Terminal :=
  if w.isatty = false then some t
  else if w.tcgetattr = false then none
  else if w.setRaw = false then none
  else some { raw := true, rawModeEnabled := true, atexit := true }

/-- `restore_terminal` -/
def restoreTerminal (w : TerminalWorld) (t : Terminal) : Terminal :=
  if t.rawModeEnabled then { t with raw := if w.setSaved then false else t.raw, rawModeEnabled := false } else t

/-- `exit` -/
def Terminal.exit (w : TerminalWorld) (t : Terminal) : Terminal := if t.atexit then restoreTerminal w t else t

/-! ## Pauses -/

/-- `OPTY_RETRY_MAX_DELAY_SEC` -/
def optyRetryMaxDelaySec : Nat := 8

/-- The loop of `sleep_retry_interval`. -/
def retryDelayLoop : Nat → Nat → Nat
  | 0, delay => delay
  | failures + 1, delay => if 0 < failures ∧ delay < optyRetryMaxDelaySec then retryDelayLoop failures (delay * 2) else delay

/-- The pause of `sleep_retry_interval`, in seconds. -/
def sleepRetryInterval (failures : UInt32) : Nat := min (retryDelayLoop failures.toNat 1) optyRetryMaxDelaySec

/-! ## The loop -/

/-- What a pass through the loop meets: `g_terminate_pending`, the addresses, and what `run_session` returns and leaves in
`last_seq`. -/
structure Attempt where
  terminate : Bool
  found : Option (List Address)
  sessionRc : Int
  lastSeq : UInt64

/-- The locals of `run_client_endpoint`. An intro is none for HELLO, and the sequence number of a RECONNECT. -/
structure ClientRun where
  connectedOnce : Bool
  retryFailures : UInt32
  lastSeq : UInt64
  intros : List (Option UInt64)
  delays : List Nat
  deriving DecidableEq, Repr

/-- Before the loop. -/
def ClientRun.start : ClientRun := ⟨false, 0, 0, [], []⟩

/-- `retry_failures++` and the pause. -/
def ClientRun.pause (s : ClientRun) : ClientRun :=
  { s with retryFailures := s.retryFailures + 1, delays := s.delays ++ [sleepRetryInterval (s.retryFailures + 1)] }

/-- A session. -/
def ClientRun.session (s : ClientRun) (a : Attempt) : ClientRun :=
  { s with
    connectedOnce := true
    retryFailures := 0
    lastSeq := a.lastSeq
    intros := s.intros ++ [if s.connectedOnce then some s.lastSeq else none] }

/-- One pass through the loop: the status it is left with, none when it goes on. -/
def clientPass (retry : Bool) (s : ClientRun) (a : Attempt) : Usage Handle (Option Nat × ClientRun) :=
  if a.terminate then pure (some 0, s)
  else do
    match ← connectEndpoint a.found with
    | none => if retry then pure (none, s.pause) else pure (some 1, s)
    | some (sock, _) => do
      release (.fd sock)
      if a.sessionRc = 0 then pure (some 0, s.session a)
      else if 0 < a.sessionRc then if retry then pure (none, (s.session a).pause) else pure (some 1, s.session a)
      else pure (some 1, s.session a)

/-- The loop; without a status when it is in progress after these attempts. -/
def clientLoop (retry : Bool) : ClientRun → List Attempt → Usage Handle (Option Nat × ClientRun)
  | s, [] => pure (none, s)
  | s, a :: attempts => do
    let r ← clientPass retry s a
    if r.1 = none then clientLoop retry r.2 attempts else pure r

/-! ## `run_client_endpoint` -/

/-- What `run_client_endpoint` meets before its loop. The log is none without a path; its calls are `open` and `fchmod`. -/
structure EndpointWorld where
  token : Option CString
  sigaction : Bool
  terminal : TerminalWorld
  log : Option (Bool × Bool)

/-- What `run_client_endpoint` comes to: its status, none while it runs, the terminal, and the loop. -/
structure EndpointRun where
  status : Option Nat
  terminal : Terminal
  run : ClientRun

/-- `open_scrollback_log` -/
def openScrollbackLog (opens fchmod : Bool) : Usage Handle (Option Nat) :=
  if opens then do
    let fd ← descriptors.take
    if fchmod then pure (some fd)
    else do
      release (.fd fd)
      pure none
  else pure none

/-- The loop, the close of the log, and the terminal. -/
def clientEnd (w : EndpointWorld) (retry : Bool) (t : Terminal) (log : Option Nat) (attempts : List Attempt) :
    Usage Handle EndpointRun := do
  let r ← clientLoop retry .start attempts
  match r.1 with
  | none => pure ⟨none, t, r.2⟩
  | some status => do
    match log with
    | some fd => release (.fd fd)
    | none => pure ()
    pure ⟨some status, restoreTerminal w.terminal t, r.2⟩

/-- `run_client_endpoint` -/
def runClientEndpoint (w : EndpointWorld) (retry : Bool) (attempts : List Attempt) : Usage Handle EndpointRun :=
  if optyMaxToken < (tokenBytes w.token).length then pure ⟨some 1, .start, .start⟩
  else if w.sigaction = false then pure ⟨some 1, .start, .start⟩
  else
    match enableRawMode w.terminal .start with
    | none => pure ⟨some 1, .start, .start⟩
    | some t =>
      match w.log with
      | none => clientEnd w retry t none attempts
      | some (opens, fchmod) => do
        match ← openScrollbackLog opens fchmod with
        | none => pure ⟨some 1, t, .start⟩
        | some fd => clientEnd w retry t (some fd) attempts

end ZeroPty
