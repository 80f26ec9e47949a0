import Mathlib.Logic.Function.Basic
import ZeroPty.Lib.Transition
import ZeroPty.Server

/-!
# Input to the terminal

The client threads as far as they write to the PTY master, down to the single `write`: `client_thread_main` after an attach, with
`server_write_pty` and `server_resize_pty`, and `server_request_shutdown` up to its input. An action is one system call of one thread,
or its taking or giving up `pty_mu`. What the system call does is chosen by the action.

The list of the writes that returned is there for the theorems only, and no branch reads it.
-/

namespace ZeroPty

open Transition

/-- What a connection does: an attached client sends frames, a control request stops the server with an input. -/
inductive Sender where
  | client (frames : List Frame)
  | control (input : List UInt8)

/-- Who calls `server_write_pty`: the loop of a client, which ends when the write fails, or `server_request_shutdown`. -/
inductive InputKind where
  | stdin
  | graceful
  deriving DecidableEq, Repr

/-- Where a thread is: in `opty_recv_frame`; at the top of `server_request_shutdown`; in `server_write_pty`, before it has `pty_mu`, in
`opty_write_full` after `total` bytes, or before it gives `pty_mu` up; in `server_resize_pty` likewise; or past all of it. -/
inductive InputPc where
  | recv
  | request (input : List UInt8)
  | lock (data : List UInt8) (kind : InputKind)
  | write (data : List UInt8) (total : Nat) (kind : InputKind)
  | unlock (ok : Bool) (kind : InputKind)
  | lockResize (cols rows : UInt16)
  | ioctl (cols rows : UInt16)
  | unlockResize (ok : Bool)
  | left
  deriving DecidableEq, Repr

/-- A connection: the frames it still sends, and its thread. -/
structure InputConn where
  frames : List Frame
  pc : InputPc

/-- What `opty_write_full` did for a connection: how many bytes of the data were accepted, and whether it returned their number. -/
structure InputBlock where
  conn : Nat
  data : List UInt8
  written : Nat
  ok : Bool
  deriving DecidableEq, Repr

/-- The server: who has `pty_mu`, what the terminal accepted, the connections, and the writes that returned. -/
structure InputSys where
  holder : Option Nat
  accepted : List UInt8
  conn : Nat → InputConn
  blocks : List InputBlock

/-- A connection before its first action. -/
def Sender.start : Sender → InputConn
  | .client frames => ⟨frames, .recv⟩
  | .control input => ⟨[], .request input⟩

/-- The server before any action. -/
def InputSys.init (senders : Nat → Sender) : InputSys := ⟨none, [], fun i => (senders i).start, []⟩

/-- What a `write` returns: a positive count, zero, or -1 with `EINTR` or another error. -/
inductive WriteResult where
  | accepts (n : Nat)
  | zero
  | interrupted
  | fails
  deriving DecidableEq, Repr

/-- What the system calls of an action do: whether `opty_recv_frame` gets the next frame, the `write`, and the `ioctl`. -/
structure InputEnv where
  recv : Bool
  write : WriteResult
  ioctl : Bool

/-- The thread goes to a place. -/
def InputSys.goto (s : InputSys) (i : Nat) (pc : InputPc) : InputSys :=
  { s with conn := Function.update s.conn i { s.conn i with pc := pc } }

/-- Where `server_write_pty` returns to. -/
def InputKind.next (ok : Bool) : InputKind → InputPc
  | .stdin => if ok then .recv else .left
  | .graceful => .left

/-- `server_write_pty` is called; a length of zero returns at once. -/
def serverWritePtyCall (data : List UInt8) (kind : InputKind) : InputPc := if data.length = 0 then kind.next true else .lock data kind

/-- The branches of the loop of a client. -/
def LoopMove.inputPc : LoopMove → InputPc
  | .leave => .left
  | .again => .recv
  | .write payload => serverWritePtyCall payload .stdin
  | .resize cols rows => .lockResize cols rows

/-- `opty_write_full` returns after `total` bytes. -/
def InputSys.returns (s : InputSys) (i : Nat) (data : List UInt8) (total : Nat) (ok : Bool) (kind : InputKind) : InputSys :=
  { s.goto i (.unlock ok kind) with blocks := s.blocks ++ [⟨i, data, total, ok⟩] }

/-- `opty_write_full` after a `write`. -/
def optyWriteFullStep (s : InputSys) (i : Nat) (data : List UInt8) (total : Nat) (kind : InputKind) : WriteResult → Outcome InputSys
  | .accepts n =>
    if 0 < n ∧ n ≤ data.length - total then
      let s' := { s with accepted := s.accepted ++ (data.drop total).take n }
      if total + n < data.length then .next (s'.goto i (.write data (total + n) kind))
      else .next (s'.returns i data (total + n) true kind)
    else .blocked
  | .zero => .next (s.returns i data total false kind)
  | .interrupted => .next s
  | .fails => .next (s.returns i data total false kind)

/-- One action of the thread of connection `i`. -/
def inputStep (s : InputSys) (a : Nat × InputEnv) : Outcome InputSys :=
  let i := a.1
  match (s.conn i).pc with
  | .recv =>
    match a.2.recv, (s.conn i).frames with
    | true, frame :: frames =>
      .ofOption ((loopMove (.ok (some frame))).map fun move =>
        { s with conn := Function.update s.conn i ⟨frames, move.inputPc⟩ })
    | _, _ => .next (s.goto i .left)
  | .request input => .next (s.goto i (if 0 < input.length then serverWritePtyCall input .graceful else .left))
  | .lock data kind =>
    if s.holder = none then .next { s.goto i (.write data 0 kind) with holder := some i } else .blocked
  | .write data total kind => optyWriteFullStep s i data total kind a.2.write
  | .unlock ok kind => .next { s.goto i (kind.next ok) with holder := none }
  | .lockResize cols rows =>
    if s.holder = none then .next { s.goto i (.ioctl cols rows) with holder := some i } else .blocked
  | .ioctl _ _ => .next (s.goto i (.unlockResize a.2.ioctl))
  | .unlockResize ok => .next { s.goto i (if ok then .recv else .left) with holder := none }
  | .left => .blocked

end ZeroPty
