import ZeroPty.Client

/-!
# Frames that are sent again

`opty_writev_full` as a machine that does one `writev` at a time, so that the descriptor can be looked at between any two of them, and
the loops of `run_session` and `process_server_frame` that send a frame again after EINTR.
-/

namespace ZeroPty

open Stream Transition

/-! ## One `writev` at a time -/

/-- Where `opty_writev_full` is: at the top of its loop, with the segments left and the bytes written so far, or back. -/
inductive WritevState where
  | running (cur : List (List UInt8)) (total : Nat) (fd : Sink Errno)
  | returned (r : Except Errno Nat) (fd : Sink Errno)

/-- The descriptor. -/
def WritevState.fd : WritevState → Sink Errno
  | .running _ _ fd | .returned _ fd => fd

/-- One pass through the loop. -/
def writevStep (s : WritevState) (_ : Unit) : Outcome WritevState :=
  match s with
  | .running cur total fd =>
    if cur = [] then .next (.returned (.ok total) fd)
    else
      match fd.write .epipe cur.flatten with
      | (.ok n, fd') => if 0 < n then .next (.running (iovAdvance cur n) (total + n) fd') else .next (.returned (.error .eio) fd')
      | (.error e, fd') => if e = .eintr then .next (.running cur total fd') else .next (.returned (.error e) fd')
  | .returned _ _ => .blocked

/-! ## Sending again -/

/-- A loop around a sender, with `fuel` calls of it at most. The sender and the flag `g_terminate_pending` after it may differ from call
to call; `failed` says what the loop returns after a failure, none when it goes on. The result is what the loop returns (none: it was
left after a success), the socket, and the number of calls. -/
def retryLoop (send : Nat → Sink Errno → Except Errno Unit × Sink Errno) (failed : Errno → Bool → Option Int)
    (terminate : Nat → Bool) : Nat → Nat → Sink Errno → Option (Option Int × Sink Errno × Nat)
  | 0, _, _ => none
  | fuel + 1, calls, sock =>
    match send calls sock with
    | (.ok (), sock') => some (none, sock', calls + 1)
    | (.error e, sock') =>
      match failed e (terminate calls) with
      | some rc => some (some rc, sock', calls + 1)
      | none => retryLoop send failed terminate fuel (calls + 1) sock'

/-- The failures of the loop in `process_server_frame`. -/
def ackFailed (e : Errno) (terminate : Bool) : Option Int := if e ≠ .eintr ∨ terminate then some 1 else none

/-- The failures of the loops in `run_session`. -/
def sessionFailed (e : Errno) (terminate : Bool) : Option Int :=
  if terminate then some 0 else if e ≠ .eintr then some 1 else none

variable (terminate : Nat → Bool) (fuel : Nat) (sock : Sink Errno)

/-- The loop around `opty_send_ack`. -/
def sendAckLoop (lastSeq : UInt64) : Option (Option Int × Sink Errno × Nat) :=
  retryLoop (fun _ sock => optySendAck sock lastSeq) ackFailed terminate fuel 0 sock

/-- The loop around `send_intro`. The size of the terminal is asked for in each call. -/
def sendIntroLoop (reconnect : Bool) (lastSeq : UInt64) (size : Nat → UInt16 × UInt16) (token : Option CString) :
    Option (Option Int × Sink Errno × Nat) :=
  retryLoop (fun n sock => sendIntro sock reconnect lastSeq (size n).1 (size n).2 token) sessionFailed terminate fuel 0 sock

/-- The loop around `send_resize_now`. -/
def sendResizeLoop (size : Nat → UInt16 × UInt16) : Option (Option Int × Sink Errno × Nat) :=
  retryLoop (fun n sock => optySendResize sock (size n).1 (size n).2) sessionFailed terminate fuel 0 sock

/-- The loop around `opty_send_stdin`. -/
def sendStdinLoop (data : List UInt8) : Option (Option Int × Sink Errno × Nat) :=
  retryLoop (fun _ sock => optySendStdin sock (.mem data)) sessionFailed terminate fuel 0 sock

end ZeroPty
