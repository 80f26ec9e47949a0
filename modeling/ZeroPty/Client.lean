import ZeroPty.Threads

/-!
# A client next to the server

`run_client_endpoint` and its sessions, as one more process beside the threads of the server. An action of the client is one pass
through a branch of its loops. What it reads from a connection is a part of what the server has written to it: a `recv` action
says how much of that the connection still hands out, and where it ends or fails, so a connection may be cut at any byte.

The retries after EINTR around `opty_recv_frame` and the senders are not represented: they never fail with it. `pos` is how much
of a connection was consumed. The fields `acks` and `replays` are there for the theorems only: the values passed to
`opty_send_ack`, and the connections a REPLAY was received on.
-/

namespace ZeroPty

open Stream Memory Transition

/-! ## Frames -/

/-- `write_stdout_bytes`. -/
def writeStdoutBytes (out : Sink Errno) (data : List UInt8) : Except Errno Unit × Sink Errno :=
  if data.length = 0 then (.ok (), out)
  else
    let r := optyWriteFull out data
    (r.1.map fun _ => (), r.2)

/-- `write_scrollback`; `none` is a descriptor of -1. -/
def writeScrollback (log : Option (Sink Errno)) (data : List UInt8) : Except Errno Unit × Option (Sink Errno) :=
  match log with
  | none => (.ok (), none)
  | some fd =>
    if data.length = 0 then (.ok (), some fd)
    else
      let r := optyWriteFull fd data
      (r.1.map fun _ => (), some r.2)

/-- `write_stderr_bytes`, whose results are ignored. -/
def writeStderrBytes (err : Sink Errno) (data : List UInt8) : Sink Errno :=
  (optyWriteFull (if 0 < data.length then (optyWriteFull err data).2 else err) [10]).2

/-- What the client keeps across its sessions. -/
structure ClientState where
  out : Sink Errno
  err : Sink Errno
  scrollback : Option (Sink Errno)
  lastSeq : UInt64 := 0
  connectedOnce : Bool := false
  acks : List UInt64 := []

/-- `process_server_frame`: what it returns, the socket, the client and whether it saw a WELCOME. -/
def processServerFrame (sock : Sink Errno) (c : ClientState) (sawWelcome : Bool) (frame : Frame) :
    Option (Int × Sink Errno × ClientState × Bool) :=
  if frame.type = msgWelcome then
    (optyParseWelcome frame).map fun parsed =>
      match parsed with
      | .error _ => (-1, sock, c, sawWelcome)
      | .ok _ => (0, sock, c, true)
  else if frame.type = msgStdout ∨ frame.type = msgReplay then
    (optyParseStream frame).map fun parsed =>
      match parsed with
      | .error _ => (-1, sock, c, sawWelcome)
      | .ok (seq, data) =>
        match writeStdoutBytes c.out data with
        | (.error _, out) => (-1, sock, { c with out := out }, sawWelcome)
        | (.ok (), out) =>
          match writeScrollback c.scrollback data with
          | (.error _, log) => (-1, sock, { c with out := out, scrollback := log }, sawWelcome)
          | (.ok (), log) =>
            let frameEnd := seq + UInt64.ofNat data.length
            let lastSeq := if c.lastSeq < frameEnd then frameEnd else c.lastSeq
            let c1 := { c with out := out, scrollback := log, lastSeq := lastSeq, acks := c.acks ++ [lastSeq] }
            match optySendAck sock lastSeq with
            | (.ok (), sock1) => (0, sock1, c1, sawWelcome)
            | (.error _, sock1) => (1, sock1, c1, sawWelcome)
  else if frame.type = msgError then some (-1, sock, { c with err := writeStderrBytes c.err frame.payload }, sawWelcome)
  else some (-1, sock, c, sawWelcome)

/-- `get_terminal_size`: `stdin` and `stdout` are what TIOCGWINSZ says of the two. -/
def getTerminalSize (stdin stdout : Except Errno (UInt16 × UInt16)) : UInt16 × UInt16 :=
  let found := fun ws : UInt16 × UInt16 => (if 0 < ws.1 then ws.1 else 80, if 0 < ws.2 then ws.2 else 24)
  match stdin with
  | .ok ws => found ws
  | .error _ =>
    match stdout with
    | .ok ws => found ws
    | .error _ => (80, 24)

/-- `send_intro` with the size of the terminal. -/
def sendIntro (sock : Sink Errno) (reconnect : Bool) (lastSeq : UInt64) (cols rows : UInt16) (token : Option CString) :
    Except Errno Unit × Sink Errno :=
  if reconnect then optySendReconnect sock lastSeq cols rows token else optySendHello sock cols rows token

/-! ## The client and the server -/

/-- The arguments of `run_client_endpoint` that matter after its checks; it refuses a longer token. -/
structure ClientArgs where
  token : Option CString
  fits : (tokenBytes token).length ≤ optyMaxToken
  retry : Bool

/-- Where the client is: about to connect, in a session over connection `i`, or done. -/
inductive ClientPc where
  | connecting
  | session (i pos : Nat) (sock : Sink Errno) (sawWelcome : Bool)
  | exited (status : Nat)

/-- The server and one client of it. -/
structure World where
  server : Sys
  args : ClientArgs
  client : ClientState
  pc : ClientPc
  replays : List Nat

/-- The server when its threads start, and a client that is started next to it. -/
def World.init (server : Sys) (args : ClientArgs) (out err : Sink Errno) (scrollback : Option (Sink Errno)) : World :=
  { server := server, args := args, client := { out := out, err := err, scrollback := scrollback }, pc := .connecting,
    replays := [] }

/-- The actions: one of the server; the client's connection is accepted, and it sends its intro over it (`input` is all that the
server will read from it, and `sched` and `clientSched` how its two ends take what is written); it cannot connect; it receives a
frame; it sends the size of the terminal, or what was typed; it finds that it was told to terminate; `poll` fails. `pending` is
`g_terminate_pending` as it is found when a call of the action has failed. -/
inductive WorldAct where
  | server (a : Act)
  | connect (cols rows : UInt16) (input : Source Errno) (sched clientSched : List (WriteEvent Errno)) (pending : Bool)
  | refused
  | recv (stream : Source Errno) (alloc pending : Bool)
  | resize (cols rows : UInt16) (pending : Bool)
  | stdin (data : List UInt8) (pending : Bool)
  | terminate
  | pollFailed

/-- `run_client_endpoint` after `run_session` returned. -/
def World.endSession (w : World) (rc : Int) : World :=
  { w with
    client := { w.client with connectedOnce := true }
    pc := if rc = 0 then .exited 0 else if 0 < rc ∧ w.args.retry then .connecting else .exited 1 }

/-- What `run_session` returns after a call that failed: 0 when the client was told to terminate. -/
def failedRc (pending : Bool) (rc : Int) : Int := if pending then 0 else rc

/-- A send of the session over its socket: it goes on, or ends. -/
def World.afterSend (w : World) (i pos : Nat) (sawWelcome pending : Bool) (r : Except Errno Unit × Sink Errno) : World :=
  match r with
  | (.ok (), sock) => { w with pc := .session i pos sock sawWelcome }
  | (.error _, sock) => ({ w with pc := .session i pos sock sawWelcome }).endSession (failedRc pending 1)

/-- What the server reads from a connection and what the client wrote to it are the start of one stream. -/
def Agree (a b : List UInt8) : Prop := a <+: b ∨ b <+: a

instance (a b : List UInt8) : Decidable (Agree a b) := inferInstanceAs (Decidable (_ ∨ _))

/-- One action. -/
def worldStep (w : World) : WorldAct → Outcome World
  | .server a =>
    match step w.server a with
    | .blocked => .blocked
    | .fault => .fault
    | .next s => .next { w with server := s }
  | .connect cols rows input sched clientSched pending =>
    match w.pc with
    | .connecting =>
      let r := sendIntro { sched := clientSched } w.client.connectedOnce w.client.lastSeq cols rows w.args.token
      if Agree input.bytes r.2.written then
        match step w.server (.accept input sched true) with
        | .blocked => .blocked
        | .fault => .fault
        | .next s => .next (({ w with server := s }).afterSend w.server.count 0 false pending r)
      else .blocked
    | _ => .blocked
  | .refused =>
    match w.pc with
    | .connecting => .next (if w.args.retry then w else { w with pc := .exited 1 })
    | _ => .blocked
  | .recv stream alloc pending =>
    match w.pc with
    | .session i pos sock sawWelcome =>
      if stream.bytes <+: (w.server.conn i).sock.written.drop pos then
        match optyRecvFrame alloc stream with
        | (.ok none, _) => .next (w.endSession 0)
        | (.error _, _) => .next (w.endSession (failedRc pending 1))
        | (.ok (some frame), rest) =>
          .ofOption ((processServerFrame sock w.client sawWelcome frame).map fun r =>
            let pos1 := pos + (stream.bytes.length - rest.bytes.length)
            let replays := if frame.type = msgReplay then w.replays ++ [i] else w.replays
            let w1 := { w with client := r.2.2.1, pc := .session i pos1 r.2.1 r.2.2.2, replays := replays }
            if r.1 = 0 then w1 else w1.endSession (if r.1 < 0 then failedRc pending (-1) else 1))
      else .blocked
    | _ => .blocked
  | .resize cols rows pending =>
    match w.pc with
    | .session i pos sock true => .next (w.afterSend i pos true pending (optySendResize sock cols rows))
    | _ => .blocked
  | .stdin data pending =>
    match w.pc with
    | .session i pos sock sawWelcome =>
      if data.length = 0 then .next (w.endSession 0)
      else .next (w.afterSend i pos sawWelcome pending (optySendStdin sock (.mem data)))
    | _ => .blocked
  | .terminate =>
    match w.pc with
    | .connecting => .next { w with pc := .exited 0 }
    | .session _ _ _ _ => .next (w.endSession 0)
    | .exited _ => .blocked
  | .pollFailed =>
    match w.pc with
    | .session _ _ _ _ => .next (w.endSession 1)
    | _ => .blocked

end ZeroPty
