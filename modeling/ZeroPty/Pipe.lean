import ZeroPty.Lib.Transition
import ZeroPty.Server

/-!
# The byte pipe

One attached client with its server and a child, from the keys that are typed to the bytes that are printed: the loop of `run_session`,
the loop of `client_thread_main`, the loop of `pty_thread_main`, and a child that writes each byte it reads back to its terminal before
it reads the next. The two directions of the socket and the two of the terminal are queues of bytes with a capacity; a write to a full
queue and a read from an empty one wait. An action moves one byte, or is one `poll` or `read` of several.

Standard input stays open, the window keeps its size, and what the client prints is taken at once.
-/

namespace ZeroPty

open Transition

/-- The capacities: the socket to the server and to the client, the input and the output of the terminal. -/
structure PipeCaps where
  toServer : Nat
  toClient : Nat
  ptyIn : Nat
  ptyOut : Nat

/-- What a client that sends goes on with: after an ACK with its standard input when that was ready, after a chunk of it with `poll`. -/
inductive ClientSend where
  | ack (stdinReady : Bool)
  | stdin
  deriving DecidableEq, Repr

/-- Where `run_session` is: in `poll`, in `opty_recv_frame` with the bytes it got so far, in a send with the bytes left, in front of the
`read` of its standard input, or past its loop. -/
inductive PipeClient where
  | poll
  | recv (got : List UInt8) (stdinReady : Bool)
  | send (left : List UInt8) (k : ClientSend)
  | readStdin
  | exited
  deriving DecidableEq, Repr

/-- Where `client_thread_main` is: in `opty_recv_frame`, in `server_write_pty`, or past its loop. -/
inductive PipeThread where
  | recv (got : List UInt8)
  | write (left : List UInt8)
  | exited
  deriving DecidableEq, Repr

/-- Where `pty_thread_main` is: in its `read`, or in the send of `server_broadcast_stdout`. -/
inductive PipePty where
  | read
  | send (left : List UInt8)
  deriving DecidableEq, Repr

/-- Where the child is: in its `read`, or writing a byte back. -/
inductive PipeChild where
  | read
  | echo (b : UInt8)
  deriving DecidableEq, Repr

/-- The four parties, the four queues, what is still to be typed and what was printed, and the sequence numbers of both sides. -/
structure Pipe where
  stdin : List UInt8
  client : PipeClient
  toServer : List UInt8
  thread : PipeThread
  ptyIn : List UInt8
  child : PipeChild
  ptyOut : List UInt8
  pty : PipePty
  toClient : List UInt8
  nextSeq : UInt64
  lastSeq : UInt64
  printed : List UInt8

/-- An attached client, with nothing under way. -/
def Pipe.init (input : List UInt8) (seq : UInt64) : Pipe :=
  { stdin := input, client := .poll, toServer := [], thread := .recv [], ptyIn := [], child := .read, ptyOut := [], pty := .read,
    toClient := [], nextSeq := seq, lastSeq := seq, printed := [] }

/-- The actions, by party. `typed` says whether `poll` finds standard input ready, and `n` how much a `read` returns. -/
inductive PipeAct where
  | client (typed : Bool) (n : Nat)
  | thread
  | pty (n : Nat)
  | child
  deriving DecidableEq, Repr

/-- A blocking write puts its next byte into a queue: the queue and what is left. None while the queue is full. -/
def offer (cap : Nat) (queue : List UInt8) : List UInt8 → Option (List UInt8 × List UInt8)
  | [] => some (queue, [])
  | b :: left => if queue.length < cap then some (queue ++ [b], left) else none

/-- What `opty_recv_frame` has come to with these bytes: it waits for more, has its frame, or fails. -/
inductive Receipt where
  | more
  | frame (f : Frame)
  | failed
  deriving DecidableEq, Repr

/-- `opty_recv_frame` when these bytes have come in; it waits where a stream that ends here would be cut short. -/
def receipt (got : List UInt8) : Receipt :=
  match (optyRecvFrame true ⟨got, []⟩).1 with
  | .ok (some f) => .frame f
  | .ok none => .more
  | .error .econnreset => .more
  | .error _ => .failed

/-- The size of a chunk, `sizeof(buf)` in both loops. -/
def chunkSize : Nat := 4096

/-! ## The client -/

/-- After the frame of this iteration, standard input if it was ready. -/
def afterFrame (stdinReady : Bool) : PipeClient := if stdinReady then .readStdin else .poll

def ClientSend.next : ClientSend → PipeClient
  | .ack stdinReady => afterFrame stdinReady
  | .stdin => .poll

/-- `process_server_frame`, up to the send of the ACK. -/
def Pipe.processFrame (s : Pipe) (f : Frame) (stdinReady : Bool) : Pipe :=
  if f.type = msgWelcome then { s with client := afterFrame stdinReady }
  else if f.type = msgStdout ∨ f.type = msgReplay then
    match optyParseStream f with
    | some (.ok (seq, data)) =>
      let frameEnd := seq + UInt64.ofNat data.length
      let lastSeq := if s.lastSeq < frameEnd then frameEnd else s.lastSeq
      { s with printed := s.printed ++ data, lastSeq := lastSeq, client := .send (frameBytes (Msg.ack lastSeq).frame) (.ack stdinReady) }
    | _ => { s with client := .exited }
  else { s with client := .exited }

/-- One action of the client. -/
def pipeClientStep (caps : PipeCaps) (s : Pipe) (typed : Bool) (n : Nat) : Outcome Pipe :=
  match s.client with
  | .poll =>
    let stdinReady := typed && !s.stdin.isEmpty
    if !s.toClient.isEmpty then .next { s with client := .recv [] stdinReady }
    else if stdinReady then .next { s with client := .readStdin }
    else .blocked
  | .recv got stdinReady =>
    match s.toClient with
    | [] => .blocked
    | b :: rest =>
      match receipt (got ++ [b]) with
      | .more => .next { s with toClient := rest, client := .recv (got ++ [b]) stdinReady }
      | .frame f => .next (({ s with toClient := rest } : Pipe).processFrame f stdinReady)
      | .failed => .next { s with toClient := rest, client := .exited }
  | .send left k =>
    match offer caps.toServer s.toServer left with
    | none => .blocked
    | some (queue, []) => .next { s with toServer := queue, client := k.next }
    | some (queue, left) => .next { s with toServer := queue, client := .send left k }
  | .readStdin =>
    if 1 ≤ n ∧ n ≤ chunkSize ∧ n ≤ s.stdin.length then
      .next { s with stdin := s.stdin.drop n, client := .send (frameBytes ⟨msgStdin, s.stdin.take n⟩) .stdin }
    else .blocked
  | .exited => .blocked

/-! ## The server and the child -/

/-- The loop of `client_thread_main` after a receive. The `ioctl` of a resize does not wait. -/
def LoopMove.pipeThread : LoopMove → PipeThread
  | .leave => .exited
  | .again => .recv []
  | .write payload => if payload.length = 0 then .recv [] else .write payload
  | .resize _ _ => .recv []

/-- One action of the client thread. -/
def pipeThreadStep (caps : PipeCaps) (s : Pipe) : Outcome Pipe :=
  match s.thread with
  | .recv got =>
    match s.toServer with
    | [] => .blocked
    | b :: rest =>
      match receipt (got ++ [b]) with
      | .more => .next { s with toServer := rest, thread := .recv (got ++ [b]) }
      | .frame f =>
        .ofOption ((loopMove (.ok (some f))).map fun m => { s with toServer := rest, thread := m.pipeThread })
      | .failed => .next { s with toServer := rest, thread := .exited }
  | .write left =>
    match offer caps.ptyIn s.ptyIn left with
    | none => .blocked
    | some (queue, []) => .next { s with ptyIn := queue, thread := .recv [] }
    | some (queue, left) => .next { s with ptyIn := queue, thread := .write left }
  | .exited => .blocked

/-- One action of the PTY thread. The client is attached and has all that was read before, so it is sent the whole chunk. -/
def pipePtyStep (caps : PipeCaps) (s : Pipe) (n : Nat) : Outcome Pipe :=
  match s.pty with
  | .read =>
    if 1 ≤ n ∧ n ≤ chunkSize ∧ n ≤ s.ptyOut.length then
      .next { s with
        ptyOut := s.ptyOut.drop n, nextSeq := s.nextSeq + UInt64.ofNat n
        pty := .send (frameBytes (Msg.stdout s.nextSeq (s.ptyOut.take n)).frame) }
    else .blocked
  | .send left =>
    match offer caps.toClient s.toClient left with
    | none => .blocked
    | some (queue, []) => .next { s with toClient := queue, pty := .read }
    | some (queue, left) => .next { s with toClient := queue, pty := .send left }

/-- One action of the child. -/
def pipeChildStep (caps : PipeCaps) (s : Pipe) : Outcome Pipe :=
  match s.child with
  | .read =>
    match s.ptyIn with
    | [] => .blocked
    | b :: rest => .next { s with ptyIn := rest, child := .echo b }
  | .echo b =>
    match offer caps.ptyOut s.ptyOut [b] with
    | none => .blocked
    | some (queue, _) => .next { s with ptyOut := queue, child := .read }

/-- One action. -/
def pipeStep (caps : PipeCaps) (s : Pipe) : PipeAct → Outcome Pipe
  | .client typed n => pipeClientStep caps s typed n
  | .thread => pipeThreadStep caps s
  | .pty n => pipePtyStep caps s n
  | .child => pipeChildStep caps s

end ZeroPty
