import Mathlib.Logic.Function.Basic
import ZeroPty.Lib.Transition
import ZeroPty.Server

/-!
# The threads of the server

`main`, which accepts connections; the PTY thread, which appends what the terminal says to the ring and broadcasts it; and one
thread for each connection. An action is one section of one thread under one mutex, or what the thread does between two; a
thread that waits for a mutex is a thread whose next action is blocked. `clients_mu`, `pty_mu` and `ring.mu` are never held
between two actions. `write_mu` is: an attaching client keeps it from the attach section to the end of its REPLAY.

What a system call does is chosen by the action (the bytes read from the terminal, a failed allocation, a failed
`pthread_create`) or was chosen when the connection was accepted (the bytes its peer sends, and how its socket takes what is
written). The escalation inside `server_request_shutdown` and the final wait for the child are one action each here.

Some fields are there for the theorems only, and no branch reads them: the log of everything appended, the bytes a peer sends,
what was attached, what the terminal received because of which connection, and which threads entered
`server_request_shutdown`.
-/

namespace ZeroPty

open Stream Memory Transition

/-! ## State -/

/-- The stages of `server_request_shutdown` after its input was written. -/
inductive Shutdown where
  | awaitChild
  | closeListener
  | shutdownClients
  deriving DecidableEq, Repr

/-- Where a client thread is: what it does next. -/
inductive ThreadPc where
  | starting
  | recvFirst
  | sendError (text : ErrorText)
  | resizeIntro (i : Intro)
  | attach (requestedSeq : UInt64)
  | sendWelcome (snap : Snapshot)
  | sendReplay (snap : Snapshot)
  | recvLoop
  | writePty (payload : List UInt8)
  | resizeLoop (cols rows : UInt16)
  | shutdownInput (input : List UInt8)
  | shutdown (stage : Shutdown)
  | finish
  | done
  deriving DecidableEq, Repr

/-- Where `main` is: in `accept`; in `server_add_client`, before `pthread_create` or after it failed; in
`server_request_shutdown`, to leave the loop afterwards or not; or out of the loop. -/
inductive MainPc where
  | accept
  | create (i : Nat)
  | drop (i : Nat)
  | shutdown (stage : Shutdown) (fatal : Bool)
  | left
  deriving DecidableEq, Repr

/-- Where the PTY thread is. In a broadcast, `snap` is the snapshot it holds and `todo` the clients of it that are still to be sent
to; `markDead` is the section for the client `i` its last send failed for. -/
inductive PtyPc where
  | read
  | append (chunk : List UInt8)
  | snapshot (seq : UInt64) (chunk : List UInt8)
  | send (seq : UInt64) (chunk : List UInt8) (snap todo : List Nat)
  | markDead (seq : UInt64) (chunk : List UInt8) (snap : List Nat) (i : Nat) (todo : List Nat)
  | closeListener
  | shutdownClients
  | awaitChild
  | done
  deriving DecidableEq, Repr

/-- A connection: its client, its thread, what is still to be read from its socket, and what was written to it. -/
structure Conn where
  cell : Cell Client
  pc : ThreadPc
  input : Source Errno
  sock : Sink Errno
  wire : List UInt8
  attached : Option Snapshot

/-- A number no connection has yet. -/
def Conn.none : Conn :=
  { cell := .fresh, pc := .done, input := ⟨[], []⟩, sock := {}, wire := [], attached := Option.none }

/-- What the terminal receives. -/
inductive PtyEffect where
  | bytes (data : List UInt8)
  | winsize (cols rows : UInt16)
  deriving DecidableEq, Repr

/-- The server. Connections are numbered in the order they were accepted; `clients` is the list behind `srv->clients`. -/
structure Sys where
  cfg : Config
  ring : Ring
  clients : List Nat
  conn : Nat → Conn
  count : Nat
  main : MainPc
  pty : PtyPc
  listening : Bool
  master : Sink Errno
  log : List UInt8
  effects : List (Nat × PtyEffect)
  requests : List Nat

/-- The server when its threads start. -/
def Sys.init (cfg : Config) (ring : Ring) (master : Sink Errno) : Sys :=
  { cfg := cfg, ring := ring, clients := [], conn := fun _ => .none, count := 0, main := .accept, pty := .read,
    listening := true, master := master, log := [], effects := [], requests := [] }

/-- Replace a connection. -/
def Sys.setConn (s : Sys) (i : Nat) (c : Conn) : Sys := { s with conn := Function.update s.conn i c }

/-! ## References and the list -/

/-- `shutdown(c->fd, SHUT_RDWR)`, or `close`: nothing is written to the socket any more. -/
def Conn.shut (c : Conn) : Conn := { c with sock := { c.sock with broken := true } }

/-- `client_free`; the mutex must not be locked. -/
def clientFree (c : Conn) : Option Conn :=
  match c.cell with
  | .live cl => if cl.writeLocked then none else some { c.shut with cell := .freed }
  | _ => none

/-- `client_release_locked`: whether the client was freed. -/
def clientReleaseLocked (c : Conn) : Option (Conn × Bool) :=
  match c.cell with
  | .live cl =>
    if cl.refs = 0 then some (c, false)
    else
      let refs := cl.refs - 1
      let c1 := { c with cell := .live { cl with refs := refs } }
      if refs = 0 then (clientFree c1).map fun c2 => (c2, true) else some (c1, false)
  | _ => none

/-- `client_release_many_locked`. -/
def clientReleaseManyLocked (c : Conn) : Nat → Option Conn
  | 0 => some c
  | refs + 1 => (clientReleaseLocked c).bind fun r => if r.2 then some r.1 else clientReleaseManyLocked r.1 refs

/-- The walk of `server_drop_from_list_locked`: it reads the link of every client before the one it is after. -/
def unlink (conn : Nat → Conn) (i : Nat) : List Nat → Option (List Nat)
  | [] => some []
  | j :: rest =>
    if j = i then some rest
    else
      match (conn j).cell with
      | .live _ => (unlink conn i rest).map fun rest' => j :: rest'
      | _ => none

/-- `server_drop_from_list_locked`: how many references the list held. -/
def serverDropFromListLocked (s : Sys) (i : Nat) : Option (Sys × Nat) :=
  match (s.conn i).cell with
  | .live cl =>
    if cl.inList then
      (unlink s.conn i s.clients).map fun clients =>
        ({ s.setConn i { s.conn i with cell := .live { cl with inList := false } } with clients := clients }, 1)
    else some (s, 0)
  | _ => none

/-- `server_mark_dead_locked`. -/
def serverMarkDeadLocked (s : Sys) (i : Nat) : Option (Sys × Nat) :=
  match (s.conn i).cell with
  | .live cl =>
    if cl.dead then serverDropFromListLocked s i
    else serverDropFromListLocked (s.setConn i { (s.conn i).shut with cell := .live { cl with dead := true } }) i
  | _ => none

/-- `client_release_many_locked(c, own + server_mark_dead_locked(srv, c))`: the section of `server_finish_client`, and of
`server_add_client` after a failed `pthread_create`, with one reference of its own; of `server_broadcast_stdout` with none. -/
def serverReleaseDead (own : Nat) (s : Sys) (i : Nat) : Option Sys :=
  (serverMarkDeadLocked s i).bind fun r =>
    (clientReleaseManyLocked (r.1.conn i) (own + r.2)).map fun c => r.1.setConn i c

/-- Every client of the list is there to be read. -/
def listLive (s : Sys) : Bool :=
  s.clients.all fun j => match (s.conn j).cell with | .live _ => true | _ => false

/-- The client is authenticated and not dead. -/
def Conn.isAttached (c : Conn) : Bool :=
  match c.cell with
  | .live cl => cl.authenticated && !cl.dead
  | _ => false

/-- A client with `n` more references. -/
def Conn.retain (c : Conn) (n : Nat) : Conn :=
  match c.cell with
  | .live cl => { c with cell := .live { cl with refs := cl.refs + n } }
  | _ => c

/-- `server_snapshot_clients`: the attached clients of the list, each with one more reference; none, when there are none or the
snapshot could not be allocated. -/
def serverSnapshotClients (s : Sys) (calloc : Bool) : Option (Sys × List Nat) :=
  if listLive s then
    let snap := s.clients.filter fun j => (s.conn j).isAttached
    if snap.length = 0 then some (s, [])
    else if calloc then some ({ s with conn := fun j => (s.conn j).retain (snap.count j) }, snap)
    else some (s, [])
  else none

/-- `server_release_snapshot`. -/
def serverReleaseSnapshot (s : Sys) : List Nat → Option Sys
  | [] => some s
  | i :: snap => (clientReleaseLocked (s.conn i)).bind fun r => serverReleaseSnapshot (s.setConn i r.1) snap

/-- `server_close_listener`. -/
def serverCloseListener (s : Sys) : Sys := { s with listening := false }

/-- `server_shutdown_clients`. -/
def serverShutdownClients (s : Sys) : Option Sys :=
  if listLive s then some { s with conn := fun j => if j ∈ s.clients then (s.conn j).shut else s.conn j } else none

/-! ## Actions -/

/-- What the system calls of a client thread's action do: the allocation of a replay, any other allocation, and the resize. -/
structure Env where
  malloc : Alloc UInt8
  alloc : Bool
  ioctl : Bool

/-- What a read of the terminal returns: bytes, an interruption, or its end (or another error). -/
inductive PtyRead where
  | got (chunk : List UInt8)
  | interrupted
  | ended

/-- The actions, by the thread that takes them: `main` accepts a connection (whose socket does what the action says), creates its
thread, drops its client after a failure, enters `server_request_shutdown` (on a signal, or for good on an error of `accept`),
goes on with it, or finds the listener closed; a client thread goes on; the PTY thread reads, or goes on. -/
inductive Act where
  | accept (input : Source Errno) (sched : List (WriteEvent Errno)) (calloc : Bool)
  | create (ok : Bool)
  | drop
  | signal (fatal : Bool)
  | main
  | leave
  | client (i : Nat) (env : Env)
  | ptyRead (r : PtyRead)
  | pty (alloc : Bool)

/-- The stages of `server_request_shutdown` after its input was written; `none` after the last. -/
def shutdownStep (s : Sys) : Shutdown → Option (Sys × Option Shutdown)
  | .awaitChild => some (s, some .closeListener)
  | .closeListener => some (serverCloseListener s, some .shutdownClients)
  | .shutdownClients => (serverShutdownClients s).map fun s' => (s', none)

/-- `main`. -/
def mainStep (s : Sys) : Act → Outcome Sys
  | .accept input sched calloc =>
    if s.main = .accept ∧ s.listening then
      if calloc then
        let c : Conn :=
          { cell := .live .new, pc := .starting, input := input, sock := { sched := sched }, wire := input.bytes, attached := none }
        .next { s.setConn s.count c with clients := s.count :: s.clients, count := s.count + 1, main := .create s.count }
      else .next s
    else .blocked
  | .create ok =>
    match s.main with
    | .create i =>
      if ok then .next { s.setConn i { s.conn i with pc := .recvFirst } with main := .accept } else .next { s with main := .drop i }
    | _ => .blocked
  | .drop =>
    match s.main with
    | .drop i =>
      .ofOption ((serverReleaseDead 1 s i).map fun s' => { s'.setConn i { s'.conn i with pc := .done } with main := .accept })
    | _ => .blocked
  | .signal fatal => if s.main = .accept then .next { s with main := .shutdown .awaitChild fatal } else .blocked
  | .main =>
    match s.main with
    | .shutdown stage fatal =>
      .ofOption ((shutdownStep s stage).map fun r =>
        match r.2 with
        | some stage' => { r.1 with main := .shutdown stage' fatal }
        | none => { r.1 with main := if fatal then .left else .accept })
    | _ => .blocked
  | .leave => if s.main = .accept ∧ ¬s.listening then .next { s with main := .left } else .blocked
  | _ => .blocked

/-- The client of a thread, which must be there. -/
def Sys.withClient (s : Sys) (i : Nat) (k : Client → Outcome Sys) : Outcome Sys :=
  match (s.conn i).cell with
  | .live cl => k cl
  | _ => .fault

/-- Where a first frame leads. -/
def FirstMove.pc : FirstMove → ThreadPc
  | .finish => .finish
  | .sendError text => .sendError text
  | .shutdown input => .shutdownInput input
  | .intro i => .resizeIntro i

/-- The connection that enters `server_request_shutdown`, if it does. -/
def FirstMove.requests (i : Nat) : FirstMove → List Nat
  | .shutdown _ => [i]
  | _ => []

/-- Where a frame of the loop leads. -/
def LoopMove.pc : LoopMove → ThreadPc
  | .leave => .finish
  | .again => .recvLoop
  | .write payload => .writePty payload
  | .resize cols rows => .resizeLoop cols rows

/-- The thread of connection `i` wrote to the terminal; it accepted what is new in `master`. -/
def Sys.wrote (s : Sys) (i : Nat) (master : Sink Errno) : Sys :=
  { s with master := master, effects := s.effects ++ [(i, .bytes (master.written.drop s.master.written.length))] }

/-- The thread of connection `i` resized the terminal. -/
def Sys.resized (s : Sys) (i : Nat) (cols rows : UInt16) : Sys := { s with effects := s.effects ++ [(i, .winsize cols rows)] }

/-- `client_thread_main` of connection `i`. -/
def clientStep (s : Sys) (i : Nat) (env : Env) : Outcome Sys :=
  let c := s.conn i
  match c.pc with
  | .starting => .blocked
  | .recvFirst => s.withClient i fun _ =>
    let r := optyRecvFrameLimited env.alloc c.input optyMaxUnauthPayload
    .ofOption ((firstMove s.cfg r.1).map fun move =>
      { s.setConn i { c with pc := move.pc, input := r.2 } with requests := s.requests ++ move.requests i })
  | .sendError text => s.withClient i fun cl =>
    if cl.writeLocked then .blocked
    else .next (s.setConn i { c with pc := .finish, sock := (optySendError c.sock (some text.cString)).2 })
  | .resizeIntro intro =>
    if env.ioctl then .next ((s.setConn i { c with pc := .attach intro.requestedSeq }).resized i intro.cols intro.rows)
    else .next (s.setConn i { c with pc := .sendError .badIntro })
  | .attach requestedSeq => s.withClient i fun cl =>
    if cl.writeLocked then .blocked
    else
      .ofOption ((serverAttach env.malloc s.ring cl requestedSeq).map fun r =>
        match r with
        | none => s.setConn i { c with pc := .sendError .badIntro }
        | some (cl', snap) => s.setConn i { c with cell := .live cl', pc := .sendWelcome snap, attached := some snap })
  | .sendWelcome snap => s.withClient i fun cl =>
    match optySendWelcome c.sock snap.baseSeq snap.nextSeq with
    | (.ok (), sock) => .next (s.setConn i { c with pc := .sendReplay snap, sock := sock })
    | (.error _, sock) =>
      .next (s.setConn i { c with cell := .live { cl with writeLocked := false }, pc := .sendError .badIntro, sock := sock })
  | .sendReplay snap => s.withClient i fun cl =>
    match optySendReplay env.alloc c.sock snap.fromSeq snap.data with
    | (.ok (), sock) =>
      .next (s.setConn i { c with cell := .live { cl with writeLocked := false }, pc := .recvLoop, sock := sock })
    | (.error _, sock) =>
      .next (s.setConn i { c with cell := .live { cl with writeLocked := false }, pc := .sendError .badIntro, sock := sock })
  | .recvLoop => s.withClient i fun _ =>
    let r := optyRecvFrame env.alloc c.input
    .ofOption ((loopMove r.1).map fun move => s.setConn i { c with pc := move.pc, input := r.2 })
  | .writePty payload =>
    match serverWritePty s.master payload with
    | (.ok (), master) => .next ((s.setConn i { c with pc := .recvLoop }).wrote i master)
    | (.error _, master) => .next ((s.setConn i { c with pc := .finish }).wrote i master)
  | .resizeLoop cols rows =>
    if env.ioctl then .next ((s.setConn i { c with pc := .recvLoop }).resized i cols rows)
    else .next (s.setConn i { c with pc := .finish })
  | .shutdownInput input =>
    .next ((s.setConn i { c with pc := .shutdown .awaitChild }).wrote i (serverWritePty s.master input).2)
  | .shutdown stage =>
    .ofOption ((shutdownStep s stage).map fun r =>
      match r.2 with
      | some stage' => r.1.setConn i { r.1.conn i with pc := .shutdown stage' }
      | none => r.1.setConn i { r.1.conn i with pc := .finish })
  | .finish => .ofOption ((serverReleaseDead 1 s i).map fun s' => s'.setConn i { s'.conn i with pc := .done })
  | .done => .blocked

/-- `pty_thread_main` and `server_broadcast_stdout`. -/
def ptyStep (s : Sys) : Act → Outcome Sys
  | .ptyRead r =>
    if s.pty = .read then
      match r with
      | .got chunk => if 0 < chunk.length ∧ chunk.length ≤ 4096 then .next { s with pty := .append chunk } else .blocked
      | .interrupted => .next s
      | .ended => .next { s with pty := .closeListener }
    else .blocked
  | .pty alloc =>
    match s.pty with
    | .append chunk =>
      .ofOption ((optyRingAppend s.ring (.mem chunk)).map fun r =>
        { s with ring := r.1, log := s.log ++ chunk, pty := .snapshot r.2 chunk })
    | .snapshot seq chunk =>
      .ofOption ((serverSnapshotClients s alloc).map fun r =>
        if r.2.length = 0 then { r.1 with pty := .read } else { r.1 with pty := .send seq chunk r.2 r.2 })
    | .send _ _ snap [] => .ofOption ((serverReleaseSnapshot s snap).map fun s' => { s' with pty := .read })
    | .send seq chunk snap (i :: todo) => s.withClient i fun cl =>
      if cl.writeLocked then .blocked
      else
        match serverSendStdout alloc seq chunk cl (s.conn i).sock with
        | (.ok (), cl', sock) =>
          .next { s.setConn i { s.conn i with cell := .live cl', sock := sock } with pty := .send seq chunk snap todo }
        | (.error _, cl', sock) =>
          .next { s.setConn i { s.conn i with cell := .live cl', sock := sock } with pty := .markDead seq chunk snap i todo }
    | .markDead seq chunk snap i todo =>
      .ofOption ((serverReleaseDead 0 s i).map fun s' => { s' with pty := .send seq chunk snap todo })
    | .closeListener => .next { serverCloseListener s with pty := .shutdownClients }
    | .shutdownClients => .ofOption ((serverShutdownClients s).map fun s' => { s' with pty := .awaitChild })
    | .awaitChild => .next { s with pty := .done }
    | .read | .done => .blocked
  | _ => .blocked

/-- One action of the server. -/
def step (s : Sys) (a : Act) : Outcome Sys :=
  match a with
  | .client i env => clientStep s i env
  | .ptyRead _ | .pty _ => ptyStep s a
  | _ => mainStep s a

end ZeroPty
