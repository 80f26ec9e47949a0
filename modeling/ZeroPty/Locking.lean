import ZeroPty.Accept
import ZeroPty.Child
import ZeroPty.Lib.Locks

/-!
# The server's locks

The threads of the server down to the single `pthread_mutex_lock`, `pthread_mutex_unlock` and blocking system call. A function of the
source is the code it runs; where it branches there is an action, and the code of the branch takes the action's place. A system call
that may wait for a peer, the terminal or the child is an action that the environment may stall for as long as it likes.

What is sent is in `Server`, and who frees a client in `Threads`; here a client is its place in the list, `dead`, `authenticated` and
`live_seq`. The exit of the process when `main` returns is left out, so the other threads of this model may run on.
-/

namespace ZeroPty

open Transition Locks

/-- The threads. -/
inductive ServerThread where
  | main
  | pty
  | client (i : Nat)
  deriving DecidableEq, Repr

/-- The mutexes: `clients_mu`, the `write_mu` of each client, `ring.mu`, `fds_mu`, `pty_mu` and `child_mu`. -/
inductive Mutex where
  | clientsMu
  | writeMu (i : Nat)
  | ringMu
  | fdsMu
  | ptyMu
  | childMu
  deriving DecidableEq, Repr

/-- Who uses the terminal: `server_request_shutdown` for its input, `server_process_intro` to resize it, or the loop of a client. -/
inductive TerminalUse where
  | request
  | intro (i : Nat)
  | loop (i : Nat)
  deriving DecidableEq, Repr

/-- The actions between the lock operations. The first group is `main`, the second `server_request_shutdown`, the third
`client_thread_main`, the last `pty_thread_main`. -/
inductive LockOp where
  | top
  | accept
  | link (i : Nat)
  | create (i : Nat)
  | join
  | terminal (u : TerminalUse)
  | pollChild (sig : Signal)
  | kill (sig : Signal)
  | waitChild
  | closeListener
  | shutdownClients
  | start (i : Nat)
  | recvFirst (i : Nat)
  | window (i : Nat)
  | attach (i : Nat) (replayNext : UInt64) (ok : Bool)
  | sendWelcome (i : Nat)
  | sendReplay (i : Nat)
  | sendError (i : Nat)
  | recvFrame (i : Nat)
  | markDead (i : Nat)
  | read
  | append (n : UInt64)
  | snapshot (endSeq : UInt64)
  | broadcast (endSeq : UInt64) (snap : List Nat)
  | sendStdout (i : Nat) (endSeq : UInt64)
  | releaseSnapshot
  | leave
  deriving DecidableEq, Repr

/-- A piece of code. -/
abbrev LockCode := List (Instr Mutex LockOp)

/-- What the actions read and write: the listener, the clients, whether a client's thread was created and whether the PTY thread has
returned, and `next_seq` of the ring. -/
structure LockData where
  listening : Bool
  count : Nat
  clients : List Nat
  dead : Nat → Bool
  authenticated : Nat → Bool
  liveSeq : Nat → UInt64
  started : Nat → Bool
  ptyReturned : Bool
  nextSeq : UInt64

/-- What a system call that may block does. -/
inductive Syscall where
  | stalls
  | fails
  | completes
  deriving DecidableEq, Repr

/-- What the environment does in an action: the blocking system call, whether there is memory and a thread can be created,
`g_shutdown_requested`, `accept`, what is received, what is read from the terminal, and the child. -/
structure LockEnv where
  syscall : Syscall
  memory : Bool
  shutdownRequested : Bool
  accept : Except AcceptErrno Unit
  received : Except Errno (Option Frame)
  read : PtyRead
  child : PollResult
  expired : Bool

/-! ## The functions of the source as code -/

def serverCloseListenerCode : LockCode := [.lock .fdsMu, .act .closeListener, .unlock .fdsMu]

def serverShutdownClientsCode : LockCode := [.lock .clientsMu, .act .shutdownClients, .unlock .clientsMu]

/-- `server_wait_child_deadline` before the signal `sig`, one round of its loop at a time. -/
def serverWaitChildDeadlineCode (sig : Signal) : LockCode := [.lock .childMu, .act (.pollChild sig)]

def serverSignalChildCode (sig : Signal) : LockCode := [.lock .childMu, .act (.kill sig), .unlock .childMu]

def serverWaitChildBlockingCode : LockCode := [.lock .childMu, .act .waitChild, .unlock .childMu]

/-- What `server_request_shutdown` goes on with when a wait returned 0. -/
def Signal.escalate (sig : Signal) : LockCode :=
  serverSignalChildCode sig ++
    match sig with
    | .hup => serverWaitChildDeadlineCode .term
    | .term => serverWaitChildDeadlineCode .kill
    | .kill => serverWaitChildBlockingCode

/-- `server_write_pty` and `server_resize_pty`; the action gives up `pty_mu`. -/
def terminalCode (u : TerminalUse) : LockCode := [.lock .ptyMu, .act (.terminal u)]

def serverRequestShutdownCode (input : List UInt8) : LockCode :=
  (if 0 < input.length then terminalCode .request else []) ++ serverWaitChildDeadlineCode .hup ++ serverCloseListenerCode ++
    serverShutdownClientsCode

def serverSendErrorCode (i : Nat) : LockCode := [.lock (.writeMu i), .act (.sendError i), .unlock (.writeMu i)]

/-- `server_finish_client`, and the same lines in `server_broadcast_stdout` and `server_add_client`. -/
def serverFinishClientCode (i : Nat) : LockCode := [.lock .clientsMu, .act (.markDead i), .unlock .clientsMu]

/-- `server_send_welcome_and_replay` up to the copy of the window. -/
def serverSendWelcomeAndReplayCode (i : Nat) : LockCode :=
  [.lock .clientsMu, .lock (.writeMu i), .lock .ringMu, .act (.window i)]

/-- What follows a use of the terminal that succeeds or fails. -/
def TerminalUse.next (ok : Bool) : TerminalUse → LockCode
  | .request => []
  | .intro i => if ok then serverSendWelcomeAndReplayCode i else serverSendErrorCode i
  | .loop i => if ok then [.act (.recvFrame i)] else []

/-- `client_thread_main` after its first receive; the end of the thread is already in its code. -/
def FirstMove.code (i : Nat) : FirstMove → LockCode
  | .finish => []
  | .sendError _ => serverSendErrorCode i
  | .shutdown input => serverRequestShutdownCode input
  | .intro _ => terminalCode (.intro i)

/-- The loop of `client_thread_main` after a receive. -/
def LoopMove.code (i : Nat) : LoopMove → LockCode
  | .leave => []
  | .again => [.act (.recvFrame i)]
  | .write payload => if payload.length = 0 then [.act (.recvFrame i)] else terminalCode (.loop i)
  | .resize _ _ => terminalCode (.loop i)

/-- `main` after an `accept` that failed. -/
def acceptFailedCode (shutdownRequested : Bool) : AcceptErrno → LockCode
  | .eintr => (if shutdownRequested then serverRequestShutdownCode [] else []) ++ [.act .top]
  | .ebadf | .einval => []
  | .emfile | .enfile | .enomem | .enobufs => [.act .top]
  | .econnaborted | .eproto | .other _ => serverRequestShutdownCode []

/-- `server_add_client` with memory for the client. -/
def serverAddClientCode (i : Nat) : LockCode := [.lock .clientsMu, .act (.link i), .unlock .clientsMu, .act (.create i)]

/-- `server_broadcast_stdout` after its snapshot. -/
def serverBroadcastCode (endSeq : UInt64) : List Nat → LockCode
  | [] => [.lock .clientsMu, .act .releaseSnapshot, .unlock .clientsMu, .act .read]
  | i :: snap => [.lock (.writeMu i), .act (.sendStdout i endSeq), .act (.broadcast endSeq snap)]

/-! ## The actions -/

/-- A system call that may block: what follows when it fails, and when it completes. -/
def Syscall.run {α : Type} (c : Syscall) (failed completed : α) : Option α :=
  match c with
  | .stalls => none
  | .fails => some failed
  | .completes => some completed

/-- The clients of a snapshot. A `calloc` that fails gives an empty one. -/
def LockData.snapshot (d : LockData) (memory : Bool) : List Nat :=
  if memory then d.clients.filter fun i => d.authenticated i && !d.dead i else []

/-- `main` after `accept` returned. -/
def acceptedCode (d : LockData) (e : LockEnv) : Option (LockData × LockCode) :=
  match e.accept with
  | .error err => some (d, acceptFailedCode e.shutdownRequested err)
  | .ok () =>
    if d.listening then
      if e.memory then some ({ d with count := d.count + 1 }, serverAddClientCode d.count) else some (d, [.act .top])
    else none

/-- `pty_thread_main` after a `read`. -/
def ptyReadCode : PtyRead → LockCode
  | .got chunk => if chunk.length = 0 then [] else [.lock .ringMu, .act (.append (UInt64.ofNat chunk.length))]
  | .interrupted => [.act .read]
  | .ended => []

/-- One action. -/
def lockAct (cfg : Config) (a : LockOp) (d : LockData) (e : LockEnv) : Option (LockData × LockCode) :=
  match a with
  | .top => some (d, (if e.shutdownRequested then serverRequestShutdownCode [] else []) ++ [.act .accept])
  | .accept => if e.syscall = .stalls then none else acceptedCode d e
  | .link i => some ({ d with clients := i :: d.clients }, [])
  | .create i =>
    if e.memory then some ({ d with started := Function.update d.started i true }, [.act .top])
    else some (d, serverFinishClientCode i ++ [.act .top])
  | .join => if d.ptyReturned then some (d, []) else none
  | .terminal u => e.syscall.run (d, .unlock .ptyMu :: u.next false) (d, .unlock .ptyMu :: u.next true)
  | .pollChild sig =>
    some (d, .unlock .childMu :: match e.child with
      | .gone | .failed => []
      | .running => if e.expired then sig.escalate else serverWaitChildDeadlineCode sig)
  | .kill _ => some (d, [])
  | .waitChild => e.syscall.run (d, []) (d, [])
  | .closeListener => some ({ d with listening := false }, [])
  | .shutdownClients => some (d, [])
  | .start i => if d.started i then some (d, []) else none
  | .recvFirst i => if e.syscall = .stalls then none else (firstMove cfg e.received).map fun m => (d, m.code i)
  | .window i => some (d, [.unlock .ringMu, .act (.attach i d.nextSeq e.memory)])
  | .attach i replayNext ok =>
    if ok then
      some ({ d with authenticated := Function.update d.authenticated i true, liveSeq := Function.update d.liveSeq i replayNext },
        [.unlock .clientsMu, .act (.sendWelcome i)])
    else some (d, [.unlock (.writeMu i), .unlock .clientsMu] ++ serverSendErrorCode i)
  | .sendWelcome i => e.syscall.run (d, .unlock (.writeMu i) :: serverSendErrorCode i) (d, [.act (.sendReplay i)])
  | .sendReplay i =>
    e.syscall.run (d, .unlock (.writeMu i) :: serverSendErrorCode i) (d, [.unlock (.writeMu i), .act (.recvFrame i)])
  | .sendError _ => e.syscall.run (d, []) (d, [])
  | .recvFrame i => if e.syscall = .stalls then none else (loopMove e.received).map fun m => (d, m.code i)
  | .markDead i => some ({ d with dead := Function.update d.dead i true, clients := d.clients.erase i }, [])
  | .read => if e.syscall = .stalls then none else some (d, ptyReadCode e.read)
  | .append n =>
    some ({ d with nextSeq := d.nextSeq + n }, [.unlock .ringMu, .lock .clientsMu, .act (.snapshot (d.nextSeq + n))])
  | .snapshot endSeq =>
    let snap := d.snapshot e.memory
    some (d, .unlock .clientsMu :: if snap.isEmpty then [.act .read] else [.act (.broadcast endSeq snap)])
  | .broadcast endSeq snap => some (d, serverBroadcastCode endSeq snap)
  | .sendStdout i endSeq =>
    if d.liveSeq i < endSeq then
      e.syscall.run (d, .unlock (.writeMu i) :: serverFinishClientCode i)
        ({ d with liveSeq := Function.update d.liveSeq i endSeq }, [.unlock (.writeMu i)])
    else some (d, [.unlock (.writeMu i)])
  | .releaseSnapshot => some (d, [])
  | .leave => some ({ d with ptyReturned := true }, [])

/-! ## The system -/

/-- The state of the system. -/
abbrev LockState := State ServerThread Mutex LockOp LockData

/-- What a thread runs. -/
def ServerThread.code : ServerThread → LockCode
  | .main => [.act .top, .act .join]
  | .pty => [.act .read] ++ serverCloseListenerCode ++ serverShutdownClientsCode ++ serverWaitChildBlockingCode ++ [.act .leave]
  | .client i => [.act (.start i), .act (.recvFirst i)] ++ serverFinishClientCode i

/-- The server when its loop begins. -/
def LockState.init : LockState :=
  { code := ServerThread.code
    holder := fun _ => none
    data :=
      { listening := true, count := 0, clients := [], dead := fun _ => false, authenticated := fun _ => false,
        liveSeq := fun _ => 0, started := fun _ => false, ptyReturned := false, nextSeq := 0 } }

/-- One step of a thread. -/
def lockStep (cfg : Config) : LockState → ServerThread × LockEnv → Outcome LockState := Locks.step (lockAct cfg)

end ZeroPty
