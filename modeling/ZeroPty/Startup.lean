import ZeroPty.Sockets
import ZeroPty.Ring

/-!
# The start of the server

`main` of the server from the signal handlers to its loop, with what each step opens and what is given back when a later one fails, and
the child that `server_spawn_pty` forks, until it executes its command.
-/

namespace ZeroPty

open Resources Memory

/-! ## The child -/

/-- What a descriptor of the child refers to: the listener of the server, the two ends of its terminal, or what the server was started
with under that number. -/
inductive Descriptor where
  | listener
  | master
  | slave
  | inherited (n : Nat)
  deriving DecidableEq, Repr

/-- The descriptors of a process. -/
abbrev FdTable : Type := Nat → Option Descriptor

/-- `close` in the child. -/
def FdTable.close (t : FdTable) (fd : Nat) : FdTable := Function.update t fd none

/-- `dup2` -/
def FdTable.dup2 (t : FdTable) (oldFd newFd : Nat) : FdTable := Function.update t newFd (t oldFd)

/-- What the calls of the child come to: `setsid`, `TIOCSCTTY`, and the three calls of `dup2`. -/
structure ChildWorld where
  setsid : Bool
  ctty : Bool
  dup2 : Bool

/-- What the calls of `main` come to, in the order they are made. -/
structure StartupWorld where
  sigaction : Bool
  mutexInit : Mutex → Except Errno Unit
  malloc : Alloc UInt8
  found : Option (List Address)
  openpty : Bool
  fork : Bool
  child : ChildWorld
  pthreadCreate : Bool

/-- What the server has when its loop begins, and the descriptors of the child when it executes its command. -/
structure Started where
  ring : Ring
  listenFd : Nat
  address : Address
  masterFd : Nat
  child : Option FdTable

/-- What every failure after the mutexes gives back. -/
def mutexes : List Handle := [.mutex .fdsMu, .mutex .childMu, .mutex .ptyMu, .mutex .clientsMu]

/-- `opty_ring_destroy` and the mutexes. -/
def ringAndMutexes : List Handle := .mutex .ringMu :: .ringBuf :: mutexes

end ZeroPty
