import ZeroPty.Startup
import ZeroPty.Theorems.Sockets

/-!
# The start of the server

Either the server runs with everything it needs, or nothing is left of the attempt; and what its child is executed with.
-/

namespace ZeroPty

open Resources SocketsAux
open scoped List

/-- Every call succeeds, and there is an address to listen on. -/
def StartupWorld.Succeeds (w : StartupWorld) (ringSize : UInt64) : Prop :=
  w.sigaction = true ∧ (∀ m ∈ [Mutex.clientsMu, .ptyMu, .childMu, .fdsMu], w.mutexInit m = .ok ()) ∧
  (∃ ring, optyRingInit w.malloc (w.mutexInit .ringMu) ringSize = .ok ring) ∧
  (∃ a ∈ w.found.getD [], a.socket = true ∧ a.listens = true) ∧
  w.openpty = true ∧ w.fork = true ∧ w.pthreadCreate = true

/-- What the server holds in its loop. -/
def Started.handles (s : Started) : List Handle := .ptyThread :: .child :: .fd s.masterFd :: .fd s.listenFd :: ringAndMutexes

/-- The descriptors of a child: its terminal, and what the server was started with. -/
def childDescriptors (base : Finset Handle) : FdTable := fun n =>
  if n ≤ 2 then some .slave else if .fd n ∈ base then some (.inherited n) else none

namespace StartupAux

variable {base held : Finset Handle} {hs : List Handle} {w : StartupWorld}

/-- What `main` comes to: nothing is left and a call failed, or the server has its handles and a child that has none of them. -/
def StartSpec (base : Finset Handle) (w : StartupWorld) (ringSize : UInt64) (r : Option Started) (after : Finset Handle) : Prop :=
  (r = none → after = base ∧ ¬w.Succeeds ringSize) ∧
  ∀ s, r = some s → w.Succeeds ringSize ∧ Holds base s.handles after ∧ ∀ t, s.child = some t → t = childDescriptors base

theorem StartSpec.failed {ringSize : UInt64} (h : ¬w.Succeeds ringSize) : StartSpec base w ringSize none base :=
  ⟨fun _ => ⟨rfl, h⟩, fun _ h => by cases h⟩

variable {ringSize : UInt64}

end StartupAux

open StartupAux

end ZeroPty
