import ZeroPty.Locking
import ZeroPty.Session
import ZeroPty.Lib.Resources
import Mathlib.Data.Set.Finite.Basic

/-!
# Sockets

The loops over the addresses that `getaddrinfo` finds, in `connect_endpoint`, `opty_endpoint_bindable`, `opty_endpoint_accepts_timeout`
and `server_create_listener`, and `opty_wait_for_server`, as programs over the handles of the process. What the calls for an address
come to is part of the address, and the readings of the clock are an argument.
-/

namespace ZeroPty

open Resources Text

/-! ## Handles -/

/-- What a process has to give back: a descriptor, the list of `getaddrinfo`, the buffer of the ring, a mutex, a child that was not
waited for, and the thread of the terminal. -/
inductive Handle where
  | fd (n : Nat)
  | addrinfo
  | ringBuf
  | mutex (m : Mutex)
  | child
  | ptyThread
  deriving DecidableEq, Repr

theorem exists_free_descriptor (held : Finset Handle) : ∃ n, .fd n ∉ held := by
  by_contra h
  have hall : ∀ n, Handle.fd n ∈ (held : Set Handle) := fun n => by
    by_contra hn
    exact h ⟨n, hn⟩
  exact Set.infinite_of_injective_forall_mem (fun a b hab => by cases hab; rfl) hall held.finite_toSet

/-- Descriptors: a new one is the lowest that is not open. -/
def descriptors : Supply Handle Nat where
  handle := .fd
  pick := fun held => Nat.find (exists_free_descriptor held)
  fresh := fun held => Nat.find_spec (exists_free_descriptor held)

/-! ## Addresses -/

/-- What `poll` reports when it is not interrupted: an error, nothing in time, or an event. Of an event, whether the socket is writable,
and whether `SO_ERROR` can be read and is 0. -/
inductive PollEnd where
  | failed
  | timeout
  | ready (writable connected : Bool)
  deriving DecidableEq, Repr

/-- What `connect` comes to on a socket that does not block. After EINPROGRESS there are polls: `interrupts` of them fail with EINTR. -/
inductive ConnectStart where
  | connected
  | inProgress (interrupts : Nat) (last : PollEnd)
  | failed
  deriving DecidableEq, Repr

/-- An address that `getaddrinfo` found, and what the calls for it come to. -/
structure Address where
  inet6 : Bool
  socket : Bool
  /-- `IPV6_V6ONLY` can be cleared. -/
  v6only : Bool
  bind : Bool
  listen : Bool
  connect : Bool
  /-- Both calls of `fcntl` succeed. -/
  nonblocking : Bool
  start : ConnectStart
  deriving DecidableEq, Repr

/-- The loops whose socket is kept when its address is good; none when `getaddrinfo` failed. -/
def firstAddress (good : Address → Bool) (found : Option (List Address)) : Usage Handle (Option (Nat × Address)) :=
  match found with
  | none => pure none
  | some addrs => do
    acquire .addrinfo
    let r ← tryEach descriptors Address.socket good addrs
    release .addrinfo
    pure r

/-- `connect_endpoint`: the socket, and the address it is connected to. -/
def connectEndpoint (found : Option (List Address)) : Usage Handle (Option (Nat × Address)) := firstAddress Address.connect found

/-- A socket of this address can listen. -/
def Address.listens (a : Address) : Bool := (!a.inet6 || a.v6only) && a.bind && a.listen

/-- `server_create_listener` -/
def serverCreateListener (found : Option (List Address)) : Usage Handle (Option (Nat × Address)) := firstAddress Address.listens found

/-- `opty_endpoint_accepts` -/
def optyEndpointAccepts (found : Option (List Address)) : Usage Handle Bool := do
  match ← connectEndpoint found with
  | none => pure false
  | some (fd, _) => do
    release (.fd fd)
    pure true

/-- The loop of `opty_endpoint_bindable`, which closes every socket. -/
def bindableLoop : List Address → Usage Handle Bool
  | [] => pure false
  | a :: addrs =>
    if a.socket then do
      let fd ← descriptors.take
      release (.fd fd)
      if a.bind then pure true else bindableLoop addrs
    else bindableLoop addrs

/-- `opty_endpoint_bindable` -/
def optyEndpointBindable (found : Option (List Address)) : Usage Handle Bool :=
  match found with
  | none => pure false
  | some addrs => do
    acquire .addrinfo
    let bindable ← bindableLoop addrs
    release .addrinfo
    pure bindable

/-! ## A probe with a deadline -/

/-- A wait in `poll`: the reading of the clock that its length was worked out from, and its length. -/
structure Wait where
  now : Option Int
  ms : Int
  deriving DecidableEq, Repr

/-- `INT_MAX` -/
def intMax : Int := 2147483647

/-- A conversion to `int`. -/
def toInt (x : Int) : Int := x.bmod (2 ^ 32)

/-- The wait from a reading of the clock until the deadline. -/
def Wait.until (deadline now : Int) : Wait := ⟨some now, toInt (deadline - now)⟩

/-- What the loop around `poll` comes to: the last `poll`, the readings of the clock so far, and the waits. -/
structure Polled where
  last : PollEnd
  readings : Nat
  waits : List Wait

/-- The loop around `poll`, after `t` readings of the clock and with so many interruptions to come. It ends at the deadline. -/
def pollUntil (clock : Nat → Int) (deadline : Int) (last : PollEnd) : Nat → Nat → Wait → Polled
  | 0, t, wait => ⟨last, t, [wait]⟩
  | n + 1, t, wait =>
    if 0 ≤ deadline then
      if deadline ≤ clock t then ⟨.timeout, t + 1, [wait]⟩
      else
        let r := pollUntil clock deadline last n (t + 1) (.until deadline (clock t))
        { r with waits := wait :: r.waits }
    else
      let r := pollUntil clock deadline last n t wait
      { r with waits := wait :: r.waits }

/-- There is a connection after the polls. -/
def PollEnd.connects : PollEnd → Bool
  | .ready writable connected => writable && connected
  | _ => false

/-- The loop of `opty_endpoint_accepts_timeout`: whether an address accepts, and the waits. -/
def probeLoop (clock : Nat → Int) (timeoutMs deadline : Int) : Nat → List Address → Usage Handle (Bool × List Wait)
  | _, [] => pure (false, [])
  | t, a :: addrs =>
    if a.socket then do
      let fd ← descriptors.take
      if a.nonblocking then
        match a.start with
        | .connected => do
          release (.fd fd)
          pure (true, [])
        | .failed => do
          release (.fd fd)
          probeLoop clock timeoutMs deadline t addrs
        | .inProgress interrupts last =>
          if 0 ≤ deadline ∧ deadline ≤ clock t then do
            -- the `break`: no other address is tried
            release (.fd fd)
            pure (false, [])
          else do
            let r := if 0 ≤ deadline then pollUntil clock deadline last interrupts (t + 1) (.until deadline (clock t))
              else pollUntil clock deadline last interrupts t ⟨none, timeoutMs⟩
            release (.fd fd)
            if r.last.connects then pure (true, r.waits)
            else do
              let rest ← probeLoop clock timeoutMs deadline r.readings addrs
              pure (rest.1, r.waits ++ rest.2)
      else do
        release (.fd fd)
        probeLoop clock timeoutMs deadline t addrs
    else probeLoop clock timeoutMs deadline t addrs

/-- The deadline of a probe: -1 when there is none. -/
def probeDeadline (clock : Nat → Int) (timeoutMs : Int) : Int :=
  if 0 ≤ timeoutMs ∧ 0 ≤ clock 0 then clock 0 + timeoutMs else -1

/-- `opty_endpoint_accepts_timeout`; the clock is first read when there is a timeout. -/
def optyEndpointAcceptsTimeout (clock : Nat → Int) (timeoutMs : Int) (found : Option (List Address)) :
    Usage Handle (Bool × List Wait) :=
  match found with
  | none => pure (false, [])
  | some addrs => do
    acquire .addrinfo
    let r ← probeLoop clock timeoutMs (probeDeadline clock timeoutMs) (if 0 ≤ timeoutMs then 1 else 0) addrs
    release .addrinfo
    pure r

/-! ## The wait for a server -/

/-- What `waitpid` with `WNOHANG` comes to: the child runs, it ended and was waited for, EINTR, or another error. -/
inductive WaitNow where
  | running
  | exited
  | interrupted
  | failed
  deriving DecidableEq, Repr

/-- What `opty_wait_for_server` tells. -/
inductive ServerWait where
  | ready
  | exited
  | waitFailed
  | timedOut
  deriving DecidableEq, Repr

/-- The rounds of `opty_wait_for_server`, so many of them, from the round `i` on. -/
def waitRounds (found : Nat → Option (List Address)) (waitpid : Nat → WaitNow) : Nat → Nat → Usage Handle ServerWait
  | 0, _ => pure .timedOut
  | n + 1, i => do
    if ← optyEndpointAccepts (found i) then pure .ready
    else
      match waitpid i with
      | .exited => do
        release .child
        pure .exited
      | .failed => pure .waitFailed
      | .running | .interrupted => waitRounds found waitpid n (i + 1)

/-- `opty_wait_for_server` -/
def optyWaitForServer (found : Nat → Option (List Address)) (waitpid : Nat → WaitNow) : Usage Handle ServerWait :=
  waitRounds found waitpid 60 0

end ZeroPty
