import ZeroPty.Messages
import ZeroPty.Ring

/-!
# What one thread of `server.c` does by itself

The decisions and the sections of the server that concern one client: tokens, the first frame of a connection, the frames of an
attached one, the attach section, the send of one chunk to one client, and the release of references. `Threads` runs them
against each other.

A result `none` is undefined behaviour in C: a copy outside a block, the use of a client that was freed, the destruction of a
locked mutex. Mutexes themselves are assumed to work.
-/

namespace ZeroPty

open Stream Memory

/-! ## Tokens -/

/-- A token buffer, `char token[OPTY_MAX_TOKEN + 1]`. -/
abbrev TokenBuf := Block UInt8 (optyMaxToken + 1)

/-- `server_store_token` into a token buffer: NULs, then the bytes of the string. -/
def serverStoreToken (src : CString) : Option TokenBuf :=
  memcpy (.fill (optyMaxToken + 1) 0) 0 src.bytes 0 src.bytes.length

/-- A token the server was started with, and its buffer; `main` refuses a longer one. -/
structure Secret where
  text : CString
  fits : text.bytes.length ≤ optyMaxToken
  buf : TokenBuf
  stored : serverStoreToken text = some buf

/-- `srv->token` and `srv->control_token`; `none` is NULL. -/
structure Config where
  token : Option Secret
  controlToken : Option Secret

/-- The token is not NULL and not empty. -/
def Secret.isSet : Option Secret → Bool
  | none => false
  | some t => t.buf.cells.headD 0 != 0

/-- `server_tokens_equal`: the differences of all bytes, or-ed together. -/
def serverTokensEqual (expected actual : Option TokenBuf) : Bool :=
  match expected, actual with
  | some e, some a => (List.zipWith (· ^^^ ·) e.cells a.cells).foldl (· ||| ·) 0 == 0
  | _, _ => false

/-! ## The first frame -/

/-- The texts `client_thread_main` sends in an ERROR frame. -/
inductive ErrorText where
  | controlAuthenticationFailed
  | badControlRequest
  | expectedHelloOrReconnect
  | authenticationFailed
  | badIntro
  deriving DecidableEq, Repr

/-- The text of an ERROR frame. -/
def ErrorText.text : ErrorText → String
  | .controlAuthenticationFailed => "control authentication failed"
  | .badControlRequest => "bad control request"
  | .expectedHelloOrReconnect => "expected hello or reconnect"
  | .authenticationFailed => "authentication failed"
  | .badIntro => "bad intro"

/-- The bytes of an ASCII text. -/
def asciiBytes (s : String) : List UInt8 := s.toList.map fun c => UInt8.ofNat c.toNat

/-- The text as the argument of `opty_send_error`. -/
def ErrorText.cString (t : ErrorText) : CString := ⟨asciiBytes t.text, by cases t <;> decide⟩

/-- How a check ends: a return of -1, a return of -2, or the values it goes on with. -/
inductive Verdict (α : Type) where
  | bad
  | denied
  | granted (a : α)

/-- What an accepted intro asks for: the position to replay from and the size of the terminal. -/
structure Intro where
  requestedSeq : UInt64
  cols : UInt16
  rows : UInt16
  deriving DecidableEq, Repr

/-- `server_process_intro` up to the resize. -/
def serverCheckIntro (cfg : Config) (frame : Frame) : Option (Verdict Intro) :=
  (optyParseClientIntro frame (.fill (optyMaxToken + 1) 0)).bind fun parsed =>
    match parsed with
    | .error _ => some .bad
    | .ok fields =>
      if fields.cols = 0 ∨ fields.rows = 0 then some .bad
      else if Secret.isSet cfg.token ∧ ¬serverTokensEqual (cfg.token.map Secret.buf) (some fields.token) then some .denied
      else
        let requestedSeq := if frame.type = msgReconnect then fields.lastSeq else 0
        some (.granted { requestedSeq := requestedSeq, cols := fields.cols, rows := fields.rows })

/-- `server_process_control_shutdown` up to the call of `server_request_shutdown`: the graceful input it is called with. -/
def serverCheckControlShutdown (cfg : Config) (frame : Frame) : Option (Verdict (List UInt8)) :=
  (optyParseControlShutdown frame (.fill (optyMaxToken + 1) 0)).bind fun parsed =>
    match parsed with
    | .error _ => some .bad
    | .ok (token, input) =>
      if ¬Secret.isSet cfg.controlToken ∨ ¬serverTokensEqual (cfg.controlToken.map Secret.buf) (some token) then some .denied
      else some (.granted input)

/-- What `client_thread_main` goes on with after its first receive. -/
inductive FirstMove where
  | finish
  | sendError (text : ErrorText)
  | shutdown (input : List UInt8)
  | intro (i : Intro)

/-- The branches of `client_thread_main` on its first frame. At the end of the stream the frame is still all zero. -/
def firstMove (cfg : Config) (received : Except Errno (Option Frame)) : Option FirstMove :=
  match received with
  | .error _ => some .finish
  | .ok none => some (.sendError .expectedHelloOrReconnect)
  | .ok (some frame) =>
    if frame.type = msgControlShutdown then
      (serverCheckControlShutdown cfg frame).map fun v =>
        match v with
        | .denied => .sendError .controlAuthenticationFailed
        | .bad => .sendError .badControlRequest
        | .granted input => .shutdown input
    else if frame.type ≠ msgHello ∧ frame.type ≠ msgReconnect then some (.sendError .expectedHelloOrReconnect)
    else
      (serverCheckIntro cfg frame).map fun v =>
        match v with
        | .denied => .sendError .authenticationFailed
        | .bad => .sendError .badIntro
        | .granted i => .intro i

/-! ## The frames of an attached client -/

/-- What the loop of `client_thread_main` does with a frame: leave, take the next, write to the terminal, or resize it. -/
inductive LoopMove where
  | leave
  | again
  | write (payload : List UInt8)
  | resize (cols rows : UInt16)

/-- The branches of the loop of `client_thread_main`. -/
def loopMove (received : Except Errno (Option Frame)) : Option LoopMove :=
  match received with
  | .error _ => some .leave
  | .ok none => some .leave
  | .ok (some frame) =>
    if frame.type = msgStdin then some (.write frame.payload)
    else if frame.type = msgResize then
      (optyParseResize frame).map fun parsed =>
        match parsed with
        | .error _ => .leave
        | .ok (cols, rows) => if cols = 0 ∨ rows = 0 then .leave else .resize cols rows
    else if frame.type = msgAck then
      (optyParseAck frame).map fun parsed =>
        match parsed with
        | .error _ => .leave
        | .ok _ => .again
    else some .leave

/-- `server_write_pty` on the terminal's descriptor. -/
def serverWritePty (master : Sink Errno) (data : List UInt8) : Except Errno Unit × Sink Errno :=
  if data.length = 0 then (.ok (), master)
  else
    let r := optyWriteFull master data
    (r.1.map fun _ => (), r.2)

/-! ## Clients -/

/-- `struct client`, without its descriptor, thread and link; `writeLocked` is the state of `write_mu` between sections. -/
structure Client where
  refs : Nat
  inList : Bool
  dead : Bool
  authenticated : Bool
  liveSeq : UInt64
  writeLocked : Bool
  deriving DecidableEq, Repr

/-- The client `server_add_client` makes. -/
def Client.new : Client :=
  { refs := 2, inList := true, dead := false, authenticated := false, liveSeq := 0, writeLocked := false }

/-- The section of `server_send_welcome_and_replay` under `clients_mu`: `some none` is its return of -1 when the replay could not
be allocated. The client leaves it with its `write_mu` locked. -/
def serverAttach (malloc : Alloc UInt8) (ring : Ring) (c : Client) (requestedSeq : UInt64) : Option (Option (Client × Snapshot)) :=
  (optyRingSnapshotWindow malloc ring requestedSeq).map fun snap =>
    if 0 < snap.len ∧ snap.out = none then none
    else some ({ c with authenticated := true, liveSeq := snap.nextSeq, writeLocked := true }, snap)

/-- The replay as a data argument. -/
def Snapshot.data (snap : Snapshot) : Buf :=
  match snap.out with
  | none => .null snap.len.toNat
  | some bytes => .mem bytes

/-- `server_send_welcome_and_replay` on the socket of the client: the result, the client and the socket. -/
def serverSendWelcomeAndReplay (malloc : Alloc UInt8) (alloc : Bool) (ring : Ring) (c : Client) (fd : Sink Errno)
    (requestedSeq : UInt64) : Option (Except Unit Unit × Client × Sink Errno) :=
  (serverAttach malloc ring c requestedSeq).map fun attached =>
    match attached with
    | none => (.error (), c, fd)
    | some (c1, snap) =>
      let unlocked := { c1 with writeLocked := false }
      match optySendWelcome fd snap.baseSeq snap.nextSeq with
      | (.error _, fd1) => (.error (), unlocked, fd1)
      | (.ok (), fd1) =>
        match optySendReplay alloc fd1 snap.fromSeq snap.data with
        | (.error _, fd2) => (.error (), unlocked, fd2)
        | (.ok (), fd2) => (.ok (), unlocked, fd2)

/-- `server_process_intro`: its return value, the client, its socket, and whether the terminal was resized; `ioctl` says whether
the resize succeeds. -/
def serverProcessIntro (cfg : Config) (malloc : Alloc UInt8) (alloc ioctl : Bool) (ring : Ring) (c : Client) (fd : Sink Errno)
    (frame : Frame) : Option (Int × Client × Sink Errno × Option (UInt16 × UInt16)) :=
  (serverCheckIntro cfg frame).bind fun v =>
    match v with
    | .bad => some (-1, c, fd, none)
    | .denied => some (-2, c, fd, none)
    | .granted i =>
      if ioctl then
        (serverSendWelcomeAndReplay malloc alloc ring c fd i.requestedSeq).map fun r =>
          match r with
          | (.ok (), c1, fd1) => (0, c1, fd1, some (i.cols, i.rows))
          | (.error (), c1, fd1) => (-1, c1, fd1, some (i.cols, i.rows))
      else some (-1, c, fd, none)

/-- The section of `server_broadcast_stdout` under the `write_mu` of one client: the result of the send, the client and its
socket. -/
def serverSendStdout (alloc : Bool) (seq : UInt64) (data : List UInt8) (c : Client) (fd : Sink Errno) :
    Except Errno Unit × Client × Sink Errno :=
  let endSeq := seq + UInt64.ofNat data.length
  if c.liveSeq < endSeq then
    let off := if seq < c.liveSeq then c.liveSeq - seq else 0
    let sendSeq := if seq < c.liveSeq then c.liveSeq else seq
    match optySendStdout alloc fd sendSeq (.mem (data.drop off.toNat)) with
    | (.ok (), fd1) => (.ok (), { c with liveSeq := endSeq }, fd1)
    | (.error e, fd1) => (.error e, c, fd1)
  else (.ok (), c, fd)

end ZeroPty
