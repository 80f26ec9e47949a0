import ZeroPty.Framing

/-!
# The messages of `protocol.c`

The senders and the parsers of each message. A sender builds the payload and calls `opty_send_frame`; a parser reads the payload
by index. A parser's result is `none` when it would read outside the payload or write outside the token buffer, which C leaves
undefined; `some (.error e)` is a return of -1. Arguments that are NULL where the functions refuse NULL are not represented,
except for the data and token arguments that may be.

`Msg` is the message set itself and `Msg.frame` its wire format: what a frame means, whoever writes or reads it.
-/

namespace ZeroPty

open Stream Memory

/-! ## Numbers -/

/-- `opty_get_u16` of two bytes. -/
def optyGetU16 (p0 p1 : UInt8) : UInt16 := (p0.toUInt16 <<< 8) ||| p1.toUInt16

/-- `opty_get_u64` of eight bytes. -/
def optyGetU64 (p0 p1 p2 p3 p4 p5 p6 p7 : UInt8) : UInt64 :=
  (p0.toUInt64 <<< 56) ||| (p1.toUInt64 <<< 48) ||| (p2.toUInt64 <<< 40) ||| (p3.toUInt64 <<< 32) ||| (p4.toUInt64 <<< 24) |||
    (p5.toUInt64 <<< 16) ||| (p6.toUInt64 <<< 8) ||| p7.toUInt64

/-- `opty_put_u16`: the two bytes it stores. -/
def optyPutU16 (v : UInt16) : List UInt8 := [((v >>> 8) &&& 0xff).toUInt8, (v &&& 0xff).toUInt8]

/-- `opty_put_u64`: the eight bytes it stores. -/
def optyPutU64 (v : UInt64) : List UInt8 :=
  [((v >>> 56) &&& 0xff).toUInt8, ((v >>> 48) &&& 0xff).toUInt8, ((v >>> 40) &&& 0xff).toUInt8, ((v >>> 32) &&& 0xff).toUInt8,
    ((v >>> 24) &&& 0xff).toUInt8, ((v >>> 16) &&& 0xff).toUInt8, ((v >>> 8) &&& 0xff).toUInt8, (v &&& 0xff).toUInt8]

/-- `opty_get_u16(payload + off)`. -/
def getU16At (payload : List UInt8) (off : Nat) : Option UInt16 :=
  payload[off]?.bind fun p0 => payload[off + 1]?.bind fun p1 => some (optyGetU16 p0 p1)

/-- `opty_get_u64(payload + off)`. -/
def getU64At (payload : List UInt8) (off : Nat) : Option UInt64 :=
  payload[off]?.bind fun p0 => payload[off + 1]?.bind fun p1 => payload[off + 2]?.bind fun p2 => payload[off + 3]?.bind fun p3 =>
  payload[off + 4]?.bind fun p4 => payload[off + 5]?.bind fun p5 => payload[off + 6]?.bind fun p6 => payload[off + 7]?.bind fun p7 =>
    some (optyGetU64 p0 p1 p2 p3 p4 p5 p6 p7)

/-! ## Senders -/

/-- `opty_token_payload`: the bytes of the token, none for NULL. -/
def optyTokenPayload (token : Option CString) : Except Errno (List UInt8) :=
  match token with
  | none => .ok []
  | some s => if optyMaxToken < s.bytes.length then .error .emsgsize else .ok s.bytes

/-- The bytes of a token argument, whatever their number. -/
def tokenBytes (token : Option CString) : List UInt8 := (token.map CString.bytes).getD []

/-- `opty_send_tokenized_intro`. -/
def optySendTokenizedIntro (fd : Sink Errno) (type : UInt8) (lastSeq : UInt64) (cols rows : UInt16) (token : Option CString)
    (withSeq : Bool) : Except Errno Unit × Sink Errno :=
  match optyTokenPayload token with
  | .error e => (.error e, fd)
  | .ok tok =>
    let payload := [optyVersion] ++ (if withSeq then optyPutU64 lastSeq else []) ++ optyPutU16 cols ++ optyPutU16 rows ++
      [UInt8.ofNat tok.length] ++ tok
    optySendFrame fd type (.mem payload)

/-- `opty_send_hello`. -/
def optySendHello (fd : Sink Errno) (cols rows : UInt16) (token : Option CString) : Except Errno Unit × Sink Errno :=
  optySendTokenizedIntro fd msgHello 0 cols rows token false

/-- `opty_send_reconnect`. -/
def optySendReconnect (fd : Sink Errno) (lastSeq : UInt64) (cols rows : UInt16) (token : Option CString) :
    Except Errno Unit × Sink Errno :=
  optySendTokenizedIntro fd msgReconnect lastSeq cols rows token true

/-- `opty_send_resize`. -/
def optySendResize (fd : Sink Errno) (cols rows : UInt16) : Except Errno Unit × Sink Errno :=
  optySendFrame fd msgResize (.mem (optyPutU16 cols ++ optyPutU16 rows))

/-- `opty_send_ack`. -/
def optySendAck (fd : Sink Errno) (seq : UInt64) : Except Errno Unit × Sink Errno :=
  optySendFrame fd msgAck (.mem (optyPutU64 seq))

/-- `opty_send_stdin`. -/
def optySendStdin (fd : Sink Errno) (data : Buf) : Except Errno Unit × Sink Errno := optySendFrame fd msgStdin data

/-- `opty_send_stream_frame`; `malloc` says whether the payload could be allocated. -/
def optySendStreamFrame (malloc : Bool) (fd : Sink Errno) (type : UInt8) (seq : UInt64) (data : Buf) :
    Except Errno Unit × Sink Errno :=
  if 0 < data.len ∧ data.isNull then (.error .einval, fd)
  else if sizeMax - 8 < data.len then (.error .emsgsize, fd)
  else if malloc then optySendFrame fd type (.mem (optyPutU64 seq ++ data.bytes))
  else (.error .enomem, fd)

/-- `opty_send_stdout`. -/
def optySendStdout (malloc : Bool) (fd : Sink Errno) (seq : UInt64) (data : Buf) : Except Errno Unit × Sink Errno :=
  optySendStreamFrame malloc fd msgStdout seq data

/-- `opty_send_replay`. -/
def optySendReplay (malloc : Bool) (fd : Sink Errno) (fromSeq : UInt64) (data : Buf) : Except Errno Unit × Sink Errno :=
  optySendStreamFrame malloc fd msgReplay fromSeq data

/-- `opty_send_welcome`. -/
def optySendWelcome (fd : Sink Errno) (baseSeq nextSeq : UInt64) : Except Errno Unit × Sink Errno :=
  optySendFrame fd msgWelcome (.mem (optyPutU64 baseSeq ++ optyPutU64 nextSeq))

/-- `opty_send_error`. -/
def optySendError (fd : Sink Errno) (message : Option CString) : Except Errno Unit × Sink Errno :=
  let len := (message.map fun s => s.bytes.length).getD 0
  if optyMaxFrame - 1 < len then (.error .emsgsize, fd)
  else optySendFrame fd msgError ((message.map fun s => Buf.mem s.bytes).getD (.null len))

/-- `opty_send_control_shutdown`. -/
def optySendControlShutdown (fd : Sink Errno) (token : Option CString) (input : Buf) : Except Errno Unit × Sink Errno :=
  if optyMaxGracefulInput < input.len then (.error .emsgsize, fd)
  else if 0 < input.len ∧ input.isNull then (.error .einval, fd)
  else
    match optyTokenPayload token with
    | .error e => (.error e, fd)
    | .ok tok =>
      let payload := [optyVersion, UInt8.ofNat tok.length] ++ tok ++ optyPutU16 (UInt16.ofNat input.len) ++ input.bytes
      optySendFrame fd msgControlShutdown (.mem payload)

/-! ## Parsers -/

/-- What `opty_parse_client_intro` leaves in its output arguments. -/
structure IntroFields (cap : Nat) where
  lastSeq : UInt64
  cols : UInt16
  rows : UInt16
  token : Block UInt8 cap

/-- `opty_parse_intro_payload`, with the token buffer of size `cap` it was given. -/
def optyParseIntroPayload (frame : Frame) {cap : Nat} (token : Block UInt8 cap) (hasSeq : Bool) :
    Option (Except Errno (IntroFields cap)) :=
  let p := frame.payload
  let need := if hasSeq then 14 else 6
  if p.length < need then some (.error .eproto)
  else
    p[0]?.bind fun version =>
    if version ≠ optyVersion then some (.error .eproto)
    else
      (if hasSeq then getU64At p 1 else some 0).bind fun seq =>
      let off := if hasSeq then 9 else 1
      (getU16At p off).bind fun cols => (getU16At p (off + 2)).bind fun rows => p[off + 4]?.bind fun tokenLen =>
      let off := off + 5
      let n := tokenLen.toNat
      if p.length ≠ off + n then some (.error .eproto)
      else if cap < n + 1 then
        if cap = 0 ∧ n = 0 then some (.ok { lastSeq := seq, cols := cols, rows := rows, token := token })
        else some (.error .enospc)
      else
        (if 0 < n then memcpy token 0 p off n else some token).bind fun token1 =>
        (if 0 < cap then memcpy token1 n [0] 0 1 else some token1).bind fun token2 =>
        some (.ok { lastSeq := seq, cols := cols, rows := rows, token := token2 })

/-- `opty_parse_client_intro`. -/
def optyParseClientIntro (frame : Frame) {cap : Nat} (token : Block UInt8 cap) : Option (Except Errno (IntroFields cap)) :=
  if frame.type = msgHello then optyParseIntroPayload frame token false
  else if frame.type = msgReconnect then optyParseIntroPayload frame token true
  else some (.error .eproto)

/-- `opty_parse_resize`. -/
def optyParseResize (frame : Frame) : Option (Except Errno (UInt16 × UInt16)) :=
  if frame.type ≠ msgResize ∨ frame.payload.length ≠ 4 then some (.error .eproto)
  else (getU16At frame.payload 0).bind fun cols => (getU16At frame.payload 2).bind fun rows => some (.ok (cols, rows))

/-- `opty_parse_ack`. -/
def optyParseAck (frame : Frame) : Option (Except Errno UInt64) :=
  if frame.type ≠ msgAck ∨ frame.payload.length ≠ 8 then some (.error .eproto)
  else (getU64At frame.payload 0).bind fun seq => some (.ok seq)

/-- `opty_parse_stream`: the sequence, and the data by the pointer past it. -/
def optyParseStream (frame : Frame) : Option (Except Errno (UInt64 × List UInt8)) :=
  if (frame.type ≠ msgStdout ∧ frame.type ≠ msgReplay) ∨ frame.payload.length < 8 then some (.error .eproto)
  else (getU64At frame.payload 0).bind fun seq => some (.ok (seq, frame.payload.drop 8))

/-- `opty_parse_welcome`. -/
def optyParseWelcome (frame : Frame) : Option (Except Errno (UInt64 × UInt64)) :=
  if frame.type ≠ msgWelcome ∨ frame.payload.length ≠ 16 then some (.error .eproto)
  else (getU64At frame.payload 0).bind fun base => (getU64At frame.payload 8).bind fun next => some (.ok (base, next))

/-- `opty_parse_control_shutdown`, with the token buffer it was given: the buffer afterwards and the graceful input. -/
def optyParseControlShutdown (frame : Frame) {cap : Nat} (token : Block UInt8 cap) :
    Option (Except Errno (Block UInt8 cap × List UInt8)) :=
  let p := frame.payload
  if cap = 0 ∨ frame.type ≠ msgControlShutdown ∨ p.length < 4 then some (.error .eproto)
  else
    p[0]?.bind fun version =>
    if version ≠ optyVersion then some (.error .eproto)
    else
      p[1]?.bind fun tokenLen =>
      let n := tokenLen.toNat
      if cap < n + 1 ∨ p.length < 2 + n + 2 then some (.error .eproto)
      else
        (if 0 < n then memcpy token 0 p 2 n else some token).bind fun token1 =>
        (memcpy token1 n [0] 0 1).bind fun token2 =>
        (getU16At p (2 + n)).bind fun gracefulLen =>
        let off := 2 + n + 2
        if optyMaxGracefulInput < gracefulLen.toNat ∨ p.length ≠ off + gracefulLen.toNat then some (.error .eproto)
        else some (.ok (token2, p.drop off))

/-! ## The messages and their wire format -/

/-- The messages the parsers read. A token is any bytes that fit its length byte; a C string is one without NUL. -/
inductive Msg where
  | hello (cols rows : UInt16) (token : List UInt8)
  | reconnect (lastSeq : UInt64) (cols rows : UInt16) (token : List UInt8)
  | welcome (baseSeq nextSeq : UInt64)
  | stdout (seq : UInt64) (data : List UInt8)
  | replay (fromSeq : UInt64) (data : List UInt8)
  | resize (cols rows : UInt16)
  | ack (seq : UInt64)
  | controlShutdown (token input : List UInt8)
  deriving DecidableEq, Repr

/-- A token behind its length byte. -/
def tokenField (token : List UInt8) : List UInt8 := UInt8.ofNat token.length :: token

/-- The wire format of each message. -/
def Msg.frame : Msg → Frame
  | .hello cols rows token =>
    ⟨msgHello, optyVersion :: (optyPutU16 cols ++ optyPutU16 rows ++ tokenField token)⟩
  | .reconnect lastSeq cols rows token =>
    ⟨msgReconnect, optyVersion :: (optyPutU64 lastSeq ++ optyPutU16 cols ++ optyPutU16 rows ++ tokenField token)⟩
  | .welcome baseSeq nextSeq => ⟨msgWelcome, optyPutU64 baseSeq ++ optyPutU64 nextSeq⟩
  | .stdout seq data => ⟨msgStdout, optyPutU64 seq ++ data⟩
  | .replay fromSeq data => ⟨msgReplay, optyPutU64 fromSeq ++ data⟩
  | .resize cols rows => ⟨msgResize, optyPutU16 cols ++ optyPutU16 rows⟩
  | .ack seq => ⟨msgAck, optyPutU64 seq⟩
  | .controlShutdown token input =>
    ⟨msgControlShutdown, optyVersion :: (tokenField token ++ optyPutU16 (UInt16.ofNat input.length) ++ input)⟩

/-- The contents of a token buffer after a token was copied to it, with the NUL that follows. -/
def tokenBuffer (token old : List UInt8) : List UInt8 := token ++ 0 :: old.drop (token.length + 1)

/-- The C string at the start of a buffer. -/
def cString (cells : List UInt8) : List UInt8 := cells.takeWhile (· != 0)

end ZeroPty
