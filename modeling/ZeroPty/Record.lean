import ZeroPty.Session

/-!
# The other readers of a session record

`opty_read_session_endpoint`, which takes no more of a record than its host and port, and `opty_decode_graceful_input`, the decoder
that refuses what `opty_decode_session_value` takes as it is.
-/

namespace ZeroPty

open Memory Text

/-- The keys and the values of a record, line by line. -/
def recordFields (content : List UInt8) : List (List UInt8 × List UInt8) :=
  (lines newline content).filterMap fun line => cut equals (optyChomp line)

/-! ## The fields -/

/-- The fields of `struct opty_session_info` that are arrays of bytes. -/
inductive SessionField where
  | name
  | host
  | port
  | log
  | cwd
  | restartPolicy
  | controlToken
  | gracefulInput
  | command
  deriving DecidableEq, Repr

/-- The sizes of the arrays. -/
def SessionField.cap : SessionField → Nat
  | .name => optySessionMaxName + 1
  | .host => 128
  | .port => 16
  | .log => 512
  | .cwd => 1024
  | .restartPolicy => 64
  | .controlToken => optyMaxToken + 1
  | .gracefulInput => optyMaxGracefulInput + 1
  | .command => 1024

/-- The key of a line for the field. -/
def SessionField.key : SessionField → List UInt8
  | .name => ascii "name"
  | .host => ascii "host"
  | .port => ascii "port"
  | .log => ascii "log"
  | .cwd => ascii "cwd"
  | .restartPolicy => ascii "restart_policy"
  | .controlToken => ascii "control_token"
  | .gracefulInput => ascii "graceful_input"
  | .command => ascii "command"

/-- The field of a record. -/
def SessionInfo.field (info : SessionInfo) : SessionField → List UInt8
  | .name => info.name
  | .host => info.host
  | .port => info.port
  | .log => info.log
  | .cwd => info.cwd
  | .restartPolicy => info.restartPolicy
  | .controlToken => info.controlToken
  | .gracefulInput => info.gracefulInput
  | .command => info.command

/-- A field of a record is replaced. -/
def SessionInfo.put (info : SessionInfo) (f : SessionField) (value : List UInt8) : SessionInfo :=
  match f with
  | .name => { info with name := value }
  | .host => { info with host := value }
  | .port => { info with port := value }
  | .log => { info with log := value }
  | .cwd => { info with cwd := value }
  | .restartPolicy => { info with restartPolicy := value }
  | .controlToken => { info with controlToken := value }
  | .gracefulInput => { info with gracefulInput := value }
  | .command => { info with command := value }

/-- The field that `opty_copy_field` is called for, as the keys are compared one after another. -/
def copiedField (key : List UInt8) : Option SessionField :=
  if key = ascii "name" then some .name
  else if key = ascii "host" then some .host
  else if key = ascii "port" then some .port
  else if key = ascii "log" then some .log
  else if key = ascii "cwd" then some .cwd
  else if key = ascii "restart_policy" then some .restartPolicy
  else if key = ascii "control_token" then some .controlToken
  else if key = ascii "graceful_input" then some .gracefulInput
  else none

/-! ## The endpoint -/

/-- What is in the buffers of `opty_read_session_endpoint`, and whether a port was found. -/
structure EndpointReading where
  host : List UInt8
  port : List UInt8
  foundPort : Bool

/-- The lines with a key and a value. -/
def readEndpointField (hostCap portCap : Nat) (r : EndpointReading) (key value : List UInt8) : Except Errno EndpointReading :=
  if key = ascii "host" then
    if value = [] ∨ hostCap ≤ value.length then .error .einval else .ok { r with host := value }
  else if key = ascii "port" then
    if value = [] ∨ portCap ≤ value.length then .error .einval
    else if value.all isDigit = false then .error .einval
    else .ok { r with port := value, foundPort := true }
  else .ok r

/-- The loop over the lines. -/
def readEndpointLines (hostCap portCap : Nat) (r : EndpointReading) : List (List UInt8) → Except Errno EndpointReading
  | [] => .ok r
  | line :: rest =>
    match cut equals (optyChomp line) with
    | none => readEndpointLines hostCap portCap r rest
    | some (key, value) =>
      match readEndpointField hostCap portCap r key value with
      | .error e => .error e
      | .ok r => readEndpointLines hostCap portCap r rest

/-- `opty_read_session_endpoint`: the host and the port. Without room for a host `errno` stays as it was. The buffer of the port is not
read unless a port was found. -/
def optyReadSessionEndpoint (home : Option CString) (fopen : Except Errno Unit) (files : Files) (session : CString)
    (hostCap portCap : Nat) : Except Errno (List UInt8 × List UInt8) :=
  if hostCap = 0 then .error (.other 0)
  else do
    let path ← optySessionPath home session
    match files path with
    | none => .error .enoent
    | some content =>
      fopen
      let r ← readEndpointLines hostCap portCap ⟨optyDefaultHost.take (hostCap - 1), [], false⟩ (lines newline content)
      if r.foundPort then .ok (r.host, r.port) else .error .einval

/-! ## The graceful input -/

/-- The byte that an escape stands for. -/
def unescapeByte (c : UInt8) : Option UInt8 :=
  if c = 110 then some newline
  else if c = 114 then some carriageReturn
  else if c = 116 then some tab
  else if c = backslash then some backslash
  else none

/-- The loop of `opty_decode_graceful_input`, with `out` written so far. -/
def decodeGracefulLoop (cap : Nat) (out : List UInt8) : List UInt8 → Except Errno (List UInt8)
  | [] => .ok out
  | [b] => if b = backslash then .error .einval else if out.length = cap then .error .emsgsize else .ok (out ++ [b])
  | b :: c :: l =>
    if b = backslash then
      match unescapeByte c with
      | none => .error .einval
      | some ch => if out.length = cap then .error .emsgsize else decodeGracefulLoop cap (out ++ [ch]) l
    else if out.length = cap then .error .emsgsize
    else decodeGracefulLoop cap (out ++ [b]) (c :: l)

/-- `opty_decode_graceful_input`, with room for `cap` bytes: the bytes it puts there. -/
def optyDecodeGracefulInput (value : List UInt8) (cap : Nat) : Except Errno (List UInt8) := decodeGracefulLoop cap [] value

end ZeroPty
