import ZeroPty.Store

/-!
# Endpoints as text

`opty_parse_endpoint` of `common.c`, which the server reads its `-b` option with, the text that `opty_spawn_server` passes there, and
the endpoint of a numeric session. Text is a list of bytes without the NUL that ends it.
-/

namespace ZeroPty

open Memory Text

/-- `OPTY_DEFAULT_PORT`. -/
def optyDefaultPort : List UInt8 := ascii "6077"

/-- `':'`. -/
def colon : UInt8 := 58

/-- `'['`. -/
def openBracket : UInt8 := 91

/-- `']'`. -/
def closeBracket : UInt8 := 93

/-- `struct opty_endpoint`, by the text its two members point to. -/
structure EndpointText where
  host : List UInt8
  port : List UInt8
  deriving DecidableEq, Repr

/-- `opty_dup_range` -/
def optyDupRange (malloc : Alloc UInt8) (range : List UInt8) : Option (List UInt8) := (malloc (range.length + 1)).map fun _ => range

/-- The text between brackets, and what comes after the second. The host is copied before the rest is looked at. -/
def parseBracketed (mallocHost mallocPort : Alloc UInt8) (host rest defaultPort : List UInt8) : Except Errno EndpointText :=
  if host = [] then .error .einval
  else
    match optyDupRange mallocHost host with
    | none => .error .enomem
    | some host =>
      match rest with
      | [] => .ok ⟨host, defaultPort⟩
      | c :: port =>
        if c ≠ colon then .error .einval
        else if port = [] then .error .einval
        else
          match optyDupRange mallocPort port with
          | none => .error .enomem
          | some port => .ok ⟨host, port⟩

/-- The text before the first colon, and what comes after it. -/
def parseColon (mallocHost mallocPort : Alloc UInt8) (host port defaultHost : List UInt8) : Except Errno EndpointText :=
  match cut colon port with
  | some _ => .error .einval
  | none =>
    match if host = [] then some defaultHost else optyDupRange mallocHost host with
    | none => .error .enomem
    | some host =>
      if port = [] then .error .einval
      else
        match optyDupRange mallocPort port with
        | none => .error .enomem
        | some port => .ok ⟨host, port⟩

/-- The endpoint that `opty_parse_endpoint` reads. `input` is none for NULL. -/
def parseEndpoint (mallocHost mallocPort : Alloc UInt8) (input : Option (List UInt8)) (defaultHost defaultPort : List UInt8) :
    Except Errno EndpointText :=
  match input with
  | none | some [] => .ok ⟨defaultHost, defaultPort⟩
  | some (c :: text) =>
    if c = openBracket then
      match cut closeBracket text with
      | none => .error .einval
      | some (host, rest) => parseBracketed mallocHost mallocPort host rest defaultPort
    else
      match cut colon (c :: text) with
      | none => .ok ⟨c :: text, defaultPort⟩
      | some (host, port) => parseColon mallocHost mallocPort host port defaultHost

/-- `opty_parse_endpoint`: what it returns, and `*out` after it. Both members are stored at the end. -/
def optyParseEndpoint (mallocHost mallocPort : Alloc UInt8) (input : Option (List UInt8)) (defaultHost defaultPort : List UInt8)
    (out : EndpointText) : Except Errno Unit × EndpointText :=
  match parseEndpoint mallocHost mallocPort input defaultHost defaultPort with
  | .ok endpoint => (.ok (), endpoint)
  | .error e => (.error e, out)

/-- `endpoint_arg` of `opty_spawn_server`, in its buffer of 128 bytes. -/
def endpointArg (endpoint : EndpointText) : Except Errno (List UInt8) :=
  if 128 ≤ (endpoint.host ++ colon :: endpoint.port).length then .error .enospc
  else .ok (endpoint.host ++ colon :: endpoint.port)

/-- `opty_numeric_session_endpoint` with a buffer of `portCap` bytes for the port. -/
def numericSessionEndpoint (session : List UInt8) (portCap : Nat) : Except Errno EndpointText :=
  match optyNumericSessionEndpoint session with
  | none => .error .einval
  | some port => if portCap ≤ (decimal port).length then .error .enospc else .ok ⟨optyDefaultHost, decimal port⟩

end ZeroPty
