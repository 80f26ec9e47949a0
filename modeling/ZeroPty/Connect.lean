import ZeroPty.Endpoint
import ZeroPty.Record

/-!
# Connecting without a name

`opty_load_session_entries` over the session directory, `run_named_connect` and `run_connect_auto`. What opening and reading a record
comes to depends on the session only, so that a record that is read twice is read as it was.
-/

namespace ZeroPty

open Memory Text

/-- The string that starts at the first of these bytes. -/
def CString.ofBytes (bytes : List UInt8) : CString where
  bytes := bytes.takeWhile (· ≠ 0)
  noNul := fun h => by
    have := List.mem_takeWhile_imp h
    simp at this

/-- The session directory and the world around it. -/
structure SessionDir where
  home : Option CString
  /-- The names that `readdir` finds in the directory, in its order, if it can be opened. -/
  entries : Except Errno (List CString)
  files : Files
  fopen : CString → Except Errno Unit
  malloc : CString → Nat → Alloc UInt8
  /-- Whether the entries can be reallocated to this number. -/
  realloc : Nat → Bool
  /-- Whether the thread that probes the entry of this index can be created. -/
  pthreadCreate : Nat → Bool
  /-- Whether the endpoint of the record of this session accepts a connection. -/
  accepts : CString → Bool

/-- An entry: the session that its file is named after, and its record. -/
structure SessionEntry where
  session : CString
  info : SessionInfo

/-- `opty_read_session_info` -/
def SessionDir.read (d : SessionDir) (session : CString) : Except Errno SessionInfo :=
  optyReadSessionInfo d.home (d.fopen session) (d.malloc session) d.files session

/-- The session of a file, if it is the file of one. -/
def sessionOfFile (name : CString) : Option CString :=
  let len := name.bytes.length
  if len ≤ 8 ∨ name.bytes.drop (len - 8) ≠ ascii ".session" then none
  else if optySessionMaxName < len - 8 then none
  else
    let session : CString := ⟨name.bytes.take (len - 8), fun h => name.noNul (List.mem_of_mem_take h)⟩
    if optyIsSessionName session.bytes then some session else none

/-- The loop over the directory: the entries, none when there is no memory for them. A record that cannot be read is passed over. -/
def loadEntries (d : SessionDir) (cap : Nat) (entries : List SessionEntry) : List CString → Option (List SessionEntry)
  | [] => some entries
  | name :: rest =>
    match sessionOfFile name with
    | none => loadEntries d cap entries rest
    | some session =>
      let newCap := if entries.length = cap then (if cap = 0 then 8 else cap * 2) else cap
      if entries.length = cap ∧ d.realloc newCap = false then none
      else
        match d.read session with
        | .error _ => loadEntries d newCap entries rest
        | .ok info => loadEntries d newCap (entries ++ [⟨session, info⟩]) rest

/-- `opty_load_session_entries`: none for its return of 1. A directory that is not there is empty. -/
def optyLoadSessionEntries (d : SessionDir) : Option (List SessionEntry) :=
  match optySessionDir d.home with
  | .error _ => none
  | .ok _ =>
    match d.entries with
    | .error e => if e = .enoent then some [] else none
    | .ok names =>
      (loadEntries d 0 [] names).bind fun entries =>
      if ∀ i < entries.length, d.pthreadCreate i = true then some entries else none

/-- What a command comes to: a status without a connection, or `run_client_endpoint` with an endpoint. -/
inductive ConnectResult where
  | returned (status : Nat)
  | connects (host port : List UInt8)
  deriving DecidableEq, Repr

/-- Where `run_named_connect` looks for the endpoint of a session: in its record, in what `opty_read_session_endpoint` takes of it, and
in its number. -/
def namedEndpoint (d : SessionDir) (session : CString) : Option (List UInt8 × List UInt8) :=
  match d.read session with
  | .ok info => some (info.host, info.port)
  | .error _ =>
    match optyReadSessionEndpoint d.home (d.fopen session) d.files session 128 16 with
    | .ok endpoint => some endpoint
    | .error _ =>
      if optyIsDecimal session.bytes then
        match numericSessionEndpoint session.bytes 16 with
        | .ok endpoint => some (endpoint.host, endpoint.port)
        | .error _ => none
      else none

/-- `run_named_connect` -/
def runNamedConnect (d : SessionDir) (session : CString) : ConnectResult :=
  if optyIsSessionName session.bytes then
    match namedEndpoint d session with
    | some (host, port) => .connects host port
    | none => .returned 1
  else .returned 1

/-- `run_connect_auto` -/
def runConnectAuto (d : SessionDir) : ConnectResult :=
  match optyLoadSessionEntries d with
  | none => .returned 1
  | some [] => .returned 1
  | some [entry] => if d.accepts entry.session then runNamedConnect d (.ofBytes entry.info.name) else .returned 1
  | some _ => .returned 1

end ZeroPty
