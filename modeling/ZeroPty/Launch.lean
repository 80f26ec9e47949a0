import ZeroPty.Connect
import ZeroPty.RecordMemory
import ZeroPty.Lib.Getopt

/-!
# Starting a server

What `opty_spawn_server` hands to the server that it executes, what `main` of the server makes of it, and `run_named_start` and
`run_named_restart` up to the spawn. The results of system calls are arguments; a word of a command line is what stands before its
NUL.
-/

namespace ZeroPty

open Memory Text Getopt

/-- `'/'`. -/
def slash : UInt8 := 47

/-! ## The command line of the server -/

/-- The options of the server. -/
inductive ServerOpt where
  | bind
  | ring
  | token
  | controlToken
  | help
  deriving DecidableEq, Repr

/-- `"b:r:t:c:h"`. -/
def serverSpec : Spec ServerOpt where
  short := fun c =>
    if c = 98 then some (.bind, true)
    else if c = 114 then some (.ring, true)
    else if c = 116 then some (.token, true)
    else if c = 99 then some (.controlToken, true)
    else if c = 104 then some (.help, false)
    else none

/-- What `main` of the server looks at besides its arguments. -/
structure ServerEnv where
  posixlyCorrect : Bool
  /-- `OPTY_CONTROL_TOKEN`. -/
  controlToken : Option CString
  /-- `SHELL`. -/
  shell : Option CString
  mallocHost : Alloc UInt8
  mallocPort : Alloc UInt8

/-- What the options say. -/
structure ServerOptions where
  bind : EndpointText
  ringSize : Nat
  token : Option Secret
  controlToken : Option Secret

/-- What the server is started with. -/
structure ServerSetup where
  bind : EndpointText
  ringSize : Nat
  cfg : Config
  childArgv : List Word

/-- Before any option. -/
def ServerOptions.default : ServerOptions where
  bind := ⟨optyDefaultHost, optyDefaultPort⟩
  ringSize := optyDefaultRingSize
  token := none
  controlToken := none

theorem serverStoreToken_isSome {text : CString} (h : text.bytes.length ≤ optyMaxToken) : (serverStoreToken text).isSome = true := by
  obtain ⟨out, hout, -⟩ := memcpy_eq_some (.fill (optyMaxToken + 1) 0) text.bytes (d := 0) (s := 0) (k := text.bytes.length) (by omega)
    (by omega)
  rw [serverStoreToken, hout]
  rfl

/-- A token that is stored, unless it is too long. -/
def Secret.ofText (text : CString) : Option Secret :=
  if h : text.bytes.length ≤ optyMaxToken then
    some ⟨text, h, (serverStoreToken text).get (serverStoreToken_isSome h), (Option.some_get _).symm⟩
  else none

/-- One option. An error is the status that `main` returns. -/
def serverOption (env : ServerEnv) (o : ServerOptions) : Found ServerOpt → Except Nat ServerOptions
  | (.bind, arg) =>
    match optyParseEndpoint env.mallocHost env.mallocPort arg optyDefaultHost optyDefaultPort o.bind with
    | (.error _, _) => .error 2
    | (.ok (), bind) => .ok { o with bind := bind }
  | (.ring, arg) =>
    match strtoul (arg.getD []) with
    | some (size, []) => if size = 0 then .error 2 else .ok { o with ringSize := size }
    | _ => .error 2
  | (.token, arg) =>
    match Secret.ofText (.ofBytes (arg.getD [])) with
    | none => .error 2
    | some t => .ok { o with token := some t }
  | (.controlToken, arg) =>
    match Secret.ofText (.ofBytes (arg.getD [])) with
    | none => .error 2
    | some t => .ok { o with controlToken := some t }
  | (.help, _) => .error 0

/-- The token of the environment, when no option gave one. -/
def serverControlToken (env : ServerEnv) (o : ServerOptions) : Except Nat (Option Secret) :=
  match o.controlToken, env.controlToken with
  | some t, _ => .ok (some t)
  | none, none => .ok none
  | none, some text =>
    if text.bytes = [] then .ok none
    else
      match Secret.ofText text with
      | none => .error 2
      | some t => .ok (some t)

/-- What the server runs: the operands, without a `--` before them, or the shell. -/
def serverChildArgv (env : ServerEnv) (operands : List Word) : List Word :=
  let words := if operands.head? = some dashes then operands.tail else operands
  if words ≠ [] then words
  else
    match env.shell with
    | none => [ascii "/bin/sh"]
    | some shell => if shell.bytes = [] then [ascii "/bin/sh"] else [shell.bytes]

/-- `main` of the server on the words after its name, until it sets up its signal handlers. -/
def serverMain (env : ServerEnv) (args : List Word) : Except Nat ServerSetup := do
  let r := getopt serverSpec env.posixlyCorrect args
  let o ← r.1.foldlM (serverOption env) .default
  match r.2 with
  | none => .error 2
  | some operands =>
    let controlToken ← serverControlToken env o
    .ok ⟨o.bind, o.ringSize, ⟨o.token, controlToken⟩, serverChildArgv env operands⟩

/-! ## The spawn -/

/-- What the server that was spawned is executed with, and what it inherits. -/
structure Launch where
  path : List UInt8
  argv : List Word
  controlToken : Option CString
  cwd : List UInt8
  log : List UInt8

/-- What the system calls of `opty_spawn_server` report: the two allocations, `fork`, and what the child does before the `exec`. -/
structure SpawnWorld where
  mallocPath : Alloc UInt8
  calloc : Bool
  fork : Except Errno Unit
  child : Except Errno Unit
  /-- `OPTY_CONTROL_TOKEN` of the client. -/
  inherited : Option CString

/-- `OPTY_CONTROL_TOKEN` of the child, which sets it when it was given a token. -/
def SpawnWorld.tokenFor (w : SpawnWorld) : Option CString → Option CString
  | some t => if t.bytes = [] then w.inherited else some t
  | none => w.inherited

/-- `opty_server_path` -/
def optyServerPath (malloc : Alloc UInt8) (clientPath : List UInt8) : Except Errno (List UInt8) :=
  -- with a slash, the directory ends with its last one
  let dir := clientPath.rdropWhile (· ≠ slash)
  if dir = [] then optyStrdup malloc (ascii "0pty-server")
  else
    match malloc (dir.length + 12) with
    | none => .error .enomem
    | some _ => .ok (dir ++ ascii "0pty-server")

/-- The words before the NULL. -/
def argvWords : List (Option Word) → List Word
  | some w :: rest => w :: argvWords rest
  | _ => []

/-- `opty_spawn_server` until the child executes the server; none when it walks beyond the end of `command_argv`. -/
def optySpawnServer (w : SpawnWorld) (argv0 cwd : List UInt8) (endpoint : EndpointText) (logPath : List UInt8)
    (controlToken : Option CString) (commandArgv : List (Option Word)) : Option (Except Errno Launch) :=
  match endpointArg endpoint with
  | .error e => some (.error e)
  | .ok arg =>
    match optyServerPath w.mallocPath argv0 with
    | .error e => some (.error e)
    | .ok path =>
      (InMemory.execArgv path arg commandArgv).map fun execArgv =>
      if w.calloc = false then .error .enomem
      else do
        w.fork
        w.child
        .ok {
          path := path
          argv := argvWords execArgv
          controlToken := w.tokenFor controlToken
          cwd := cwd
          log := logPath }

/-! ## The commands -/

/-- `opty_session_log_path`, with the buffer of 512 bytes its callers have. -/
def optySessionLogPath (home : Option CString) (session : CString) : Except Errno (List UInt8) := do
  if optyIsSessionName session.bytes then
    let dir ← optyLogDir home
    let path := dir ++ ascii "/" ++ session.bytes ++ ascii ".log"
    if 512 ≤ path.length then .error .enospc else .ok path
  else .error .einval

/-- What a command comes to: a return of 1, `run_client_endpoint` with the server that is there, or with the one that was spawned. -/
inductive LaunchResult where
  | failed
  | connects (endpoint : EndpointText)
  | launches (endpoint : EndpointText) (server : Launch)

/-- What `run_named_start` looks at. -/
structure StartWorld where
  save : SaveWorld
  spawn : SpawnWorld
  /-- The working directory. -/
  cwd : CString
  files : Files
  fopen : Except Errno Unit
  accepts : EndpointText → Bool
  bindable : Nat → Bool
  /-- What is read from `/dev/urandom`. -/
  urandom : Except Errno (Block UInt8 optyControlTokenBytes)

/-- The NULL-terminated array behind a list of strings. -/
def argvCells (argv : List CString) : List (Option Word) := argv.map (fun a => some a.bytes) ++ [none]

/-- The endpoint of the session, if it has a record and something accepts connections there. -/
def runningEndpoint (w : StartWorld) (session : CString) : Option EndpointText :=
  match optyReadSessionEndpoint w.save.home w.fopen w.files session 128 16 with
  | .error _ => none
  | .ok (host, port) => if w.accepts ⟨host, port⟩ then some ⟨host, port⟩ else none

/-- `run_named_start` after no server was found: the endpoint, the path of the log and the token of the new one. -/
def startSession (w : StartWorld) (session : CString) : Except Errno (Endpoint × CString × CString) := do
  match optyPickSessionEndpoint w.bindable with
  | none => .error (.other 98)
  | some port =>
    let logPath ← optySessionLogPath w.save.home session
    let random ← w.urandom
    .ok (⟨.ofBytes optyDefaultHost, .ofBytes (decimal port)⟩, .ofBytes logPath, optyGenerateControlToken random)

/-- `run_named_start`: what it comes to, and the files it leaves. -/
def runNamedStart (w : StartWorld) (argv0 : List UInt8) (session : CString) (argv : List CString) : Option (LaunchResult × Files) :=
  if optyIsSessionName session.bytes = false then some (.failed, w.files)
  else
    match runningEndpoint w session with
    | some endpoint => some (.connects endpoint, w.files)
    | none =>
      match startSession w session with
      | .error _ => some (.failed, w.files)
      | .ok (endpoint, logPath, controlToken) =>
        match optyWriteSession w.save w.files session endpoint logPath controlToken argv with
        | (.error _, files) => some (.failed, files)
        | (.ok (), files) =>
          let text : EndpointText := ⟨endpoint.host.bytes, endpoint.port.bytes⟩
          (optySpawnServer w.spawn argv0 w.cwd.bytes text logPath.bytes (some controlToken) (argvCells argv)).map fun r =>
          match r with
          | .error _ => (.failed, files)
          | .ok server => (.launches text server, files)

/-- What `run_named_restart` looks at. -/
structure RestartWorld where
  home : Option CString
  spawn : SpawnWorld
  cwd : CString
  /-- `getcwd` finds the working directory, and its buffer of 1024 bytes is large enough. -/
  getcwd : Bool
  chdir : List UInt8 → Bool
  files : Files
  fopen : Except Errno Unit
  malloc : Nat → Alloc UInt8
  accepts : EndpointText → Bool

/-- The directory a path names, seen from another one. -/
def resolveDir (cwd path : List UInt8) : List UInt8 := if path.head? = some slash then path else cwd ++ slash :: path

/-- `chdir` back to where `run_named_restart` was called, if that was found out and can be gone to. -/
def RestartWorld.goBack (w : RestartWorld) (cwd : List UInt8) : List UInt8 :=
  if w.getcwd ∧ w.chdir w.cwd.bytes then w.cwd.bytes else cwd

/-- The array `info.argv`. -/
def SessionInfo.argvCells (info : SessionInfo) : List (Option Word) := (List.range (optySessionMaxArgc + 1)).map info.argv

/-- `run_named_restart`: what it comes to, and the working directory it leaves. -/
def runNamedRestart (w : RestartWorld) (argv0 : List UInt8) (session : CString) : Option (LaunchResult × List UInt8) :=
  if optyIsSessionName session.bytes = false then some (.failed, w.cwd.bytes)
  else
    match optyReadSessionInfo w.home w.fopen w.malloc w.files session with
    | .error _ => some (.failed, w.cwd.bytes)
    | .ok info =>
      let endpoint : EndpointText := ⟨info.host, info.port⟩
      if info.argc = 0 then some (.failed, w.cwd.bytes)
      else if w.accepts endpoint then some (.failed, w.cwd.bytes)
      else if info.cwd ≠ [] ∧ w.chdir info.cwd = false then some (.failed, w.cwd.bytes)
      else
        let cwd := if info.cwd = [] then w.cwd.bytes else resolveDir w.cwd.bytes info.cwd
        match if info.log = [] then optySessionLogPath w.home session else .ok info.log with
        | .error _ => some (.failed, w.goBack cwd)
        | .ok log =>
          let controlToken := if info.controlToken = [] then none else some (CString.ofBytes info.controlToken)
          (optySpawnServer w.spawn argv0 cwd endpoint log controlToken info.argvCells).map fun r =>
          match r with
          | .error _ => (.failed, w.goBack cwd)
          | .ok server => (.launches endpoint server, w.goBack cwd)

end ZeroPty
