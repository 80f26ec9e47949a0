import ZeroPty.Defs
import ZeroPty.Lib.Text
import Mathlib.Data.List.DropRight
import Mathlib.Logic.Function.Basic

/-!
# Session records

The records of `client.c`: where they are kept (`opty_session_path`), how one is written (`opty_write_session`) and how one is read
(`opty_read_session_info`). The files are a map from paths to contents. The system calls that may fail, and what `malloc` returns,
are arguments.
-/

namespace ZeroPty

open Memory Text

def optySessionMaxName : Nat := 96
def optySessionMaxArgc : Nat := 128

/-- `OPTY_DEFAULT_HOST`. -/
def optyDefaultHost : List UInt8 := ascii "127.0.0.1"

def Errno.enoent : Errno := .other 2
def Errno.e2big : Errno := .other 7
def Errno.eexist : Errno := .other 17
def Errno.eoverflow : Errno := .other 75

/-- `'\n'`. -/
def newline : UInt8 := 10

/-- `'\r'`. -/
def carriageReturn : UInt8 := 13

/-- `'\t'`. -/
def tab : UInt8 := 9

/-- `'\\'`. -/
def backslash : UInt8 := 92

/-- `'='`. -/
def equals : UInt8 := 61

/-- The contents of the files, by path. -/
abbrev Files : Type := List UInt8 → Option (List UInt8)

/-- `struct opty_endpoint`. -/
structure Endpoint where
  host : CString
  port : CString

/-! ## Paths -/

/-- `opty_is_decimal` -/
def optyIsDecimal (value : List UInt8) : Bool := !value.isEmpty && value.all isDigit

/-- The bytes of a session name. -/
def isNameByte (b : UInt8) : Bool :=
  (65 ≤ b && b ≤ 90) || (97 ≤ b && b ≤ 122) || isDigit b || b == 95 || b == 45 || b == 46

/-- `opty_is_session_name` -/
def optyIsSessionName (value : List UInt8) : Bool :=
  if value.isEmpty || value.head? == some 45 then false
  else if optySessionMaxName < value.length || value == ascii "." || value == ascii ".." then false
  else value.all isNameByte

/-- A directory under the home directory, in a buffer of 512 bytes. -/
def homeDir (home : Option CString) (suffix : List UInt8) : Except Errno (List UInt8) :=
  match home with
  | none => .error .enoent
  | some home =>
    if home.bytes = [] then .error .enoent
    else if 512 ≤ (home.bytes ++ suffix).length then .error .enospc
    else .ok (home.bytes ++ suffix)

/-- `opty_session_root` -/
def optySessionRoot (home : Option CString) : Except Errno (List UInt8) := homeDir home (ascii "/.0pty")

/-- `opty_session_dir` -/
def optySessionDir (home : Option CString) : Except Errno (List UInt8) := homeDir home (ascii "/.0pty/sessions")

/-- `opty_log_dir` -/
def optyLogDir (home : Option CString) : Except Errno (List UInt8) := homeDir home (ascii "/.0pty/logs")

/-- `mkdir`, for which an existing directory is no failure. -/
def makeDir (mkdir : List UInt8 → Except Errno Unit) (path : List UInt8) : Except Errno Unit :=
  match mkdir path with
  | .ok () => .ok ()
  | .error e => if e = .eexist then .ok () else .error e

/-- `opty_ensure_session_dir` -/
def optyEnsureSessionDir (home : Option CString) (mkdir : List UInt8 → Except Errno Unit) : Except Errno Unit := do
  let root ← optySessionRoot home
  let dir ← optySessionDir home
  let logDir ← optyLogDir home
  makeDir mkdir root
  makeDir mkdir dir
  makeDir mkdir logDir

/-- `opty_session_path`, with the buffer of 1024 bytes its callers have. -/
def optySessionPath (home : Option CString) (session : CString) : Except Errno (List UInt8) := do
  if optyIsSessionName session.bytes then
    let dir ← optySessionDir home
    let path := dir ++ ascii "/" ++ session.bytes ++ ascii ".session"
    if 1024 ≤ path.length then .error .enospc else .ok path
  else .error .einval

/-! ## Escaped values -/

/-- What a byte is written as. -/
def escapeByte (b : UInt8) : List UInt8 :=
  if b = newline then [backslash, 110]
  else if b = carriageReturn then [backslash, 114]
  else if b = tab then [backslash, 116]
  else if b = backslash then [backslash, backslash]
  else [b]

/-- `opty_escape_session_value` -/
def optyEscapeSessionValue (malloc : Alloc UInt8) (value : CString) : Except Errno (List UInt8) :=
  if (sizeMax - 1) / 2 < value.bytes.length then .error .eoverflow
  else
    match malloc (value.bytes.length * 2 + 1) with
    | none => .error .enomem
    | some _ => .ok (value.bytes.flatMap escapeByte)

/-- The bytes that are decoded. A backslash that ends the value stands for itself, and so does one before a byte that is not escaped. -/
def decodeBytes : List UInt8 → List UInt8
  | [] => []
  | [b] => [b]
  | b :: c :: l =>
    if b = backslash then
      if c = 110 then newline :: decodeBytes l
      else if c = 114 then carriageReturn :: decodeBytes l
      else if c = 116 then tab :: decodeBytes l
      else if c = backslash then backslash :: decodeBytes l
      else backslash :: c :: decodeBytes l
    else b :: decodeBytes (c :: l)

/-- `opty_decode_session_value` -/
def optyDecodeSessionValue (malloc : Alloc UInt8) (value : List UInt8) : Except Errno (List UInt8) :=
  match malloc (value.length + 1) with
  | none => .error .enomem
  | some _ => .ok (decodeBytes value)

/-- `opty_strdup` -/
def optyStrdup (malloc : Alloc UInt8) (value : List UInt8) : Except Errno (List UInt8) :=
  match malloc (value.length + 1) with
  | none => .error .enomem
  | some _ => .ok value

/-! ## Writing -/

/-- What the system calls of `opty_write_session` report, in the order they are made. -/
structure SaveWorld where
  home : Option CString
  mkdir : List UInt8 → Except Errno Unit
  pid : Nat
  openTmp : Except Errno Unit
  fdopen : Except Errno Unit
  /-- The working directory, when it can be found out. -/
  workingDir : Option CString
  /-- The `malloc` and the `fprintf` of each entry of `argv`. -/
  malloc : Nat → Alloc UInt8
  fprintf : Nat → Except Errno Unit
  /-- `ferror`, `fflush` and `fsync`. -/
  flush : Except Errno Unit
  fclose : Except Errno Unit
  rename : Except Errno Unit

/-- `getcwd` with a buffer of 1024 bytes; its failure leaves the buffer empty. -/
def getcwd (workingDir : Option CString) : List UInt8 :=
  match workingDir with
  | none => []
  | some dir => if dir.bytes.length < 1024 then dir.bytes else []

/-- A line of the record. -/
def recordLine (key value : List UInt8) : List UInt8 := key ++ equals :: value ++ [newline]

/-- `opty_write_escaped_field` -/
def optyWriteEscapedField (malloc : Alloc UInt8) (fprintf : Except Errno Unit) (key : List UInt8) (value : CString) :
    Except Errno (List UInt8) := do
  let escaped ← optyEscapeSessionValue malloc value
  fprintf
  .ok (recordLine key escaped)

/-- The key of an entry of `argv`. -/
def argvKey (i : Nat) : List UInt8 := ascii "argv" ++ decimal i

/-- The loop over `argv`, from the entry `i` on. A key that does not fit its buffer leaves `errno` as it was. -/
def writeArgv (w : SaveWorld) (i : Nat) : List CString → Except Errno (List UInt8)
  | [] => .ok []
  | arg :: rest =>
    if 32 ≤ (argvKey i).length then .error (.other 0)
    else do
      let line ← optyWriteEscapedField (w.malloc i) (w.fprintf i) (argvKey i) arg
      let more ← writeArgv w (i + 1) rest
      .ok (line ++ more)

/-- The default graceful input, as it is written: `/exit` and an escaped newline. -/
def defaultGracefulInput : List UInt8 := ascii "/exit" ++ [backslash, 110]

/-- The lines before those of `argv`. -/
def recordHead (session : CString) (endpoint : Endpoint) (logPath controlToken : CString) (argc : Nat) : List UInt8 :=
  recordLine (ascii "name") session.bytes ++
  recordLine (ascii "host") endpoint.host.bytes ++
  recordLine (ascii "port") endpoint.port.bytes ++
  recordLine (ascii "log") logPath.bytes ++
  recordLine (ascii "restart_policy") (ascii "manual") ++
  recordLine (ascii "control_token") controlToken.bytes ++
  recordLine (ascii "graceful_input") defaultGracefulInput ++
  recordLine (ascii "argc") (decimal argc) ++
  recordLine (ascii "argv_encoding") (ascii "escape")

/-- The line of the working directory; none when there is none. -/
def cwdLine (cwd : List UInt8) : List UInt8 := if cwd = [] then [] else recordLine (ascii "cwd") cwd

/-- What `opty_write_session` finds out before it creates a file: the path of the record and of its temporary file. -/
def savePaths (w : SaveWorld) (session controlToken : CString) (argc : Nat) : Except Errno (List UInt8 × List UInt8) := do
  optyEnsureSessionDir w.home w.mkdir
  let path ← optySessionPath w.home session
  if controlToken.bytes = [] ∨ optyMaxToken < controlToken.bytes.length then .error .einval
  else
    let tmp := path ++ ascii ".tmp." ++ decimal w.pid
    if 1100 ≤ tmp.length then .error .enospc
    else if optySessionMaxArgc < argc then .error .e2big
    else .ok (path, tmp)

/-- What is written to the temporary file until it is closed. -/
def saveRecord (w : SaveWorld) (session : CString) (endpoint : Endpoint) (logPath controlToken : CString) (argv : List CString) :
    Except Errno (List UInt8) := do
  w.fdopen
  let args ← writeArgv w 0 argv
  w.flush
  w.fclose
  .ok (recordHead session endpoint logPath controlToken argv.length ++ args ++ cwdLine (getcwd w.workingDir))

/-- `opty_write_session`: what it reports and the files it leaves. The temporary file is opened with `O_EXCL` and unlinked on every
failure. -/
def optyWriteSession (w : SaveWorld) (files : Files) (session : CString) (endpoint : Endpoint) (logPath controlToken : CString)
    (argv : List CString) : Except Errno Unit × Files :=
  match savePaths w session controlToken argv.length with
  | .error e => (.error e, files)
  | .ok (path, tmp) =>
    if files tmp ≠ none then (.error .eexist, files)
    else
      match w.openTmp with
      | .error e => (.error e, files)
      | .ok () =>
        match saveRecord w session endpoint logPath controlToken argv with
        | .error e => (.error e, Function.update files tmp none)
        | .ok record =>
          match w.rename with
          | .error e => (.error e, Function.update files tmp none)
          | .ok () => (.ok (), Function.update (Function.update files path (some record)) tmp none)

/-! ## Reading -/

/-- `struct opty_session_info`: each field by the bytes before its terminator. -/
structure SessionInfo where
  name : List UInt8
  host : List UInt8
  port : List UInt8
  log : List UInt8
  cwd : List UInt8
  restartPolicy : List UInt8
  controlToken : List UInt8
  gracefulInput : List UInt8
  command : List UInt8
  argc : Nat
  argv : Nat → Option (List UInt8)

/-- `opty_session_info_init` -/
def optySessionInfoInit (fallbackName : CString) : SessionInfo where
  name := fallbackName.bytes.take optySessionMaxName
  host := optyDefaultHost
  port := []
  log := []
  cwd := []
  restartPolicy := ascii "manual"
  controlToken := []
  gracefulInput := defaultGracefulInput
  command := []
  argc := 0
  argv := fun _ => none

/-- `opty_chomp`, of the bytes before the first NUL. -/
def optyChomp (line : List UInt8) : List UInt8 :=
  (line.takeWhile (· ≠ 0)).rdropWhile fun b => b == newline || b == carriageReturn

/-- `opty_copy_field` -/
def optyCopyField (cap : Nat) (src : List UInt8) : Except Errno (List UInt8) :=
  if cap ≤ src.length then .error .einval else .ok src

/-- `opty_parse_argv_key`: none for a key that is not one of `argv`. -/
def optyParseArgvKey (key : List UInt8) : Except Errno (Option Nat) :=
  if key.take 4 ≠ ascii "argv" ∨ optyIsDecimal (key.drop 4) = false then .ok none
  else
    match strtoul (key.drop 4) with
    | some (index, []) => if optySessionMaxArgc ≤ index then .error .einval else .ok (some index)
    | _ => .error .einval

/-- The record as far as it is read: what it says, and whether the entries of `argv` are escaped. -/
structure RecordReading where
  info : SessionInfo
  argvEscaped : Bool

/-- The last branch: an entry of `argv`, or a key that is passed over. -/
def readSessionArgv (malloc : Alloc UInt8) (r : RecordReading) (key value : List UInt8) : Except Errno RecordReading :=
  match optyParseArgvKey key with
  | .error e => .error e
  | .ok none => .ok r
  | .ok (some index) =>
    (if r.argvEscaped then optyDecodeSessionValue malloc value else optyStrdup malloc value).map fun v =>
      { r with info := { r.info with argv := Function.update r.info.argv index (some v) } }

/-- The lines with a key and a value: the branches of `opty_read_session_info`. -/
def readSessionField (malloc : Alloc UInt8) (r : RecordReading) (key value : List UInt8) : Except Errno RecordReading :=
  let put (info : SessionInfo) : RecordReading := { r with info := info }
  if key = ascii "name" then
    (optyCopyField (optySessionMaxName + 1) value).map fun v => put { r.info with name := v }
  else if key = ascii "host" then (optyCopyField 128 value).map fun v => put { r.info with host := v }
  else if key = ascii "port" then (optyCopyField 16 value).map fun v => put { r.info with port := v }
  else if key = ascii "log" then (optyCopyField 512 value).map fun v => put { r.info with log := v }
  else if key = ascii "cwd" then (optyCopyField 1024 value).map fun v => put { r.info with cwd := v }
  else if key = ascii "restart_policy" then (optyCopyField 64 value).map fun v => put { r.info with restartPolicy := v }
  else if key = ascii "control_token" then
    (optyCopyField (optyMaxToken + 1) value).map fun v => put { r.info with controlToken := v }
  else if key = ascii "graceful_input" then
    (optyCopyField (optyMaxGracefulInput + 1) value).map fun v => put { r.info with gracefulInput := v }
  else if key = ascii "command" then .ok (put { r.info with command := value.take 1023 })
  else if key = ascii "argv_encoding" then .ok { r with argvEscaped := r.argvEscaped || value == ascii "escape" }
  else if key = ascii "argc" then
    match strtoul value with
    | some (argc, []) => if optySessionMaxArgc < argc then .error .einval else .ok (put { r.info with argc := argc })
    | _ => .error .einval
  else readSessionArgv malloc r key value

/-- One line. A line without `=` is passed over. -/
def readSessionLine (malloc : Alloc UInt8) (r : RecordReading) (line : List UInt8) : Except Errno RecordReading :=
  match cut equals (optyChomp line) with
  | none => .ok r
  | some (key, value) => readSessionField malloc r key value

/-- The lines from the line `n` on, each with an allocator of its own. -/
def readSessionLines (malloc : Nat → Alloc UInt8) (n : Nat) (r : RecordReading) : List (List UInt8) → Except Errno RecordReading
  | [] => .ok r
  | line :: rest =>
    match readSessionLine (malloc n) r line with
    | .error e => .error e
    | .ok r => readSessionLines malloc (n + 1) r rest

/-- The checks after the last line. -/
def finishSessionInfo (info : SessionInfo) : Except Errno SessionInfo :=
  if info.port = [] then .error .einval
  else if ∃ i < info.argc, info.argv i = none then .error .einval
  else .ok { info with argv := Function.update info.argv info.argc none }

/-- `opty_read_session_info` -/
def optyReadSessionInfo (home : Option CString) (fopen : Except Errno Unit) (malloc : Nat → Alloc UInt8) (files : Files)
    (session : CString) : Except Errno SessionInfo := do
  let path ← optySessionPath home session
  match files path with
  | none => .error .enoent
  | some content =>
    fopen
    let r ← readSessionLines malloc 0 ⟨optySessionInfoInit session, false⟩ (lines newline content)
    finishSessionInfo r.info

end ZeroPty
