import ZeroPty.Session
import ZeroPty.Lib.Transition

/-!
# Writing a record, call by call

`opty_write_session` as a machine that makes one call at a time, so that the files can be looked at between any two of them: this is
what a crash of the process leaves. What stands in the buffer of the stream is lost then. A call of stdio writes out as much of the
buffer as it likes, a write that fails sets the error indicator, and a file is renamed or it is not.
-/

namespace ZeroPty

open Text Transition

/-- The arguments of `opty_write_session`. -/
structure SaveArgs where
  session : CString
  endpoint : Endpoint
  logPath : CString
  controlToken : CString
  argv : List CString

/-- A line that is printed: as it stands, or an entry of `argv` that is escaped first. -/
inductive SaveLine where
  | plain (text : List UInt8)
  | arg (i : Nat) (value : CString)

/-- The loop over `argv`, from the entry `i` on. -/
def saveArgv (i : Nat) : List CString → List SaveLine
  | [] => []
  | arg :: rest => .arg i arg :: saveArgv (i + 1) rest

/-- The lines in the order they are printed. -/
def saveLines (c : SaveArgs) (cwd : List UInt8) : List SaveLine :=
  [.plain (recordLine (ascii "name") c.session.bytes),
    .plain (recordLine (ascii "host") c.endpoint.host.bytes),
    .plain (recordLine (ascii "port") c.endpoint.port.bytes),
    .plain (recordLine (ascii "log") c.logPath.bytes),
    .plain (recordLine (ascii "restart_policy") (ascii "manual")),
    .plain (recordLine (ascii "control_token") c.controlToken.bytes),
    .plain (recordLine (ascii "graceful_input") defaultGracefulInput),
    .plain (recordLine (ascii "argc") (decimal c.argv.length)),
    .plain (recordLine (ascii "argv_encoding") (ascii "escape"))] ++
  saveArgv 0 c.argv ++ if cwd = [] then [] else [.plain (recordLine (ascii "cwd") cwd)]

/-- Where `opty_write_session` is: the call it makes next. -/
inductive SavePc where
  | paths
  | openTmp
  | fdopen
  | print (lines : List SaveLine)
  | ferror
  | fflush
  | fsync
  | fclose
  /-- `fclose` and `unlink` after a failure, with the `errno` that is kept. -/
  | fcloseFailed (e : Errno)
  | unlink (e : Errno)
  | rename
  /-- Between `rename` and the return. -/
  | renamed
  | returned (r : Except Errno Unit)

/-- The files, the stream and the call that is next. -/
structure SaveState where
  files : Files
  path : List UInt8
  tmp : List UInt8
  /-- This call has created the temporary file. -/
  created : Bool
  buffer : List UInt8
  /-- The error indicator of the stream, with the `errno` it was set with. -/
  error : Option Errno
  pc : SavePc

/-- What a call does: what it reports, how many bytes of the stream it writes out, and what is buffered after a write that fails. -/
structure SaveCall where
  result : Except Errno Unit
  flushed : Nat
  left : List UInt8

def SaveState.init (files : Files) : SaveState where
  files := files
  path := []
  tmp := []
  created := false
  buffer := []
  error := none
  pc := .paths

def SaveState.goto (s : SaveState) (pc : SavePc) : SaveState := { s with pc := pc }

/-- Bytes of the stream that reach the temporary file. -/
def SaveState.write (s : SaveState) (bytes : List UInt8) : SaveState :=
  { s with files := Function.update s.files s.tmp ((s.files s.tmp).map (· ++ bytes)) }

/-- `fprintf` of a line. -/
def SaveState.fprintf (s : SaveState) (a : SaveCall) (text : List UInt8) : SaveState :=
  let bytes := s.buffer ++ text
  match a.result with
  | .ok () => { s.write (bytes.take a.flushed) with buffer := bytes.drop a.flushed }
  | .error e => { s.write (bytes.take a.flushed) with buffer := a.left, error := some e }

/-- A line: what `fprintf` returns is looked at for an entry of `argv` only. -/
def SaveState.print (w : SaveWorld) (s : SaveState) (a : SaveCall) (rest : List SaveLine) : SaveLine → SaveState
  | .plain text => (s.fprintf a text).goto (.print rest)
  | .arg i value =>
    if 32 ≤ (argvKey i).length then s.goto (.fcloseFailed (.other 0))
    else
      match optyEscapeSessionValue (w.malloc i) value with
      | .error e => s.goto (.fcloseFailed e)
      | .ok escaped =>
        let s' := s.fprintf a (recordLine (argvKey i) escaped)
        match a.result with
        | .ok () => s'.goto (.print rest)
        | .error e => s'.goto (.fcloseFailed e)

/-- One call of `opty_write_session`. Of the world, `home`, `mkdir`, `pid`, `workingDir` and `malloc` are looked at. -/
def saveStep (w : SaveWorld) (c : SaveArgs) (s : SaveState) (a : SaveCall) : Outcome SaveState :=
  match s.pc with
  | .paths =>
    match savePaths w c.session c.controlToken c.argv.length with
    | .error e => .next (s.goto (.returned (.error e)))
    | .ok (path, tmp) => .next { s with path := path, tmp := tmp, pc := .openTmp }
  | .openTmp =>
    if s.files s.tmp ≠ none then .next (s.goto (.returned (.error .eexist)))
    else
      match a.result with
      | .error e => .next (s.goto (.returned (.error e)))
      | .ok () => .next { s with files := Function.update s.files s.tmp (some []), created := true, pc := .fdopen }
  | .fdopen =>
    match a.result with
    | .error e => .next (s.goto (.unlink e))
    | .ok () => .next { s with buffer := [], error := none, pc := .print (saveLines c (getcwd w.workingDir)) }
  | .print [] => .next (s.goto .ferror)
  | .print (line :: rest) => .next (s.print w a rest line)
  | .ferror =>
    match s.error with
    | some e => .next (s.goto (.fcloseFailed e))
    | none => .next (s.goto .fflush)
  | .fflush =>
    match a.result with
    | .error e => .next ((s.write (s.buffer.take a.flushed)).goto (.fcloseFailed e))
    | .ok () => .next { s.write s.buffer with buffer := [], pc := .fsync }
  | .fsync =>
    match a.result with
    | .error e => .next (s.goto (.fcloseFailed e))
    | .ok () => .next (s.goto .fclose)
  | .fclose =>
    match a.result with
    | .error e => .next ((s.write (s.buffer.take a.flushed)).goto (.unlink e))
    | .ok () => .next ((s.write s.buffer).goto .rename)
  | .fcloseFailed e => .next ((s.write (s.buffer.take a.flushed)).goto (.unlink e))
  | .unlink e => .next { s with files := Function.update s.files s.tmp none, pc := .returned (.error e) }
  | .rename =>
    match a.result with
    | .error e => .next (s.goto (.unlink e))
    | .ok () =>
      .next { s with files := Function.update (Function.update s.files s.path (s.files s.tmp)) s.tmp none, pc := .renamed }
  | .renamed => .next (s.goto (.returned (.ok ())))
  | .returned _ => .blocked

end ZeroPty
