import ZeroPty.Record
import ZeroPty.Messages

/-!
# Reading a session record, cell by cell

`opty_read_session_info` on the memory it works in: the buffer of `getline`, the arrays of `struct opty_session_info`, the blocks from
`malloc`. A function is `none` when it reads or writes outside one of them, or a string without a terminator; a pointer in `argv` is
the string that it points to. `opty_spawn_server` walks over the same `argv`.
-/

namespace ZeroPty

open Memory Text

namespace InMemory

/-! ## Strings -/

/-- The string that starts at the first of the cells. -/
def string (cells : List UInt8) : Option (List UInt8) := if 0 ∈ cells then some (cString cells) else none

/-- `strlen` -/
def strlen (cells : List UInt8) : Option Nat := (string cells).map List.length

/-- `strchr`: the index of the first cell with the byte, if the string has one. -/
def strchr (cells : List UInt8) (c : UInt8) : Option (Option Nat) := (string cells).map fun s => s.idxOf? c

/-- `snprintf(dst, cap, "%s", src)` -/
def snprintf {cap : Nat} (dst : Block UInt8 cap) (src : List UInt8) : Option (Block UInt8 cap) :=
  memcpy dst 0 (src.take (cap - 1) ++ [0]) 0 ((src.take (cap - 1)).length + 1)

/-- The loop of `opty_chomp`, with `len` bytes left. -/
def chompFrom {n : Nat} (line : Block UInt8 n) : Nat → Option (Block UInt8 n)
  | 0 => some line
  | len + 1 =>
    line.cells[len]?.bind fun c =>
    if c = newline ∨ c = carriageReturn then (line.store len 0).bind fun line => chompFrom line len else some line

/-- `opty_chomp` -/
def optyChomp {n : Nat} (line : Block UInt8 n) : Option (Block UInt8 n) := (strlen line.cells).bind (chompFrom line)

/-- The head of the loop over the lines: the key and the value, if the line has them. -/
def splitLine {n : Nat} (line : Block UInt8 n) : Option (Option (List UInt8 × List UInt8)) :=
  (optyChomp line).bind fun line => (strchr line.cells equals).bind fun found =>
  match found with
  | none => some none
  | some i => (line.store i 0).bind fun line => (string line.cells).bind fun key =>
    (string (line.cells.drop (i + 1))).map fun value => some (key, value)

/-- `opty_copy_field` -/
def optyCopyField {cap : Nat} (dst : Block UInt8 cap) (src : List UInt8) : Option (Except Errno (Block UInt8 cap)) :=
  if cap ≤ src.length then some (.error .einval) else (memcpy dst 0 (src ++ [0]) 0 (src.length + 1)).map .ok

/-- `opty_parse_argv_key` -/
def optyParseArgvKey (key : List UInt8) : Option (Except Errno (Option Nat)) :=
  if key.take 4 ≠ ascii "argv" then some (.ok none)
  else
    (key ++ [0])[4]?.map fun (c : UInt8) =>
    if c = 0 ∨ optyIsDecimal (key.drop 4) = false then .ok none
    else
      match strtoul (key.drop 4) with
      | some (index, []) => if optySessionMaxArgc ≤ index then .error .einval else .ok (some index)
      | _ => .error .einval

/-- The loop of `opty_decode_session_value`, at `value[i]` and `decoded[out]`; `inLen` is the length of the value. -/
def decodeFrom (value : List UInt8) (inLen : Nat) {n : Nat} (i out : Nat) (decoded : Block UInt8 n) : Option (Block UInt8 n × Nat) :=
  if i < inLen then
    value[i]?.bind fun ch =>
    if ch = backslash ∧ i + 1 < inLen then
      value[i + 1]?.bind fun c =>
      match unescapeByte c with
      | some d => (decoded.store out d).bind fun decoded => decodeFrom value inLen (i + 2) (out + 1) decoded
      | none =>
        (decoded.store out backslash).bind fun decoded => (decoded.store (out + 1) c).bind fun decoded =>
        decodeFrom value inLen (i + 2) (out + 2) decoded
    else (decoded.store out ch).bind fun decoded => decodeFrom value inLen (i + 1) (out + 1) decoded
  else some (decoded, out)
termination_by inLen - i

/-- `opty_decode_session_value` -/
def optyDecodeSessionValue (malloc : Alloc UInt8) (value : List UInt8) : Option (Except Errno (List UInt8)) :=
  match malloc (value.length + 1) with
  | none => some (.error .enomem)
  | some decoded =>
    (decodeFrom (value ++ [0]) value.length 0 0 decoded).bind fun r => (r.1.store r.2 0).bind fun decoded =>
    (string decoded.cells).map .ok

/-- `opty_strdup` -/
def optyStrdup (malloc : Alloc UInt8) (value : List UInt8) : Option (Except Errno (List UInt8)) :=
  match malloc (value.length + 1) with
  | none => some (.error .enomem)
  | some copy => (memcpy copy 0 (value ++ [0]) 0 (value.length + 1)).bind fun copy => (string copy.cells).map .ok

/-! ## The record -/

/-- `struct opty_session_info` -/
structure InfoCells where
  field : (f : SessionField) → Block UInt8 f.cap
  argc : Nat
  argv : Block (Option (List UInt8)) (optySessionMaxArgc + 1)

/-- An array of the record is replaced. -/
def InfoCells.setField (m : InfoCells) (f : SessionField) (b : Block UInt8 f.cap) : InfoCells :=
  { m with field := Function.update m.field f b }

/-- `snprintf` into an array of the record. -/
def InfoCells.print (m : InfoCells) (f : SessionField) (src : List UInt8) : Option InfoCells :=
  (snprintf (m.field f) src).map (m.setField f)

/-- `opty_session_info_init` -/
def optySessionInfoInit (fallbackName : CString) : Option InfoCells :=
  (InfoCells.print ⟨fun _ => .fill _ 0, 0, .fill _ none⟩ .name fallbackName.bytes).bind fun m =>
  (m.print .host optyDefaultHost).bind fun m =>
  (m.print .restartPolicy (ascii "manual")).bind fun m =>
  m.print .gracefulInput defaultGracefulInput

/-- The loop of `opty_session_info_free`, from the entry `i` on. -/
def freeFrom {n : Nat} (argv : Block (Option (List UInt8)) n) (i : Nat) : Nat → Option (Block (Option (List UInt8)) n)
  | 0 => some argv
  | k + 1 => argv.cells[i]?.bind fun _ => (argv.store i none).bind fun argv => freeFrom argv (i + 1) k

/-- `opty_session_info_free` -/
def optySessionInfoFree (m : InfoCells) : Option InfoCells :=
  (freeFrom m.argv 0 m.argc).map fun argv => { m with argv := argv, argc := 0 }

/-- The fields whose refusal leaves the record as it is; the others free it. -/
def SessionField.keeps : SessionField → Bool
  | .name | .host | .port | .log | .cwd => true
  | _ => false

/-- The record as far as it is read. -/
structure ReadCells where
  info : InfoCells
  argvEscaped : Bool

/-- A return of -1 after `opty_session_info_free`. -/
def refuse {α : Type} (m : InfoCells) (e : Errno) : Option (Except (Errno × InfoCells) α) :=
  (optySessionInfoFree m).map fun m => .error (e, m)

/-- The last branch. -/
def readArgv (malloc : Alloc UInt8) (r : ReadCells) (key value : List UInt8) : Option (Except (Errno × InfoCells) ReadCells) :=
  (optyParseArgvKey key).bind fun parsed =>
  match parsed with
  | .error e => refuse r.info e
  | .ok none => some (.ok r)
  | .ok (some index) =>
    (if r.argvEscaped then optyDecodeSessionValue malloc value else optyStrdup malloc value).bind fun decoded =>
    match decoded with
    | .error e => refuse r.info e
    | .ok v =>
      r.info.argv.cells[index]?.bind fun _ => (r.info.argv.store index (some v)).map fun argv =>
      .ok { r with info := { r.info with argv := argv } }

/-- The lines with a key and a value. -/
def readField (malloc : Alloc UInt8) (r : ReadCells) (key value : List UInt8) : Option (Except (Errno × InfoCells) ReadCells) :=
  match copiedField key with
  | some f =>
    (optyCopyField (r.info.field f) value).bind fun copied =>
    match copied with
    | .error e => if SessionField.keeps f then some (.error (e, r.info)) else refuse r.info e
    | .ok b => some (.ok { r with info := r.info.setField f b })
  | none =>
    if key = ascii "command" then (r.info.print .command value).map fun info => .ok { r with info := info }
    else if key = ascii "argv_encoding" then some (.ok { r with argvEscaped := r.argvEscaped || value == ascii "escape" })
    else if key = ascii "argc" then
      match strtoul value with
      | some (argc, []) =>
        if optySessionMaxArgc < argc then refuse r.info .einval else some (.ok { r with info := { r.info with argc := argc } })
      | _ => refuse r.info .einval
    else readArgv malloc r key value

/-- The loop over the lines, from the line `n` on; after its terminator the buffer of `getline` holds other bytes. -/
def readLines (malloc : Nat → Alloc UInt8) (others : Nat → List UInt8) (n : Nat) (r : ReadCells) :
    List (List UInt8) → Option (Except (Errno × InfoCells) ReadCells)
  | [] => some (.ok r)
  | line :: rest =>
    (splitLine ⟨line ++ 0 :: others n, rfl⟩).bind fun found =>
    match found with
    | none => readLines malloc others (n + 1) r rest
    | some (key, value) =>
      (readField (malloc n) r key value).bind fun result =>
      match result with
      | .error e => some (.error e)
      | .ok r => readLines malloc others (n + 1) r rest

/-- Whether the entries of `argv` from `i` on, `k` of them, are all there. -/
def presentFrom {n : Nat} (argv : Block (Option (List UInt8)) n) (i : Nat) : Nat → Option Bool
  | 0 => some true
  | k + 1 => argv.cells[i]?.bind fun entry => if entry = none then some false else presentFrom argv (i + 1) k

/-- The checks after the last line. -/
def finishInfo (m : InfoCells) : Option (Except (Errno × InfoCells) InfoCells) :=
  (m.field .port).cells[0]?.bind fun c =>
  if c = 0 then refuse m .einval
  else
    (presentFrom m.argv 0 m.argc).bind fun present =>
    if present then (m.argv.store m.argc none).map fun argv => .ok { m with argv := argv } else refuse m .einval

/-- `opty_read_session_info`, into a record with any contents: what it reports, and the record after it. -/
def optyReadSessionInfo (home : Option CString) (fopen : Except Errno Unit) (malloc : Nat → Alloc UInt8)
    (others : Nat → List UInt8) (files : Files) (session : CString) (info : InfoCells) : Option (Except Errno Unit × InfoCells) :=
  match optySessionPath home session with
  | .error e => some (.error e, info)
  | .ok path =>
    match files path with
    | none => some (.error .enoent, info)
    | some content =>
      match fopen with
      | .error e => some (.error e, info)
      | .ok () =>
        (optySessionInfoInit session).bind fun m => (readLines malloc others 0 ⟨m, false⟩ (lines newline content)).bind fun result =>
        match result with
        | .error (e, m) => some (.error e, m)
        | .ok r => (finishInfo r.info).map fun result =>
          match result with
          | .error (e, m) => (.error e, m)
          | .ok m => (.ok (), m)

/-! ## The arguments of the server -/

/-- The walk of `opty_spawn_server` to the NULL at the end of `command_argv`. -/
def commandCount : List (Option (List UInt8)) → Option Nat
  | [] => none
  | none :: _ => some 0
  | some _ :: rest => (commandCount rest).map (· + 1)

/-- The `exec_argv` of `opty_spawn_server`, as long as it was allocated. -/
def execArgv (serverPath endpointArg : List UInt8) (commandArgv : List (Option (List UInt8))) : Option (List (Option (List UInt8))) :=
  (commandCount commandArgv).map fun count =>
  [some serverPath, some (ascii "-b"), some endpointArg, some (ascii "--")] ++ commandArgv.take count ++ [none, none]

end InMemory

end ZeroPty
