import ZeroPty.Session
import Mathlib.Tactic.Common

/-!
# Session records: escaping, lines and the loop over them
-/

namespace ZeroPty

open Memory Text

/-- A value that a line can hold: without a newline, and not ending in a carriage return. -/
structure OneLine (value : List UInt8) : Prop where
  newline : newline ∉ value
  last : value.getLast? ≠ some carriageReturn

/-- A value that a line can hold and that fits a field of `cap` bytes. -/
structure FieldOk (cap : Nat) (value : List UInt8) : Prop extends OneLine value where
  fits : value.length < cap

instance (value : List UInt8) : Decidable (OneLine value) :=
  decidable_of_iff (newline ∉ value ∧ value.getLast? ≠ some carriageReturn) ⟨fun h => ⟨h.1, h.2⟩, fun h => ⟨h.1, h.2⟩⟩

namespace SessionAux

/-! ## Escaped values -/

theorem decodeBytes_escapeByte (b : UInt8) (l : List UInt8) : decodeBytes (escapeByte b ++ l) = b :: decodeBytes l := by
  unfold escapeByte
  split
  · rename_i h
    rw [h]
    rfl
  · split
    · rename_i h
      rw [h]
      rfl
    · split
      · rename_i h
        rw [h]
        rfl
      · split
        · rename_i h
          rw [h]
          rfl
        · rename_i h
          rw [List.singleton_append]
          cases l with
          | nil => rfl
          | cons c l => rw [decodeBytes, if_neg h]

/-- What is escaped is decoded as it was. -/
theorem decodeBytes_escape (l : List UInt8) : decodeBytes (l.flatMap escapeByte) = l := by
  induction l with
  | nil => rfl
  | cons b l ih => rw [List.flatMap_cons, decodeBytes_escapeByte, ih]

/-- The escaped form of a byte has no control character that is escaped, and NUL stays NUL. -/
theorem mem_escapeByte {b c : UInt8} (h : c ∈ escapeByte b) :
    c ≠ newline ∧ c ≠ carriageReturn ∧ c ≠ tab ∧ (c = 0 → b = 0) := by
  have hesc : ∀ d : UInt8, d ∈ [backslash, 110, 114, 116] → d ≠ newline ∧ d ≠ carriageReturn ∧ d ≠ tab ∧ d ≠ 0 := by
    intro d hd
    simp only [List.mem_cons, List.not_mem_nil, or_false] at hd
    rcases hd with rfl | rfl | rfl | rfl <;> decide
  have hpair : ∀ d ∈ [backslash, 110, 114, 116], c ∈ [backslash, d] →
      c ≠ newline ∧ c ≠ carriageReturn ∧ c ≠ tab ∧ (c = 0 → b = 0) := by
    intro d hd hc
    have hc' : c ∈ [backslash, 110, 114, 116] := by
      simp only [List.mem_cons, List.not_mem_nil, or_false] at hc
      rcases hc with rfl | rfl
      · exact List.mem_cons_self
      · exact hd
    obtain ⟨h1, h2, h3, h4⟩ := hesc c hc'
    exact ⟨h1, h2, h3, fun h0 => absurd h0 h4⟩
  unfold escapeByte at h
  split at h
  · exact hpair 110 (by decide) h
  · split at h
    · exact hpair 114 (by decide) h
    · split at h
      · exact hpair 116 (by decide) h
      · split at h
        · exact hpair backslash (by decide) h
        · rename_i h1 h2 h3 _
          rw [List.mem_singleton] at h
          subst h
          exact ⟨h1, h2, h3, id⟩

theorem oneLine_escape (l : List UInt8) : OneLine (l.flatMap escapeByte) where
  newline := fun h => by
    obtain ⟨b, -, hb⟩ := List.mem_flatMap.1 h
    exact (mem_escapeByte hb).1 rfl
  last := fun h => by
    obtain ⟨b, -, hb⟩ := List.mem_flatMap.1 (List.mem_of_getLast? h)
    exact (mem_escapeByte hb).2.1 rfl

theorem escape_noNul {l : List UInt8} (h : (0 : UInt8) ∉ l) : (0 : UInt8) ∉ l.flatMap escapeByte := by
  intro h0
  obtain ⟨b, hb, h0⟩ := List.mem_flatMap.1 h0
  rw [(mem_escapeByte h0).2.2.2 rfl] at hb
  exact h hb

/-! ## Lines -/

/-- A key: what `strchr` finds before the first `=` of a line. -/
structure IsKey (key : List UInt8) : Prop where
  newline : newline ∉ key
  equals : equals ∉ key
  noNul : (0 : UInt8) ∉ key

instance (key : List UInt8) : Decidable (IsKey key) :=
  decidable_of_iff (newline ∉ key ∧ equals ∉ key ∧ (0 : UInt8) ∉ key) ⟨fun h => ⟨h.1, h.2.1, h.2.2⟩, fun h => ⟨h.1, h.2, h.3⟩⟩

theorem lines_recordLine {key value : List UInt8} (hk : newline ∉ key) (hv : newline ∉ value) (rest : List UInt8) :
    lines newline (recordLine key value ++ rest) = recordLine key value :: lines newline rest := by
  have hnl : newline ∉ key ++ equals :: value := by
    rw [List.mem_append, List.mem_cons, not_or, not_or]
    exact ⟨hk, by decide, hv⟩
  have h := lines_line hnl rest
  rw [recordLine, List.append_assoc]
  exact h

/-- A line that was written is chomped to what stands before its newline. -/
theorem optyChomp_recordLine {key value : List UInt8} (hk : (0 : UInt8) ∉ key) (hv : (0 : UInt8) ∉ value)
    (hlast : OneLine value) : optyChomp (recordLine key value) = key ++ equals :: value := by
  have hnul : ∀ b ∈ key ++ equals :: value ++ [newline], decide (b ≠ 0) = true := by
    intro b hb
    rw [decide_eq_true_iff]
    rintro rfl
    simp only [List.mem_append, List.mem_cons, List.not_mem_nil, or_false] at hb
    rcases hb with (hb | hb | hb) | hb
    · exact hk hb
    · cases hb
    · exact hv hb
    · cases hb
  rw [optyChomp, recordLine, List.takeWhile_eq_self_iff.2 hnul, List.rdropWhile_concat_pos _ _ _ rfl, List.rdropWhile_eq_self_iff]
  intro hne hp
  -- the last byte is that of the value, or the `=` before an empty one
  rcases List.eq_nil_or_concat value with rfl | ⟨v, b, rfl⟩
  · rw [List.getLast_append_of_ne_nil _ (List.cons_ne_nil _ _)] at hp
    cases hp
  · simp only [List.concat_eq_append] at hlast hp
    have hb1 : b ≠ newline := by
      rintro rfl
      exact hlast.newline (by simp)
    have hb2 : b ≠ carriageReturn := by
      rintro rfl
      exact hlast.last (by simp)
    simp [hb1, hb2] at hp

theorem readSessionLine_recordLine {key value : List UInt8} (hk : IsKey key) (hv : (0 : UInt8) ∉ value) (hlast : OneLine value)
    (malloc : Alloc UInt8) (r : RecordReading) :
    readSessionLine malloc r (recordLine key value) = readSessionField malloc r key value := by
  rw [readSessionLine, optyChomp_recordLine hk.noNul hv hlast, cut_append hk.equals]

/-- The loop takes a line that was written. -/
theorem readSessionLines_recordLine {key value : List UInt8} (hk : IsKey key) (hv : (0 : UInt8) ∉ value) (hlast : OneLine value)
    {malloc : Nat → Alloc UInt8} {n : Nat} {r r' : RecordReading} (h : readSessionField (malloc n) r key value = .ok r')
    (rest : List UInt8) :
    readSessionLines malloc n r (lines newline (recordLine key value ++ rest)) =
      readSessionLines malloc (n + 1) r' (lines newline rest) := by
  rw [lines_recordLine hk.newline hlast.newline, readSessionLines, readSessionLine_recordLine hk hv hlast, h]

/-! ## The entries of `argv` -/

theorem isDecimal_decimal (n : Nat) : optyIsDecimal (decimal n) = true := by
  rw [optyIsDecimal, Bool.and_eq_true, List.all_eq_true, Bool.not_eq_true', List.isEmpty_eq_false_iff]
  exact ⟨decimal_ne_nil n, fun b hb => isDigit_of_mem_decimal hb⟩

theorem take_argvKey (i : Nat) : (argvKey i).take 4 = ascii "argv" := rfl

theorem drop_argvKey (i : Nat) : (argvKey i).drop 4 = decimal i := rfl

theorem optyParseArgvKey_argvKey {i : Nat} (h : i < optySessionMaxArgc) : optyParseArgvKey (argvKey i) = .ok (some i) := by
  have hi : i < 2 ^ 64 := h.trans (by decide)
  rw [optyParseArgvKey, take_argvKey, drop_argvKey, isDecimal_decimal, strtoul_decimal hi]
  simp only [ne_eq, not_true, Bool.true_eq_false, or_self, if_false, if_neg (Nat.not_le.2 h)]

/-- A key of `argv` is no other key. -/
theorem argvKey_ne {i : Nat} {key : List UInt8} (h : key.take 4 ≠ ascii "argv" ∨ optyIsDecimal (key.drop 4) = false) :
    argvKey i ≠ key := by
  rintro rfl
  rcases h with h | h
  · exact h (take_argvKey i)
  · rw [drop_argvKey, isDecimal_decimal] at h
    cases h

theorem isKey_argvKey (i : Nat) : IsKey (argvKey i) := by
  have hmem : ∀ b ∈ argvKey i, b ∈ ascii "argv" ∨ isDigit b = true := fun b hb => by
    rcases List.mem_append.1 hb with hb | hb
    · exact .inl hb
    · exact .inr (isDigit_of_mem_decimal hb)
  refine ⟨fun h => ?_, fun h => ?_, fun h => ?_⟩ <;> rcases hmem _ h with h | h <;> revert h <;> decide

/-- The keys fit their buffer. -/
theorem length_argvKey {i : Nat} (h : i < optySessionMaxArgc) : (argvKey i).length < 32 := by
  have : ∀ i < optySessionMaxArgc, (argvKey i).length < 32 := by decide
  exact this i h

theorem readSessionField_argvKey {malloc : Alloc UInt8} {r : RecordReading} {i : Nat} (hi : i < optySessionMaxArgc)
    (he : r.argvEscaped = true) {value : List UInt8} {b : Block UInt8 (value.length + 1)} (hm : malloc (value.length + 1) = some b) :
    readSessionField malloc r (argvKey i) value =
      .ok { r with info := { r.info with argv := Function.update r.info.argv i (some (decodeBytes value)) } } := by
  unfold readSessionField
  iterate 11 rw [if_neg (argvKey_ne (by decide))]
  simp only [readSessionArgv, optyParseArgvKey_argvKey hi, he, if_true, optyDecodeSessionValue, hm, Except.map]

/-- The lines of the entries of `argv`, from the entry `i` on. -/
def argvLines (i : Nat) : List CString → List UInt8
  | [] => []
  | arg :: rest => recordLine (argvKey i) (arg.bytes.flatMap escapeByte) ++ argvLines (i + 1) rest

theorem optyEscapeSessionValue_ok {malloc : Alloc UInt8} {value : CString} {escaped : List UInt8}
    (h : optyEscapeSessionValue malloc value = .ok escaped) : escaped = value.bytes.flatMap escapeByte := by
  unfold optyEscapeSessionValue at h
  split at h
  · cases h
  · split at h
    · cases h
    · exact (Except.ok.inj h).symm

theorem optyWriteEscapedField_ok {malloc : Alloc UInt8} {fprintf : Except Errno Unit} {key line : List UInt8} {value : CString}
    (h : optyWriteEscapedField malloc fprintf key value = .ok line) : line = recordLine key (value.bytes.flatMap escapeByte) := by
  unfold optyWriteEscapedField at h
  cases hescape : optyEscapeSessionValue malloc value with
  | error e =>
    rw [hescape] at h
    cases h
  | ok escaped =>
    rw [hescape] at h
    cases fprintf with
    | error e => cases h
    | ok u =>
      rw [← optyEscapeSessionValue_ok hescape]
      exact (Except.ok.inj h).symm

theorem writeArgv_ok {w : SaveWorld} {argv : List CString} {i : Nat} {args : List UInt8} (h : writeArgv w i argv = .ok args) :
    args = argvLines i argv := by
  induction argv generalizing i args with
  | nil => exact (Except.ok.inj h).symm
  | cons arg rest ih =>
    rw [writeArgv] at h
    split at h
    · cases h
    · cases hf : optyWriteEscapedField (w.malloc i) (w.fprintf i) (argvKey i) arg with
      | error e =>
        rw [hf] at h
        cases h
      | ok line =>
        cases hr : writeArgv w (i + 1) rest with
        | error e =>
          rw [hf, hr] at h
          cases h
        | ok more =>
          rw [hf, hr] at h
          rw [argvLines, ← optyWriteEscapedField_ok hf, ← ih hr]
          exact (Except.ok.inj h).symm

/-- The entries that are there after those of a list were put in from the entry `i` on. -/
def putArgv (argv : Nat → Option (List UInt8)) (i : Nat) (args : List CString) : Nat → Option (List UInt8) :=
  fun j => if i ≤ j ∧ j < i + args.length then (args[j - i]?).map CString.bytes else argv j

theorem putArgv_nil (argv : Nat → Option (List UInt8)) (i : Nat) : putArgv argv i [] = argv := by
  funext j
  rw [putArgv, if_neg]
  rw [List.length_nil]
  omega

theorem putArgv_cons (argv : Nat → Option (List UInt8)) (i : Nat) (arg : CString) (rest : List CString) :
    putArgv (Function.update argv i (some arg.bytes)) (i + 1) rest = putArgv argv i (arg :: rest) := by
  funext j
  rw [putArgv, putArgv, List.length_cons]
  rcases Nat.lt_trichotomy j i with hj | rfl | hj
  · rw [if_neg (by omega), if_neg (by omega), Function.update_of_ne (by omega)]
  · rw [if_neg (by omega), if_pos (by omega), Function.update_self, Nat.sub_self, List.getElem?_cons_zero, Option.map_some]
  · have hsub : j - i = (j - (i + 1)) + 1 := by omega
    rw [hsub, List.getElem?_cons_succ, Function.update_of_ne (by omega)]
    exact if_congr (by omega) rfl rfl

/-- The loop takes the lines of the entries of `argv`. -/
theorem readSessionLines_argvLines {malloc : Nat → Alloc UInt8} (hm : ∀ n size, malloc n size ≠ none) (argv : List CString)
    {i n : Nat} (hi : i + argv.length ≤ optySessionMaxArgc) {r : RecordReading} (he : r.argvEscaped = true) (rest : List UInt8) :
    readSessionLines malloc n r (lines newline (argvLines i argv ++ rest)) =
      readSessionLines malloc (n + argv.length) { r with info := { r.info with argv := putArgv r.info.argv i argv } }
        (lines newline rest) := by
  induction argv generalizing i n r with
  | nil => rw [putArgv_nil, argvLines, List.nil_append, List.length_nil, Nat.add_zero]
  | cons arg argv ih =>
    rw [List.length_cons] at hi ⊢
    obtain ⟨b, hb⟩ := Option.ne_none_iff_exists'.1 (hm n ((arg.bytes.flatMap escapeByte).length + 1))
    have hfield := readSessionField_argvKey (i := i) (by omega) he hb
    rw [decodeBytes_escape] at hfield
    rw [argvLines, List.append_assoc, readSessionLines_recordLine (isKey_argvKey i) (escape_noNul arg.noNul)
      (oneLine_escape arg.bytes) hfield]
    refine (ih (i := i + 1) (n := n + 1) (by omega) (by exact he)).trans ?_
    rw [putArgv_cons, Nat.add_assoc n 1, Nat.add_comm 1]

/-! ## Writing -/

/-- The contents of a record. -/
def recordOf (session : CString) (endpoint : Endpoint) (logPath controlToken : CString) (argv : List CString) (cwd : List UInt8) :
    List UInt8 :=
  recordHead session endpoint logPath controlToken argv.length ++ argvLines 0 argv ++ cwdLine cwd

theorem savePaths_ok {w : SaveWorld} {session controlToken : CString} {argc : Nat} {path tmp : List UInt8}
    (h : savePaths w session controlToken argc = .ok (path, tmp)) :
    optySessionPath w.home session = .ok path ∧ tmp = path ++ ascii ".tmp." ++ decimal w.pid ∧
      controlToken.bytes ≠ [] ∧ controlToken.bytes.length ≤ optyMaxToken ∧ argc ≤ optySessionMaxArgc := by
  simp only [savePaths, bind, Except.bind] at h
  split at h
  · cases h
  · cases hp : optySessionPath w.home session with
    | error e =>
      rw [hp] at h
      cases h
    | ok p =>
      rw [hp] at h
      simp only at h
      split at h
      · cases h
      · rename_i htok
        rw [not_or, Nat.not_lt] at htok
        split at h
        · cases h
        · split at h
          · cases h
          · rename_i hargc
            cases h
            exact ⟨rfl, rfl, htok.1, htok.2, Nat.not_lt.1 hargc⟩

theorem saveRecord_ok {w : SaveWorld} {session : CString} {endpoint : Endpoint} {logPath controlToken : CString} {argv : List CString}
    {record : List UInt8} (h : saveRecord w session endpoint logPath controlToken argv = .ok record) :
    record = recordOf session endpoint logPath controlToken argv (getcwd w.workingDir) := by
  simp only [saveRecord, bind, Except.bind] at h
  split at h
  · cases h
  · cases ha : writeArgv w 0 argv with
    | error e =>
      rw [ha] at h
      cases h
    | ok args =>
      rw [ha] at h
      simp only at h
      split at h
      · cases h
      · split at h
        · cases h
        · rw [recordOf, ← writeArgv_ok ha]
          exact (Except.ok.inj h).symm

/-- The temporary file is not the record. -/
theorem tmp_ne_path (path suffix : List UInt8) : path ≠ path ++ ascii ".tmp." ++ suffix := by
  intro h
  have := congrArg List.length h
  have hlen : (ascii ".tmp.").length = 5 := rfl
  rw [List.length_append, List.length_append, hlen] at this
  omega

/-- A write that succeeds leaves the record at its path. -/
theorem optyWriteSession_ok {w : SaveWorld} {files files' : Files} {session : CString} {endpoint : Endpoint}
    {logPath controlToken : CString} {argv : List CString}
    (h : optyWriteSession w files session endpoint logPath controlToken argv = (.ok (), files')) :
    ∃ path, optySessionPath w.home session = .ok path ∧ controlToken.bytes ≠ [] ∧ controlToken.bytes.length ≤ optyMaxToken ∧
      argv.length ≤ optySessionMaxArgc ∧
      files' path = some (recordOf session endpoint logPath controlToken argv (getcwd w.workingDir)) := by
  unfold optyWriteSession at h
  split at h
  · cases h
  · rename_i path tmp hpaths
    obtain ⟨hpath, htmp, htok, hlen, hargc⟩ := savePaths_ok hpaths
    refine ⟨path, hpath, htok, hlen, hargc, ?_⟩
    split at h
    · cases h
    · split at h
      · cases h
      · split at h
        · cases h
        · rename_i record hrecord
          split at h
          · cases h
          · cases h
            rw [Function.update_of_ne (htmp ▸ tmp_ne_path path _), Function.update_self, saveRecord_ok hrecord]

/-- A write of more entries than a record can have fails before any file is touched. -/
theorem optyWriteSession_tooMany {w : SaveWorld} {files : Files} {session : CString} {endpoint : Endpoint}
    {logPath controlToken : CString} {argv : List CString} (h : optySessionMaxArgc < argv.length) :
    ∃ e, optyWriteSession w files session endpoint logPath controlToken argv = (.error e, files) := by
  cases hpaths : savePaths w session controlToken argv.length with
  | error e => exact ⟨e, by rw [optyWriteSession, hpaths]⟩
  | ok p =>
    obtain ⟨path, tmp⟩ := p
    exact absurd (savePaths_ok hpaths).2.2.2.2 (Nat.not_le.2 h)

/-! ## Reading -/

section

variable (malloc : Alloc UInt8) (r : RecordReading) {value : List UInt8}

theorem optyCopyField_fits {cap : Nat} (h : value.length < cap) : optyCopyField cap value = .ok value :=
  if_neg (Nat.not_le.2 h)

theorem readSessionField_name (h : value.length < optySessionMaxName + 1) :
    readSessionField malloc r (ascii "name") value = .ok { r with info := { r.info with name := value } } := by
  unfold readSessionField
  rw [if_pos rfl, optyCopyField_fits h]
  rfl

theorem readSessionField_host (h : value.length < 128) :
    readSessionField malloc r (ascii "host") value = .ok { r with info := { r.info with host := value } } := by
  unfold readSessionField
  rw [if_neg (by decide)]
  rw [if_pos rfl, optyCopyField_fits h]
  rfl

theorem readSessionField_port (h : value.length < 16) :
    readSessionField malloc r (ascii "port") value = .ok { r with info := { r.info with port := value } } := by
  unfold readSessionField
  iterate 2 rw [if_neg (by decide)]
  rw [if_pos rfl, optyCopyField_fits h]
  rfl

theorem readSessionField_log (h : value.length < 512) :
    readSessionField malloc r (ascii "log") value = .ok { r with info := { r.info with log := value } } := by
  unfold readSessionField
  iterate 3 rw [if_neg (by decide)]
  rw [if_pos rfl, optyCopyField_fits h]
  rfl

theorem readSessionField_cwd (h : value.length < 1024) :
    readSessionField malloc r (ascii "cwd") value = .ok { r with info := { r.info with cwd := value } } := by
  unfold readSessionField
  iterate 4 rw [if_neg (by decide)]
  rw [if_pos rfl, optyCopyField_fits h]
  rfl

theorem readSessionField_restartPolicy (h : value.length < 64) :
    readSessionField malloc r (ascii "restart_policy") value = .ok { r with info := { r.info with restartPolicy := value } } := by
  unfold readSessionField
  iterate 5 rw [if_neg (by decide)]
  rw [if_pos rfl, optyCopyField_fits h]
  rfl

theorem readSessionField_controlToken (h : value.length < optyMaxToken + 1) :
    readSessionField malloc r (ascii "control_token") value = .ok { r with info := { r.info with controlToken := value } } := by
  unfold readSessionField
  iterate 6 rw [if_neg (by decide)]
  rw [if_pos rfl, optyCopyField_fits h]
  rfl

theorem readSessionField_gracefulInput (h : value.length < optyMaxGracefulInput + 1) :
    readSessionField malloc r (ascii "graceful_input") value = .ok { r with info := { r.info with gracefulInput := value } } := by
  unfold readSessionField
  iterate 7 rw [if_neg (by decide)]
  rw [if_pos rfl, optyCopyField_fits h]
  rfl

theorem readSessionField_argvEncoding :
    readSessionField malloc r (ascii "argv_encoding") (ascii "escape") = .ok { r with argvEscaped := true } := by
  unfold readSessionField
  iterate 9 rw [if_neg (by decide)]
  rw [if_pos rfl, beq_self_eq_true, Bool.or_true]

theorem readSessionField_argc {argc : Nat} (h : argc ≤ optySessionMaxArgc) :
    readSessionField malloc r (ascii "argc") (decimal argc) = .ok { r with info := { r.info with argc := argc } } := by
  have hargc : argc < 2 ^ 64 := Nat.lt_of_le_of_lt h (by decide)
  unfold readSessionField
  iterate 10 rw [if_neg (by decide)]
  rw [if_pos rfl, strtoul_decimal hargc]
  exact if_neg (Nat.not_lt.2 h)

end

theorem oneLine_of_forall {value : List UInt8} (h : ∀ b ∈ value, b ≠ newline ∧ b ≠ carriageReturn) : OneLine value :=
  ⟨fun hn => (h _ hn).1 rfl, fun hr => (h _ (List.mem_of_getLast? hr)).2 rfl⟩

theorem oneLine_decimal (n : Nat) : OneLine (decimal n) := by
  refine oneLine_of_forall fun b hb => ?_
  have := isDigit_of_mem_decimal hb
  refine ⟨?_, ?_⟩ <;> rintro rfl <;> cases this

theorem decimal_noNul (n : Nat) : (0 : UInt8) ∉ decimal n := by
  intro h
  cases isDigit_of_mem_decimal h

/-- A session name fits its field and a line. -/
theorem fieldOk_name {session : List UInt8} (h : optyIsSessionName session = true) : FieldOk (optySessionMaxName + 1) session := by
  unfold optyIsSessionName at h
  split at h
  · cases h
  · split at h
    · cases h
    · rename_i hlen
      rw [Bool.or_eq_true, Bool.or_eq_true, not_or, not_or, decide_eq_true_iff, Nat.not_lt] at hlen
      rw [List.all_eq_true] at h
      refine ⟨oneLine_of_forall fun b hb => ?_, Nat.lt_succ_of_le hlen.1.1⟩
      have := h b hb
      refine ⟨?_, ?_⟩ <;> rintro rfl <;> cases this

/-- What is read after the lines before those of `argv`. -/
def headInfo (session : CString) (endpoint : Endpoint) (logPath controlToken : CString) (argc : Nat) : SessionInfo :=
  { optySessionInfoInit session with
    name := session.bytes
    host := endpoint.host.bytes
    port := endpoint.port.bytes
    log := logPath.bytes
    restartPolicy := ascii "manual"
    controlToken := controlToken.bytes
    gracefulInput := defaultGracefulInput
    argc := argc }

/-- The loop takes the lines before those of `argv`. -/
theorem readSessionLines_recordHead {session : CString} {endpoint : Endpoint} {logPath controlToken : CString} {argc : Nat}
    (hname : optyIsSessionName session.bytes = true) (hhost : FieldOk 128 endpoint.host.bytes)
    (hport : FieldOk 16 endpoint.port.bytes) (hlog : FieldOk 512 logPath.bytes) (htoken : FieldOk (optyMaxToken + 1) controlToken.bytes)
    (hargc : argc ≤ optySessionMaxArgc) (malloc : Nat → Alloc UInt8) (rest : List UInt8) :
    readSessionLines malloc 0 ⟨optySessionInfoInit session, false⟩
        (lines newline (recordHead session endpoint logPath controlToken argc ++ rest)) =
      readSessionLines malloc 9 ⟨headInfo session endpoint logPath controlToken argc, true⟩ (lines newline rest) := by
  have hn := fieldOk_name hname
  simp only [recordHead, List.append_assoc]
  rw [readSessionLines_recordLine (by decide) session.noNul hn.toOneLine (readSessionField_name _ _ hn.fits),
    readSessionLines_recordLine (by decide) endpoint.host.noNul hhost.toOneLine (readSessionField_host _ _ hhost.fits),
    readSessionLines_recordLine (by decide) endpoint.port.noNul hport.toOneLine (readSessionField_port _ _ hport.fits),
    readSessionLines_recordLine (by decide) logPath.noNul hlog.toOneLine (readSessionField_log _ _ hlog.fits),
    readSessionLines_recordLine (by decide) (by decide) (by decide) (readSessionField_restartPolicy _ _ (by decide)),
    readSessionLines_recordLine (by decide) controlToken.noNul htoken.toOneLine (readSessionField_controlToken _ _ htoken.fits),
    readSessionLines_recordLine (by decide) (by decide) (by decide) (readSessionField_gracefulInput _ _ (by decide)),
    readSessionLines_recordLine (by decide) (decimal_noNul argc) (oneLine_decimal argc) (readSessionField_argc _ _ hargc),
    readSessionLines_recordLine (by decide) (by decide) (by decide) (readSessionField_argvEncoding _ _)]
  rfl

/-- The loop takes the line of the working directory, or there is none and the field stays empty. -/
theorem readSessionLines_cwdLine {cwd : List UInt8} (hnul : (0 : UInt8) ∉ cwd) (hcwd : FieldOk 1024 cwd) (malloc : Nat → Alloc UInt8)
    (n : Nat) {r : RecordReading} (hr : cwd = [] → r.info.cwd = []) :
    readSessionLines malloc n r (lines newline (cwdLine cwd)) = .ok { r with info := { r.info with cwd := cwd } } := by
  unfold cwdLine
  split
  · rename_i h
    have hsame : ({ r with info := { r.info with cwd := r.info.cwd } } : RecordReading) = r := rfl
    rw [hr h] at hsame
    rw [h, hsame]
    rfl
  · have := readSessionLines_recordLine (n := n) (by decide) hnul hcwd.toOneLine (readSessionField_cwd (malloc n) r hcwd.fits) []
    rw [List.append_nil] at this
    exact this

/-! ## What a line does to the record -/

/-- The allocator that always succeeds. -/
def zeroed : Alloc UInt8 := fun n => some (.fill n 0)

theorem map_ok {α β : Type} {x : Except Errno α} {f : α → β} {b : β} (h : x.map f = .ok b) : ∃ a, x = .ok a ∧ f a = b := by
  cases x with
  | error e => cases h
  | ok a => exact ⟨a, rfl, Except.ok.inj h⟩

section

variable {malloc : Alloc UInt8} {r r' : RecordReading} {key value : List UInt8}

theorem readSessionArgv_zeroed (h : readSessionArgv malloc r key value = .ok r') : readSessionArgv zeroed r key value = .ok r' := by
  unfold readSessionArgv at h ⊢
  split at h
  · cases h
  · exact h
  · obtain ⟨v, hv, hf⟩ := map_ok h
    have hv' : (if r.argvEscaped then optyDecodeSessionValue zeroed value else optyStrdup zeroed value) = .ok v := by
      unfold optyDecodeSessionValue optyStrdup at hv
      cases hm : malloc (value.length + 1) with
      | none =>
        rw [hm] at hv
        split at hv <;> cases hv
      | some b =>
        rw [hm] at hv
        exact hv
    rw [hv', ← hf]
    rfl

/-- The branches before that of `argv` take nothing from the allocator. -/
theorem ite_zeroed {p : Prop} [Decidable p] {x y z : Except Errno RecordReading} (h : y = .ok r' → z = .ok r') :
    (if p then x else y) = .ok r' → (if p then x else z) = .ok r' := by
  split
  · exact id
  · exact h

/-- What an allocator that may fail lets through is what one that never fails does. -/
theorem readSessionField_zeroed (h : readSessionField malloc r key value = .ok r') :
    readSessionField zeroed r key value = .ok r' := by
  revert h
  unfold readSessionField
  iterate 11 refine ite_zeroed ?_
  exact readSessionArgv_zeroed

end

/-- A chomped line is one line. -/
theorem oneLine_optyChomp {content line : List UInt8} (h : line ∈ lines newline content) : OneLine (optyChomp line) := by
  have hlast : ∀ b, (optyChomp line).getLast? = some b → b ≠ newline ∧ b ≠ carriageReturn := by
    intro b hb
    have hne : optyChomp line ≠ [] := by
      intro h0
      rw [h0] at hb
      cases hb
    have hnot := List.rdropWhile_last_not (fun b => b == newline || b == carriageReturn) (line.takeWhile (· ≠ 0)) hne
    rw [List.getLast?_eq_some_getLast hne] at hb
    rw [← Option.some.inj hb]
    simp only [Bool.or_eq_true, beq_iff_eq, not_or] at hnot
    exact hnot
  have hpre : optyChomp line <+: line := (List.rdropWhile_prefix _ _).trans (List.takeWhile_prefix _)
  refine ⟨fun hnl => ?_, fun hcr => (hlast _ hcr).2 rfl⟩
  -- a newline inside the line is its last byte, which the chomped line does not end in
  obtain ⟨tail, htail⟩ := hpre
  rcases List.eq_nil_or_concat (optyChomp line) with h0 | ⟨front, b, hb⟩
  · rw [h0] at hnl
    cases hnl
  · rw [List.concat_eq_append] at hb
    have hbne := hlast b (by rw [hb, List.getLast?_concat])
    rw [hb, List.mem_append, List.mem_singleton] at hnl
    rcases hnl with hnl | hnl
    · refine not_mem_dropLast_of_mem_lines h ?_
      rw [← htail, hb, List.append_assoc, List.dropLast_append_of_ne_nil (by simp)]
      exact List.mem_append_left _ hnl
    · exact hbne.1 hnl.symm

theorem oneLine_of_suffix {key value : List UInt8} (h : OneLine (key ++ equals :: value)) : OneLine value := by
  refine ⟨fun hnl => h.newline ?_, fun hcr => h.last ?_⟩
  · exact List.mem_append_right _ (List.mem_cons_of_mem _ hnl)
  · rw [List.getLast?_append, List.getLast?_cons, hcr]
    rfl

/-! ## What the loop does to the record -/

theorem readSessionLines_zeroed {malloc : Nat → Alloc UInt8} {ls : List (List UInt8)} {n : Nat} {r r' : RecordReading}
    (h : readSessionLines malloc n r ls = .ok r') : readSessionLines (fun _ => zeroed) n r ls = .ok r' := by
  induction ls generalizing n r with
  | nil => exact h
  | cons line ls ih =>
    rw [readSessionLines] at h ⊢
    split at h
    · cases h
    · rename_i r₁ hline
      have : readSessionLine zeroed r line = .ok r₁ := by
        unfold readSessionLine at hline ⊢
        split at hline
        · exact hline
        · exact readSessionField_zeroed hline
      rw [this]
      exact ih h

theorem readSessionLines_append (malloc : Nat → Alloc UInt8) (n : Nat) (r : RecordReading) (a b : List (List UInt8)) :
    readSessionLines malloc n r (a ++ b) =
      match readSessionLines malloc n r a with
      | .error e => .error e
      | .ok r => readSessionLines malloc (n + a.length) r b := by
  induction a generalizing n r with
  | nil => rfl
  | cons line a ih =>
    rw [List.cons_append, readSessionLines, readSessionLines]
    split
    · rfl
    · rw [ih, List.length_cons, Nat.add_assoc n 1, Nat.add_comm 1]

/-- The lines before that of the working directory end with a newline. -/
theorem exists_body (session : CString) (endpoint : Endpoint) (logPath controlToken : CString) (argv : List CString) :
    ∃ body, recordHead session endpoint logPath controlToken argv.length ++ argvLines 0 argv = body ++ [newline] := by
  have hline : ∀ front key value : List UInt8, ∃ body, front ++ recordLine key value = body ++ [newline] :=
    fun front key value => ⟨front ++ (key ++ equals :: value), by rw [recordLine, ← List.append_assoc]⟩
  have hargs : ∀ (argv : List CString) (i : Nat) (front : List UInt8),
      ∃ body, front ++ [newline] ++ argvLines i argv = body ++ [newline] := by
    intro argv
    induction argv with
    | nil => exact fun i front => ⟨front, by rw [argvLines, List.append_nil]⟩
    | cons arg argv ih =>
      intro i front
      obtain ⟨body, hbody⟩ := hline (front ++ [newline]) (argvKey i) (arg.bytes.flatMap escapeByte)
      rw [argvLines, ← List.append_assoc, hbody]
      exact ih (i + 1) body
  obtain ⟨front, hfront⟩ : ∃ front, recordHead session endpoint logPath controlToken argv.length = front ++ [newline] := hline _ _ _
  rw [hfront]
  exact hargs argv 0 front

/-! ## The whole file -/

theorem optySessionPath_name {home : Option CString} {session : CString} {path : List UInt8}
    (h : optySessionPath home session = .ok path) : optyIsSessionName session.bytes = true := by
  rw [optySessionPath] at h
  split at h
  · assumption
  · cases h

/-- The file of a session stands in the session directory, under its name. -/
theorem optySessionPath_eq {home : Option CString} {session : CString} {path : List UInt8}
    (h : optySessionPath home session = .ok path) :
    ∃ dir, optySessionDir home = .ok dir ∧ path = dir ++ ascii "/" ++ session.bytes ++ ascii ".session" := by
  rw [optySessionPath] at h
  split at h
  · cases hdir : optySessionDir home with
    | error e =>
      rw [hdir] at h
      cases h
    | ok dir =>
      rw [hdir] at h
      simp only [bind, Except.bind] at h
      split at h
      · cases h
      · exact ⟨dir, rfl, (Except.ok.inj h).symm⟩
  · cases h

/-- Only the file of the session is read. -/
theorem optyReadSessionInfo_congr {home : Option CString} {files files' : Files} {session : CString}
    (h : ∀ path, optySessionPath home session = .ok path → files path = files' path) (fopen : Except Errno Unit)
    (malloc : Nat → Alloc UInt8) :
    optyReadSessionInfo home fopen malloc files session = optyReadSessionInfo home fopen malloc files' session := by
  cases hpath : optySessionPath home session with
  | error e => simp only [optyReadSessionInfo, hpath, bind, Except.bind]
  | ok path => simp only [optyReadSessionInfo, hpath, bind, Except.bind, h path hpath]

/-- What is read at the end of the loop. -/
theorem optyReadSessionInfo_eq_ok {home : Option CString} {fopen : Except Errno Unit} {malloc : Nat → Alloc UInt8} {files : Files}
    {session : CString} {info : SessionInfo} (h : optyReadSessionInfo home fopen malloc files session = .ok info) :
    ∃ path content r, optySessionPath home session = .ok path ∧ files path = some content ∧
      readSessionLines malloc 0 ⟨optySessionInfoInit session, false⟩ (lines newline content) = .ok r ∧
      finishSessionInfo r.info = .ok info := by
  simp only [optyReadSessionInfo, bind, Except.bind] at h
  split at h
  · cases h
  · rename_i path hpath
    split at h
    · cases h
    · rename_i content hfile
      split at h
      · cases h
      · split at h
        · cases h
        · rename_i r hr
          exact ⟨path, content, r, hpath, hfile, hr, h⟩

theorem finishSessionInfo_eq_ok {info info' : SessionInfo} (h : finishSessionInfo info = .ok info') :
    info.port ≠ [] ∧ (∀ i < info.argc, info.argv i ≠ none) ∧
      info' = { info with argv := Function.update info.argv info.argc none } := by
  rw [finishSessionInfo] at h
  split at h
  · cases h
  · rename_i hport
    split at h
    · cases h
    · rename_i hargv
      cases h
      exact ⟨hport, fun i hi hnone => hargv ⟨i, hi, hnone⟩, rfl⟩

/-- The same for a record that is known. -/
theorem optyReadSessionInfo_ok {home : Option CString} {fopen : Except Errno Unit} {malloc : Nat → Alloc UInt8} {files : Files}
    {session : CString} {info : SessionInfo} {path record : List UInt8} (hpath : optySessionPath home session = .ok path)
    (hrecord : files path = some record) (h : optyReadSessionInfo home fopen malloc files session = .ok info) :
    ∃ r, readSessionLines malloc 0 ⟨optySessionInfoInit session, false⟩ (lines newline record) = .ok r ∧
      finishSessionInfo r.info = .ok info := by
  obtain ⟨path', content, r, hpath', hfile, hr, hinfo⟩ := optyReadSessionInfo_eq_ok h
  obtain rfl : path = path' := Except.ok.inj (hpath.symm.trans hpath')
  obtain rfl : record = content := Option.some.inj (hrecord.symm.trans hfile)
  exact ⟨r, hr, hinfo⟩

end SessionAux

end ZeroPty
