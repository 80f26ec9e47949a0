import ZeroPty.Save
import ZeroPty.Connect
import ZeroPty.Theorems.Session

/-!
# A record is written whole or not at all
-/

namespace ZeroPty

open Memory Text Transition

/-- The record that is written. -/
def SaveArgs.record (c : SaveArgs) (w : SaveWorld) : List UInt8 :=
  SessionAux.recordOf c.session c.endpoint c.logPath c.controlToken c.argv (getcwd w.workingDir)

/-- The call has renamed the temporary file. -/
def SavePc.done : SavePc → Bool
  | .renamed => true
  | .returned (.ok ()) => true
  | _ => false

/-- The name of the file of a session. -/
def recordName (session : CString) : List UInt8 := session.bytes ++ ascii ".session"

/-- The name of the temporary file of a session. -/
def tmpName (session : CString) (pid : Nat) : List UInt8 := recordName session ++ ascii ".tmp." ++ decimal pid

/-- What holds of the files whenever the call is looked at, and so of those that a crash leaves. -/
structure AllOrNothing (w : SaveWorld) (c : SaveArgs) (files : Files) (s : SaveState) : Prop where
  /-- The record of every other session is read as before. -/
  others : ∀ session : CString, session.bytes ≠ c.session.bytes → ∀ fopen malloc,
    optyReadSessionInfo w.home fopen malloc s.files session = optyReadSessionInfo w.home fopen malloc files session
  /-- The record of the session is the old one until the rename. -/
  old : s.pc.done = false → ∀ fopen malloc,
    optyReadSessionInfo w.home fopen malloc s.files c.session = optyReadSessionInfo w.home fopen malloc files c.session
  /-- After it the record is the new one, whole. -/
  new : s.pc.done = true → ∃ path, optySessionPath w.home c.session = .ok path ∧ s.files path = some (c.record w) ∧
    ∀ fopen malloc, optyReadSessionInfo w.home fopen malloc s.files c.session =
      optyReadSessionInfo w.home fopen malloc (Function.update files path (some (c.record w))) c.session
  /-- A call that fails after it created the temporary file has removed it. -/
  gone : ∀ e, s.pc = .returned (.error e) → s.created = true →
    ∃ path tmp, savePaths w c.session c.controlToken c.argv.length = .ok (path, tmp) ∧ s.files tmp = none
  /-- Every other file is as it was. -/
  frame : ∀ p, (∀ path tmp, savePaths w c.session c.controlToken c.argv.length = .ok (path, tmp) → p ≠ path ∧ p ≠ tmp) →
    s.files p = files p

namespace SaveAux

open SessionAux

/-! ## The names -/

theorem getLast?_tmpName (l : List UInt8) (pid : Nat) : ∃ b, (l ++ decimal pid).getLast? = some b ∧ isDigit b = true := by
  have hne := decimal_ne_nil pid
  refine ⟨(decimal pid).getLast hne, ?_, isDigit_of_mem_decimal (List.getLast_mem hne)⟩
  rw [List.getLast?_append_of_ne_nil _ hne, List.getLast?_eq_some_getLast hne]

/-- What ends in a number does not end in `.session`. -/
theorem append_decimal_ne (l l' : List UInt8) (pid : Nat) : l ++ decimal pid ≠ l' ++ ascii ".session" := by
  intro h
  obtain ⟨b, hb, hdigit⟩ := getLast?_tmpName l pid
  have hlast : (l' ++ ascii ".session").getLast? = some 110 := by
    rw [List.getLast?_append_of_ne_nil _ (by decide)]
    rfl
  rw [h, hlast] at hb
  cases hb
  revert hdigit
  decide

theorem ne_nil_of_isSessionName {value : List UInt8} (h : optyIsSessionName value = true) : value ≠ [] := by
  rintro rfl
  cases h

/-- The files that are taken for that of a session are those that are named after it. -/
theorem sessionOfFile_eq_some_iff {name session : CString} :
    sessionOfFile name = some session ↔ optyIsSessionName session.bytes = true ∧ name.bytes = recordName session := by
  have h8 : (ascii ".session").length = 8 := rfl
  constructor
  · intro h
    simp only [sessionOfFile] at h
    split at h
    · cases h
    · rename_i hsuffix
      rw [not_or, Nat.not_le, ne_eq, not_not] at hsuffix
      split at h
      · cases h
      · split at h
        · rename_i hname
          cases h
          refine ⟨hname, ?_⟩
          rw [recordName, ← hsuffix.2, List.take_append_drop]
        · cases h
  · rintro ⟨hname, hbytes⟩
    have hpos := List.length_pos_of_ne_nil (ne_nil_of_isSessionName hname)
    have hfits : ¬optySessionMaxName < session.bytes.length := Nat.not_lt.2 (Nat.le_of_lt_succ (fieldOk_name hname).fits)
    have hlen : name.bytes.length = session.bytes.length + 8 := by rw [hbytes, recordName, List.length_append, h8]
    have htake : name.bytes.take session.bytes.length = session.bytes := by rw [hbytes, recordName, List.take_left]
    have hdrop : name.bytes.drop session.bytes.length = ascii ".session" := by rw [hbytes, recordName, List.drop_left]
    have hsuffix : ¬(session.bytes.length + 8 ≤ 8 ∨ ascii ".session" ≠ ascii ".session") := by
      rw [not_or, not_not]
      exact ⟨by omega, rfl⟩
    simp only [sessionOfFile, hlen, Nat.add_sub_cancel, htake, hdrop, if_neg hsuffix, if_neg hfits, hname, if_true]

/-- A temporary file is passed over. -/
theorem sessionOfFile_tmpName {name session : CString} {pid : Nat} (h : name.bytes = tmpName session pid) :
    sessionOfFile name = none := by
  cases hs : sessionOfFile name with
  | none => rfl
  | some session' =>
    have hname := (sessionOfFile_eq_some_iff.1 hs).2
    rw [h] at hname
    exact absurd hname (append_decimal_ne _ _ pid)

/-- The loop over the directory does not look at the directory again. -/
theorem loadEntries_entries (d : SessionDir) (listed : Except Errno (List CString)) (names : List CString) (cap : Nat)
    (entries : List SessionEntry) : loadEntries { d with entries := listed } cap entries names = loadEntries d cap entries names := by
  induction names generalizing cap entries with
  | nil => rfl
  | cons name names ih =>
    rw [loadEntries, loadEntries]
    simp only [ih]
    rfl

theorem loadEntries_skip (d : SessionDir) {name : CString} (h : sessionOfFile name = none) (before after : List CString) (cap : Nat)
    (entries : List SessionEntry) :
    loadEntries d cap entries (before ++ name :: after) = loadEntries d cap entries (before ++ after) := by
  induction before generalizing cap entries with
  | nil => rw [List.nil_append, List.nil_append, loadEntries, h]
  | cons first before ih =>
    rw [List.cons_append, List.cons_append, loadEntries, loadEntries]
    simp only [ih]

/-! ## The text of the lines -/

/-- What a line comes to. -/
def text : SaveLine → List UInt8
  | .plain text => text
  | .arg i value => recordLine (argvKey i) (value.bytes.flatMap escapeByte)

theorem text_saveArgv (argv : List CString) (i : Nat) : (saveArgv i argv).flatMap text = argvLines i argv := by
  induction argv generalizing i with
  | nil => rfl
  | cons arg rest ih => rw [saveArgv, List.flatMap_cons, ih, text, argvLines]

theorem text_saveLines (w : SaveWorld) (c : SaveArgs) : (saveLines c (getcwd w.workingDir)).flatMap text = c.record w := by
  have hcwd : ∀ cwd : List UInt8, (if cwd = [] then [] else [SaveLine.plain (recordLine (ascii "cwd") cwd)]).flatMap text =
      cwdLine cwd := by
    intro cwd
    rw [cwdLine]
    split
    · rfl
    · rw [List.flatMap_singleton, text]
  rw [saveLines, List.flatMap_append, List.flatMap_append, hcwd (getcwd w.workingDir), text_saveArgv, SaveArgs.record, recordOf]
  simp only [List.flatMap_cons, List.flatMap_nil, text, recordHead, List.append_assoc, List.append_nil]

/-! ## The machine -/

/-- The temporary file is there with this content, and no other file has changed. -/
structure TmpHolds (w : SaveWorld) (c : SaveArgs) (files : Files) (s : SaveState) (content : List UInt8) : Prop where
  paths : savePaths w c.session c.controlToken c.argv.length = .ok (s.path, s.tmp)
  fresh : files s.tmp = none
  files : s.files = Function.update files s.tmp (some content)

/-- What holds of the machine. While the error indicator is not set, what is in the file, in the buffer and still to be printed is the
record. -/
def SaveInv (w : SaveWorld) (c : SaveArgs) (files : Files) (s : SaveState) : Prop :=
  match s.pc with
  | .paths => s.created = false ∧ s.files = files
  | .openTmp => savePaths w c.session c.controlToken c.argv.length = .ok (s.path, s.tmp) ∧ s.created = false ∧ s.files = files
  | .fdopen => TmpHolds w c files s []
  | .print lines => ∃ content, TmpHolds w c files s content ∧
      (s.error = none → content ++ s.buffer ++ lines.flatMap text = c.record w)
  | .ferror => ∃ content, TmpHolds w c files s content ∧ (s.error = none → content ++ s.buffer = c.record w)
  | .fflush => ∃ content, TmpHolds w c files s content ∧ content ++ s.buffer = c.record w
  | .fsync | .fclose => TmpHolds w c files s (c.record w) ∧ s.buffer = []
  | .rename => TmpHolds w c files s (c.record w)
  | .fcloseFailed _ | .unlink _ => ∃ content, TmpHolds w c files s content
  | .renamed | .returned (.ok ()) => savePaths w c.session c.controlToken c.argv.length = .ok (s.path, s.tmp) ∧ files s.tmp = none ∧
      s.files = Function.update files s.path (some (c.record w))
  | .returned (.error _) => s.files = files ∧
      (s.created = true → savePaths w c.session c.controlToken c.argv.length = .ok (s.path, s.tmp) ∧ files s.tmp = none)

section

variable {w : SaveWorld} {c : SaveArgs} {files : Files} {s s' : SaveState} {content : List UInt8}

/-- Only the files, their names and whether the file was created count. -/
theorem TmpHolds.goto (h : TmpHolds w c files s content) (pc : SavePc) : TmpHolds w c files (s.goto pc) content :=
  ⟨h.paths, h.fresh, h.files⟩

theorem TmpHolds.write (h : TmpHolds w c files s content) (bytes : List UInt8) :
    TmpHolds w c files (s.write bytes) (content ++ bytes) := by
  refine ⟨h.paths, h.fresh, ?_⟩
  simp only [SaveState.write]
  rw [h.files, Function.update_self, Option.map_some, Function.update_idem]

theorem tmp_ne_path_of_savePaths {path tmp : List UInt8}
    (h : savePaths w c.session c.controlToken c.argv.length = .ok (path, tmp)) : tmp ≠ path := by
  rw [(savePaths_ok h).2.1]
  exact (tmp_ne_path path _).symm

/-- A line that is printed is written out or buffered, or the error indicator is set. -/
theorem TmpHolds.fprintf (h : TmpHolds w c files s content) (a : SaveCall) (line rest : List UInt8)
    (hrecord : s.error = none → content ++ s.buffer ++ (line ++ rest) = c.record w) :
    ∃ content', TmpHolds w c files (s.fprintf a line) content' ∧
      ((s.fprintf a line).error = none → content' ++ (s.fprintf a line).buffer ++ rest = c.record w) := by
  have hw := h.write ((s.buffer ++ line).take a.flushed)
  refine ⟨content ++ (s.buffer ++ line).take a.flushed, ?_, ?_⟩
  · unfold SaveState.fprintf
    split
    · exact ⟨hw.paths, hw.fresh, hw.files⟩
    · exact ⟨hw.paths, hw.fresh, hw.files⟩
  · unfold SaveState.fprintf
    split
    · intro herror
      rw [← hrecord herror]
      simp only [List.append_assoc]
      rw [← List.append_assoc ((s.buffer ++ line).take a.flushed), List.take_append_drop, List.append_assoc]
    · intro herror
      cases herror

/-- A line keeps the account, or leads to the clean-up. -/
theorem SaveInv.print {line : SaveLine} {rest : List SaveLine} (hpc : s.pc = .print (line :: rest)) (h : SaveInv w c files s)
    (a : SaveCall) : SaveInv w c files (s.print w a rest line) := by
  simp only [SaveInv, hpc, List.flatMap_cons] at h
  obtain ⟨content, htmp, hrecord⟩ := h
  obtain ⟨content', htmp', hrecord'⟩ := htmp.fprintf a (text line) (rest.flatMap text) hrecord
  cases line with
  | plain line => exact ⟨content', htmp'.goto _, hrecord'⟩
  | arg i value =>
    rw [SaveState.print]
    split
    · exact ⟨content, htmp.goto _⟩
    · split
      · exact ⟨content, htmp.goto _⟩
      · rename_i escaped hescape
        obtain rfl := optyEscapeSessionValue_ok hescape
        dsimp only
        split
        · exact ⟨content', htmp'.goto _, hrecord'⟩
        · exact ⟨content', htmp'.goto _⟩

/-- Every call keeps the invariant. -/
theorem SaveInv.step {a : SaveCall} (h : SaveInv w c files s) (hstep : saveStep w c s a = .next s') : SaveInv w c files s' := by
  cases hpc : s.pc with
  | paths =>
    simp only [saveStep, hpc] at hstep
    simp only [SaveInv, hpc] at h
    split at hstep
    · cases hstep
      exact ⟨h.2, fun hc => absurd (h.1.symm.trans hc) (by decide)⟩
    · rename_i path tmp hpaths
      cases hstep
      exact ⟨hpaths, h⟩
  | openTmp =>
    simp only [saveStep, hpc] at hstep
    simp only [SaveInv, hpc] at h
    obtain ⟨hpaths, hcreated, hfiles⟩ := h
    split at hstep
    · cases hstep
      exact ⟨hfiles, fun hc => absurd (hcreated.symm.trans hc) (by decide)⟩
    · rename_i hfresh
      rw [ne_eq, not_not, hfiles] at hfresh
      split at hstep
      · cases hstep
        exact ⟨hfiles, fun _ => ⟨hpaths, hfresh⟩⟩
      · cases hstep
        refine ⟨hpaths, hfresh, ?_⟩
        dsimp only
        rw [hfiles]
  | fdopen =>
    simp only [saveStep, hpc] at hstep
    simp only [SaveInv, hpc] at h
    split at hstep
    · cases hstep
      exact ⟨[], h.goto _⟩
    · cases hstep
      exact ⟨[], ⟨h.paths, h.fresh, h.files⟩, fun _ => text_saveLines w c⟩
  | print lines =>
    cases lines with
    | nil =>
      simp only [saveStep, hpc] at hstep
      simp only [SaveInv, hpc, List.flatMap_nil, List.append_nil] at h
      cases hstep
      obtain ⟨content, htmp, hrecord⟩ := h
      exact ⟨content, htmp.goto _, hrecord⟩
    | cons line rest =>
      simp only [saveStep, hpc] at hstep
      cases hstep
      exact h.print hpc a
  | ferror =>
    simp only [saveStep, hpc] at hstep
    simp only [SaveInv, hpc] at h
    obtain ⟨content, htmp, hrecord⟩ := h
    split at hstep
    · cases hstep
      exact ⟨content, htmp.goto _⟩
    · rename_i herror
      cases hstep
      exact ⟨content, htmp.goto _, hrecord herror⟩
  | fflush =>
    simp only [saveStep, hpc] at hstep
    simp only [SaveInv, hpc] at h
    obtain ⟨content, htmp, hrecord⟩ := h
    split at hstep
    · cases hstep
      exact ⟨_, (htmp.write _).goto _⟩
    · cases hstep
      have hw := htmp.write s.buffer
      rw [hrecord] at hw
      exact ⟨⟨hw.paths, hw.fresh, hw.files⟩, rfl⟩
  | fsync =>
    simp only [saveStep, hpc] at hstep
    simp only [SaveInv, hpc] at h
    split at hstep
    · cases hstep
      exact ⟨_, h.1.goto _⟩
    · cases hstep
      exact ⟨h.1.goto _, h.2⟩
  | fclose =>
    simp only [saveStep, hpc] at hstep
    simp only [SaveInv, hpc] at h
    split at hstep
    · cases hstep
      exact ⟨_, (h.1.write _).goto _⟩
    · cases hstep
      have hw := h.1.write s.buffer
      rw [h.2, List.append_nil] at hw
      rw [h.2]
      exact hw.goto _
  | fcloseFailed e =>
    simp only [saveStep, hpc] at hstep
    simp only [SaveInv, hpc] at h
    obtain ⟨content, htmp⟩ := h
    cases hstep
    exact ⟨_, (htmp.write _).goto _⟩
  | unlink e =>
    simp only [saveStep, hpc] at hstep
    simp only [SaveInv, hpc] at h
    obtain ⟨content, htmp⟩ := h
    cases hstep
    refine ⟨?_, fun _ => ⟨htmp.paths, htmp.fresh⟩⟩
    -- the file was not there when it was created, so that without it the files are those of before
    dsimp only
    rw [htmp.files, Function.update_idem, ← htmp.fresh, Function.update_eq_self]
  | rename =>
    simp only [saveStep, hpc] at hstep
    simp only [SaveInv, hpc] at h
    split at hstep
    · cases hstep
      exact ⟨_, h.goto _⟩
    · cases hstep
      have hne := tmp_ne_path_of_savePaths h.paths
      have hfresh : Function.update files s.path (some (c.record w)) s.tmp = none := by rw [Function.update_of_ne hne, h.fresh]
      refine ⟨h.paths, h.fresh, ?_⟩
      dsimp only
      rw [h.files, Function.update_self, Function.update_comm hne, Function.update_idem, ← hfresh, Function.update_eq_self]
  | renamed =>
    simp only [saveStep, hpc] at hstep
    simp only [SaveInv, hpc] at h
    cases hstep
    exact h
  | returned r =>
    simp only [saveStep, hpc] at hstep
    cases hstep

theorem SaveInv.run {as : List SaveCall} (h : exec (saveStep w c) (.init files) as = .next s) : SaveInv w c files s := by
  have hinit : SaveInv w c files (.init files) := ⟨rfl, rfl⟩
  exact invariant (Q := fun _ => True) (P := SaveInv w c files) (fun _ _ _ hs _ hstep => hs.step hstep) hinit (fun _ _ => trivial) h

/-- Before the rename the temporary file is the only one that may have changed. -/
theorem SaveInv.not_done (h : SaveInv w c files s) (hd : s.pc.done = false) :
    s.files = files ∨ ∃ content, TmpHolds w c files s content := by
  cases hpc : s.pc with
  | paths =>
    simp only [SaveInv, hpc] at h
    exact .inl h.2
  | openTmp =>
    simp only [SaveInv, hpc] at h
    exact .inl h.2.2
  | fdopen | rename =>
    simp only [SaveInv, hpc] at h
    exact .inr ⟨_, h⟩
  | print lines | ferror | fflush =>
    simp only [SaveInv, hpc] at h
    obtain ⟨content, htmp, -⟩ := h
    exact .inr ⟨content, htmp⟩
  | fsync | fclose =>
    simp only [SaveInv, hpc] at h
    exact .inr ⟨_, h.1⟩
  | fcloseFailed e | unlink e =>
    simp only [SaveInv, hpc] at h
    exact .inr h
  | renamed =>
    rw [hpc] at hd
    cases hd
  | returned r =>
    cases r with
    | error e =>
      simp only [SaveInv, hpc] at h
      exact .inl h.1
    | ok u =>
      rw [hpc] at hd
      cases hd

/-- After the rename the record is the only file that has changed. -/
theorem SaveInv.done (h : SaveInv w c files s) (hd : s.pc.done = true) :
    savePaths w c.session c.controlToken c.argv.length = .ok (s.path, s.tmp) ∧ files s.tmp = none ∧
      s.files = Function.update files s.path (some (c.record w)) := by
  unfold SavePc.done at hd
  split at hd
  · rename_i hpc
    simp only [SaveInv, hpc] at h
    exact h
  · rename_i hpc
    simp only [SaveInv, hpc] at h
    exact h
  · cases hd

/-- A temporary file is no file of a session. -/
theorem tmp_ne_sessionPath (hpaths : savePaths w c.session c.controlToken c.argv.length = .ok (s.path, s.tmp)) {session : CString}
    {path : List UInt8} (h : optySessionPath w.home session = .ok path) : path ≠ s.tmp := by
  obtain ⟨dir, -, rfl⟩ := optySessionPath_eq h
  rw [(savePaths_ok hpaths).2.1]
  exact (append_decimal_ne _ _ w.pid).symm

/-- Two sessions with a file have two files. -/
theorem sessionPath_inj {home : Option CString} {session session' : CString} {path : List UInt8}
    (h : optySessionPath home session = .ok path) (h' : optySessionPath home session' = .ok path) : session.bytes = session'.bytes := by
  obtain ⟨dir, hdir, rfl⟩ := optySessionPath_eq h
  obtain ⟨dir', hdir', heq⟩ := optySessionPath_eq h'
  obtain rfl : dir = dir' := Except.ok.inj (hdir.symm.trans hdir')
  exact List.append_cancel_left (List.append_cancel_right heq)

theorem SaveInv.allOrNothing (h : SaveInv w c files s) : AllOrNothing w c files s := by
  -- The files of sessions, but for that of this one after the rename, are those of before.
  have hrecord : ∀ session path, optySessionPath w.home session = .ok path →
      (s.pc.done = true → session.bytes ≠ c.session.bytes) → s.files path = files path := by
    intro session path hpath hother
    cases hd : s.pc.done with
    | false =>
      rcases h.not_done hd with heq | ⟨content, htmp⟩
      · rw [heq]
      · rw [htmp.files, Function.update_of_ne (tmp_ne_sessionPath htmp.paths hpath)]
    | true =>
      obtain ⟨hpaths, -, hfiles⟩ := h.done hd
      have hne : path ≠ s.path := by
        rintro rfl
        exact hother hd (sessionPath_inj hpath (savePaths_ok hpaths).1)
      rw [hfiles, Function.update_of_ne hne]
  refine ⟨fun session hne => ?_, fun hd => ?_, fun hd => ?_, fun e hpc hcreated => ?_, fun p hp => ?_⟩
  · exact optyReadSessionInfo_congr fun path hpath => hrecord session path hpath fun _ => hne
  · refine optyReadSessionInfo_congr fun path hpath => hrecord c.session path hpath fun hd' => ?_
    cases hd.symm.trans hd'
  · obtain ⟨hpaths, -, hfiles⟩ := h.done hd
    exact ⟨s.path, (savePaths_ok hpaths).1, by rw [hfiles, Function.update_self], fun fopen malloc => by rw [hfiles]⟩
  · simp only [SaveInv, hpc] at h
    obtain ⟨hpaths, hfresh⟩ := h.2 hcreated
    exact ⟨s.path, s.tmp, hpaths, by rw [h.1, hfresh]⟩
  · cases hd : s.pc.done with
    | false =>
      rcases h.not_done hd with heq | ⟨content, htmp⟩
      · rw [heq]
      · rw [htmp.files, Function.update_of_ne (hp _ _ htmp.paths).2]
    | true =>
      obtain ⟨hpaths, -, hfiles⟩ := h.done hd
      rw [hfiles, Function.update_of_ne (hp _ _ hpaths).1]

/-! ## The function as a run of the machine -/

/-- A run from here returns `r`. -/
def Returns (w : SaveWorld) (c : SaveArgs) (s : SaveState) (r : Except Errno Unit) : Prop :=
  ∃ as s', exec (saveStep w c) s as = .next s' ∧ s'.pc = .returned r

theorem Returns.step {r : Except Errno Unit} (a : SaveCall) (hstep : saveStep w c s a = .next s') (h : Returns w c s' r) :
    Returns w c s r := by
  obtain ⟨as, t, hrun, hpc⟩ := h
  refine ⟨a :: as, t, ?_, hpc⟩
  rw [exec, hstep]
  exact hrun

/-- A call with this result, which writes nothing out before it has to. -/
def calm (r : Except Errno Unit) : SaveCall := ⟨r, 0, []⟩

theorem returns_self {r : Except Errno Unit} (hpc : s.pc = .returned r) : Returns w c s r := ⟨[], s, rfl, hpc⟩

theorem returns_unlink {e : Errno} (hpc : s.pc = .unlink e) : Returns w c s (.error e) := by
  apply Returns.step (calm (.ok ()))
  · simp only [saveStep, hpc]
    rfl
  · exact returns_self rfl

theorem returns_fcloseFailed {e : Errno} (hpc : s.pc = .fcloseFailed e) : Returns w c s (.error e) := by
  apply Returns.step (calm (.ok ()))
  · simp only [saveStep, hpc]
    rfl
  · exact returns_unlink rfl

theorem returns_rename (hpc : s.pc = .rename) : Returns w c s w.rename := by
  cases w.rename with
  | error e =>
    apply Returns.step (calm (.error e))
    · simp only [saveStep, hpc, calm]
      rfl
    · exact returns_unlink rfl
  | ok u =>
    apply Returns.step (calm (.ok ()))
    · simp only [saveStep, hpc, calm]
      rfl
    · apply Returns.step (calm (.ok ()))
      · rfl
      · exact returns_self rfl

theorem returns_fclose (hpc : s.pc = .fclose) : Returns w c s (w.fclose.bind fun _ => w.rename) := by
  cases w.fclose with
  | error e =>
    apply Returns.step (calm (.error e))
    · simp only [saveStep, hpc, calm]
      rfl
    · exact returns_unlink rfl
  | ok u =>
    apply Returns.step (calm (.ok ()))
    · simp only [saveStep, hpc, calm]
      rfl
    · exact returns_rename rfl

/-- From `ferror` on, when no write has failed. -/
theorem returns_ferror (hpc : s.pc = .ferror) (herror : s.error = none) :
    Returns w c s (w.flush.bind fun _ => w.fclose.bind fun _ => w.rename) := by
  apply Returns.step (calm (.ok ()))
  · simp only [saveStep, hpc, herror]
    rfl
  · cases w.flush with
    | error e =>
      apply Returns.step (calm (.error e))
      · rfl
      · exact returns_fcloseFailed rfl
    | ok u =>
      apply Returns.step (calm (.ok ()))
      · rfl
      · apply Returns.step (calm (.ok ()))
        · rfl
        · exact returns_fclose rfl

/-- The lines that stand as they are. -/
theorem returns_plain {r : Except Errno Unit} {rest : List SaveLine}
    (h : ∀ s : SaveState, s.pc = .print rest → s.error = none → Returns w c s r) (texts : List (List UInt8)) (s : SaveState)
    (hpc : s.pc = .print (texts.map .plain ++ rest)) (herror : s.error = none) : Returns w c s r := by
  induction texts generalizing s with
  | nil => exact h s hpc herror
  | cons text texts ih =>
    apply Returns.step (calm (.ok ()))
    · simp only [saveStep, hpc, List.map_cons, List.cons_append]
      rfl
    · exact ih _ rfl herror

theorem bind_unused {α β : Type} (x : Except Errno α) (f : α → β) (r : Except Errno Unit) :
    ((x.bind fun a => .ok (f a)).bind fun _ => r) = x.bind fun _ => r := by
  cases x with
  | error e => rfl
  | ok a => rfl

/-- The entries of `argv`. -/
theorem returns_argv {r : Except Errno Unit} {rest : List SaveLine}
    (h : ∀ s : SaveState, s.pc = .print rest → s.error = none → Returns w c s r) (argv : List CString) (i : Nat) (s : SaveState)
    (hpc : s.pc = .print (saveArgv i argv ++ rest)) (herror : s.error = none) :
    Returns w c s ((writeArgv w i argv).bind fun _ => r) := by
  induction argv generalizing i s with
  | nil => exact h s hpc herror
  | cons arg argv ih =>
    rw [saveArgv, List.cons_append] at hpc
    rw [writeArgv, optyWriteEscapedField]
    by_cases hkey : 32 ≤ (argvKey i).length
    · rw [if_pos hkey]
      apply Returns.step (calm (.ok ()))
      · simp only [saveStep, hpc, SaveState.print, if_pos hkey]
        rfl
      · exact returns_fcloseFailed rfl
    · rw [if_neg hkey]
      cases hescape : optyEscapeSessionValue (w.malloc i) arg with
      | error e =>
        apply Returns.step (calm (.ok ()))
        · simp only [saveStep, hpc, SaveState.print, if_neg hkey, hescape]
          rfl
        · exact returns_fcloseFailed rfl
      | ok escaped =>
        cases hprint : w.fprintf i with
        | error e =>
          apply Returns.step (calm (.error e))
          · simp only [saveStep, hpc, SaveState.print, if_neg hkey, hescape, calm]
            rfl
          · exact returns_fcloseFailed rfl
        | ok u =>
          apply Returns.step (calm (.ok ()))
          · simp only [saveStep, hpc, SaveState.print, if_neg hkey, hescape, calm]
            rfl
          · have hsame := bind_unused (writeArgv w (i + 1) argv) (recordLine (argvKey i) escaped ++ ·) r
            exact (congrArg (Returns w c _) hsame).mpr (ih (i + 1) _ rfl herror)

/-- The end of the lines. -/
theorem returns_end (hpc : s.pc = .print []) (herror : s.error = none) :
    Returns w c s (w.flush.bind fun _ => w.fclose.bind fun _ => w.rename) := by
  apply Returns.step (calm (.ok ()))
  · simp only [saveStep, hpc]
    rfl
  · exact returns_ferror rfl herror

/-- The lines, from the first on. -/
theorem returns_print (hpc : s.pc = .print (saveLines c (getcwd w.workingDir))) (herror : s.error = none) :
    Returns w c s ((writeArgv w 0 c.argv).bind fun _ => w.flush.bind fun _ => w.fclose.bind fun _ => w.rename) := by
  have hcwd : ∀ s : SaveState,
      s.pc = .print (if getcwd w.workingDir = [] then [] else [.plain (recordLine (ascii "cwd") (getcwd w.workingDir))]) →
      s.error = none → Returns w c s (w.flush.bind fun _ => w.fclose.bind fun _ => w.rename) := by
    intro s hpc herror
    split at hpc
    · exact returns_end hpc herror
    · exact returns_plain (fun s => returns_end) [_] s hpc herror
  rw [saveLines, List.append_assoc] at hpc
  exact returns_plain (returns_argv hcwd c.argv 0) [_, _, _, _, _, _, _, _, _] s hpc herror

/-- From the creation of the temporary file on. -/
theorem returns_fdopen (hpc : s.pc = .fdopen) :
    Returns w c s ((saveRecord w c.session c.endpoint c.logPath c.controlToken c.argv).bind fun _ => w.rename) := by
  cases hfdopen : w.fdopen with
  | error e =>
    rw [saveRecord, hfdopen]
    apply Returns.step (calm (.error e))
    · simp only [saveStep, hpc, calm]
      rfl
    · exact returns_unlink rfl
  | ok u =>
    have hsame : ((saveRecord w c.session c.endpoint c.logPath c.controlToken c.argv).bind fun _ => w.rename) =
        (writeArgv w 0 c.argv).bind fun _ => w.flush.bind fun _ => w.fclose.bind fun _ => w.rename := by
      rw [saveRecord, hfdopen]
      cases writeArgv w 0 c.argv with
      | error e => rfl
      | ok args => cases w.flush <;> cases w.fclose <;> rfl
    rw [hsame]
    apply Returns.step (calm (.ok ()))
    · simp only [saveStep, hpc, calm]
      rfl
    · exact returns_print rfl rfl

/-- A run returns what the function does. -/
theorem returns_optyWriteSession (w : SaveWorld) (c : SaveArgs) (files : Files) :
    Returns w c (.init files) (optyWriteSession w files c.session c.endpoint c.logPath c.controlToken c.argv).1 := by
  cases hpaths : savePaths w c.session c.controlToken c.argv.length with
  | error e =>
    apply Returns.step (calm (.ok ()))
    · simp only [saveStep, SaveState.init, hpaths]
      rfl
    · apply returns_self
      rw [optyWriteSession, hpaths]
      rfl
  | ok p =>
    obtain ⟨path, tmp⟩ := p
    apply Returns.step (calm (.ok ()))
    · simp only [saveStep, SaveState.init, hpaths]
      rfl
    · simp only [optyWriteSession, hpaths]
      by_cases hfresh : files tmp = none
      · rw [if_neg (by rw [ne_eq, not_not, hfresh])]
        cases w.openTmp with
        | error e =>
          apply Returns.step (calm (.error e))
          · simp only [saveStep, hfresh, calm, ne_eq, not_true, if_false]
            rfl
          · exact returns_self rfl
        | ok u =>
          apply Returns.step (calm (.ok ()))
          · simp only [saveStep, hfresh, calm, ne_eq, not_true, if_false]
            rfl
          · have hrun : Returns w c ⟨Function.update files tmp (some []), path, tmp, true, [], none, .fdopen⟩ _ :=
              returns_fdopen rfl
            cases hrecord : saveRecord w c.session c.endpoint c.logPath c.controlToken c.argv with
            | error e =>
              rw [hrecord] at hrun
              exact hrun
            | ok record =>
              rw [hrecord] at hrun
              cases hrename : w.rename with
              | error e =>
                rw [hrename] at hrun
                exact hrun
              | ok u =>
                rw [hrename] at hrun
                exact hrun
      · rw [if_pos hfresh]
        apply Returns.step (calm (.ok ()))
        · simp only [saveStep, if_pos hfresh]
          rfl
        · exact returns_self rfl

/-- The files that the function leaves, by what it returns. -/
theorem optyWriteSession_files (w : SaveWorld) (c : SaveArgs) (files : Files) {r : Except Errno Unit} {files' : Files}
    (h : optyWriteSession w files c.session c.endpoint c.logPath c.controlToken c.argv = (r, files')) :
    (∀ e, r = .error e → files' = files) ∧
    ∀ path tmp, r = .ok () → savePaths w c.session c.controlToken c.argv.length = .ok (path, tmp) →
      files' = Function.update files path (some (c.record w)) := by
  unfold optyWriteSession at h
  split at h
  · cases h
    exact ⟨fun _ _ => rfl, by rintro _ _ ⟨⟩⟩
  · rename_i path tmp hpaths
    split at h
    · cases h
      exact ⟨fun _ _ => rfl, by rintro _ _ ⟨⟩⟩
    · rename_i hfresh
      rw [ne_eq, not_not] at hfresh
      have hsame : Function.update files tmp none = files := by rw [← hfresh, Function.update_eq_self]
      split at h
      · cases h
        exact ⟨fun _ _ => rfl, by rintro _ _ ⟨⟩⟩
      · split at h
        · cases h
          exact ⟨fun _ _ => hsame, by rintro _ _ ⟨⟩⟩
        · rename_i record hrecord
          split at h
          · cases h
            exact ⟨fun _ _ => hsame, by rintro _ _ ⟨⟩⟩
          · cases h
            refine ⟨by rintro _ ⟨⟩, fun path' tmp' _ hpaths' => ?_⟩
            cases hpaths.symm.trans hpaths'
            rw [Function.update_comm (tmp_ne_path_of_savePaths hpaths).symm, hsame, saveRecord_ok hrecord]
            rfl

end

end SaveAux

open SaveAux SessionAux

/-- A call of `opty_write_session` changes the record of its session from the old one to the new one in one step, its rename, whatever
call fails or is the last before a crash, and nothing else but a temporary file, which a failure removes. No temporary file has the
name of a record or is taken for one, and the name of a record is that of its session only. -/
theorem session_write_all_or_nothing (w : SaveWorld) (c : SaveArgs) (files : Files) (as : List SaveCall) (s : SaveState)
    (h : exec (saveStep w c) (.init files) as = .next s) :
    AllOrNothing w c files s ∧
    (∀ path tmp, savePaths w c.session c.controlToken c.argv.length = .ok (path, tmp) →
      ∃ dir, path = dir ++ ascii "/" ++ recordName c.session ∧ tmp = dir ++ ascii "/" ++ tmpName c.session w.pid) ∧
    (∀ session pid session', tmpName session pid ≠ recordName session') ∧
    (∀ (d : SessionDir) (session : CString) (pid : Nat) (before : List CString) (name : CString) (after : List CString),
      name.bytes = tmpName session pid →
      optyLoadSessionEntries { d with entries := .ok (before ++ name :: after) } =
        optyLoadSessionEntries { d with entries := .ok (before ++ after) }) ∧
    ∀ name session,
      sessionOfFile name = some session ↔ optyIsSessionName session.bytes = true ∧ name.bytes = recordName session := by
  refine ⟨(SaveInv.run h).allOrNothing, fun path tmp h => ?_, fun session pid session' => append_decimal_ne _ _ pid,
    fun d session pid before name after h => ?_, fun name session => sessionOfFile_eq_some_iff⟩
  · obtain ⟨hpath, htmp, -⟩ := savePaths_ok h
    obtain ⟨dir, -, hdir⟩ := optySessionPath_eq hpath
    refine ⟨dir, ?_, ?_⟩
    · rw [hdir, recordName, List.append_assoc _ c.session.bytes]
    · rw [htmp, hdir, tmpName, recordName]
      simp only [List.append_assoc]
  · have hskip := sessionOfFile_tmpName h
    simp only [optyLoadSessionEntries, loadEntries_entries, loadEntries_skip _ hskip]

/-- The session `dev`, which runs `sh`. -/
def devArgs : SaveArgs where
  session := .ofBytes (ascii "dev")
  endpoint := ⟨.ofBytes (ascii "127.0.0.1"), .ofBytes (ascii "6077")⟩
  logPath := .ofBytes []
  controlToken := .ofBytes (ascii "secret")
  argv := [.ofBytes (ascii "sh")]

/-- The files with an old record of the session `dev`. -/
def oldRecord : Files :=
  fun path => if path = ascii "/root/.0pty/sessions/dev.session" then some (ascii "port=6000\n") else none

/-- An `fsync` that fails: the temporary file is gone, and the record is the old one. -/
theorem failed_fsync_leaves_old_record : ∃ as s, exec (saveStep workingWorld devArgs) (.init oldRecord) as = .next s ∧
    s.pc = .returned (.error .eio) ∧
    s.files (ascii "/root/.0pty/sessions/dev.session.tmp.42") = none ∧
    ∀ fopen malloc, optyReadSessionInfo workingWorld.home fopen malloc s.files devArgs.session =
      optyReadSessionInfo workingWorld.home fopen malloc oldRecord devArgs.session := by
  have hrun : ∃ as s, exec (saveStep workingWorld devArgs) (.init oldRecord) as = .next s ∧
      s.pc = .returned (.error .eio) ∧ s.pc.done = false ∧ s.created = true :=
    ⟨List.replicate 17 (calm (.ok ())) ++ List.replicate 3 (calm (.error .eio)), _, rfl, rfl, rfl, rfl⟩
  obtain ⟨as, s, hrun, hpc, hdone, hcreated⟩ := hrun
  have h := (session_write_all_or_nothing _ _ _ _ _ hrun).1
  obtain ⟨path, tmp, hpaths, hgone⟩ := h.gone .eio hpc hcreated
  cases hpaths
  exact ⟨as, s, hrun, hpc, hgone, h.old hdone⟩

/-- What `opty_write_session` returns, and the files it leaves, are those of a run. -/
theorem write_session_is_run (w : SaveWorld) (c : SaveArgs) (files : Files) :
    ∃ as s, exec (saveStep w c) (.init files) as = .next s ∧
      s.pc = .returned (optyWriteSession w files c.session c.endpoint c.logPath c.controlToken c.argv).1 ∧
      s.files = (optyWriteSession w files c.session c.endpoint c.logPath c.controlToken c.argv).2 := by
  obtain ⟨as, s, hrun, hpc⟩ := returns_optyWriteSession w c files
  refine ⟨as, s, hrun, hpc, ?_⟩
  have hinv := SaveInv.run hrun
  cases hcall : optyWriteSession w files c.session c.endpoint c.logPath c.controlToken c.argv with
  | mk r files' =>
    obtain ⟨herror, hok⟩ := optyWriteSession_files w c files hcall
    rw [hcall] at hpc
    cases r with
    | error e =>
      simp only [SaveInv, hpc] at hinv
      rw [hinv.1, herror e rfl]
    | ok u =>
      simp only [SaveInv, hpc] at hinv
      rw [hinv.2.2, hok s.path s.tmp rfl hinv.1]

end ZeroPty
