import ZeroPty.Lemmas.Record

/-!
# Session records: what is read back, and what the working directory can do

The arguments of a command are escaped, so that they come back whatever they contain (`session_record_round_trips`). The working
directory is not: it is harmless exactly as long as it is one line (`cwd_harmless_iff`).
-/

namespace ZeroPty

open Memory Text SessionAux

/-- What a session record is to say: what was given when it was written, and the defaults for everything else. -/
def sessionInfoOf (session : CString) (endpoint : Endpoint) (logPath controlToken cwd : CString) (argv : List CString) : SessionInfo where
  name := session.bytes
  host := endpoint.host.bytes
  port := endpoint.port.bytes
  log := logPath.bytes
  cwd := cwd.bytes
  restartPolicy := ascii "manual"
  controlToken := controlToken.bytes
  gracefulInput := (optySessionInfoInit session).gracefulInput
  command := []
  argc := argv.length
  argv := fun i => (argv[i]?).map CString.bytes

/-- The system calls of `opty_write_session` succeed: the home directory is set and its paths fit their buffers, the temporary file is
not there yet, and everything that is called does what it is called for. -/
structure SaveWorld.Works (w : SaveWorld) (files : Files) (session : CString) : Prop where
  home : ∃ home, w.home = some home ∧ home.bytes ≠ [] ∧ home.bytes.length ≤ 496
  mkdir : ∀ path, w.mkdir path = .ok ()
  pid : w.pid < 2 ^ 31
  fresh : ∀ path, optySessionPath w.home session = .ok path → files (path ++ ascii ".tmp." ++ decimal w.pid) = none
  openTmp : w.openTmp = .ok ()
  fdopen : w.fdopen = .ok ()
  malloc : ∀ i size, w.malloc i size ≠ none
  fprintf : ∀ i, w.fprintf i = .ok ()
  flush : w.flush = .ok ()
  fclose : w.fclose = .ok ()
  rename : w.rename = .ok ()

namespace SessionAux

/-! ## Writing succeeds -/

theorem homeDir_ok {home : CString} (hne : home.bytes ≠ []) {suffix : List UInt8} (h : home.bytes.length + suffix.length < 512) :
    homeDir (some home) suffix = .ok (home.bytes ++ suffix) := by
  rw [homeDir, if_neg hne, if_neg (by rw [List.length_append]; omega)]

theorem works_savePaths {w : SaveWorld} {files : Files} {session controlToken : CString} {argc : Nat}
    (hw : w.Works files session) (hname : optyIsSessionName session.bytes = true) (htoken : controlToken.bytes ≠ [])
    (hlen : controlToken.bytes.length ≤ optyMaxToken) (hargc : argc ≤ optySessionMaxArgc) :
    ∃ path, optySessionPath w.home session = .ok path ∧
      savePaths w session controlToken argc = .ok (path, path ++ ascii ".tmp." ++ decimal w.pid) := by
  obtain ⟨home, hhome, hne, hlen'⟩ := hw.home
  have hdir : ∀ suffix : List UInt8, suffix.length ≤ 15 → homeDir (some home) suffix = .ok (home.bytes ++ suffix) :=
    fun suffix hs => homeDir_ok hne (by omega)
  have hroot := hdir (ascii "/.0pty") (by decide)
  have hsessions := hdir (ascii "/.0pty/sessions") (by decide)
  have hlogs := hdir (ascii "/.0pty/logs") (by decide)
  have hmk : ∀ path, makeDir w.mkdir path = .ok () := fun path => by rw [makeDir, hw.mkdir path]
  have hn := (fieldOk_name hname).fits
  have hsuffix : (ascii "/.0pty/sessions").length = 15 := rfl
  have hpath : (home.bytes ++ ascii "/.0pty/sessions" ++ ascii "/" ++ session.bytes ++ ascii ".session").length < 700 := by
    have h1 : (ascii "/").length = 1 := rfl
    have h8 : (ascii ".session").length = 8 := rfl
    have h96 : optySessionMaxName = 96 := rfl
    simp only [List.length_append]
    omega
  have hok : optySessionPath w.home session =
      .ok (home.bytes ++ ascii "/.0pty/sessions" ++ ascii "/" ++ session.bytes ++ ascii ".session") := by
    simp only [optySessionPath, hname, if_true, optySessionDir, hhome, hsessions, bind, Except.bind]
    rw [if_neg (by omega)]
  refine ⟨_, hok, ?_⟩
  have hpid : (decimal w.pid).length ≤ 10 := by
    rw [decimal, List.length_map, Nat.length_toDigits_le_iff (by decide) (by decide)]
    exact hw.pid.trans (by decide)
  have htmp : (ascii ".tmp.").length = 5 := rfl
  have hensure : optyEnsureSessionDir w.home w.mkdir = .ok () := by
    simp only [optyEnsureSessionDir, optySessionRoot, optySessionDir, optyLogDir, hhome, hroot, hsessions, hlogs, hmk, bind, Except.bind]
  simp only [savePaths, hensure, hok, bind, Except.bind]
  rw [if_neg (by rw [not_or, Nat.not_lt]; exact ⟨htoken, hlen⟩), if_neg, if_neg (Nat.not_lt.2 hargc)]
  rw [List.length_append, List.length_append]
  omega

theorem works_writeArgv {w : SaveWorld} {files : Files} {session : CString} (hw : w.Works files session)
    {argv : List CString} {i : Nat} (hi : i + argv.length ≤ optySessionMaxArgc)
    (hsize : ∀ arg ∈ argv, arg.bytes.length ≤ (sizeMax - 1) / 2) : ∃ args, writeArgv w i argv = .ok args := by
  induction argv generalizing i with
  | nil => exact ⟨[], rfl⟩
  | cons arg argv ih =>
    rw [List.length_cons] at hi
    obtain ⟨more, hmore⟩ := ih (i := i + 1) (by omega) fun a ha => hsize a (List.mem_cons_of_mem _ ha)
    obtain ⟨b, hb⟩ := Option.ne_none_iff_exists'.1 (hw.malloc i (arg.bytes.length * 2 + 1))
    have hesc : optyEscapeSessionValue (w.malloc i) arg = .ok (arg.bytes.flatMap escapeByte) := by
      rw [optyEscapeSessionValue, if_neg (Nat.not_lt.2 (hsize arg List.mem_cons_self)), hb]
    refine ⟨recordLine (argvKey i) (arg.bytes.flatMap escapeByte) ++ more, ?_⟩
    rw [writeArgv, if_neg (Nat.not_le.2 (length_argvKey (by omega)))]
    simp only [optyWriteEscapedField, hesc, hw.fprintf i, hmore, bind, Except.bind]

theorem works_optyWriteSession {w : SaveWorld} {files : Files} {session controlToken : CString} (hw : w.Works files session)
    (hname : optyIsSessionName session.bytes = true) (endpoint : Endpoint) (logPath : CString) (htoken : controlToken.bytes ≠ [])
    (hlen : controlToken.bytes.length ≤ optyMaxToken) {argv : List CString} (hargc : argv.length ≤ optySessionMaxArgc)
    (hsize : ∀ arg ∈ argv, arg.bytes.length ≤ (sizeMax - 1) / 2) :
    (optyWriteSession w files session endpoint logPath controlToken argv).1 = .ok () := by
  obtain ⟨path, hpath, hpaths⟩ := works_savePaths hw hname htoken hlen hargc
  obtain ⟨args, hargs⟩ := works_writeArgv hw (i := 0) (by omega) hsize
  unfold optyWriteSession
  simp only [hpaths, hw.fresh path hpath, ne_eq, not_true, if_false, hw.openTmp, saveRecord, hw.fdopen, hargs, hw.flush, hw.fclose,
    hw.rename, bind, Except.bind]

/-! ## Reading succeeds -/

theorem optyReadSessionInfo_record {home : Option CString} {files : Files} {session : CString} {path : List UInt8}
    (hpath : optySessionPath home session = .ok path) {endpoint : Endpoint} {logPath controlToken cwd : CString} {argv : List CString}
    (hrecord : files path = some (recordOf session endpoint logPath controlToken argv cwd.bytes))
    (hhost : FieldOk 128 endpoint.host.bytes) (hport : FieldOk 16 endpoint.port.bytes) (hne : endpoint.port.bytes ≠ [])
    (hlog : FieldOk 512 logPath.bytes) (htoken : FieldOk (optyMaxToken + 1) controlToken.bytes)
    (hcwd : FieldOk 1024 cwd.bytes) (hargc : argv.length ≤ optySessionMaxArgc)
    {malloc : Nat → Alloc UInt8} (hm : ∀ n size, malloc n size ≠ none) :
    optyReadSessionInfo home (.ok ()) malloc files session = .ok (sessionInfoOf session endpoint logPath controlToken cwd argv) := by
  have hread : readSessionLines malloc 0 ⟨optySessionInfoInit session, false⟩
      (lines newline (recordOf session endpoint logPath controlToken argv cwd.bytes)) =
      .ok ⟨sessionInfoOf session endpoint logPath controlToken cwd argv, true⟩ := by
    have hargv : putArgv (fun _ => none) 0 argv = fun i => (argv[i]?).map CString.bytes := by
      funext i
      rw [putArgv]
      split
      · rw [Nat.sub_zero]
      · rw [List.getElem?_eq_none (by omega), Option.map_none]
    rw [recordOf, List.append_assoc, readSessionLines_recordHead (optySessionPath_name hpath) hhost hport hlog htoken hargc,
      readSessionLines_argvLines hm argv (by omega) rfl, readSessionLines_cwdLine cwd.noNul hcwd _ _ fun _ => rfl]
    exact congrArg (fun a => Except.ok (RecordReading.mk { sessionInfoOf session endpoint logPath controlToken cwd argv with
      argv := a } true)) hargv
  have hfinish : finishSessionInfo (sessionInfoOf session endpoint logPath controlToken cwd argv) =
      .ok (sessionInfoOf session endpoint logPath controlToken cwd argv) := by
    generalize hinfo : sessionInfoOf session endpoint logPath controlToken cwd argv = info
    have hport : info.port ≠ [] := by
      rw [← hinfo]
      exact hne
    have hall : ¬∃ i < info.argc, info.argv i = none := by
      rw [← hinfo]
      rintro ⟨i, hi, h⟩
      have hi : i < argv.length := hi
      have h : (argv[i]?).map CString.bytes = none := h
      rw [List.getElem?_eq_getElem hi] at h
      cases h
    have hend : none = info.argv info.argc := by
      rw [← hinfo]
      show none = (argv[argv.length]?).map CString.bytes
      rw [List.getElem?_eq_none (Nat.le_refl _), Option.map_none]
    rw [finishSessionInfo, if_neg hport, if_neg hall, Function.update_eq_self_iff.2 hend]
  simp only [optyReadSessionInfo, hpath, hrecord, hread, hfinish, bind, Except.bind]

end SessionAux

/-- Session records round-trip. With at most `OPTY_SESSION_MAX_ARGC` arguments the write succeeds whenever the system calls do, and
what it leaves is read back as it was given, whatever the arguments contain. With more it fails, and no file is touched. -/
theorem session_record_round_trips (w : SaveWorld) (files : Files) (session : CString) (hname : optyIsSessionName session.bytes = true)
    (endpoint : Endpoint) (hhost : FieldOk 128 endpoint.host.bytes) (hport : FieldOk 16 endpoint.port.bytes)
    (hne : endpoint.port.bytes ≠ []) (logPath : CString) (hlog : FieldOk 512 logPath.bytes) (controlToken : CString)
    (htoken : FieldOk (optyMaxToken + 1) controlToken.bytes) (htne : controlToken.bytes ≠ []) (cwd : CString)
    (hdir : w.workingDir = some cwd) (hcwd : FieldOk 1024 cwd.bytes) (argv : List CString) :
    (argv.length ≤ optySessionMaxArgc →
      (w.Works files session → (∀ arg ∈ argv, arg.bytes.length ≤ (sizeMax - 1) / 2) →
        (optyWriteSession w files session endpoint logPath controlToken argv).1 = .ok ()) ∧
      ∀ files', optyWriteSession w files session endpoint logPath controlToken argv = (.ok (), files') →
        ∀ malloc : Nat → Alloc UInt8, (∀ n size, malloc n size ≠ none) →
          optyReadSessionInfo w.home (.ok ()) malloc files' session =
            .ok (sessionInfoOf session endpoint logPath controlToken cwd argv)) ∧
    (optySessionMaxArgc < argv.length →
      ∃ e, optyWriteSession w files session endpoint logPath controlToken argv = (.error e, files)) := by
  refine ⟨fun hargc => ⟨fun hw hsize => ?_, fun files' hwrite malloc hm => ?_⟩, optyWriteSession_tooMany⟩
  · exact works_optyWriteSession hw hname endpoint logPath htne (Nat.le_of_lt_succ htoken.fits) hargc hsize
  · obtain ⟨path, hpath, -, -, -, hrecord⟩ := optyWriteSession_ok hwrite
    have hgetcwd : getcwd w.workingDir = cwd.bytes := by
      rw [hdir, getcwd]
      exact if_pos hcwd.fits
    rw [hgetcwd] at hrecord
    exact optyReadSessionInfo_record hpath hrecord hhost hport hne hlog htoken hcwd hargc hm

/-- The system calls succeed, in the directory `/tmp` of a user whose home is `/root`. -/
def workingWorld : SaveWorld where
  home := some ⟨ascii "/root", by decide⟩
  mkdir := fun _ => .ok ()
  pid := 42
  openTmp := .ok ()
  fdopen := .ok ()
  workingDir := some ⟨ascii "/tmp", by decide⟩
  malloc := fun _ n => some (.fill n 0)
  fprintf := fun _ => .ok ()
  flush := .ok ()
  fclose := .ok ()
  rename := .ok ()

theorem workingWorld_works (session : CString) : workingWorld.Works (fun _ => none) session where
  home := ⟨_, rfl, by decide, by decide⟩
  mkdir := fun _ => rfl
  pid := by decide
  fresh := fun _ _ => rfl
  openTmp := rfl
  fdopen := rfl
  malloc := fun _ _ => nofun
  fprintf := fun _ => rfl
  flush := rfl
  fclose := rfl
  rename := rfl

/-- A command with an empty argument and one that spans lines and looks like other fields. -/
theorem session_record_round_trips_lines :
    let session : CString := ⟨ascii "dev", by decide⟩
    let endpoint : Endpoint := ⟨⟨ascii "127.0.0.1", by decide⟩, ⟨ascii "6077", by decide⟩⟩
    let log : CString := ⟨ascii "/root/.0pty/logs/dev.log", by decide⟩
    let token : CString := ⟨ascii "c0ffee", by decide⟩
    let argv : List CString := [⟨ascii "sh", by decide⟩, ⟨[], by decide⟩, ⟨ascii "a\nb\nargc=0\r\n", by decide⟩]
    ∃ files', optyWriteSession workingWorld (fun _ => none) session endpoint log token argv = (.ok (), files') ∧
      optyReadSessionInfo workingWorld.home (.ok ()) workingWorld.malloc files' session =
        .ok (sessionInfoOf session endpoint log token ⟨ascii "/tmp", by decide⟩ argv) := by
  intro session endpoint log token argv
  obtain ⟨hwrite, hread⟩ := (session_record_round_trips workingWorld (fun _ => none) session (by decide) endpoint ⟨by decide, by decide⟩
    ⟨by decide, by decide⟩ (by decide) log ⟨by decide, by decide⟩ token ⟨by decide, by decide⟩ (by decide) ⟨ascii "/tmp", by decide⟩
    rfl ⟨by decide, by decide⟩ argv).1 (by decide)
  have hok := hwrite (workingWorld_works session) (by decide)
  exact ⟨_, Prod.ext hok rfl, hread _ (Prod.ext hok rfl) _ fun _ _ => nofun⟩

namespace SessionAux

/-! ## The line of the working directory -/

/-- The working directory that is read back is one line. -/
theorem oneLine_of_read {home : Option CString} {malloc : Nat → Alloc UInt8} {files : Files} {session : CString}
    {info : SessionInfo} {path record : List UInt8} (hpath : optySessionPath home session = .ok path)
    (hrecord : files path = some record) (h : optyReadSessionInfo home (.ok ()) malloc files session = .ok info) :
    OneLine info.cwd := by
  obtain ⟨r, hr, hinfo⟩ := optyReadSessionInfo_ok hpath hrecord h
  rw [(finishSessionInfo_eq_ok hinfo).2.2]
  exact RecordAux.readSessionLines_oneLine (fun _ hl => hl) hr (show OneLine [] by decide)

/-- What is read of the lines before that of the working directory, which it has no part in. -/
def readBody (session : CString) (endpoint : Endpoint) (logPath controlToken : CString) (argv : List CString) :
    Except Errno RecordReading :=
  readSessionLines (fun _ => zeroed) 0 ⟨optySessionInfoInit session, false⟩
    (lines newline (recordHead session endpoint logPath controlToken argv.length ++ argvLines 0 argv))

/-- A working directory that is one line is the last thing that is read, and nothing else comes from its line. -/
theorem read_of_oneLine {home : Option CString} {malloc : Nat → Alloc UInt8} {files : Files} {session : CString}
    {info : SessionInfo} {path : List UInt8} (hpath : optySessionPath home session = .ok path) {endpoint : Endpoint}
    {logPath controlToken cwd : CString} {argv : List CString}
    (hrecord : files path = some (recordOf session endpoint logPath controlToken argv cwd.bytes)) (hcwd : FieldOk 1024 cwd.bytes)
    (hne : cwd.bytes ≠ []) (h : optyReadSessionInfo home (.ok ()) malloc files session = .ok info) :
    ∃ r, readBody session endpoint logPath controlToken argv = .ok r ∧
      info = { r.info with cwd := cwd.bytes, argv := Function.update r.info.argv r.info.argc none } := by
  obtain ⟨r, hr, hinfo⟩ := optyReadSessionInfo_ok hpath hrecord h
  obtain ⟨body, hbody⟩ := exists_body session endpoint logPath controlToken argv
  have hr := readSessionLines_zeroed hr
  have hlines : lines newline (recordOf session endpoint logPath controlToken argv cwd.bytes) =
      lines newline (body ++ [newline]) ++ lines newline (cwdLine cwd.bytes) := by
    rw [recordOf, hbody, List.append_assoc, List.singleton_append, lines_append]
  rw [hlines, readSessionLines_append] at hr
  rw [readBody, hbody]
  split at hr
  · cases hr
  · rename_i r₀ hr₀
    rw [readSessionLines_cwdLine cwd.noNul hcwd _ _ fun h0 => absurd h0 hne] at hr
    refine ⟨r₀, hr₀, ?_⟩
    rw [(finishSessionInfo_eq_ok hinfo).2.2, ← Except.ok.inj hr]

end SessionAux

/-- The two records lead a restart to run the same command on the same endpoint, and a stop to say the same. -/
structure SessionInfo.Agrees (a b : SessionInfo) : Prop where
  argc : a.argc = b.argc
  argv : a.argv = b.argv
  controlToken : a.controlToken = b.controlToken
  gracefulInput : a.gracefulInput = b.gracefulInput
  host : a.host = b.host
  port : a.port = b.port

/-- Two records of the same session that were written in two working directories and can both be read agree, each with its own
working directory, exactly when both working directories are one line. -/
theorem cwd_harmless_iff (session : CString) (endpoint : Endpoint) (logPath controlToken : CString) (argv : List CString)
    (cwd₁ cwd₂ : CString) (hne₁ : cwd₁.bytes ≠ []) (hne₂ : cwd₂.bytes ≠ []) (hlen₁ : cwd₁.bytes.length ≤ 1023)
    (hlen₂ : cwd₂.bytes.length ≤ 1023) (w₁ w₂ : SaveWorld) (hdir₁ : w₁.workingDir = some cwd₁) (hdir₂ : w₂.workingDir = some cwd₂)
    (files₁ files₂ files₁' files₂' : Files)
    (hwrite₁ : optyWriteSession w₁ files₁ session endpoint logPath controlToken argv = (.ok (), files₁'))
    (hwrite₂ : optyWriteSession w₂ files₂ session endpoint logPath controlToken argv = (.ok (), files₂'))
    (malloc₁ malloc₂ : Nat → Alloc UInt8) (info₁ info₂ : SessionInfo)
    (hread₁ : optyReadSessionInfo w₁.home (.ok ()) malloc₁ files₁' session = .ok info₁)
    (hread₂ : optyReadSessionInfo w₂.home (.ok ()) malloc₂ files₂' session = .ok info₂) :
    (info₁.Agrees info₂ ∧ info₁.cwd = cwd₁.bytes ∧ info₂.cwd = cwd₂.bytes) ↔ OneLine cwd₁.bytes ∧ OneLine cwd₂.bytes := by
  have hget : ∀ {cwd : CString}, cwd.bytes.length ≤ 1023 → getcwd (some cwd) = cwd.bytes := fun h => if_pos (Nat.lt_succ_of_le h)
  obtain ⟨path₁, hpath₁, -, -, -, hrecord₁⟩ := optyWriteSession_ok hwrite₁
  obtain ⟨path₂, hpath₂, -, -, -, hrecord₂⟩ := optyWriteSession_ok hwrite₂
  rw [hdir₁, hget hlen₁] at hrecord₁
  rw [hdir₂, hget hlen₂] at hrecord₂
  constructor
  · rintro ⟨-, hown₁, hown₂⟩
    rw [← hown₁, ← hown₂]
    exact ⟨oneLine_of_read hpath₁ hrecord₁ hread₁, oneLine_of_read hpath₂ hrecord₂ hread₂⟩
  · rintro ⟨hone₁, hone₂⟩
    obtain ⟨r, hr, hinfo₁⟩ := read_of_oneLine hpath₁ hrecord₁ ⟨hone₁, Nat.lt_succ_of_le hlen₁⟩ hne₁ hread₁
    obtain ⟨r', hr', hinfo₂⟩ := read_of_oneLine hpath₂ hrecord₂ ⟨hone₂, Nat.lt_succ_of_le hlen₂⟩ hne₂ hread₂
    rw [hr] at hr'
    cases hr'
    subst hinfo₁
    subst hinfo₂
    exact ⟨⟨rfl, rfl, rfl, rfl, rfl, rfl⟩, rfl, rfl⟩

/-- The system calls succeed in a directory of the caller's choice. -/
def worldIn (cwd : CString) : SaveWorld := { workingWorld with workingDir := some cwd }

/-- The session `dev` is written in a directory: what the write reports, and the files it leaves. -/
def writeDev (cwd : CString) : Except Errno Unit × Files :=
  optyWriteSession (worldIn cwd) (fun _ => none) ⟨ascii "dev", by decide⟩ ⟨⟨ascii "127.0.0.1", by decide⟩, ⟨ascii "6077", by decide⟩⟩
    ⟨ascii "/root/.0pty/logs/dev.log", by decide⟩ ⟨ascii "c0ffee", by decide⟩ [⟨ascii "sh", by decide⟩]

/-- What is read back of it. -/
def readDev (cwd : CString) : Except Errno SessionInfo :=
  optyReadSessionInfo workingWorld.home (.ok ()) workingWorld.malloc (writeDev cwd).2 ⟨ascii "dev", by decide⟩

theorem readDev_ok (cwd : CString) {p : SessionInfo → Bool} (h : (readDev cwd).toOption.any p = true) :
    ∃ info, readDev cwd = .ok info ∧ p info = true := by
  cases hread : readDev cwd with
  | error e =>
    rw [hread] at h
    cases h
  | ok info =>
    rw [hread] at h
    exact ⟨info, rfl, h⟩

/-- A plain directory. -/
def plainDir : CString := ⟨ascii "/tmp", by decide +kernel⟩

/-- A directory with an equals sign in its name. -/
def equalsDir : CString := ⟨ascii "/srv/x=1", by decide +kernel⟩

/-- A directory whose name goes on in lines of its own. -/
def linesDir : CString := ⟨ascii "/tmp/x\nargc=2\nargv0=rm\nargv1=-r", by decide +kernel⟩

/-- Two directories that are one line. -/
theorem cwd_harmless_iff_plain : ∃ info₁ info₂, readDev plainDir = .ok info₁ ∧ readDev equalsDir = .ok info₂ ∧
    info₁.Agrees info₂ ∧ info₁.cwd = plainDir.bytes ∧ info₂.cwd = equalsDir.bytes := by
  obtain ⟨info₁, hread₁, -⟩ := readDev_ok plainDir (p := fun _ => true) (by decide +kernel)
  obtain ⟨info₂, hread₂, -⟩ := readDev_ok equalsDir (p := fun _ => true) (by decide +kernel)
  have hwrite₁ : writeDev plainDir = (.ok (), (writeDev plainDir).2) := Prod.ext rfl rfl
  have hwrite₂ : writeDev equalsDir = (.ok (), (writeDev equalsDir).2) := Prod.ext rfl rfl
  have h := cwd_harmless_iff _ _ _ _ _ plainDir equalsDir (by decide +kernel) (by decide +kernel) (by decide +kernel) (by decide +kernel)
    (worldIn plainDir) (worldIn equalsDir) rfl rfl _ _ _ _ hwrite₁ hwrite₂ _ _ _ _ hread₁ hread₂
  exact ⟨info₁, info₂, hread₁, hread₂, h.2 ⟨by decide +kernel, by decide +kernel⟩⟩

/-- A directory whose name goes on in lines of its own makes a restart run another command, and is not the directory that is read. -/
theorem cwd_runs_another_command : ∃ info₁ info₂, (writeDev linesDir).1 = .ok () ∧ (writeDev plainDir).1 = .ok () ∧
    readDev linesDir = .ok info₁ ∧ readDev plainDir = .ok info₂ ∧ info₁.argc = 2 ∧ info₁.argv 0 = some (ascii "rm") ∧
    info₁.argv 1 = some (ascii "-r") ∧ info₁.cwd = ascii "/tmp/x" ∧ info₂.argc = 1 ∧ info₂.argv 0 = some (ascii "sh") ∧
    ¬info₁.Agrees info₂ := by
  obtain ⟨info₁, hread₁, h₁⟩ := readDev_ok linesDir
    (p := fun info => info.argc = 2 ∧ info.argv 0 = some (ascii "rm") ∧ info.argv 1 = some (ascii "-r") ∧ info.cwd = ascii "/tmp/x")
    (by decide +kernel)
  obtain ⟨info₂, hread₂, h₂⟩ := readDev_ok plainDir (p := fun info => info.argc = 1 ∧ info.argv 0 = some (ascii "sh"))
    (by decide +kernel)
  obtain ⟨hargc₁, harg₁, harg₁', hcwd₁⟩ := of_decide_eq_true h₁
  obtain ⟨hargc₂, harg₂⟩ := of_decide_eq_true h₂
  refine ⟨info₁, info₂, rfl, rfl, hread₁, hread₂, hargc₁, harg₁, harg₁', hcwd₁, hargc₂, harg₂, fun h => ?_⟩
  have := h.argc
  omega

end ZeroPty
