import ZeroPty.Launch
import ZeroPty.Stop
import ZeroPty.Theorems.Connect
import ZeroPty.Theorems.Endpoint
import ZeroPty.Theorems.Messages
import ZeroPty.Theorems.RecordMemory
import ZeroPty.Theorems.Session
import ZeroPty.Theorems.Store

/-!
# From a command to the server it starts, and back

What `run_named_start` asks for goes to the server through a command line and an environment variable, to `run_named_restart` through a
record, and to `run_named_stop` through the same record and a frame. The server that is started binds the endpoint that the client
connects to and runs the command that the client was given; a restart starts it again as it was; and a stop is what it listens to.
-/

namespace ZeroPty

open Memory Text Getopt Stream

/-- The calls of a spawn succeed. -/
structure SpawnWorld.Works (w : SpawnWorld) : Prop where
  mallocPath : ∀ n, w.mallocPath n ≠ none
  calloc : w.calloc = true
  fork : w.fork = .ok ()
  child : w.child = .ok ()

namespace LaunchAux

open SessionAux EndpointAux ConnectAux

/-! ## The command line of the server -/

theorem ofText_of_le {text : CString} (h : text.bytes.length ≤ optyMaxToken) : ∃ t, Secret.ofText text = some t ∧ t.text = text := by
  rw [Secret.ofText, dif_pos h]
  exact ⟨_, rfl, rfl⟩

/-- The options that `opty_spawn_server` writes, and whatever command comes after them. -/
theorem getopt_spawned (posixlyCorrect : Bool) (arg : Word) (words : List Word) :
    getopt serverSpec posixlyCorrect (ascii "-b" :: arg :: ascii "--" :: words) = ([(.bind, some arg)], some words) := by
  have hbind : serverSpec.short 98 = some (.bind, true) := rfl
  have h := @getopt_separate _ _ posixlyCorrect _ _ hbind (by decide) arg (dashes :: words)
  rw [getopt_dashes] at h
  exact h

/-- What `main` of the server makes of that command line. -/
theorem serverMain_spawned {env : ServerEnv} (hhost : ∀ n, env.mallocHost n ≠ none) (hport : ∀ n, env.mallocPort n ≠ none)
    {endpoint : EndpointText} (hh : endpoint.host ≠ []) (hp : endpoint.port ≠ []) (hcolon : colon ∉ endpoint.host)
    (hopen : endpoint.host.head? ≠ some openBracket) (hcolon' : colon ∉ endpoint.port) {t : Secret}
    (htoken : serverControlToken env .default = .ok (some t)) (words : List Word) :
    serverMain env (ascii "-b" :: (endpoint.host ++ colon :: endpoint.port) :: ascii "--" :: words) =
      .ok ⟨endpoint, optyDefaultRingSize, ⟨none, some t⟩, serverChildArgv env words⟩ := by
  have hparse : optyParseEndpoint env.mallocHost env.mallocPort (some (endpoint.host ++ colon :: endpoint.port)) optyDefaultHost
      optyDefaultPort ServerOptions.default.bind = (.ok (), endpoint) :=
    optyParseEndpoint_ok_iff.2 (parseEndpoint_colon hhost hport hh hp hcolon hopen hcolon')
  have hoption : serverOption env .default (.bind, some (endpoint.host ++ colon :: endpoint.port)) =
      .ok { ServerOptions.default with bind := endpoint } := by
    simp only [serverOption, hparse]
  have htoken' : serverControlToken env { ServerOptions.default with bind := endpoint } = .ok (some t) := htoken
  simp only [serverMain, getopt_spawned, List.foldlM_cons, List.foldlM_nil, hoption, htoken', bind, Except.bind, pure, Except.pure]
  rfl

/-- What is run for a command: a `--` before it is dropped, and for no command there is the shell. -/
theorem serverChildArgv_cases (env : ServerEnv) (words : List Word) :
    (∀ c rest, words = c :: rest → c ≠ dashes → serverChildArgv env words = words) ∧
    (∀ c rest, words = dashes :: c :: rest → serverChildArgv env words = c :: rest) ∧
    (words = [] ∨ words = [dashes] → ∃ shell, shell ≠ [] ∧ serverChildArgv env words = [shell]) := by
  refine ⟨?_, ?_, ?_⟩
  · rintro c rest rfl hc
    simp [serverChildArgv, hc]
  · rintro c rest rfl
    simp [serverChildArgv]
  · have hshell : ∀ ws : List Word, (if ws.head? = some dashes then ws.tail else ws) = [] →
        ∃ shell, shell ≠ [] ∧ serverChildArgv env ws = [shell] := by
      intro ws hws
      simp only [serverChildArgv, hws]
      rw [if_neg (fun h => h rfl)]
      split
      · exact ⟨_, by decide, rfl⟩
      · rename_i shell _
        split
        · exact ⟨_, by decide, rfl⟩
        · rename_i hne
          exact ⟨_, hne, rfl⟩
    rintro (rfl | rfl)
    · exact hshell [] rfl
    · exact hshell [dashes] rfl

/-! ## The spawn -/

theorem argvWords_append (words : List Word) (rest : List (Option Word)) :
    argvWords (words.map some ++ none :: rest) = words := by
  induction words with
  | nil => rfl
  | cons w words ih => rw [List.map_cons, List.cons_append, argvWords, ih]

theorem commandCount_cells (words : List Word) (rest : List (Option Word)) :
    InMemory.commandCount (words.map some ++ none :: rest) = some words.length := by
  induction words with
  | nil => rfl
  | cons w words ih => rw [List.map_cons, List.cons_append, InMemory.commandCount, ih, Option.map_some, List.length_cons]

/-- The command line that the server is executed with. -/
theorem argvWords_execArgv (path arg : List UInt8) (words : List Word) (rest : List (Option Word)) :
    (InMemory.execArgv path arg (words.map some ++ none :: rest)).map argvWords =
      some (path :: ascii "-b" :: arg :: ascii "--" :: words) := by
  rw [InMemory.execArgv, commandCount_cells, Option.map_some, Option.map_some, List.take_left' (List.length_map _)]
  have h := argvWords_append (path :: ascii "-b" :: arg :: ascii "--" :: words) [none]
  rw [List.map_cons, List.map_cons, List.map_cons, List.map_cons] at h
  exact congrArg some h

/-- What a server is executed with. -/
def spawned (w : SpawnWorld) (path cwd : List UInt8) (endpoint : EndpointText) (logPath : List UInt8) (controlToken : Option CString)
    (words : List Word) : Launch where
  path := path
  argv := path :: ascii "-b" :: (endpoint.host ++ colon :: endpoint.port) :: ascii "--" :: words
  controlToken := w.tokenFor controlToken
  cwd := cwd
  log := logPath

/-- A spawn that comes to the `exec`. -/
theorem optySpawnServer_ok {w : SpawnWorld} {argv0 cwd : List UInt8} {endpoint : EndpointText} {logPath : List UInt8}
    {controlToken : Option CString} {words : List Word} {rest : List (Option Word)} {server : Launch}
    (h : optySpawnServer w argv0 cwd endpoint logPath controlToken (words.map some ++ none :: rest) = some (.ok server)) :
    ∃ path, endpointArg endpoint = .ok (endpoint.host ++ colon :: endpoint.port) ∧ optyServerPath w.mallocPath argv0 = .ok path ∧
      server = spawned w path cwd endpoint logPath controlToken words := by
  unfold optySpawnServer at h
  split at h
  · cases h
  · rename_i arg harg
    split at h
    · cases h
    · rename_i path hpath
      have hwords := argvWords_execArgv path arg words rest
      cases hexec : InMemory.execArgv path arg (words.map some ++ none :: rest) with
      | none =>
        rw [hexec] at h
        cases h
      | some cells =>
        rw [hexec, Option.map_some, Option.some.injEq] at h
        rw [hexec, Option.map_some, Option.some.injEq] at hwords
        have harg' : arg = endpoint.host ++ colon :: endpoint.port := by
          rw [endpointArg] at harg
          split at harg
          · cases harg
          · exact (Except.ok.inj harg).symm
        split at h
        · cases h
        · cases hfork : w.fork with
          | error e =>
            rw [hfork] at h
            cases h
          | ok u =>
            cases hchild : w.child with
            | error e =>
              rw [hfork, hchild] at h
              cases h
            | ok u' =>
              rw [hfork, hchild] at h
              cases h
              refine ⟨path, by rw [harg, harg'], hpath, ?_⟩
              rw [hwords, harg']
              rfl

/-! ## The new session -/

theorem ofBytes_eq {l : List UInt8} (h : (0 : UInt8) ∉ l) : (CString.ofBytes l).bytes = l := by
  have := congrArg CString.bytes (ofBytes_bytes ⟨l, h⟩)
  exact this

/-- What `run_named_start` chooses for a new session. -/
theorem startSession_ok {w : StartWorld} {session : CString} {endpoint : Endpoint} {logPath controlToken : CString}
    (h : startSession w session = .ok (endpoint, logPath, controlToken)) :
    ∃ port log random, optyPickSessionEndpoint w.bindable = some port ∧ optySessionLogPath w.save.home session = .ok log ∧
      w.urandom = .ok random ∧ endpoint = ⟨.ofBytes optyDefaultHost, .ofBytes (decimal port)⟩ ∧ logPath = .ofBytes log ∧
      controlToken = optyGenerateControlToken random := by
  unfold startSession at h
  split at h
  · cases h
  · rename_i port hport
    cases hlog : optySessionLogPath w.save.home session with
    | error e =>
      rw [hlog] at h
      cases h
    | ok log =>
      cases hrandom : w.urandom with
      | error e =>
        rw [hlog, hrandom] at h
        cases h
      | ok random =>
        rw [hlog, hrandom] at h
        cases h
        exact ⟨port, log, random, hport, rfl, rfl, rfl, rfl, rfl⟩

/-- The port that is picked can be bound. -/
theorem optyPickSessionEndpoint_ok {bindable : Nat → Bool} {port : Nat} (h : optyPickSessionEndpoint bindable = some port) :
    optySessionPortBase ≤ port ∧ port ≤ 65535 ∧ bindable port = true := by
  have hmem := List.mem_of_find?_eq_some h
  rw [List.mem_range'_1] at hmem
  have hbase : optySessionPortBase = 6077 := rfl
  exact ⟨hmem.1, by omega, List.find?_some h⟩

/-- What a start that spawns a server does: it writes a record of a new session, and spawns the server of that session. -/
theorem runNamedStart_launches {w : StartWorld} {argv0 : List UInt8} {session : CString} {argv : List CString}
    {text : EndpointText} {server : Launch} {files : Files}
    (h : runNamedStart w argv0 session argv = some (.launches text server, files)) :
    ∃ endpoint logPath controlToken, startSession w session = .ok (endpoint, logPath, controlToken) ∧
      optyWriteSession w.save w.files session endpoint logPath controlToken argv = (.ok (), files) ∧
      text = ⟨endpoint.host.bytes, endpoint.port.bytes⟩ ∧
      optySpawnServer w.spawn argv0 w.cwd.bytes text logPath.bytes (some controlToken) (argvCells argv) = some (.ok server) := by
  unfold runNamedStart at h
  split at h
  · cases h
  · split at h
    · cases h
    · split at h
      · cases h
      · rename_i endpoint logPath controlToken hsession
        split at h
        · cases h
        · rename_i files' hwrite
          simp only at h
          obtain ⟨r, hr, hres⟩ := Option.map_eq_some_iff.1 h
          split at hres
          · cases hres
          · cases hres
            exact ⟨endpoint, logPath, controlToken, hsession, hwrite, rfl, hr⟩

theorem argvCells_eq (argv : List CString) : argvCells argv = (argv.map CString.bytes).map some ++ none :: [] := by
  rw [argvCells, List.map_map]
  rfl

theorem token_ne_nil (random : Block UInt8 optyControlTokenBytes) : (optyGenerateControlToken random).bytes ≠ [] := by
  intro h
  have hlen := congrArg List.length h
  unfold optyGenerateControlToken at hlen
  rw [StoreAux.length_flatMap_hex, random.length_eq] at hlen
  cases hlen

/-- The server stands in the directory of the client, or both are found by name. -/
theorem optyServerPath_ok {malloc : Alloc UInt8} {argv0 path : List UInt8} (h : optyServerPath malloc argv0 = .ok path) :
    (slash ∉ argv0 → path = ascii "0pty-server") ∧
    ∀ dir name, slash ∉ name → argv0 = dir ++ slash :: name → path = dir ++ slash :: ascii "0pty-server" := by
  have hdrop : ∀ dir name : List UInt8, slash ∉ name → (dir ++ slash :: name).rdropWhile (· ≠ slash) = dir ++ [slash] := by
    intro dir name hname
    induction name using List.reverseRecOn with
    | nil => exact List.rdropWhile_concat_neg _ _ _ (by simp)
    | append_singleton name b ih =>
      rw [List.mem_append, not_or, List.mem_singleton] at hname
      rw [← List.cons_append, ← List.append_assoc, List.rdropWhile_concat_pos _ _ _ (by simpa using Ne.symm hname.2)]
      exact ih hname.1
  unfold optyServerPath at h
  refine ⟨fun hno => ?_, ?_⟩
  · have hnil : argv0.rdropWhile (· ≠ slash) = [] := by
      rw [List.rdropWhile_eq_nil_iff]
      intro b hb
      rw [decide_eq_true_iff]
      rintro rfl
      exact hno hb
    simp only [hnil, if_true, optyStrdup] at h
    split at h
    · cases h
    · exact (Except.ok.inj h).symm
  · rintro dir name hname rfl
    have hne : dir ++ [slash] ≠ [] := List.append_ne_nil_of_right_ne_nil _ (List.cons_ne_nil _ _)
    simp only [hdrop dir name hname, hne, if_false] at h
    split at h
    · cases h
    · rw [← Except.ok.inj h, List.append_assoc]
      rfl

/-- Where the server is found does not depend on the memory there is. -/
theorem optyServerPath_again {malloc malloc' : Alloc UInt8} {argv0 path : List UInt8} (h : optyServerPath malloc argv0 = .ok path)
    (hm : ∀ n, malloc' n ≠ none) : optyServerPath malloc' argv0 = .ok path := by
  unfold optyServerPath optyStrdup at h ⊢
  simp only at h ⊢
  split at h
  · rename_i hdir
    rw [if_pos hdir]
    cases hblock : malloc' ((ascii "0pty-server").length + 1) with
    | none => exact absurd hblock (hm _)
    | some block =>
      split at h
      · cases h
      · exact h
  · rename_i hdir
    rw [if_neg hdir]
    cases hblock : malloc' ((argv0.rdropWhile (· ≠ slash)).length + 12) with
    | none => exact absurd hblock (hm _)
    | some block =>
      split at h
      · cases h
      · exact h

/-- A spawn whose calls succeed, of a server that was found before. -/
theorem optySpawnServer_works {w : SpawnWorld} (hw : w.Works) {malloc : Alloc UInt8} {argv0 path : List UInt8} {endpoint : EndpointText}
    (harg : endpointArg endpoint = .ok (endpoint.host ++ colon :: endpoint.port)) (hpath : optyServerPath malloc argv0 = .ok path)
    (cwd logPath : List UInt8) (controlToken : Option CString) (words : List Word) (rest : List (Option Word)) :
    optySpawnServer w argv0 cwd endpoint logPath controlToken (words.map some ++ none :: rest) =
      some (.ok (spawned w path cwd endpoint logPath controlToken words)) := by
  have hpath' := optyServerPath_again hpath hw.mallocPath
  have hwords := argvWords_execArgv path (endpoint.host ++ colon :: endpoint.port) words rest
  obtain ⟨cells, hcells, hargv⟩ := Option.map_eq_some_iff.1 hwords
  simp only [optySpawnServer, harg, hpath', hcells, Option.map_some, hw.calloc, hw.fork, hw.child, hargv]
  rfl

/-- With memory for its path, the server is found. -/
theorem optyServerPath_exists {malloc : Alloc UInt8} (hm : ∀ n, malloc n ≠ none) (argv0 : List UInt8) :
    ∃ path, optyServerPath malloc argv0 = .ok path := by
  unfold optyServerPath optyStrdup
  simp only
  split
  · split
    · rename_i h
      exact absurd h (hm _)
    · exact ⟨_, rfl⟩
  · split
    · rename_i h
      exact absurd h (hm _)
    · exact ⟨_, rfl⟩

/-- The texts of the endpoint of a new session. -/
theorem sessionEndpoint_bytes (port : Nat) : (CString.ofBytes optyDefaultHost).bytes = optyDefaultHost ∧
    (CString.ofBytes (decimal port)).bytes = decimal port :=
  ⟨ofBytes_eq (by decide), ofBytes_eq (decimal_noNul port)⟩

/-- A start whose calls succeed comes to a server, when there is no session of this name. -/
theorem runNamedStart_works {w : StartWorld} {session : CString} (hname : optyIsSessionName session.bytes = true)
    (hsave : w.save.Works w.files session) (hnew : ∀ path, optySessionPath w.save.home session = .ok path → w.files path = none)
    (hspawn : w.spawn.Works) {port : Nat} (hport : optyPickSessionEndpoint w.bindable = some port) {log : List UInt8}
    (hlog : optySessionLogPath w.save.home session = .ok log) {random : Block UInt8 optyControlTokenBytes}
    (hrandom : w.urandom = .ok random) {argv : List CString} (hargc : argv.length ≤ optySessionMaxArgc)
    (hsize : ∀ arg ∈ argv, arg.bytes.length ≤ (sizeMax - 1) / 2) (argv0 : List UInt8) :
    ∃ endpoint server files, runNamedStart w argv0 session argv = some (.launches endpoint server, files) := by
  have hrunning : runningEndpoint w session = none := by
    have htoken : (optyGenerateControlToken random).bytes ≠ [] := token_ne_nil random
    obtain ⟨path, hpath, -⟩ := works_savePaths hsave hname htoken (StoreAux.length_token random) hargc
    have hread : optyReadSessionEndpoint w.save.home w.fopen w.files session 128 16 = .error .enoent := by
      simp only [optyReadSessionEndpoint, hpath, hnew path hpath, bind, Except.bind]
      rfl
    simp only [runningEndpoint, hread]
  have hsession : startSession w session =
      .ok (⟨.ofBytes optyDefaultHost, .ofBytes (decimal port)⟩, .ofBytes log, optyGenerateControlToken random) := by
    simp only [startSession, hport, hlog, hrandom, bind, Except.bind]
  obtain ⟨files, hwrite⟩ : ∃ files, optyWriteSession w.save w.files session ⟨.ofBytes optyDefaultHost, .ofBytes (decimal port)⟩
      (.ofBytes log) (optyGenerateControlToken random) argv = (.ok (), files) :=
    ⟨_, Prod.ext (works_optyWriteSession hsave hname _ _ (token_ne_nil random) (StoreAux.length_token random) hargc hsize) rfl⟩
  obtain ⟨hhost', hport'⟩ := sessionEndpoint_bytes port
  have harg : endpointArg ⟨optyDefaultHost, decimal port⟩ = .ok (optyDefaultHost ++ colon :: decimal port) := by
    have hshort := length_decimal_port (optyPickSessionEndpoint_ok hport).2.1
    have hlen : (optyDefaultHost ++ colon :: decimal port).length = 9 + ((decimal port).length + 1) := List.length_append
    exact if_neg (by simp only [hlen]; omega)
  obtain ⟨path, hpath⟩ := optyServerPath_exists hspawn.mallocPath argv0
  have hspawned := optySpawnServer_works hspawn harg hpath w.cwd.bytes (CString.ofBytes log).bytes
    (some (optyGenerateControlToken random)) (argv.map CString.bytes) []
  rw [← argvCells_eq] at hspawned
  refine ⟨⟨optyDefaultHost, decimal port⟩, spawned w.spawn path w.cwd.bytes ⟨optyDefaultHost, decimal port⟩ (CString.ofBytes log).bytes
    (some (optyGenerateControlToken random)) (argv.map CString.bytes), files, ?_⟩
  simp only [runNamedStart, hname, hrunning, hsession, hwrite, hhost', hport', hspawned, Option.map_some, reduceCtorEq, if_false]

/-- The token in the environment of a server that was spawned with one. -/
theorem serverControlToken_launched {env : ServerEnv} {t : CString} (hctl : env.controlToken = some t) (hne : t.bytes ≠ [])
    (hlen : t.bytes.length ≤ optyMaxToken) : ∃ secret, secret.text = t ∧ serverControlToken env .default = .ok (some secret) := by
  obtain ⟨secret, hof, htext⟩ := ofText_of_le hlen
  refine ⟨secret, htext, ?_⟩
  simp only [serverControlToken, ServerOptions.default, hctl, if_neg hne, hof]

/-- What the server of a new session sets up. -/
theorem serverMain_started {w : SpawnWorld} {path cwd : List UInt8} {port : Nat} {log : List UInt8}
    {random : Block UInt8 optyControlTokenBytes} {words : List Word} {server : Launch}
    (h : server = spawned w path cwd ⟨optyDefaultHost, decimal port⟩ log (some (optyGenerateControlToken random)) words)
    {env : ServerEnv} (hctl : env.controlToken = server.controlToken) (hhost : ∀ n, env.mallocHost n ≠ none)
    (hport : ∀ n, env.mallocPort n ≠ none) :
    ∃ secret, secret.text = optyGenerateControlToken random ∧ serverMain env server.argv.tail =
      .ok ⟨⟨optyDefaultHost, decimal port⟩, optyDefaultRingSize, ⟨none, some secret⟩, serverChildArgv env words⟩ := by
  subst h
  have hne := token_ne_nil random
  have htoken : env.controlToken = some (optyGenerateControlToken random) := hctl.trans (if_neg hne)
  obtain ⟨secret, htext, hsecret⟩ := serverControlToken_launched htoken hne (StoreAux.length_token random)
  have hcolon : colon ∉ decimal port := by
    intro hmem
    cases isDigit_of_mem_decimal hmem
  obtain ⟨hd, hd', hd''⟩ : optyDefaultHost ≠ [] ∧ colon ∉ optyDefaultHost ∧ optyDefaultHost.head? ≠ some openBracket := by decide
  refine ⟨secret, htext, ?_⟩
  exact @serverMain_spawned env hhost hport ⟨optyDefaultHost, decimal port⟩ hd (decimal_ne_nil port) hd' hd'' hcolon secret hsecret _

end LaunchAux

open LaunchAux SessionAux

/-- The command that a client was given is the command that is run: in the same words, except that a `--` before them is dropped, and
with a shell when there are none. -/
structure RunsCommand (words child : List Word) : Prop where
  plain : ∀ c rest, words = c :: rest → c ≠ dashes → child = words
  dashed : ∀ c rest, words = dashes :: c :: rest → child = c :: rest
  shell : words = [] ∨ words = [dashes] → ∃ shell, shell ≠ [] ∧ child = [shell]

/-- What a start asks for is what the server does. Whenever `run_named_start` comes to execute a server, for whatever command and under
whatever environment that server has, `main` of the server accepts its command line, binds the endpoint that the client connects to
next, asks for no attach token, takes the control token that was generated for the session, and runs the command of the client, no word
of which is taken for an option. The two allocations of its endpoint parser are to succeed. -/
theorem start_runs_command (w : StartWorld) (argv0 : List UInt8) (session : CString) (argv : List CString) (endpoint : EndpointText)
    (server : Launch) (files : Files) (h : runNamedStart w argv0 session argv = some (.launches endpoint server, files))
    (env : ServerEnv) (hctl : env.controlToken = server.controlToken) (hhost : ∀ n, env.mallocHost n ≠ none)
    (hport : ∀ n, env.mallocPort n ≠ none) :
    (∃ port, endpoint = ⟨optyDefaultHost, decimal port⟩ ∧ optySessionPortBase ≤ port ∧ port ≤ 65535 ∧ w.bindable port = true) ∧
    server.cwd = w.cwd.bytes ∧ server.argv.head? = some server.path ∧
    (slash ∉ argv0 → server.path = ascii "0pty-server") ∧
    (∀ dir name, slash ∉ name → argv0 = dir ++ slash :: name → server.path = dir ++ slash :: ascii "0pty-server") ∧
    ∃ random secret child, w.urandom = .ok random ∧ secret.text = optyGenerateControlToken random ∧
      serverMain env server.argv.tail = .ok ⟨endpoint, optyDefaultRingSize, ⟨none, some secret⟩, child⟩ ∧
      RunsCommand (argv.map CString.bytes) child := by
  obtain ⟨ep, logPath, controlToken, hsession, -, rfl, hspawn⟩ := runNamedStart_launches h
  obtain ⟨port, log, random, hpick, -, hrandom, rfl, rfl, rfl⟩ := startSession_ok hsession
  obtain ⟨hbase, htop, hbindable⟩ := optyPickSessionEndpoint_ok hpick
  rw [argvCells_eq] at hspawn
  obtain ⟨hhost', hport'⟩ := sessionEndpoint_bytes port
  simp only [hhost', hport'] at hspawn ⊢
  obtain ⟨path, -, hpath, hserver⟩ := optySpawnServer_ok hspawn
  obtain ⟨secret, htext, hmain⟩ := serverMain_started hserver hctl hhost hport
  subst hserver
  obtain ⟨hplain, hdir⟩ := optyServerPath_ok hpath
  refine ⟨⟨port, rfl, hbase, htop, hbindable⟩, rfl, rfl, hplain, hdir, random, secret, serverChildArgv env (argv.map CString.bytes),
    hrandom, htext, hmain, ?_⟩
  · obtain ⟨h1, h2, h3⟩ := serverChildArgv_cases env (argv.map CString.bytes)
    exact ⟨h1, h2, h3⟩

/-- The calls of a start succeed, and no session was started before. -/
def startingWorld : StartWorld where
  save := workingWorld
  spawn := ⟨fun n => some (.fill n 0), true, .ok (), .ok (), none⟩
  cwd := .ofBytes (ascii "/tmp")
  files := fun _ => none
  fopen := .ok ()
  accepts := fun _ => false
  bindable := fun port => port = 6078
  urandom := .ok (.fill _ 171)

theorem startingWorld_launches (argv0 : List UInt8) : ∃ endpoint server files,
    runNamedStart startingWorld argv0 (.ofBytes (ascii "dev")) [.ofBytes (ascii "sh"), .ofBytes (ascii "-c"), .ofBytes (ascii "--")] =
      some (.launches endpoint server, files) := by
  have hlog : optySessionLogPath startingWorld.save.home (.ofBytes (ascii "dev")) = .ok (ascii "/root/.0pty/logs/dev.log") := by
    decide +kernel
  exact runNamedStart_works (by decide) (workingWorld_works _) (fun _ _ => rfl) ⟨fun _ => Option.some_ne_none _, rfl, rfl, rfl⟩
    (show optyPickSessionEndpoint startingWorld.bindable = some 6078 by decide +kernel) hlog rfl (by decide) (by decide +kernel) argv0

/-- A command with words that the server has options for. -/
theorem start_runs_command_options : ∃ endpoint server files setup,
    runNamedStart startingWorld (ascii "bin/0pty") (.ofBytes (ascii "dev"))
      [.ofBytes (ascii "sh"), .ofBytes (ascii "-c"), .ofBytes (ascii "--")] = some (.launches endpoint server, files) ∧
    server.path = ascii "bin/0pty-server" ∧
    serverMain ⟨false, server.controlToken, none, fun n => some (.fill n 0), fun n => some (.fill n 0)⟩ server.argv.tail = .ok setup ∧
    setup.bind = endpoint ∧ setup.childArgv = [ascii "sh", ascii "-c", ascii "--"] := by
  obtain ⟨endpoint, server, files, h⟩ := startingWorld_launches (ascii "bin/0pty")
  obtain ⟨-, -, -, -, hdir, random, secret, child, -, -, hmain, hruns⟩ := start_runs_command startingWorld _ _ _ endpoint server files h
    ⟨false, server.controlToken, none, fun n => some (.fill n 0), fun n => some (.fill n 0)⟩ rfl (fun _ => Option.some_ne_none _)
    (fun _ => Option.some_ne_none _)
  exact ⟨endpoint, server, files, _, h, hdir (ascii "bin") (ascii "0pty") (by decide) (by decide), hmain, rfl,
    hruns.plain (ascii "sh") [ascii "-c", ascii "--"] (by decide) (by decide)⟩

namespace LaunchAux

open ConnectAux

/-! ## The record of the new session -/

theorem optySessionLogPath_eq {home : Option CString} {session : CString} {path : List UInt8}
    (h : optySessionLogPath home session = .ok path) :
    optyIsSessionName session.bytes = true ∧ path.length < 512 ∧
      ∃ dir, optyLogDir home = .ok dir ∧ path = dir ++ ascii "/" ++ session.bytes ++ ascii ".log" := by
  rw [optySessionLogPath] at h
  split at h
  · rename_i hname
    cases hdir : optyLogDir home with
    | error e =>
      rw [hdir] at h
      cases h
    | ok dir =>
      rw [hdir] at h
      simp only [bind, Except.bind] at h
      split at h
      · cases h
      · rename_i hlen
        cases h
        exact ⟨hname, Nat.not_le.1 hlen, dir, rfl, rfl⟩
  · cases h

theorem optyLogDir_eq {home : Option CString} {dir : List UInt8} (h : optyLogDir home = .ok dir) :
    ∃ path, home = some path ∧ dir = path.bytes ++ ascii "/.0pty/logs" := by
  unfold optyLogDir homeDir at h
  split at h
  · cases h
  · rename_i path
    split at h
    · cases h
    · split at h
      · cases h
      · cases h
        exact ⟨path, rfl, rfl⟩

/-- The log of a user whose home directory is one line. -/
theorem fieldOk_logPath {home : Option CString} {session : CString} {path : List UInt8}
    (h : optySessionLogPath home session = .ok path) (hhome : ∀ p, home = some p → newline ∉ p.bytes) :
    FieldOk 512 path ∧ (0 : UInt8) ∉ path ∧ path ≠ [] := by
  obtain ⟨hname, hlen, dir, hdir, rfl⟩ := optySessionLogPath_eq h
  obtain ⟨p, hp, rfl⟩ := optyLogDir_eq hdir
  have hnl := hhome p hp
  have hsession := (fieldOk_name hname).newline
  have hlast : (p.bytes ++ ascii "/.0pty/logs" ++ ascii "/" ++ session.bytes ++ ascii ".log").getLast? = some 103 := by
    rw [List.getLast?_append]
    rfl
  refine ⟨⟨⟨?_, ?_⟩, hlen⟩, ?_, ?_⟩
  · simp only [List.mem_append, not_or]
    exact ⟨⟨⟨⟨hnl, by decide⟩, by decide⟩, hsession⟩, by decide⟩
  · rw [hlast]
    decide
  · simp only [List.mem_append, not_or]
    exact ⟨⟨⟨⟨p.noNul, by decide⟩, by decide⟩, session.noNul⟩, by decide⟩
  · intro hnil
    rw [hnil] at hlast
    cases hlast

theorem fieldOk_token (random : Block UInt8 optyControlTokenBytes) :
    FieldOk (optyMaxToken + 1) (optyGenerateControlToken random).bytes := by
  refine ⟨oneLine_of_forall fun b hb => ?_, Nat.lt_succ_of_le (StoreAux.length_token random)⟩
  have hdigit : ∀ n : UInt8, hexDigit n ≠ newline ∧ hexDigit n ≠ carriageReturn := by
    intro n
    unfold hexDigit
    rw [List.getD_eq_getElem?_getD]
    cases hn : (ascii "0123456789abcdef")[n.toNat]? with
    | none => decide
    | some d =>
      have hd : d ∈ ascii "0123456789abcdef" := List.mem_of_getElem? hn
      refine ⟨?_, ?_⟩ <;> rintro rfl <;> revert hd <;> decide
  obtain ⟨c, -, hc⟩ := List.mem_flatMap.1 hb
  rcases List.mem_pair.1 hc with rfl | rfl
  · exact hdigit _
  · exact hdigit _

theorem fieldOk_port {port : Nat} (h : port ≤ 65535) : FieldOk 16 (decimal port) :=
  ⟨oneLine_decimal port, Nat.lt_of_le_of_lt (EndpointAux.length_decimal_port h) (by decide)⟩

theorem length_getcwd (workingDir : Option CString) : (getcwd workingDir).length < 1024 := by
  unfold getcwd
  split
  · decide
  · split
    · assumption
    · decide

theorem getcwd_noNul (workingDir : Option CString) : (0 : UInt8) ∉ getcwd workingDir := by
  unfold getcwd
  split
  · exact List.not_mem_nil
  · split
    · rename_i dir _
      exact dir.noNul
    · exact List.not_mem_nil

/-- What is read of the record that a start wrote. -/
theorem read_started {w : StartWorld} {argv0 : List UInt8} {session : CString} {argv : List CString} {endpoint : EndpointText}
    {server : Launch} {files : Files} (h : runNamedStart w argv0 session argv = some (.launches endpoint server, files))
    (hhome : ∀ p, w.save.home = some p → newline ∉ p.bytes) (hcwd : OneLine (getcwd w.save.workingDir)) {malloc : Nat → Alloc UInt8}
    (hm : ∀ n size, malloc n size ≠ none) :
    ∃ port log random, w.urandom = .ok random ∧ FieldOk 512 log ∧ (0 : UInt8) ∉ log ∧ log ≠ [] ∧
      endpoint = ⟨optyDefaultHost, decimal port⟩ ∧ argv.length ≤ optySessionMaxArgc ∧ optyIsSessionName session.bytes = true ∧
      optySpawnServer w.spawn argv0 w.cwd.bytes endpoint log (some (optyGenerateControlToken random)) (argvCells argv) =
        some (.ok server) ∧
      optyReadSessionInfo w.save.home (.ok ()) malloc files session = .ok (sessionInfoOf session
        ⟨.ofBytes optyDefaultHost, .ofBytes (decimal port)⟩ (.ofBytes log) (optyGenerateControlToken random)
        ⟨getcwd w.save.workingDir, getcwd_noNul _⟩ argv) := by
  obtain ⟨ep, logPath, controlToken, hsession, hwrite, rfl, hspawn⟩ := runNamedStart_launches h
  obtain ⟨port, log, random, hpick, hlog, hrandom, rfl, rfl, rfl⟩ := startSession_ok hsession
  obtain ⟨-, htop, -⟩ := optyPickSessionEndpoint_ok hpick
  obtain ⟨hlogOk, hlogNul, hlogNe⟩ := fieldOk_logPath hlog hhome
  obtain ⟨path, hpath, -, -, hargc, hrecord⟩ := optyWriteSession_ok hwrite
  obtain ⟨hhost', hport'⟩ := sessionEndpoint_bytes port
  have hlog' : (CString.ofBytes log).bytes = log := ofBytes_eq hlogNul
  have hread := optyReadSessionInfo_record hpath hrecord
    (by rw [hhost']; exact ⟨by decide, by decide⟩) (by rw [hport']; exact fieldOk_port htop)
    (by rw [hport']; exact decimal_ne_nil port) (by rw [hlog']; exact hlogOk) (fieldOk_token random)
    (show FieldOk 1024 (CString.mk (getcwd w.save.workingDir) (getcwd_noNul _)).bytes from ⟨hcwd, length_getcwd _⟩) hargc hm
  refine ⟨port, log, random, hrandom, hlogOk, hlogNul, hlogNe, by rw [hhost', hport'], hargc, optySessionPath_name hpath, ?_, hread⟩
  rwa [hlog'] at hspawn

/-- The array of a record with these arguments. -/
theorem argvCells_info {argv : List CString} (h : argv.length ≤ optySessionMaxArgc) {info : SessionInfo}
    (hinfo : info.argv = fun i => (argv[i]?).map CString.bytes) :
    ∃ rest, info.argvCells = (argv.map CString.bytes).map some ++ none :: rest := by
  have hcells : info.argvCells = argv.map (fun a => some a.bytes) ++ List.replicate (optySessionMaxArgc + 1 - argv.length) none := by
    refine List.ext_getElem? fun i => ?_
    rw [SessionInfo.argvCells, hinfo, List.getElem?_map]
    by_cases hi : i < argv.length
    · rw [List.getElem?_range (by omega), List.getElem?_append_left (by rwa [List.length_map]), List.getElem?_map]
      rw [Option.map_some, List.getElem?_eq_getElem hi, Option.map_some, Option.map_some]
    · rw [List.getElem?_append_right (by rw [List.length_map]; omega), List.length_map, List.getElem?_replicate]
      by_cases hi' : i < optySessionMaxArgc + 1
      · rw [List.getElem?_range hi', if_pos (by omega), Option.map_some, List.getElem?_eq_none (by omega), Option.map_none]
      · rw [List.getElem?_eq_none (by rw [List.length_range]; omega), if_neg (by omega), Option.map_none]
  refine ⟨List.replicate (optySessionMaxArgc - argv.length) none, ?_⟩
  rw [hcells, List.map_map, Nat.succ_sub h, List.replicate_succ]
  rfl

end LaunchAux

/-- A restart starts the server again as it was: whenever a start has executed a server in its own working directory, and the server
accepts no connection any more, `run_named_restart` executes the same server with the same arguments, control token, working directory
and log, connects to the same endpoint, and is back in its own working directory then. The two clients are to be called by the same
`argv[0]`, the home directory and the working directory to be one line (the record holds both as they are), the working directory an
absolute path that fits the 1024 bytes of `getcwd`, and the command not empty. The record is to be opened and read into memory, and
the directory entered; the calls of the spawn succeed. -/
theorem restart_repeats_start (w : StartWorld) (argv0 : List UInt8) (session : CString) (argv : List CString) (endpoint : EndpointText)
    (server : Launch) (files : Files) (h : runNamedStart w argv0 session argv = some (.launches endpoint server, files))
    (hargv : argv ≠ []) (hhome : ∀ p, w.save.home = some p → newline ∉ p.bytes) (hcwd : w.save.workingDir = some w.cwd)
    (hline : FieldOk 1024 w.cwd.bytes) (habs : w.cwd.bytes.head? = some slash) (r : RestartWorld) (hrhome : r.home = w.save.home)
    (hrfiles : r.files = files) (hfopen : r.fopen = .ok ()) (hm : ∀ n size, r.malloc n size ≠ none)
    (hdead : r.accepts endpoint = false) (hspawn : r.spawn.Works) (hchdir : r.chdir w.cwd.bytes = true) :
    ∃ cwd, runNamedRestart r argv0 session = some (.launches endpoint server, cwd) ∧
      (r.getcwd = true → r.chdir r.cwd.bytes = true → cwd = r.cwd.bytes) := by
  have hget : getcwd w.save.workingDir = w.cwd.bytes := by
    rw [hcwd, getcwd]
    exact if_pos hline.fits
  obtain ⟨port, log, random, -, -, hlogNul, hlogNe, rfl, hargc, hname, hstart, hread⟩ :=
    read_started h hhome (by rw [hget]; exact hline.toOneLine) hm
  rw [argvCells_eq] at hstart
  obtain ⟨path, harg, hpath, rfl⟩ := optySpawnServer_ok hstart
  have hne := token_ne_nil random
  have hcwdNe : w.cwd.bytes ≠ [] := by
    intro hnil
    rw [hnil] at habs
    cases habs
  have hargc' : argv.length ≠ 0 := fun h0 => hargv (List.eq_nil_of_length_eq_zero h0)
  obtain ⟨hhost', hport'⟩ := sessionEndpoint_bytes port
  have hlog' : (CString.ofBytes log).bytes = log := ofBytes_eq hlogNul
  have htoken' : r.spawn.tokenFor (some (optyGenerateControlToken random)) =
      w.spawn.tokenFor (some (optyGenerateControlToken random)) := by
    rw [SpawnWorld.tokenFor, SpawnWorld.tokenFor, if_neg hne, if_neg hne]
  generalize hinfo : sessionInfoOf session ⟨.ofBytes optyDefaultHost, .ofBytes (decimal port)⟩ (.ofBytes log)
    (optyGenerateControlToken random) ⟨getcwd w.save.workingDir, getcwd_noNul _⟩ argv = info at hread
  have hi : info.host = optyDefaultHost ∧ info.port = decimal port ∧ info.argc = argv.length ∧ info.cwd = w.cwd.bytes ∧
      info.log = log ∧ info.controlToken = (optyGenerateControlToken random).bytes := by
    rw [← hinfo]
    exact ⟨hhost', hport', rfl, hget, hlog', rfl⟩
  obtain ⟨hiHost, hiPort, hiArgc, hiCwd, hiLog, hiToken⟩ := hi
  have hiArgv : info.argv = fun i => (argv[i]?).map CString.bytes := by
    rw [← hinfo]
    rfl
  obtain ⟨rest, hcells⟩ := argvCells_info hargc hiArgv
  have hagain := optySpawnServer_works hspawn harg hpath w.cwd.bytes log (some (optyGenerateControlToken random))
    (argv.map CString.bytes) rest
  have hsame : spawned r.spawn path w.cwd.bytes ⟨optyDefaultHost, decimal port⟩ log (some (optyGenerateControlToken random))
      (argv.map CString.bytes) = spawned w.spawn path w.cwd.bytes ⟨optyDefaultHost, decimal port⟩ log
        (some (optyGenerateControlToken random)) (argv.map CString.bytes) := by
    rw [spawned, spawned, htoken']
  refine ⟨r.goBack w.cwd.bytes, ?_, fun hg hc => if_pos ⟨hg, hc⟩⟩
  have hdir : resolveDir r.cwd.bytes w.cwd.bytes = w.cwd.bytes := if_pos habs
  simp only [runNamedRestart, hname, hrhome, hrfiles, hfopen, hread, hiHost, hiPort, hiArgc, hiCwd, hiLog, hiToken, hargc', hdead,
    hcwdNe, hchdir, hlogNe, hne, hdir, hcells, ConnectAux.ofBytes_bytes, hagain, Option.map_some, hsame, if_false, reduceCtorEq, and_false]

/-- The session that was started above, restarted from another directory. -/
theorem restart_repeats_start_elsewhere : ∃ endpoint server files,
    runNamedStart startingWorld (ascii "0pty") (.ofBytes (ascii "dev"))
      [.ofBytes (ascii "sh"), .ofBytes (ascii "-c"), .ofBytes (ascii "--")] = some (.launches endpoint server, files) ∧
    runNamedRestart ⟨workingWorld.home, startingWorld.spawn, .ofBytes (ascii "/usr"), true, fun _ => true, files, .ok (),
      fun _ n => some (.fill n 0), fun _ => false⟩ (ascii "0pty") (.ofBytes (ascii "dev")) =
      some (.launches endpoint server, ascii "/usr") := by
  obtain ⟨endpoint, server, files, h⟩ := startingWorld_launches (ascii "0pty")
  obtain ⟨cwd, hcwd, hback⟩ := restart_repeats_start startingWorld _ _ _ endpoint server files h (List.cons_ne_nil _ _)
    (fun p hp => by cases hp; decide) rfl ⟨by decide, by decide⟩ (by decide)
    ⟨workingWorld.home, startingWorld.spawn, .ofBytes (ascii "/usr"), true, fun _ => true, files, .ok (),
      fun _ n => some (.fill n 0), fun _ => false⟩
    rfl rfl rfl (fun _ _ => Option.some_ne_none _) rfl ⟨fun _ => Option.some_ne_none _, rfl, rfl, rfl⟩ rfl
  refine ⟨endpoint, server, files, h, ?_⟩
  rw [hcwd, hback rfl rfl]
  rfl

end ZeroPty
