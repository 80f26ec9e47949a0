import ZeroPty.Lib.Transition
import ZeroPty.Server
import ZeroPty.Session

/-!
# The session store and its servers

`run_named_start`, `run_named_restart`, `run_named_connect` and `run_named_stop`, any number of them at once, on a store of session
records and with the servers they spawn. A record here is the port, the control token and the argv of a session, as
`opty_write_session` puts them into a file at once; every record is on `OPTY_DEFAULT_HOST`. A server is forked, then listens or fails
to, and may close its listener or die at any time. An action is one step of a command between two looks at the store, the ports or a
server.

Three things are there for the theorems only: the session that a server was spawned for, the sessions that control tokens were
generated for (only their number is read), and the lists of attachments and shutdowns.
-/

namespace ZeroPty

open Transition Memory Text

/-- `OPTY_SESSION_PORT_BASE` -/
def optySessionPortBase : Nat := 6077

/-- `OPTY_CONTROL_TOKEN_BYTES` -/
def optyControlTokenBytes : Nat := 32

/-! ## Tokens and ports -/

/-- The digits `hex` of `opty_generate_control_token`. -/
def hexDigit (n : UInt8) : UInt8 := (ascii "0123456789abcdef").getD n.toNat 48

theorem hexDigit_ne_zero (n : UInt8) : hexDigit n ≠ 0 := by
  unfold hexDigit
  rw [List.getD_eq_getElem?_getD]
  cases h : (ascii "0123456789abcdef")[n.toNat]? with
  | none => decide
  | some d =>
    have hd : d ∈ ascii "0123456789abcdef" := List.mem_of_getElem? h
    rintro rfl
    revert hd
    decide

/-- `opty_generate_control_token` on what it reads from `/dev/urandom`. -/
def optyGenerateControlToken (random : Block UInt8 optyControlTokenBytes) : CString where
  bytes := random.cells.flatMap fun (b : UInt8) => [hexDigit ((b >>> 4) &&& 15), hexDigit (b &&& 15)]
  noNul := by
    intro h
    obtain ⟨b, -, hb⟩ := List.mem_flatMap.1 h
    rcases List.mem_pair.1 hb with hb | hb
    · exact hexDigit_ne_zero _ hb.symm
    · exact hexDigit_ne_zero _ hb.symm

/-- `opty_numeric_session_endpoint`: the port. The sum is of type `unsigned long`. -/
def optyNumericSessionEndpoint (session : List UInt8) : Option Nat :=
  if optyIsDecimal session then
    match strtoul session with
    | none => none
    | some (number, rest) =>
      if rest ≠ [] ∨ number = 0 then none
      else
        let port := (optySessionPortBase + number - 1) % 2 ^ 64
        if 65535 < port then none else some port
  else none

/-- `opty_pick_session_endpoint`: the first port that can be bound. -/
def optyPickSessionEndpoint (bindable : Nat → Bool) : Option Nat :=
  (List.range' optySessionPortBase (65535 + 1 - optySessionPortBase)).find? bindable

/-! ## The data model -/

/-- A session record. -/
structure SessionRecord where
  session : List UInt8
  port : Nat
  token : CString
  argv : List CString

/-- A server: forked and on its way to `server_create_listener`, listening, with its listener closed, or gone. -/
inductive ServerPhase where
  | starting
  | listening
  | closed
  | gone
  deriving DecidableEq, Repr

/-- A server that was spawned, and for which session. -/
structure ServerProc where
  session : List UInt8
  port : Nat
  token : CString
  phase : ServerPhase

/-- The commands. -/
inductive Command where
  | start (argv : List CString)
  | restart
  | connect
  | stop

/-- Where a command is. -/
inductive CommandPc where
  | startRead (argv : List CString)
  | startProbe (argv : List CString) (port : Nat)
  | startPick (argv : List CString)
  | startToken (argv : List CString) (port : Nat)
  | startWrite (argv : List CString) (port : Nat) (token : CString)
  | restartRead
  | restartProbe (r : SessionRecord)
  | spawn (port : Nat) (token : CString)
  | wait (port : Nat) (server : Nat) (tries : Nat)
  | connectRead
  | connectEndpoint
  | attach (port : Nat)
  | stopRead
  | stopProbe (r : SessionRecord)
  | stopConnect (r : SessionRecord)
  | stopSend (r : SessionRecord) (server : Nat)
  | done

/-- A client process that runs a command on a session. -/
structure CommandProc where
  session : List UInt8
  pc : CommandPc

/-- The store, the servers and the client processes. -/
structure Store where
  records : List SessionRecord
  servers : List ServerProc
  procs : List CommandProc
  generated : List (List UInt8)
  attachments : List (List UInt8 × Nat)
  shutdowns : List (List UInt8 × Nat)

/-- No session yet. -/
def Store.init : Store := ⟨[], [], [], [], [], []⟩

/-- What the environment does in a step of a command: whether a connection to a listener is made, whether the other calls succeed, and
which ports are taken by others. -/
structure CommandEnv where
  connect : Bool
  ok : Bool
  busy : Nat → Bool

/-- The actions: a client process is started with a command, or goes on; a server binds its port, closes its listener, or dies. -/
inductive StoreAct where
  | run (session : List UInt8) (command : Command)
  | command (proc : Nat) (env : CommandEnv)
  | bind (server : Nat) (ok : Bool)
  | close (server : Nat)
  | die (server : Nat)

/-! ## Looking at the store and the ports -/

/-- `opty_read_session_info` and `opty_read_session_endpoint`, which may fail on a record that is there. What they read is what was
written; the text of a record gives that for a working directory of one line only. -/
def Store.read (s : Store) (session : List UInt8) (ok : Bool) : Option SessionRecord :=
  if ok then s.records.find? (·.session == session) else none

/-- The server that listens on a port. -/
def Store.listener (s : Store) (port : Nat) : Option Nat :=
  (List.range s.servers.length).find? fun k =>
    match s.servers[k]? with
    | some v => v.phase == .listening && v.port == port
    | none => false

/-- `connect_endpoint`, and `opty_endpoint_accepts` with or without a timeout. -/
def Store.connect (s : Store) (port : Nat) (connects : Bool) : Option Nat := if connects then s.listener port else none

/-- `opty_endpoint_bindable` -/
def Store.bindable (s : Store) (busy : Nat → Bool) (port : Nat) : Bool := !busy port && (s.listener port).isNone

/-- `opty_write_session`: the record takes the place of the one before. -/
def Store.write (s : Store) (r : SessionRecord) : Store :=
  { s with records := r :: s.records.filter (·.session != r.session) }

/-- A command goes on. -/
def Store.goto (s : Store) (c : Nat) (p : CommandProc) (pc : CommandPc) : Store :=
  { s with procs := s.procs.set c { p with pc := pc } }

/-- A server changes its phase. -/
def Store.setPhase (s : Store) (k : Nat) (v : ServerProc) (phase : ServerPhase) : Store :=
  { s with servers := s.servers.set k { v with phase := phase } }

/-! ## The server's part -/

/-- The configuration that `main` of the server makes of `OPTY_CONTROL_TOKEN`; none when the token is refused. -/
def serverControlConfig (token : CString) : Option Config :=
  if token.bytes = [] then some ⟨none, none⟩
  else if h : token.bytes.length ≤ optyMaxToken then
    match hs : serverStoreToken token with
    | some buf => some ⟨none, some ⟨token, h, buf, hs⟩⟩
    | none => none
  else none

/-- What `run_named_stop` sends: the token of the record, and the decoded `graceful_input` that `opty_write_session` wrote. -/
def stopFrame (r : SessionRecord) : Frame := (Msg.controlShutdown r.token.bytes (ascii "/exit" ++ [newline])).frame

/-- The server enters `server_request_shutdown` for this frame. -/
def ServerProc.shutsDown (v : ServerProc) (frame : Frame) : Bool :=
  if v.phase = .listening ∨ v.phase = .closed then
    match (serverControlConfig v.token).bind fun cfg => firstMove cfg (.ok (some frame)) with
    | some (.shutdown _) => true
    | _ => false
  else false

/-- A server that was forked comes to its listener. A port that has one already cannot be bound. -/
def Store.bindServer (s : Store) (k : Nat) (ok : Bool) : Outcome Store :=
  match s.servers[k]? with
  | some v =>
    if v.phase = .starting then
      if ok ∧ (serverControlConfig v.token).isSome ∧ s.listener v.port = none then .next (s.setPhase k v .listening)
      else .next (s.setPhase k v .gone)
    else .blocked
  | none => .blocked

/-! ## The commands -/

/-- The first place of a command. -/
def Command.pc : Command → CommandPc
  | .start argv => .startRead argv
  | .restart => .restartRead
  | .connect => .connectRead
  | .stop => .stopRead

/-- The fork of `opty_spawn_server`. -/
def Store.spawnServer (s : Store) (c : Nat) (p : CommandProc) (port : Nat) (token : CString) : Store :=
  { s.goto c p (.wait port s.servers.length 0) with servers := s.servers ++ [⟨p.session, port, token, .starting⟩] }

/-- One round of `opty_wait_for_server`. -/
def Store.waitForServer (s : Store) (port k tries : Nat) (e : CommandEnv) : CommandPc :=
  match s.connect port e.connect with
  | some _ => .attach port
  | none =>
    if !e.ok || (s.servers[k]?.map ServerProc.phase) == some .gone then .done
    else if tries + 1 < 60 then .wait port k (tries + 1) else .done

/-- One step of a command. -/
def commandStep (urandom : Nat → Block UInt8 optyControlTokenBytes) (s : Store) (c : Nat) (p : CommandProc) (e : CommandEnv) :
    Outcome Store :=
  match p.pc with
  | .startRead argv =>
    match s.read p.session e.ok with
    | some r => .next (s.goto c p (.startProbe argv r.port))
    | none => .next (s.goto c p (.startPick argv))
  | .startProbe argv port =>
    match s.connect port e.connect with
    | some _ => .next (s.goto c p (.attach port))
    | none => .next (s.goto c p (.startPick argv))
  | .startPick argv =>
    match optyPickSessionEndpoint (s.bindable e.busy) with
    | some port => .next (s.goto c p (.startToken argv port))
    | none => .next (s.goto c p .done)
  | .startToken argv port =>
    if e.ok then
      .next { s.goto c p (.startWrite argv port (optyGenerateControlToken (urandom s.generated.length))) with
        generated := s.generated ++ [p.session] }
    else .next (s.goto c p .done)
  | .startWrite argv port token =>
    if e.ok ∧ token.bytes ≠ [] ∧ token.bytes.length ≤ optyMaxToken ∧ argv.length ≤ optySessionMaxArgc then
      .next ((s.write ⟨p.session, port, token, argv⟩).goto c p (.spawn port token))
    else .next (s.goto c p .done)
  | .restartRead =>
    match s.read p.session e.ok with
    | some r => if r.argv.length = 0 then .next (s.goto c p .done) else .next (s.goto c p (.restartProbe r))
    | none => .next (s.goto c p .done)
  | .restartProbe r =>
    match s.connect r.port e.connect with
    | some _ => .next (s.goto c p .done)
    | none => if e.ok then .next (s.goto c p (.spawn r.port r.token)) else .next (s.goto c p .done)
  | .spawn port token => if e.ok then .next (s.spawnServer c p port token) else .next (s.goto c p .done)
  | .wait port k tries => .next (s.goto c p (s.waitForServer port k tries e))
  | .connectRead =>
    match s.read p.session e.ok with
    | some r => .next (s.goto c p (.attach r.port))
    | none => .next (s.goto c p .connectEndpoint)
  | .connectEndpoint =>
    match s.read p.session e.ok with
    | some r => .next (s.goto c p (.attach r.port))
    | none =>
      match optyNumericSessionEndpoint p.session with
      | some port => .next (s.goto c p (.attach port))
      | none => .next (s.goto c p .done)
  | .attach port =>
    match s.connect port (e.ok && e.connect) with
    | some k => .next { s.goto c p .done with attachments := s.attachments ++ [(p.session, k)] }
    | none => .next (s.goto c p .done)
  | .stopRead =>
    match s.read p.session e.ok with
    | some r => if r.token.bytes = [] then .next (s.goto c p .done) else .next (s.goto c p (.stopProbe r))
    | none => .next (s.goto c p .done)
  | .stopProbe r =>
    match s.connect r.port e.connect with
    | some _ => .next (s.goto c p (.stopConnect r))
    | none => .next (s.goto c p .done)
  | .stopConnect r =>
    match s.connect r.port e.connect with
    | some k => .next (s.goto c p (.stopSend r k))
    | none => .next (s.goto c p .done)
  | .stopSend r k =>
    match s.servers[k]? with
    | some v =>
      if e.ok ∧ v.shutsDown (stopFrame r) then .next { s.goto c p .done with shutdowns := s.shutdowns ++ [(p.session, k)] }
      else .next (s.goto c p .done)
    | none => .next (s.goto c p .done)
  | .done => .blocked

/-- One action. -/
def storeStep (urandom : Nat → Block UInt8 optyControlTokenBytes) (s : Store) : StoreAct → Outcome Store
  | .run session command =>
    .next { s with procs := s.procs ++ [⟨session, if optyIsSessionName session then command.pc else .done⟩] }
  | .command c e =>
    match s.procs[c]? with
    | some p => commandStep urandom s c p e
    | none => .blocked
  | .bind k ok => s.bindServer k ok
  | .close k =>
    match s.servers[k]? with
    | some v => if v.phase = .listening then .next (s.setPhase k v .closed) else .blocked
    | none => .blocked
  | .die k =>
    match s.servers[k]? with
    | some v => .next (s.setPhase k v .gone)
    | none => .blocked

end ZeroPty
