import ZeroPty.Accept
import ZeroPty.Lemmas.Authentication
import ZeroPty.Theorems.Ring

/-!
# The session outlives its peers
-/

namespace ZeroPty

open Stream Memory Transition ReferencesAux

/-- The thread is in `server_request_shutdown`. -/
def ThreadPc.isStopping : ThreadPc → Bool
  | .shutdownInput _ | .shutdown _ => true
  | _ => false

/-- The server serves: no thread is in `server_request_shutdown`, the only place that signals the child, and none has been; `main`
and the PTY thread are in their loops; and the listener is open. -/
structure Serving (s : Sys) : Prop where
  main : s.main.isServing = true
  pty : s.pty.isServing = true
  listening : s.listening = true
  threads : ∀ i, (s.conn i).pc.isStopping = false
  requests : s.requests = []

namespace PersistenceAux

/-- What an action of a thread leaves: everything outside its own place; no connection's bytes change, and none begins to stop. -/
structure Keeps (s t : Sys) : Prop where
  listening : t.listening = s.listening
  requests : t.requests = s.requests
  wire : ∀ j, (t.conn j).wire = (s.conn j).wire
  threads : ∀ j, (t.conn j).pc.isStopping = true → (s.conn j).pc.isStopping = true

theorem Keeps.of_conn {s t : Sys} (hl : t.listening = s.listening) (hr : t.requests = s.requests) (hconn : t.conn = s.conn) :
    Keeps s t :=
  ⟨hl, hr, fun _ => by rw [hconn], fun _ => by rw [hconn]; exact id⟩

theorem Keeps.setConn {s t : Sys} {i : Nat} {c : Conn} (hl : t.listening = s.listening) (hr : t.requests = s.requests)
    (hconn : t.conn = Function.update s.conn i c) (hwire : c.wire = (s.conn i).wire)
    (hpc : c.pc.isStopping = true → (s.conn i).pc.isStopping = true) : Keeps s t := by
  refine ⟨hl, hr, fun j => ?_, fun j => ?_⟩
  · rw [hconn]
    by_cases hj : j = i
    · subst hj
      rw [Function.update_self, hwire]
    · rw [Function.update_of_ne hj]
  · rw [hconn]
    by_cases hj : j = i
    · subst hj
      rw [Function.update_self]
      exact hpc
    · rw [Function.update_of_ne hj]
      exact id

theorem Keeps.of_shaken {s t : Sys} (hl : t.listening = s.listening) (hr : t.requests = s.requests)
    (hconn : ∀ j, Shaken (s.conn j) (t.conn j)) : Keeps s t :=
  ⟨hl, hr, fun j => (hconn j).wire, fun j => by rw [(hconn j).pc]; exact id⟩

end PersistenceAux

open PersistenceAux

/-- An action that is none of the stops: signals, the end of the terminal, and a connection that may stop the server. -/
def Act.isQuiet (cfg : Config) : Act → Prop
  | .accept input _ _ => ∀ x, ¬Stoppable cfg input.bytes x
  | .ptyRead .ended => False
  | .signal _ | .leave => False
  | _ => True

/-- The server serves, and no connection may stop it. -/
structure ServingInv (cfg : Config) (s : Sys) : Prop where
  refs : RefInv s
  auth : AuthSys cfg s
  wires : ∀ i x, ¬Stoppable cfg (s.conn i).wire x
  serving : Serving s

/-- Everything but the places of threads that go on is as it was. -/
theorem ServingInv.keeps {cfg : Config} {s t : Sys} (h : ServingInv cfg s) (href : RefInv t) (hauth : AuthSys cfg t)
    (hk : Keeps s t) (hmain : t.main.isServing = true) (hpty : t.pty.isServing = true) : ServingInv cfg t where
  refs := href
  auth := hauth
  wires := fun i x => by rw [hk.wire i]; exact h.wires i x
  serving :=
    { main := hmain
      pty := hpty
      listening := hk.listening.trans h.serving.listening
      threads := fun i => by
        rw [← Bool.not_eq_true]
        intro hi
        have := hk.threads i hi
        rw [h.serving.threads i] at this
        cases this
      requests := hk.requests.trans h.serving.requests }

theorem servingInv_moves {cfg : Config} {s t : Sys} {a : Act} (h : ServingInv cfg s) (hquiet : a.isQuiet cfg) (hm : Moves s a t) :
    ServingInv cfg t := by
  have href := refInv_moves h.refs hm
  have hauth := authSys_moves h.refs h.auth hm
  have hserv := h.serving
  -- no thread is in `server_request_shutdown`
  have hstop : ∀ {i p}, (s.conn i).pc = p → p.isStopping = true → False := by
    rintro i _ rfl hp
    rw [hserv.threads i] at hp
    cases hp
  cases hm with
  | acceptFailed => exact h
  | accept hmain =>
    refine ⟨href, hauth, fun j x => ?_, rfl, hserv.pty, hserv.listening, fun j => ?_, hserv.requests⟩
    · by_cases hj : j = s.count
      · subst hj
        simp only [Sys.setConn, Function.update_self]
        exact hquiet x
      · simp only [Sys.setConn, Function.update_of_ne hj]
        exact h.wires j x
    · by_cases hj : j = s.count
      · subst hj
        simp only [Sys.setConn, Function.update_self]
        rfl
      · simp only [Sys.setConn, Function.update_of_ne hj]
        exact hserv.threads j
  | created hmain =>
    rename_i i
    exact h.keeps href hauth (.setConn (c := { s.conn i with pc := .recvFirst }) rfl rfl rfl rfl (by rintro ⟨⟩)) rfl hserv.pty
  | createFailed hmain => exact h.keeps href hauth (.of_conn rfl rfl rfl) rfl hserv.pty
  | dropped hmain hrel =>
    rename_i i s₁
    have hpc := h.refs.starting_of_drop hmain
    obtain ⟨c', rfl, hsh', -⟩ := exists_of_eq_some (h.refs.finish (Or.inl hpc)) hrel
    refine h.keeps href hauth (.setConn (i := i) (c := { c' with pc := .done }) rfl rfl ?_ hsh'.wire (by rintro ⟨⟩)) rfl hserv.pty
    simp only [Sys.setConn, Function.update_self, Function.update_idem]
  | mainQuiet hm hm' ha =>
    rcases ha with ha | ha
    · cases a with
      | signal fatal | leave => exact hquiet.elim
      | _ => cases ha
    · rw [hserv.main] at ha
      cases ha
  | mainShut hm hm' hshut ha =>
    rw [hserv.main] at ha
    cases ha
  | recvFirst hpc hcl hmove =>
    rename_i i env cl move
    have hfirst := (h.auth.first hpc hmove).2
    -- a first frame that stops the server is one that this connection does not send
    have hne : ∀ x, move ≠ .shutdown x := fun x hx => h.wires i x (hfirst x hx)
    refine h.keeps href hauth (.setConn (i := i) rfl ?_ rfl rfl ?_) hserv.main hserv.pty
    · cases move with
      | shutdown x => exact absurd rfl (hne x)
      | finish | sendError text | intro i => exact List.append_nil _
    · cases move with
      | shutdown x => exact absurd rfl (hne x)
      | finish | sendError text | intro i => rintro ⟨⟩
  | sendError hpc hcl hlock | attachFailed hpc hcl hattach | welcome hpc hcl hs | resizeIntroFailed hpc
  | welcomeFailed hpc hcl hs | replay hpc hcl hs | replayFailed hpc hcl hs | resizeIntro hpc | resizeLoop hpc
  | resizeLoopFailed hpc | attach hpc hcl hlock hattach =>
    exact h.keeps href hauth (.setConn rfl rfl rfl rfl (by rintro ⟨⟩)) hserv.main hserv.pty
  | recvLoop hpc hcl hmove =>
    rename_i i env cl move
    exact h.keeps href hauth (.setConn rfl rfl rfl rfl (by cases move <;> rintro ⟨⟩)) hserv.main hserv.pty
  | writePty hpc hpc' =>
    exact h.keeps href hauth (.setConn rfl rfl rfl rfl (by rcases hpc' with rfl | rfl <;> rintro ⟨⟩)) hserv.main hserv.pty
  | shutdownInput hpc | shutdownStage hpc | shutdownShut hpc hshut => exact (hstop hpc rfl).elim
  | finished hpc hrel =>
    rename_i i env s₁
    obtain ⟨c', rfl, hsh', -⟩ := exists_of_eq_some (h.refs.finish (Or.inr hpc)) hrel
    refine h.keeps href hauth (.setConn (i := i) (c := { c' with pc := .done }) rfl rfl ?_ hsh'.wire (by rintro ⟨⟩)) hserv.main
      hserv.pty
    simp only [Sys.setConn, Function.update_self, Function.update_idem]
  | ptyQuiet hp hp' ha =>
    rcases ha with rfl | ⟨rfl, rfl⟩ | ha
    · exact hquiet.elim
    · exact h
    · rw [hserv.pty] at ha
      cases ha
  | ptyGot hp h0 h4096 => exact h.keeps href hauth (.of_conn rfl rfl rfl) hserv.main rfl
  | ptyAppend hp hr => exact h.keeps href hauth (.of_conn rfl rfl rfl) hserv.main rfl
  | ptyNoSnapshot hp hr | ptySnapshot hp hne hr =>
    obtain ⟨conn', rfl, hsh⟩ := serverSnapshotClients_shaken h.refs.ledger hr
    exact h.keeps href hauth (.of_shaken rfl rfl hsh) hserv.main rfl
  | ptyReleased hp hrel =>
    obtain ⟨conn', rfl, hsh', -⟩ := exists_of_eq_some (h.refs.releaseSnapshot hp) hrel
    exact h.keeps href hauth (.of_shaken rfl rfl hsh') hserv.main rfl
  | ptySent hp hcl hlock hs | ptySendFailed hp hcl hlock hs =>
    exact h.keeps href hauth (.setConn rfl rfl rfl rfl id) hserv.main rfl
  | ptyMarkedDead hp hrel =>
    obtain ⟨c', rfl, hsh', -⟩ := exists_of_eq_some (h.refs.markDead hp) hrel
    exact h.keeps href hauth (.setConn rfl rfl rfl hsh'.wire (by rw [hsh'.pc]; exact id)) hserv.main rfl
  | ptyShut hp hshut =>
    have := hserv.pty
    rw [hp] at this
    cases this

theorem servingInv_init {cfg : Config} {ring : Ring} {master : Sink Errno} (hring : ring.Bounded) :
    ServingInv cfg (Sys.init cfg ring master) := by
  refine ⟨refInv_init hring, authSys_init cfg ring master, fun i x => ?_, rfl, rfl, rfl, fun _ => rfl, rfl⟩
  rintro ⟨f, rest, hwire, -⟩
  exact frameBytes_ne_nil f (List.append_eq_nil_iff.1 hwire.symm).1

/-- The run is one of peers only: no shutdown signal is delivered, no connection presents the control token, and the reads of the
terminal neither fail nor report its end. -/
def DaemonAct.ofPeers (cfg : Config) : DaemonAct → Prop
  | .signal => False
  | .thread (.accept input _ _) => ∀ x, ¬Stoppable cfg input.bytes x
  | .thread (.ptyRead .ended) => False
  | _ => True

/-- The errors of `accept` that the loop has a branch for. -/
def AcceptErrno.isHandled : AcceptErrno → Bool
  | .eintr | .ebadf | .einval | .emfile | .enfile | .enomem | .enobufs => true
  | .econnaborted | .eproto | .other _ => false

/-- The errors of `accept` in the run are handled ones. -/
def DaemonAct.handled : DaemonAct → Prop
  | .acceptFailed e => e.isHandled = true
  | _ => True

/-- What holds of the accept loop. -/
def DaemonInv (cfg : Config) (d : Daemon) : Prop := ServingInv cfg d.server ∧ d.shutdownRequested = false

theorem daemonInv_act {cfg : Config} {d d' : Daemon} {a : Act} (h : DaemonInv cfg d) (hquiet : a.isQuiet cfg)
    (hstep : d.act a d.shutdownRequested = .next d') : DaemonInv cfg d' := by
  unfold Daemon.act at hstep
  split at hstep
  · nomatch hstep
  · nomatch hstep
  · rename_i s hs
    cases hstep
    exact ⟨servingInv_moves h.1 hquiet (step_moves hs), h.2⟩

/-- A handled error of `accept` changes nothing: no signal was delivered, and the listener is open. -/
theorem daemonInv_acceptFailed {cfg : Config} {d d' : Daemon} {e : AcceptErrno} (h : DaemonInv cfg d) (he : e.isHandled = true)
    (hstep : acceptFailedStep d e = .next d') : DaemonInv cfg d' := by
  cases e with
  | eintr =>
    rw [acceptFailedStep, h.2] at hstep
    cases hstep
    exact h
  | ebadf | einval =>
    simp [acceptFailedStep, Daemon.act, step, mainStep, h.1.serving.listening] at hstep
  | emfile | enfile | enomem | enobufs =>
    cases hstep
    exact h
  | econnaborted | eproto | other n => cases he

theorem daemonInv_step {cfg : Config} {d d' : Daemon} {a : DaemonAct} (h : DaemonInv cfg d) (hpeers : a.ofPeers cfg)
    (hhandled : a.handled) (hstep : daemonStep d a = .next d') : DaemonInv cfg d' := by
  cases a with
  | thread a =>
    cases a with
    | signal fatal | leave => nomatch hstep
    | accept input sched calloc => exact daemonInv_act (a := .accept input sched calloc) h hpeers hstep
    | ptyRead r =>
      cases r with
      | ended => exact hpeers.elim
      | got chunk | interrupted => exact daemonInv_act h (by trivial) hstep
    | create ok | drop | main | client i env | pty alloc => exact daemonInv_act h (by trivial) hstep
  | signal => exact hpeers.elim
  | top =>
    simp only [daemonStep, h.2] at hstep
    split at hstep
    · rename_i hc
      cases hc.2
    · nomatch hstep
  | acceptFailed e =>
    simp only [daemonStep] at hstep
    split at hstep
    · exact daemonInv_acceptFailed h hhandled hstep
    · nomatch hstep

/-- The session outlives anything its peers do, as long as every error of `accept` is one its loop has a branch for: in every state of
every run without a shutdown signal, without a connection that presents the control token and with a terminal that does not end,
whatever connections are opened, dropped or stalled and whatever they send, the server serves. -/
theorem session_outlives_peers (cfg : Config) (malloc : Alloc UInt8) (capacity : UInt64) (ring : Ring)
    (hinit : optyRingInit malloc (.ok ()) capacity = .ok ring) (master : Sink Errno) (acts : List DaemonAct)
    (hpeers : ∀ a ∈ acts, a.ofPeers cfg) (hhandled : ∀ a ∈ acts, a.handled) (d : Daemon)
    (hd : exec daemonStep (.init (Sys.init cfg ring master)) acts = .next d) : Serving d.server := by
  have hstart : DaemonInv cfg (.init (Sys.init cfg ring master)) := ⟨servingInv_init (represents_init hinit).2.bounded, rfl⟩
  have h := invariant (Q := fun a : DaemonAct => a.ofPeers cfg ∧ a.handled)
    (fun _ _ _ h hq hstep => daemonInv_step h hq.1 hq.2 hstep) hstart (fun a ha => ⟨hpeers a ha, hhandled a ha⟩) hd
  exact h.1.serving

/-- A peer connects and sends nothing, `accept` runs out of descriptors, and the terminal says something. -/
def stalledRun : List DaemonAct :=
  [.thread (.accept ⟨[], []⟩ [] true), .thread (.create true), .acceptFailed .emfile, .thread (.ptyRead (.got [104]))]

theorem session_outlives_peers_stalled : ∃ ring d, optyRingInit zeroAlloc (.ok ()) 5 = .ok ring ∧
    exec daemonStep (.init (Sys.init ⟨none, none⟩ ring {})) stalledRun = .next d ∧ Serving d.server := by
  obtain ⟨ring, hinit⟩ := optyRingInit_ok zeroAlloc 5 (by decide) rfl
  have hpeers : ∀ a ∈ stalledRun, a.ofPeers ⟨none, none⟩ := by
    simp only [stalledRun, List.mem_cons, List.not_mem_nil, or_false, forall_eq_or_imp, forall_eq, DaemonAct.ofPeers, and_true]
    rintro x ⟨f, rest, hwire, -⟩
    exact frameBytes_ne_nil f (List.append_eq_nil_iff.1 hwire.symm).1
  have hhandled : ∀ a ∈ stalledRun, a.handled := by
    simp [stalledRun, DaemonAct.handled, AcceptErrno.isHandled]
  have hrun : ∃ d, exec daemonStep (.init (Sys.init ⟨none, none⟩ ring {})) stalledRun = .next d := ⟨_, rfl⟩
  obtain ⟨d, hd⟩ := hrun
  exact ⟨ring, d, hinit, hd, session_outlives_peers ⟨none, none⟩ zeroAlloc 5 ring hinit {} stalledRun hpeers hhandled d hd⟩

/-- A connection that is aborted before it is accepted ends the server: its listener is closed and `main` is out of its loop. -/
theorem session_ends_on_aborted_connection : ∃ ring d, optyRingInit zeroAlloc (.ok ()) 5 = .ok ring ∧
    (∀ a ∈ [DaemonAct.acceptFailed .econnaborted, .thread .main, .thread .main, .thread .main], a.ofPeers ⟨none, none⟩) ∧
    exec daemonStep (.init (Sys.init ⟨none, none⟩ ring {})) [.acceptFailed .econnaborted, .thread .main, .thread .main,
      .thread .main] = .next d ∧ d.server.main = .left ∧ d.server.listening = false ∧ ¬Serving d.server := by
  obtain ⟨ring, hinit⟩ := optyRingInit_ok zeroAlloc 5 (by decide) rfl
  refine ⟨ring, _, hinit, ?_, rfl, rfl, rfl, fun h => ?_⟩
  · simp [DaemonAct.ofPeers]
  · cases h.listening

end ZeroPty
