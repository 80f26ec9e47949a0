import ZeroPty.Theorems.Delivery

/-!
# A broadcast that succeeds reaches every client

`server_broadcast_stdout` while the other threads go on. A client that it is done with has all of the chunk, or is dead and out of the
list, and stays so. A snapshot that cannot be allocated looks like one without clients.
-/

namespace ZeroPty

open Stream Memory Transition

/-- The client of connection `i` has everything before `endSeq`, or is dead and out of the list. -/
def CaughtUp (endSeq : UInt64) (s : Sys) (i : Nat) : Prop :=
  (∃ cl, (s.conn i).cell = .live cl ∧ endSeq ≤ cl.liveSeq) ∨
    (i ∉ s.clients ∧ ∀ cl, (s.conn i).cell = .live cl → cl.dead = true)

/-- The snapshot has clients and cannot be allocated. -/
def SnapshotFails (s : Sys) (calloc : Bool) : Prop := calloc = false ∧ ∃ i ∈ s.clients, (s.conn i).isAttached = true

/-- The server with the PTY thread at the call of `server_broadcast_stdout`. -/
def Sys.broadcasting (s : Sys) (seq : UInt64) (data : List UInt8) : Sys := { s with pty := .snapshot seq data }

/-- A broadcast that reports success reached everyone, and one that could not allocate its snapshot does not report success. The PTY
thread reads the terminal again after a return of 0 only. -/
def ReportsTruly (s : Sys) (seq : UInt64) (data : List UInt8) (calloc : Bool) : Prop :=
  ∀ acts t, exec step (s.broadcasting seq data) (.pty calloc :: acts) = .next t → t.pty = .read →
    (∀ i ∈ s.clients, (s.conn i).isAttached = true → CaughtUp (seq + UInt64.ofNat data.length) t i) ∧ ¬SnapshotFails s calloc

namespace BroadcastAux

/-! ## What an action does to a connection -/

/-- A thread that can no longer attach its client stays so; the position of such a client does not go back, and a dead client stays
dead. -/
structure Forward (c c' : Conn) : Prop where
  pc : c.pc.isEarly = false → c'.pc.isEarly = false
  cell : ∀ cl', c'.cell = .live cl' → ∃ cl, c.cell = .live cl ∧
    (cl'.authenticated = true → cl.authenticated = true ∨ c'.pc.isEarly = false) ∧
    (c.pc.isEarly = false → cl.liveSeq ≤ cl'.liveSeq) ∧ (cl.dead = true → cl'.dead = true)

theorem Forward.of_shaken {c c' : Conn} (h : Shaken c c') : Forward c c' := by
  refine ⟨fun hpc => h.pc ▸ hpc, fun cl' hcl' => ?_⟩
  obtain ⟨cl, hcl, hauth, hseq, -, hdead, -⟩ := h.cell cl' hcl'
  exact ⟨cl, hcl, fun ha => .inl (hauth ▸ ha), fun _ => hseq ▸ UInt64.le_refl _, hdead⟩

/-- The thread goes on and leaves its client alone. -/
theorem Forward.of_cell {c c' : Conn} (hcell : c'.cell = c.cell) (hpc : c.pc.isEarly = false → c'.pc.isEarly = false) :
    Forward c c' :=
  ⟨hpc, fun cl' hcl' => ⟨cl', hcell ▸ hcl', .inl, fun _ => UInt64.le_refl _, id⟩⟩

/-- The thread ends with what a section left of its client. -/
theorem Forward.finish {c c' : Conn} (h : Shaken c c') {pc : ThreadPc} (hpc : pc.isEarly = false) :
    Forward c { c' with pc := pc } := by
  refine ⟨fun _ => hpc, fun cl' hcl' => ?_⟩
  obtain ⟨cl, hcl, -, hseq, hdead⟩ := (Forward.of_shaken h).cell cl' hcl'
  exact ⟨cl, hcl, fun _ => .inr hpc, hseq, hdead⟩

/-- The client changes, but neither whether it is authenticated nor whether it is dead. -/
theorem Forward.of_live {c c' : Conn} {cl cl' : Client} (hcl : c.cell = .live cl) (hcl' : c'.cell = .live cl')
    (hauth : cl'.authenticated = cl.authenticated) (hdead : cl'.dead = cl.dead) (hseq : cl.liveSeq ≤ cl'.liveSeq)
    (hpc : c.pc.isEarly = false → c'.pc.isEarly = false) : Forward c c' := by
  refine ⟨hpc, fun cl'' hcl'' => ?_⟩
  rw [hcl'] at hcl''
  cases hcl''
  exact ⟨cl, hcl, fun ha => .inl (hauth ▸ ha), fun _ => hseq, fun hd => hdead ▸ hd⟩

/-- A send does not take a client back, and one that succeeds takes it to the end of the chunk. -/
theorem serverSendStdout_liveSeq {alloc : Bool} {seq : UInt64} {data : List UInt8} {cl cl' : Client} {fd fd' : Sink Errno}
    {r : Except Errno Unit} (h : serverSendStdout alloc seq data cl fd = (r, cl', fd')) :
    cl.liveSeq ≤ cl'.liveSeq ∧ (r = .ok () → seq + UInt64.ofNat data.length ≤ cl'.liveSeq) := by
  simp only [serverSendStdout] at h
  split at h
  · rename_i hlt
    split at h
    · cases h
      exact ⟨UInt64.le_of_lt hlt, fun _ => UInt64.le_refl _⟩
    · cases h
      exact ⟨UInt64.le_refl _, by rintro ⟨⟩⟩
  · rename_i hge
    cases h
    exact ⟨UInt64.le_refl _, fun _ => UInt64.not_lt.1 hge⟩

theorem LoopMove.pc_early (move : LoopMove) : move.pc.isEarly = false := by
  cases move with
  | leave | again | write payload | resize cols rows => rfl

variable {s t : Sys} {a : Act} {i : Nat}

theorem setConn_self (s : Sys) (i : Nat) (c : Conn) : (s.setConn i c).conn i = c := Function.update_self ..

/-- An action takes every connection forward. -/
theorem forward_of_moves (h : RefInv s) (hm : Moves s a t) (hi : i < s.count) : Forward (s.conn i) (t.conn i) := by
  by_cases hact : actsOn s a = some i
  · cases hm with
    | acceptFailed | mainQuiet hm hm' ha | ptyQuiet hp hp' ha => exact .of_shaken (Shaken.refl _)
    | accept hmain =>
      cases hact
      exact absurd hi (Nat.lt_irrefl _)
    | created hmain =>
      rw [actsOn, hmain] at hact
      cases hact
      simp only [setConn_self]
      refine .of_cell rfl fun hpc => ?_
      rw [(h.conns i).starting (by rw [hmain]; rfl)] at hpc
      cases hpc
    | createFailed hmain => exact .of_shaken (Shaken.refl _)
    | dropped hmain hrel =>
      rw [actsOn, hmain] at hact
      cases hact
      have hpc := h.starting_of_drop hmain
      obtain ⟨c', rfl, hsh, -⟩ := exists_of_eq_some (h.finish (Or.inl hpc)) hrel
      simp only [setConn_self, Function.update_self]
      exact .finish hsh rfl
    | mainShut hm hm' hshut ha => cases hact
    | recvFirst hpc hcl hmove =>
      cases hact
      simp only [setConn_self]
      exact .of_cell rfl fun hearly => absurd hearly (by rw [hpc]; rintro ⟨⟩)
    | sendError hpc hcl hlock | resizeIntroFailed hpc | attachFailed hpc hcl hattach | welcome hpc hcl hs | resizeLoopFailed hpc =>
      cases hact
      simp only [setConn_self]
      exact .of_cell rfl fun _ => rfl
    | resizeIntro hpc =>
      cases hact
      refine .of_cell ?_ fun hearly => absurd hearly (by rw [hpc]; rintro ⟨⟩)
      simp only [Sys.resized, setConn_self]
    | attach hpc hcl hlock hattach =>
      cases hact
      simp only [setConn_self]
      obtain ⟨rfl, -⟩ := serverAttach_refs hattach
      refine ⟨fun _ => rfl, fun cl' hcl' => ?_⟩
      obtain rfl := Cell.live.inj hcl'
      exact ⟨_, hcl, fun _ => .inr rfl, fun hearly => absurd hearly (by rw [hpc]; rintro ⟨⟩), id⟩
    | welcomeFailed hpc hcl hs | replay hpc hcl hs | replayFailed hpc hcl hs =>
      cases hact
      simp only [setConn_self]
      exact .of_live hcl rfl rfl rfl (UInt64.le_refl _) fun _ => rfl
    | recvLoop hpc hcl hmove =>
      cases hact
      simp only [setConn_self]
      exact .of_cell rfl fun _ => LoopMove.pc_early _
    | writePty hpc hpc' =>
      cases hact
      simp only [Sys.wrote, setConn_self]
      refine .of_cell rfl fun _ => ?_
      rcases hpc' with rfl | rfl <;> rfl
    | resizeLoop hpc =>
      cases hact
      simp only [Sys.resized, setConn_self]
      exact .of_cell rfl fun _ => rfl
    | shutdownInput hpc =>
      cases hact
      simp only [Sys.wrote, setConn_self]
      exact .of_cell rfl fun _ => rfl
    | shutdownStage hpc =>
      cases hact
      simp only [setConn_self]
      exact .of_cell rfl fun _ => rfl
    | shutdownShut hpc hshut =>
      cases hact
      obtain ⟨conn', rfl, hsh, -⟩ := exists_of_eq_some h.shut hshut
      simp only [setConn_self]
      exact .finish (hsh i).1 rfl
    | finished hpc hrel =>
      cases hact
      obtain ⟨c', rfl, hsh, -⟩ := exists_of_eq_some (h.finish (Or.inr hpc)) hrel
      simp only [setConn_self, Function.update_self]
      exact .finish hsh rfl
    | ptyGot hp h0 hlen => cases hact
    | ptyAppend hp hr | ptyNoSnapshot hp hr | ptySnapshot hp hne hr | ptyReleased hp hrel | ptyShut hp hshut =>
      rw [actsOn, hp] at hact
      cases hact
    | ptySent hp hcl hlock hs | ptySendFailed hp hcl hlock hs =>
      rw [actsOn, hp] at hact
      cases hact
      simp only [setConn_self]
      obtain ⟨-, -, hdead, hauth, -⟩ := serverSendStdout_refs hs
      exact .of_live hcl rfl hauth hdead (serverSendStdout_liveSeq hs).1 id
    | ptyMarkedDead hp hrel =>
      rw [actsOn, hp] at hact
      cases hact
      obtain ⟨c', rfl, hsh, -⟩ := exists_of_eq_some (h.markDead hp) hrel
      simp only [Function.update_self]
      exact .of_shaken hsh
  · exact .of_shaken (shaken_of_moves h hm hact)

/-- Only a connection that is accepted joins the list. -/
theorem list_of_moves (h : RefInv s) (hm : Moves s a t) :
    (t.count = s.count ∧ ∀ i ∈ t.clients, i ∈ s.clients) ∨
      (t.count = s.count + 1 ∧ t.clients = s.count :: s.clients ∧ (t.conn s.count).cell = .live .new) := by
  cases hm with
  | accept hmain =>
    refine .inr ⟨rfl, rfl, ?_⟩
    simp only [setConn_self]
  | dropped hmain hrel =>
    have hpc := h.starting_of_drop hmain
    obtain ⟨c', rfl, -⟩ := exists_of_eq_some (h.finish (Or.inl hpc)) hrel
    exact .inl ⟨rfl, fun i => List.mem_of_mem_erase⟩
  | finished hpc hrel =>
    obtain ⟨c', rfl, -⟩ := exists_of_eq_some (h.finish (Or.inr hpc)) hrel
    exact .inl ⟨rfl, fun i => List.mem_of_mem_erase⟩
  | mainShut hm hm' hshut | shutdownShut hpc hshut | ptyShut hp hshut =>
    obtain ⟨conn', rfl, -⟩ := exists_of_eq_some h.shut hshut
    exact .inl ⟨rfl, fun i => id⟩
  | ptyNoSnapshot hp hr | ptySnapshot hp hne hr =>
    obtain ⟨conn', rfl, -⟩ := serverSnapshotClients_shaken h.ledger hr
    exact .inl ⟨rfl, fun i => id⟩
  | ptyReleased hp hrel =>
    obtain ⟨conn', rfl, -⟩ := exists_of_eq_some (h.releaseSnapshot hp) hrel
    exact .inl ⟨rfl, fun i => id⟩
  | ptyMarkedDead hp hrel =>
    obtain ⟨c', rfl, -⟩ := exists_of_eq_some (h.markDead hp) hrel
    exact .inl ⟨rfl, fun i => List.mem_of_mem_erase⟩
  | _ => exact .inl ⟨rfl, fun i => id⟩

theorem mem_clients_of_moves (h : RefInv s) (hm : Moves s a t) (hi : i < s.count) (hmem : i ∈ t.clients) : i ∈ s.clients := by
  rcases list_of_moves h hm with ⟨-, hsub⟩ | ⟨-, hlist, -⟩
  · exact hsub i hmem
  · rw [hlist] at hmem
    exact List.mem_of_ne_of_mem (Nat.ne_of_lt hi) hmem

theorem new_of_moves (h : RefInv s) (hm : Moves s a t) (hi : s.count ≤ i) {cl : Client} (hcl : (t.conn i).cell = .live cl) :
    cl = .new := by
  have hborn : i < t.count := by
    by_contra hle
    cases hcl.symm.trans (((refInv_moves h hm).conns i).fresh.2 (Nat.le_of_not_lt hle))
  rcases list_of_moves h hm with ⟨hcount, -⟩ | ⟨hcount, -, hnew⟩
  · omega
  · obtain rfl : i = s.count := by omega
    exact Cell.live.inj (hcl.symm.trans hnew)

/-! ## Clients that are settled -/

/-- The thread of an authenticated client does not attach it again. -/
def Settled (s : Sys) : Prop := ∀ i cl, (s.conn i).cell = .live cl → cl.authenticated = true → (s.conn i).pc.isEarly = false

theorem Settled.step (h : RefInv s) (hs : Settled s) (hm : Moves s a t) : Settled t := by
  intro i cl' hcl' hauth
  by_cases hi : i < s.count
  · have hf := forward_of_moves h hm hi
    obtain ⟨cl, hcl, ha, -⟩ := hf.cell cl' hcl'
    rcases ha hauth with ha | hearly
    · exact hf.pc (hs i cl hcl ha)
    · exact hearly
  · rw [new_of_moves h hm (Nat.le_of_not_lt hi) hcl'] at hauth
    cases hauth

/-- A connection that is caught up stays so. -/
theorem CaughtUp.step {endSeq : UInt64} (h : RefInv s) (hm : Moves s a t) (hi : i < s.count) (hpc : (s.conn i).pc.isEarly = false)
    (hc : CaughtUp endSeq s i) : CaughtUp endSeq t i := by
  have hf := forward_of_moves h hm hi
  have ht := refInv_moves h hm
  rcases hc with ⟨cl, hcl, hseq⟩ | ⟨hout, hdead⟩
  · cases hcell : (t.conn i).cell with
    | live cl' =>
      obtain ⟨cl₀, hcl₀, -, hle, -⟩ := hf.cell cl' hcell
      rw [hcl] at hcl₀
      cases hcl₀
      exact .inl ⟨cl', hcell, UInt64.le_trans hseq (hle hpc)⟩
    | fresh =>
      refine .inr ⟨fun hmem => ?_, fun cl' hcl' => ?_⟩
      · obtain ⟨cl', hcl'⟩ := ht.ledger.live_of_mem hmem
        cases hcell.symm.trans hcl'
      · cases hcell.symm.trans hcl'
    | freed =>
      refine .inr ⟨fun hmem => ?_, fun cl' hcl' => ?_⟩
      · obtain ⟨cl', hcl'⟩ := ht.ledger.live_of_mem hmem
        cases hcell.symm.trans hcl'
      · cases hcell.symm.trans hcl'
  · refine .inr ⟨fun hmem => hout (mem_clients_of_moves h hm hi hmem), fun cl' hcl' => ?_⟩
    obtain ⟨cl, hcl, -, -, hd⟩ := hf.cell cl' hcl'
    exact hd (hdead cl hcl)

/-! ## The broadcast -/

/-- The broadcast of this chunk is not done with client `i`. -/
def Pending (seq : UInt64) (data : List UInt8) (i : Nat) : PtyPc → Prop
  | .send seq' data' _ todo => seq' = seq ∧ data' = data ∧ i ∈ todo
  | .markDead seq' data' _ j todo => seq' = seq ∧ data' = data ∧ (i = j ∨ i ∈ todo)
  | _ => False

theorem not_pending_of_idle {seq : UInt64} {data : List UInt8} {p : PtyPc} (h : p.isIdle = true) : ¬Pending seq data i p := by
  cases p with
  | append chunk | snapshot seq chunk | send seq chunk snap todo | markDead seq chunk snap j todo => cases h
  | read | closeListener | shutdownClients | awaitChild | done => exact id

/-- What holds of a client of the snapshot: the broadcast will come to it, or it is caught up. -/
structure Tracked (seq : UInt64) (data : List UInt8) (i : Nat) (s : Sys) : Prop where
  refs : RefInv s
  born : i < s.count
  settled : (s.conn i).pc.isEarly = false
  reached : Pending seq data i s.pty ∨ CaughtUp (seq + UInt64.ofNat data.length) s i

/-- The PTY thread comes nearer to a client that the broadcast is not done with. -/
theorem reached_of_pending {seq : UInt64} {data : List UInt8} (h : RefInv s) (hm : Moves s a t) (hp : Pending seq data i s.pty) :
    Pending seq data i t.pty ∨ CaughtUp (seq + UInt64.ofNat data.length) t i := by
  cases hm with
  | dropped hmain hrel =>
    have hpc := h.starting_of_drop hmain
    obtain ⟨c', rfl, -⟩ := exists_of_eq_some (h.finish (Or.inl hpc)) hrel
    exact .inl hp
  | finished hpc hrel =>
    obtain ⟨c', rfl, -⟩ := exists_of_eq_some (h.finish (Or.inr hpc)) hrel
    exact .inl hp
  | mainShut hm hm' hshut | shutdownShut hpc hshut =>
    obtain ⟨conn', rfl, -⟩ := exists_of_eq_some h.shut hshut
    exact .inl hp
  | ptyQuiet hidle hidle' ha => exact absurd hp (not_pending_of_idle hidle)
  | ptyGot hpty h0 hlen | ptyAppend hpty hr | ptyNoSnapshot hpty hr | ptySnapshot hpty hne hr | ptyShut hpty hshut =>
    rw [hpty] at hp
    cases hp
  | ptyReleased hpty hrel =>
    rw [hpty] at hp
    cases hp.2.2
  | ptySent hpty hcl hlock hs =>
    rename_i alloc seq' data' snap j todo cl cl' sock
    rw [hpty] at hp
    obtain ⟨rfl, rfl, hmem⟩ := hp
    rcases List.mem_cons.1 hmem with rfl | hmem
    · refine .inr (.inl ⟨cl', ?_, (serverSendStdout_liveSeq hs).2 rfl⟩)
      simp only [setConn_self]
    · exact .inl ⟨rfl, rfl, hmem⟩
  | ptySendFailed hpty hcl hlock hs =>
    rw [hpty] at hp
    obtain ⟨rfl, rfl, hmem⟩ := hp
    exact .inl ⟨rfl, rfl, List.mem_cons.1 hmem⟩
  | ptyMarkedDead hpty hrel =>
    obtain ⟨c', rfl, -, hdead, -⟩ := exists_of_eq_some (h.markDead hpty) hrel
    rw [hpty] at hp
    obtain ⟨rfl, rfl, rfl | hmem⟩ := hp
    · refine .inr (.inr ⟨h.ledger.nodup.not_mem_erase, fun cl hcl => hdead cl ?_⟩)
      simp only [Function.update_self] at hcl
      exact hcl
    · exact .inl ⟨rfl, rfl, hmem⟩
  | _ => exact .inl hp

theorem Tracked.step {seq : UInt64} {data : List UInt8} (h : Tracked seq data i s) (hstep : step s a = .next t) :
    Tracked seq data i t := by
  have hm := step_moves hstep
  have hborn : i < t.count := by
    rcases list_of_moves h.refs hm with ⟨hcount, -⟩ | ⟨hcount, -, -⟩
    · exact hcount ▸ h.born
    · exact hcount ▸ Nat.lt_succ_of_lt h.born
  refine ⟨refInv_moves h.refs hm, hborn, (forward_of_moves h.refs hm h.born).pc h.settled, ?_⟩
  rcases h.reached with hp | hc
  · exact reached_of_pending h.refs hm hp
  · exact .inr (CaughtUp.step h.refs hm h.born h.settled hc)

theorem settled_exec {cfg : Config} {ring : Ring} {master : Sink Errno} (hring : ring.Bounded) {acts : List Act}
    (h : exec step (Sys.init cfg ring master) acts = .next s) : RefInv s ∧ Settled s := by
  have hinit : RefInv (Sys.init cfg ring master) ∧ Settled (Sys.init cfg ring master) := by
    refine ⟨refInv_init hring, fun i cl hcl => ?_⟩
    cases hcl
  refine invariant (Q := fun _ => True) (P := fun s => RefInv s ∧ Settled s) (fun s a t hs _ hstep => ?_) hinit (fun _ _ => trivial) h
  exact ⟨refInv_moves hs.1 (step_moves hstep), hs.2.step hs.1 (step_moves hstep)⟩

/-- The call of the function changes nothing. -/
theorem refInv_broadcasting (h : RefInv s) (hidle : s.pty.held = []) (seq : UInt64) (data : List UInt8) :
    RefInv (s.broadcasting seq data) := by
  refine ⟨h.ledger.of_owners fun j => ?_, h.conns, ⟨List.nodup_nil, fun i hi => ?_, by rintro _ ⟨⟩⟩, h.ring⟩
  · rw [Sys.owners, Sys.owners, hidle]
    rfl
  · cases hi

variable {seq : UInt64} {data : List UInt8}

theorem step_broadcasting (s : Sys) (seq : UInt64) (data : List UInt8) (calloc : Bool) :
    step (s.broadcasting seq data) (.pty calloc) =
      .ofOption ((serverSnapshotClients (s.broadcasting seq data) calloc).map fun r =>
        if r.2.length = 0 then { r.1 with pty := .read } else { r.1 with pty := .send seq data r.2 r.2 }) := rfl

/-- Without memory for the snapshot the broadcast returns 0 at once, and nothing was sent. -/
theorem step_of_no_memory (h : RefInv (s.broadcasting seq data)) :
    step (s.broadcasting seq data) (.pty false) = .next { s with pty := .read } := by
  have hempty : serverSnapshotClients (s.broadcasting seq data) false = some (s.broadcasting seq data, []) := by
    simp only [serverSnapshotClients, listLive_of_ledger h.ledger, if_true, Bool.false_eq_true, if_false, ite_self]
  rw [step_broadcasting, hempty]
  rfl

/-- With memory for it the broadcast comes to every attached client. -/
theorem tracked_of_snapshot (h : RefInv (s.broadcasting seq data)) (hs : Settled s) (hi : i ∈ s.clients)
    (hatt : (s.conn i).isAttached = true) (hstep : step (s.broadcasting seq data) (.pty true) = .next t) : Tracked seq data i t := by
  have hm := step_moves hstep
  obtain ⟨cl, hcl, hauth⟩ : ∃ cl, (s.conn i).cell = .live cl ∧ cl.authenticated = true := by
    unfold Conn.isAttached at hatt
    split at hatt
    · rename_i cl hcl
      exact ⟨cl, hcl, (Bool.and_eq_true_iff.1 hatt).1⟩
    · cases hatt
  have hborn : i < s.count := by
    by_contra hle
    cases hcl.symm.trans ((h.conns i).fresh.2 (Nat.le_of_not_lt hle))
  have hmem : i ∈ s.clients.filter fun j => (s.conn j).isAttached := List.mem_filter.2 ⟨hi, hatt⟩
  have hpending : Pending seq data i t.pty := by
    rcases serverSnapshotClients_spec h.ledger true with ⟨-, hnil⟩ | ⟨hne, hsnap, -⟩
    · rw [show (s.clients.filter fun j => (s.conn j).isAttached) = [] from hnil rfl] at hmem
      cases hmem
    · rw [step_broadcasting, hsnap, Option.map_some, if_neg (fun h0 => hne (List.eq_nil_of_length_eq_zero h0))] at hstep
      cases hstep
      exact ⟨rfl, rfl, hmem⟩
  have hcount : i < t.count := by
    rcases list_of_moves h hm with ⟨hcount, -⟩ | ⟨hcount, -, -⟩
    · exact hcount ▸ hborn
    · exact hcount ▸ Nat.lt_succ_of_lt hborn
  exact ⟨refInv_moves h hm, hcount, (forward_of_moves h hm hborn).pc (hs i cl hcl hauth), .inl hpending⟩

end BroadcastAux

open BroadcastAux

/-- When a broadcast reports truly. In every state that the server reaches with the PTY thread outside a broadcast, for every chunk and
every order in which the other threads go on, whatever send or allocation of a frame fails: a return of 0 means that every client
that was attached when the snapshot was taken has the whole chunk, or is dead and out of the list, exactly when the snapshot was
allocated or there was no attached client. -/
theorem broadcast_reports_truly_iff (cfg : Config) (malloc : Alloc UInt8) (capacity : UInt64) (ring : Ring)
    (hinit : optyRingInit malloc (.ok ()) capacity = .ok ring) (master : Sink Errno) (acts : List Act) (s : Sys)
    (hs : exec step (Sys.init cfg ring master) acts = .next s) (hidle : s.pty.held = []) (seq : UInt64) (data : List UInt8)
    (calloc : Bool) :
    ReportsTruly s seq data calloc ↔ calloc = true ∨ ∀ i ∈ s.clients, (s.conn i).isAttached = false := by
  obtain ⟨href, hsettled⟩ := settled_exec (represents_init hinit).2.bounded hs
  have href' := refInv_broadcasting href hidle seq data
  constructor
  · intro h
    cases calloc with
    | true => exact .inl rfl
    | false =>
      refine .inr fun i hi => ?_
      have hrun : exec step (s.broadcasting seq data) [.pty false] = .next { s with pty := .read } := by
        rw [exec, step_of_no_memory href']
        rfl
      cases hatt : (s.conn i).isAttached with
      | false => rfl
      | true => exact absurd ⟨rfl, i, hi, hatt⟩ (h [] _ hrun rfl).2
  · rintro hcond acts t hrun hread
    have hnot : ¬SnapshotFails s calloc := by
      rintro ⟨rfl, i, hi, hatt⟩
      rcases hcond with hcond | hcond
      · cases hcond
      · cases hatt.symm.trans (hcond i hi)
    refine ⟨fun i hi hatt => ?_, hnot⟩
    cases calloc with
    | false => exact absurd ⟨rfl, i, hi, hatt⟩ hnot
    | true =>
      obtain ⟨s₁, hstep, hrest⟩ := exec_cons hrun
      have htracked := invariant (Q := fun _ => True) (P := Tracked seq data i) (fun _ _ _ h _ hstep => h.step hstep)
        (tracked_of_snapshot href' hsettled hi hatt hstep) (fun _ _ => trivial) hrest
      rcases htracked.reached with hpending | hcaught
      · rw [hread] at hpending
        cases hpending
      · exact hcaught

/-- A snapshot that is allocated: the client that attached with a HELLO is sent what the terminal says, or dropped. -/
theorem broadcast_reports_truly_hello : ∃ ring s, optyRingInit zeroAlloc (.ok ()) 5 = .ok ring ∧
    exec step (Sys.init ⟨none, none⟩ ring {}) (helloRun.take 9) = .next s ∧ s.pty = .snapshot 0 [104, 105] ∧
    ReportsTruly s 0 [104, 105] true := by
  obtain ⟨ring, hinit⟩ := optyRingInit_ok zeroAlloc 5 (by decide) rfl
  have hrun : (exec step (Sys.init ⟨none, none⟩ ring {}) (helloRun.take 9)).passes
      (fun s => s.pty == .snapshot 0 [104, 105]) = true := by
    cases hinit
    decide +kernel
  obtain ⟨s, hs, htest⟩ := Outcome.passes_iff.1 hrun
  have hpty := beq_iff_eq.1 htest
  refine ⟨ring, s, hinit, hs, hpty, ?_⟩
  exact (broadcast_reports_truly_iff ⟨none, none⟩ zeroAlloc 5 ring hinit {} (helloRun.take 9) s hs (by rw [hpty]; rfl) 0 [104, 105]
    true).2 (.inl rfl)

/-- The client is in the list and not dead, and has not been sent all before `endSeq`. -/
def Sys.behind (s : Sys) (i : Nat) (endSeq : UInt64) : Bool :=
  s.clients.contains i &&
    match (s.conn i).cell with
    | .live cl => !cl.dead && cl.liveSeq < endSeq
    | _ => false

theorem Sys.not_caughtUp_of_behind {s : Sys} {i : Nat} {endSeq : UInt64} (h : s.behind i endSeq = true) : ¬CaughtUp endSeq s i := by
  rw [Sys.behind, Bool.and_eq_true] at h
  obtain ⟨hlist, hcell⟩ := h
  split at hcell
  · rename_i cl hcl
    rw [Bool.and_eq_true, Bool.not_eq_true', decide_eq_true_iff] at hcell
    rintro (⟨cl', hcl', hle⟩ | ⟨hout, -⟩)
    · rw [hcl] at hcl'
      cases hcl'
      exact absurd hle (UInt64.not_le.2 hcell.2)
    · exact hout (List.contains_iff_mem.1 hlist)
  · cases hcell

/-- A snapshot that cannot be allocated: the client that attached with a HELLO stays in the list without what the terminal said, and the
broadcast returns 0. -/
theorem failed_snapshot_leaves_hole : ∃ ring s t, optyRingInit zeroAlloc (.ok ()) 5 = .ok ring ∧
    exec step (Sys.init ⟨none, none⟩ ring {}) (helloRun.take 9) = .next s ∧ s.pty = .snapshot 0 [104, 105] ∧
    step s (.pty false) = .next t ∧ t.pty = .read ∧ t.behind 0 2 = true ∧ ¬ReportsTruly s 0 [104, 105] false := by
  obtain ⟨ring, hinit⟩ := optyRingInit_ok zeroAlloc 5 (by decide) rfl
  have hrun : (exec step (Sys.init ⟨none, none⟩ ring {}) (helloRun.take 9)).passes (fun s =>
      s.pty == .snapshot 0 [104, 105] && (s.clients.contains 0 && (s.conn 0).isAttached) &&
        (step s (.pty false)).passes fun t => t.pty == .read && t.behind 0 2) = true := by
    cases hinit
    decide +kernel
  obtain ⟨s, hs, htest⟩ := Outcome.passes_iff.1 hrun
  rw [Bool.and_eq_true, Bool.and_eq_true, Bool.and_eq_true, beq_iff_eq] at htest
  obtain ⟨⟨hpty, hlist, hatt⟩, hnext⟩ := htest
  obtain ⟨t, hstep, ht⟩ := Outcome.passes_iff.1 hnext
  rw [Bool.and_eq_true, beq_iff_eq] at ht
  refine ⟨ring, s, t, hinit, hs, hpty, hstep, ht.1, ht.2, fun h => ?_⟩
  have hsame : s.broadcasting 0 [104, 105] = s := by rw [Sys.broadcasting, ← hpty]
  have hexec : exec step (s.broadcasting 0 [104, 105]) [.pty false] = .next t := by
    rw [hsame, exec, hstep]
    rfl
  exact Sys.not_caughtUp_of_behind ht.2 ((h [] t hexec ht.1).1 0 (List.contains_iff_mem.1 hlist) hatt)

end ZeroPty
