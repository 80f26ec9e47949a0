import ZeroPty.Lemmas.References

/-!
# What a connection may do before it is authenticated

`AuthInv` follows one connection from its first byte on: what its thread may do next depends on its first frame alone, and until
it is attached nothing but one ERROR is written to its socket.
-/

namespace ZeroPty

open Stream Memory Transition ReferencesAux

/-- The first frame of what the peer sends is an authorised intro. -/
def Attachable (cfg : Config) (wire : List UInt8) : Prop := ∃ f rest i, wire = frameBytes f ++ rest ∧ Authorised cfg f i

/-- The first frame of what the peer sends is an authorised control message with this input. -/
def Stoppable (cfg : Config) (wire input : List UInt8) : Prop :=
  ∃ f rest, wire = frameBytes f ++ rest ∧ ControlAuthorised cfg f input

/-- The thread is past an accepted intro. -/
def ThreadPc.isAdmitted : ThreadPc → Bool
  | .resizeIntro _ | .attach _ | .sendWelcome _ | .sendReplay _ | .recvLoop | .writePty _ | .resizeLoop _ _ => true
  | _ => false

/-- The thread is past everything it may send. -/
def ThreadPc.isOver : ThreadPc → Bool
  | .finish | .done => true
  | _ => false

/-- The thread has not read the first frame yet. -/
def ThreadPc.isFirst : ThreadPc → Bool
  | .starting | .recvFirst => true
  | _ => false

/-- The thread is about to stop the server for its peer. -/
def ThreadPc.asksStop : ThreadPc → Bool
  | .shutdownInput _ => true
  | _ => false

theorem ThreadPc.not_first {p : ThreadPc} (h : p.isFirst = false) : ¬(p = .starting ∨ p = .recvFirst) := by
  rintro (rfl | rfl) <;> cases h

theorem ThreadPc.not_shutdownInput {p : ThreadPc} (h : p.asksStop = false) (input : List UInt8) : p ≠ .shutdownInput input := by
  rintro rfl
  cases h

/-- What holds of a connection. -/
structure AuthInv (cfg : Config) (c : Conn) : Prop where
  unread : c.pc = .starting ∨ c.pc = .recvFirst → c.input.bytes = c.wire
  admitted : c.pc.isAdmitted = true → Attachable cfg c.wire
  stopping : ∀ input, c.pc = .shutdownInput input → Stoppable cfg c.wire input
  attached : c.attached ≠ none → Attachable cfg c.wire
  sending : c.pc.isSending = true → c.attached ≠ none
  authenticated : ∀ cl, c.cell = .live cl → cl.authenticated = true → c.attached ≠ none
  silent : c.attached = none → (∃ (t : ErrorText) (k : Nat), c.sock.written = (frameBytes t.frame).take k) ∧
    (c.pc.isOver = false → c.sock.written = [])

/-- What the terminal may receive because of a connection. -/
def Justified (cfg : Config) (wire : List UInt8) (e : PtyEffect) : Prop :=
  Attachable cfg wire ∨ ∃ input k, Stoppable cfg wire input ∧ e = .bytes (input.take k)

/-- What holds of the server. -/
structure AuthSys (cfg : Config) (s : Sys) : Prop where
  cfg_eq : s.cfg = cfg
  conns : ∀ i, AuthInv cfg (s.conn i)
  effects : ∀ i e, (i, e) ∈ s.effects → i < s.count ∧ Justified cfg (s.conn i).wire e
  requests : ∀ i ∈ s.requests, i < s.count ∧ ∃ input, Stoppable cfg (s.conn i).wire input
  held : ∀ i ∈ s.pty.held, (s.conn i).attached ≠ none

theorem AuthInv.shaken {cfg : Config} {c c' : Conn} (h : AuthInv cfg c) (hs : Shaken c c') : AuthInv cfg c' where
  unread := by rw [hs.pc, hs.input, hs.wire]; exact h.unread
  admitted := by rw [hs.pc, hs.wire]; exact h.admitted
  stopping := by rw [hs.pc, hs.wire]; exact h.stopping
  attached := by rw [hs.attached, hs.wire]; exact h.attached
  sending := by rw [hs.pc, hs.attached]; exact h.sending
  authenticated := by
    intro cl' hcl' ha
    obtain ⟨cl, hcl, ha', -⟩ := hs.cell cl' hcl'
    rw [hs.attached]
    exact h.authenticated cl hcl (ha' ▸ ha)
  silent := by rw [hs.pc, hs.attached, hs.written]; exact h.silent

/-- The thread goes on; the socket and the client are as they were. -/
theorem AuthInv.goOn {cfg : Config} {c : Conn} (h : AuthInv cfg c) {q : ThreadPc} {x : Source Errno}
    (hover : c.pc.isOver = false) (hstart : q.isFirst = false)
    (hadm : q.isAdmitted = true → Attachable cfg c.wire)
    (hstop : ∀ input, q = .shutdownInput input → Stoppable cfg c.wire input) (hsend : q.isSending = false) :
    AuthInv cfg { c with pc := q, input := x } where
  unread := fun hpc => absurd hpc (ThreadPc.not_first hstart)
  admitted := hadm
  stopping := hstop
  attached := h.attached
  sending := fun hs => by rw [hsend] at hs; cases hs
  authenticated := h.authenticated
  silent := fun hn => ⟨(h.silent hn).1, fun _ => (h.silent hn).2 hover⟩

/-- The thread of an admitted peer goes on in the same way. -/
theorem AuthInv.admitAs {cfg : Config} {c : Conn} (h : AuthInv cfg c) {q : ThreadPc} {x : Source Errno}
    (hadm : c.pc.isAdmitted = true) (hstart : q.isFirst = false)
    (hstop : q.asksStop = false) (hsend : q.isSending = false) :
    AuthInv cfg { c with pc := q, input := x } := by
  refine h.goOn ?_ hstart (fun _ => h.admitted hadm) (fun input he => absurd he (ThreadPc.not_shutdownInput hstop input)) hsend
  cases hpc : c.pc with
  | finish | done => rw [hpc] at hadm; cases hadm
  | _ => rfl

/-- The thread ends. -/
theorem AuthInv.over {cfg : Config} {c : Conn} (h : AuthInv cfg c) {q : ThreadPc} (hover : q.isOver = true) :
    AuthInv cfg { c with pc := q } := by
  have hend : q = .finish ∨ q = .done := by
    cases q <;> simp_all [ThreadPc.isOver]
  refine ⟨?_, ?_, ?_, h.attached, ?_, h.authenticated, fun hn => ⟨(h.silent hn).1, ?_⟩⟩
  · rintro (rfl | rfl) <;> cases hover
  · rcases hend with rfl | rfl <;> nofun
  · rcases hend with rfl | rfl <;> nofun
  · rcases hend with rfl | rfl <;> nofun
  · intro hno
    rw [hover] at hno
    cases hno

/-- What is known once a connection is attached. -/
theorem AuthInv.of_attached {cfg : Config} {c : Conn} (ha : c.attached ≠ none) (h : Attachable cfg c.wire)
    (hstart : c.pc.isFirst = false) (hstop : c.pc.asksStop = false) : AuthInv cfg c where
  unread := fun hpc => absurd hpc (ThreadPc.not_first hstart)
  admitted := fun _ => h
  stopping := fun input hpc => absurd hpc (ThreadPc.not_shutdownInput hstop input)
  attached := fun _ => h
  sending := fun _ => ha
  authenticated := fun _ _ _ => ha
  silent := fun hn => absurd hn ha

theorem AuthInv.of_isAttached {cfg : Config} {c : Conn} (h : AuthInv cfg c) (ha : c.isAttached = true) : c.attached ≠ none := by
  unfold Conn.isAttached at ha
  split at ha
  · rename_i cl hcl
    rw [Bool.and_eq_true] at ha
    exact h.authenticated cl hcl ha.1
  · cases ha

/-- The server after an action that is about connection `i`. -/
theorem AuthSys.update {cfg : Config} {s t : Sys} (h : AuthSys cfg s) {i : Nat} (hcfg : t.cfg = s.cfg) (hcount : t.count = s.count)
    (hother : ∀ j, j ≠ i → Shaken (s.conn j) (t.conn j)) (hi : AuthInv cfg (t.conn i)) (hwire : (t.conn i).wire = (s.conn i).wire)
    (hatt : (s.conn i).attached ≠ none → (t.conn i).attached ≠ none)
    (heff : ∀ j e, (j, e) ∈ t.effects → (j, e) ∈ s.effects ∨ (j = i ∧ i < s.count ∧ Justified cfg (s.conn i).wire e))
    (hreq : ∀ j ∈ t.requests, j ∈ s.requests ∨ (j = i ∧ i < s.count ∧ ∃ input, Stoppable cfg (s.conn i).wire input))
    (hheld : ∀ j ∈ t.pty.held, j ∈ s.pty.held ∨ (s.conn j).attached ≠ none) : AuthSys cfg t := by
  have hw : ∀ j, (t.conn j).wire = (s.conn j).wire := by
    intro j
    by_cases hj : j = i
    · rw [hj, hwire]
    · exact (hother j hj).wire
  refine ⟨hcfg.trans h.cfg_eq, fun j => ?_, fun j e he => ?_, fun j hj => ?_, fun j hj => ?_⟩
  · by_cases hj : j = i
    · exact hj ▸ hi
    · exact (h.conns j).shaken (hother j hj)
  · rw [hcount, hw]
    rcases heff j e he with he | ⟨rfl, hlt, hj⟩
    · exact h.effects j e he
    · exact ⟨hlt, hj⟩
  · rw [hcount, hw]
    rcases hreq j hj with hj | ⟨rfl, hlt, hj⟩
    · exact h.requests j hj
    · exact ⟨hlt, hj⟩
  · have ha := (hheld j hj).elim (h.held j) id
    by_cases hij : j = i
    · subst hij
      exact hatt ha
    · rw [(hother j hij).attached]
      exact ha

/-- The server after an action that shakes its connections, at most. -/
theorem AuthSys.shaken {cfg : Config} {s t : Sys} (h : AuthSys cfg s) (hcfg : t.cfg = s.cfg) (hcount : t.count = s.count)
    (hsh : ∀ j, Shaken (s.conn j) (t.conn j)) (heff : t.effects = s.effects) (hreq : t.requests = s.requests)
    (hheld : ∀ j ∈ t.pty.held, j ∈ s.pty.held ∨ (s.conn j).attached ≠ none) : AuthSys cfg t :=
  h.update (i := 0) hcfg hcount (fun j _ => hsh j) ((h.conns 0).shaken (hsh 0)) (hsh 0).wire
    (by rw [(hsh 0).attached]; exact id) (fun j e he => Or.inl (heff ▸ he)) (fun j hj => Or.inl (hreq ▸ hj)) hheld

/-- A thread that has not finished belongs to a connection that was accepted. -/
theorem RefInv.lt_count {s : Sys} (h : RefInv s) {i : Nat} (hpc : (s.conn i).pc ≠ .done) : i < s.count := by
  by_contra hle
  exact hpc ((h.conns i).unborn (Nat.le_of_not_lt hle))

/-- The thread of a connection goes on, or ends. -/
theorem AuthSys.setConn {cfg : Config} {s : Sys} (h : AuthSys cfg s) {i : Nat} {d : Conn} (hi : AuthInv cfg d)
    (hwire : d.wire = (s.conn i).wire) (hatt : (s.conn i).attached ≠ none → d.attached ≠ none) : AuthSys cfg (s.setConn i d) := by
  refine h.update rfl rfl (fun j hj => shaken_setConn d hj) ?_ ?_ ?_ (fun j e he => Or.inl he) (fun j hj => Or.inl hj)
    (fun j hj => Or.inl hj)
  · simp only [Sys.setConn, Function.update_self]
    exact hi
  · simp only [Sys.setConn, Function.update_self]
    exact hwire
  · simp only [Sys.setConn, Function.update_self]
    exact hatt

/-- The thread of an attached connection sends, or fails to. -/
theorem AuthSys.attachedSend {cfg : Config} {s : Sys} (h : AuthSys cfg s) {i : Nat} {cell : Cell Client} {sock : Sink Errno}
    {pc' : ThreadPc} (hsend : (s.conn i).pc.isSending = true) (hstart : pc'.isFirst = false)
    (hstop : pc'.asksStop = false) :
    AuthSys cfg (s.setConn i { s.conn i with cell := cell, pc := pc', sock := sock }) := by
  have hatt := (h.conns i).sending hsend
  exact h.setConn (.of_attached hatt ((h.conns i).attached hatt) hstart hstop) rfl id

/-- The terminal receives something because of a connection. -/
theorem AuthSys.effect {cfg : Config} {s t : Sys} (h : AuthSys cfg s) {i : Nat} {e : PtyEffect} (hi : i < s.count)
    (hj : Justified cfg (s.conn i).wire e) (hcfg : t.cfg = s.cfg) (hconn : t.conn = s.conn) (hcount : t.count = s.count)
    (heff : t.effects = s.effects ++ [(i, e)]) (hreq : t.requests = s.requests) (hpty : t.pty = s.pty) : AuthSys cfg t := by
  refine h.update (i := i) hcfg hcount (fun j _ => hconn ▸ Shaken.refl _) (hconn ▸ h.conns i) (hconn ▸ rfl)
    (hconn ▸ id) (fun j e' he => ?_) (fun j hj => Or.inl (hreq ▸ hj)) (fun j hj => Or.inl (hpty ▸ hj))
  rw [heff, List.mem_append, List.mem_singleton] at he
  rcases he with he | he
  · exact Or.inl he
  · cases he
    exact Or.inr ⟨rfl, hi, hj⟩

/-- The thread of a connection enters `server_request_shutdown`, or does not. -/
theorem AuthSys.request {cfg : Config} {s t : Sys} (h : AuthSys cfg s) {i : Nat} (hi : i < s.count)
    (hreq : ∀ j ∈ t.requests, j ∈ s.requests ∨ (j = i ∧ ∃ input, Stoppable cfg (s.conn i).wire input)) (hcfg : t.cfg = s.cfg)
    (hconn : t.conn = s.conn) (hcount : t.count = s.count) (heff : t.effects = s.effects) (hpty : t.pty = s.pty) :
    AuthSys cfg t :=
  h.update (i := i) hcfg hcount (fun _ _ => hconn ▸ Shaken.refl _) (hconn ▸ h.conns i) (hconn ▸ rfl) (hconn ▸ id)
    (fun _ _ he => Or.inl (heff ▸ he)) (fun j hj => (hreq j hj).imp_right fun ⟨hji, hstop⟩ => ⟨hji, hi, hstop⟩)
    (fun _ hj => Or.inl (hpty ▸ hj))

/-- The client of a connection was released, and its thread is done. -/
theorem AuthSys.finish {cfg : Config} {s : Sys} (h : AuthSys cfg s) {i : Nat} {c' : Conn} {clients : List Nat} {m : MainPc}
    (hsh : Shaken (s.conn i) c') :
    AuthSys cfg { ({ s with conn := Function.update s.conn i c', clients := clients } : Sys).setConn i
      { Function.update s.conn i c' i with pc := .done } with main := m } := by
  have h' : AuthSys cfg { s with conn := Function.update s.conn i c', clients := clients } := by
    refine h.shaken rfl rfl (fun j => ?_) rfl rfl (fun j hj => Or.inl hj)
    by_cases hj : j = i
    · subst hj
      simpa only [Function.update_self] using hsh
    · exact shaken_update _ hj
  exact (h'.setConn ((h'.conns i).over (q := .done) rfl) rfl id).shaken rfl rfl (fun j => Shaken.refl _) rfl rfl
    (fun j hj => Or.inl hj)

/-- The PTY thread sent to a client of its snapshot. -/
theorem AuthSys.sent {cfg : Config} {s : Sys} (h : AuthSys cfg s) {i : Nat} (hi : i ∈ s.pty.held) {cell : Cell Client}
    {sock : Sink Errno} {p : PtyPc} (hp : p.held = s.pty.held) :
    AuthSys cfg { s.setConn i { s.conn i with cell := cell, sock := sock } with pty := p } := by
  have hatt := h.held i hi
  have hc := h.conns i
  refine h.update (i := i) rfl rfl (fun j hj => shaken_setConn _ hj) ?_ ?_ ?_ (fun j e he => Or.inl he)
    (fun j hj => Or.inl hj) (fun j hj => Or.inl (hp ▸ hj))
  · simp only [Sys.setConn, Function.update_self]
    exact ⟨hc.unread, hc.admitted, hc.stopping, hc.attached, fun _ => hatt, fun _ _ _ => hatt, fun hn => absurd hn hatt⟩
  · simp only [Sys.setConn, Function.update_self]
  · simp only [Sys.setConn, Function.update_self]
    exact id

/-- A frame received is the first of the stream. -/
theorem recv_first {malloc : Bool} {fd : Source Errno} {limit : Nat} {f : Frame}
    (h : (optyRecvFrameLimited malloc fd limit).1 = .ok (some f)) : ∃ rest, fd.bytes = frameBytes f ++ rest := by
  obtain ⟨r, fd', heq, -, hc⟩ := optyRecvFrameLimited_cases malloc fd limit
  rw [heq] at h
  rcases hc with ⟨g, hr, hb, -⟩ | ⟨hr, -⟩ | ⟨n, hr, -⟩ | ⟨hr, -⟩ | ⟨e, hr, -⟩
  · cases hr.symm.trans h
    exact ⟨_, hb⟩
  · cases hr.symm.trans h
  · cases hr.symm.trans h
  · cases hr.symm.trans h
  · cases hr.symm.trans h

/-- Where the first frame of a connection leads: what is received is the first of everything the peer sends. -/
theorem AuthSys.first {cfg : Config} {s : Sys} (h : AuthSys cfg s) {i : Nat} {env : Env} {move : FirstMove}
    (hpc : (s.conn i).pc = .recvFirst)
    (hmove : firstMove s.cfg (optyRecvFrameLimited env.alloc (s.conn i).input optyMaxUnauthPayload).1 = some move) :
    (∀ intro, move = .intro intro → ∃ f rest, (s.conn i).wire = frameBytes f ++ rest ∧ Authorised cfg f intro) ∧
      ∀ input, move = .shutdown input → Stoppable cfg (s.conn i).wire input := by
  obtain ⟨move', hmove', hintro, hstop⟩ := firstMove_spec s.cfg
    (optyRecvFrameLimited env.alloc (s.conn i).input optyMaxUnauthPayload).1
  rw [hmove] at hmove'
  cases hmove'
  have hfirst : ∀ f, (optyRecvFrameLimited env.alloc (s.conn i).input optyMaxUnauthPayload).1 = .ok (some f) →
      ∃ rest, (s.conn i).wire = frameBytes f ++ rest := by
    intro f hf
    rw [← (h.conns i).unread (Or.inr hpc)]
    exact recv_first hf
  constructor
  · intro intro hmv
    obtain ⟨f, hf, hauth⟩ := (hintro intro).1 hmv
    obtain ⟨rest, hrest⟩ := hfirst f hf
    exact ⟨f, rest, hrest, h.cfg_eq ▸ hauth⟩
  · intro input hmv
    obtain ⟨f, hf, hauth⟩ := (hstop input).1 hmv
    obtain ⟨rest, hrest⟩ := hfirst f hf
    exact ⟨f, rest, hrest, h.cfg_eq ▸ hauth⟩

/-- Every action keeps what holds of the server. -/
theorem authSys_moves {cfg : Config} {s t : Sys} {a : Act} (href : RefInv s) (h : AuthSys cfg s) (hm : Moves s a t) :
    AuthSys cfg t := by
  cases hm with
  | acceptFailed => exact h
  | accept hmain =>
    rename_i input sched
    have hlt : ∀ {j : Nat}, j < s.count → j ≠ s.count := fun hj => Nat.ne_of_lt hj
    refine ⟨h.cfg_eq, fun j => ?_, fun j e he => ?_, fun j hj => ?_, fun j hj => ?_⟩
    · by_cases hj : j = s.count
      · subst hj
        simp only [Sys.setConn, Function.update_self]
        refine ⟨fun _ => rfl, by rintro ⟨⟩, by rintro _ ⟨⟩, fun ha => absurd rfl ha, by rintro ⟨⟩, ?_,
          fun _ => ⟨⟨.badIntro, 0, rfl⟩, fun _ => rfl⟩⟩
        rintro cl ⟨⟩ ha
        cases ha
      · exact (h.conns j).shaken (shaken_setConn _ hj)
    · obtain ⟨hj, hjust⟩ := h.effects j e he
      simp only [Sys.setConn, Function.update_of_ne (hlt hj)]
      exact ⟨Nat.lt_succ_of_lt hj, hjust⟩
    · obtain ⟨hj, hstop⟩ := h.requests j hj
      simp only [Sys.setConn, Function.update_of_ne (hlt hj)]
      exact ⟨Nat.lt_succ_of_lt hj, hstop⟩
    · simp only [Sys.setConn, Function.update_of_ne (href.ne_count_of_held hj)]
      exact h.held j hj
  | created hmain =>
    rename_i i
    have hpc := (href.conns i).starting (by rw [hmain]; rfl)
    have hc := h.conns i
    have h' := h.setConn (i := i) (d := { s.conn i with pc := .recvFirst }) ⟨fun _ => hc.unread (Or.inl hpc), by rintro ⟨⟩,
      by rintro _ ⟨⟩, hc.attached, by rintro ⟨⟩, hc.authenticated,
      fun hn => ⟨(hc.silent hn).1, fun _ => (hc.silent hn).2 (by rw [hpc]; rfl)⟩⟩ rfl id
    exact h'.shaken rfl rfl (fun j => Shaken.refl _) rfl rfl (fun j hj => Or.inl hj)
  | createFailed hmain => exact h.shaken rfl rfl (fun j => Shaken.refl _) rfl rfl (fun j hj => Or.inl hj)
  | dropped hmain hrel =>
    have hpc := href.starting_of_drop hmain
    obtain ⟨c', rfl, hsh', -⟩ := exists_of_eq_some (href.finish (Or.inl hpc)) hrel
    exact h.finish hsh'
  | mainQuiet hm hm' => exact h.shaken rfl rfl (fun j => Shaken.refl _) rfl rfl (fun j hj => Or.inl hj)
  | mainShut hm hm' hshut =>
    obtain ⟨conn', rfl, hsh', -⟩ := exists_of_eq_some href.shut hshut
    exact h.shaken rfl rfl (fun j => (hsh' j).1) rfl rfl (fun j hj => Or.inl hj)
  | recvFirst hpc hcl hmove =>
    rename_i i env cl move
    have hc := h.conns i
    have hlt := href.lt_count (i := i) (by rw [hpc]; rintro ⟨⟩)
    obtain ⟨hintro, hstp⟩ := h.first hpc hmove
    have hatt : ∀ intro, move = .intro intro → Attachable cfg (s.conn i).wire := by
      intro intro hmv
      obtain ⟨f, rest, hwire, hauth⟩ := hintro intro hmv
      exact ⟨f, rest, intro, hwire, hauth⟩
    have hgo : AuthInv cfg { s.conn i with
        pc := move.pc, input := (optyRecvFrameLimited env.alloc (s.conn i).input optyMaxUnauthPayload).2 } := by
      refine hc.goOn (by rw [hpc]; rfl) ?_ ?_ ?_ move.pc_running.2
      · cases move <;> rfl
      · cases move with
        | intro intro => exact fun _ => hatt intro rfl
        | finish | sendError text | shutdown input => rintro ⟨⟩
      · cases move with
        | shutdown input => rintro input' ⟨⟩; exact hstp input rfl
        | finish | sendError text | intro intro => rintro _ ⟨⟩
    refine (h.setConn hgo rfl id).request hlt (fun j hj => ?_) rfl rfl rfl rfl rfl
    rcases List.mem_append.1 hj with hj | hj
    · exact Or.inl hj
    · cases move with
      | shutdown input =>
        rw [FirstMove.requests, List.mem_singleton] at hj
        refine Or.inr ⟨hj, input, ?_⟩
        simp only [Sys.setConn, Function.update_self]
        exact hstp input rfl
      | finish | sendError text | intro intro => cases hj
  | sendError hpc hcl hlock =>
    rename_i i env cl text
    have hc := h.conns i
    refine h.setConn ⟨fun hp => absurd hp (ThreadPc.not_first rfl), by rintro ⟨⟩, by rintro _ ⟨⟩, hc.attached, by rintro ⟨⟩,
      hc.authenticated, fun hn => ⟨⟨text, ?_⟩, by rintro ⟨⟩⟩⟩ rfl id
    obtain ⟨k, hk⟩ := (optySendError_sends (s.conn i).sock text).exists_take
    exact ⟨k, by rw [hk, (hc.silent hn).2 (by rw [hpc]; rfl), List.nil_append]⟩
  | resizeIntro hpc =>
    rename_i i env intro
    have hlt := href.lt_count (i := i) (by rw [hpc]; rintro ⟨⟩)
    have hadm : (s.conn i).pc.isAdmitted = true := by rw [hpc]; rfl
    refine (h.setConn ((h.conns i).admitAs (q := .attach intro.requestedSeq) hadm rfl rfl rfl) rfl id).effect hlt
      (Or.inl ?_) rfl rfl rfl rfl rfl rfl
    simp only [Sys.setConn, Function.update_self]
    exact (h.conns i).admitted hadm
  | resizeIntroFailed hpc =>
    exact h.setConn ((h.conns _).admitAs (by rw [hpc]; rfl) rfl rfl rfl) rfl id
  | attach hpc hcl hlock hattach =>
    exact h.setConn (.of_attached (Option.some_ne_none _) ((h.conns _).admitted (by rw [hpc]; rfl)) rfl rfl) rfl
      fun _ => Option.some_ne_none _
  | attachFailed hpc hcl hattach =>
    exact h.setConn ((h.conns _).admitAs (by rw [hpc]; rfl) rfl rfl rfl) rfl id
  | welcome hpc hcl hs => exact h.attachedSend (by rw [hpc]; rfl) rfl rfl
  | welcomeFailed hpc hcl hs => exact h.attachedSend (by rw [hpc]; rfl) rfl rfl
  | replay hpc hcl hs => exact h.attachedSend (by rw [hpc]; rfl) rfl rfl
  | replayFailed hpc hcl hs => exact h.attachedSend (by rw [hpc]; rfl) rfl rfl
  | recvLoop hpc hcl hmove =>
    rename_i i env cl move
    refine h.setConn ((h.conns i).admitAs (by rw [hpc]; rfl) ?_ ?_ move.pc_running.2) rfl id
    · cases move <;> rfl
    · cases move <;> rfl
  | writePty hpc hpc' =>
    rename_i i env payload pc'
    have hlt := href.lt_count (i := i) (by rw [hpc]; rintro ⟨⟩)
    have hadm : (s.conn i).pc.isAdmitted = true := by rw [hpc]; rfl
    refine (h.setConn ((h.conns i).admitAs (q := pc') hadm ?_ ?_ ?_) rfl id).effect hlt (Or.inl ?_) rfl rfl rfl rfl rfl rfl
    · rcases hpc' with rfl | rfl <;> rfl
    · rcases hpc' with rfl | rfl <;> rfl
    · rcases hpc' with rfl | rfl <;> rfl
    · simp only [Sys.setConn, Function.update_self]
      exact (h.conns i).admitted hadm
  | resizeLoop hpc =>
    rename_i i env cols rows
    have hlt := href.lt_count (i := i) (by rw [hpc]; rintro ⟨⟩)
    have hadm : (s.conn i).pc.isAdmitted = true := by rw [hpc]; rfl
    refine (h.setConn ((h.conns i).admitAs (q := .recvLoop) hadm rfl rfl rfl) rfl id).effect hlt
      (Or.inl ?_) rfl rfl rfl rfl rfl rfl
    simp only [Sys.setConn, Function.update_self]
    exact (h.conns i).admitted hadm
  | resizeLoopFailed hpc =>
    exact h.setConn ((h.conns _).admitAs (by rw [hpc]; rfl) rfl rfl rfl) rfl id
  | shutdownInput hpc =>
    rename_i i env input
    have hc := h.conns i
    have hlt := href.lt_count (i := i) (by rw [hpc]; rintro ⟨⟩)
    obtain ⟨k, hk⟩ := serverWritePty_written s.master input
    have hgo := hc.goOn (q := .shutdown .awaitChild) (x := (s.conn i).input) (by rw [hpc]; rfl) rfl (by rintro ⟨⟩)
      (by rintro _ ⟨⟩) rfl
    refine (h.setConn hgo rfl id).effect hlt (Or.inr ⟨input, k, ?_, ?_⟩) rfl rfl rfl rfl rfl rfl
    · simp only [Sys.setConn, Function.update_self]
      exact hc.stopping input hpc
    · rw [hk]
      exact congrArg PtyEffect.bytes (List.drop_left)
  | shutdownStage hpc =>
    rename_i i env stage stage' l
    have hgo := (h.conns i).goOn (q := .shutdown stage') (x := (s.conn i).input) (by rw [hpc]; rfl) rfl (by rintro ⟨⟩)
      (by rintro _ ⟨⟩) rfl
    exact (h.setConn hgo rfl id).shaken rfl rfl (fun j => Shaken.refl _) rfl rfl (fun j hj => Or.inl hj)
  | shutdownShut hpc hshut =>
    rename_i i env stage s₁
    obtain ⟨conn', rfl, hsh', -⟩ := exists_of_eq_some href.shut hshut
    have h' := h.shaken (t := { s with conn := conn' }) rfl rfl (fun j => (hsh' j).1) rfl rfl (fun j hj => Or.inl hj)
    exact h'.setConn ((h'.conns i).over rfl) rfl id
  | finished hpc hrel =>
    obtain ⟨c', rfl, hsh', -⟩ := exists_of_eq_some (href.finish (Or.inr hpc)) hrel
    exact h.finish hsh'
  | ptyQuiet hp hp' =>
    refine h.shaken rfl rfl (fun j => Shaken.refl _) rfl rfl fun j hj => ?_
    rw [(PtyInv.of_idle hp').2] at hj
    cases hj
  | ptyGot hp h0 hlen => exact h.shaken rfl rfl (fun j => Shaken.refl _) rfl rfl (by rintro _ ⟨⟩)
  | ptyAppend hp hr => exact h.shaken rfl rfl (fun j => Shaken.refl _) rfl rfl (by rintro _ ⟨⟩)
  | ptyNoSnapshot hp hr =>
    obtain ⟨rfl, -⟩ := serverSnapshotClients_nil href.ledger hr
    exact h.shaken rfl rfl (fun j => Shaken.refl _) rfl rfl (by rintro _ ⟨⟩)
  | ptySnapshot hp hne hr =>
    obtain ⟨rfl, rfl, -⟩ := serverSnapshotClients_cons href.ledger hne hr
    refine h.shaken rfl rfl (fun j => Shaken.retain _ _) rfl rfl fun j hj => Or.inr ?_
    exact (h.conns j).of_isAttached (List.mem_filter.1 hj).2
  | ptyReleased hp hrel =>
    obtain ⟨conn', rfl, hsh', -⟩ := exists_of_eq_some (href.releaseSnapshot hp) hrel
    exact h.shaken rfl rfl hsh' rfl rfl (by rintro _ ⟨⟩)
  | ptySent hp hcl hlock hs =>
    have hi := href.pty.todo _ (by rw [hp]; exact List.mem_cons_self)
    exact h.sent hi (by rw [hp]; rfl)
  | ptySendFailed hp hcl hlock hs =>
    have hi := href.pty.todo _ (by rw [hp]; exact List.mem_cons_self)
    exact h.sent hi (by rw [hp]; rfl)
  | ptyMarkedDead hp hrel =>
    rename_i alloc seq chunk snap i todo s₁
    obtain ⟨c', rfl, hsh', -⟩ := exists_of_eq_some (href.markDead hp) hrel
    refine h.shaken rfl rfl (fun j => ?_) rfl rfl fun j hj => Or.inl (by rw [hp]; exact hj)
    by_cases hj : j = i
    · subst hj
      simpa only [Function.update_self] using hsh'
    · exact shaken_update _ hj
  | ptyShut hp hshut =>
    obtain ⟨conn', rfl, hsh', -⟩ := exists_of_eq_some href.shut hshut
    exact h.shaken rfl rfl (fun j => (hsh' j).1) rfl rfl (by rintro _ ⟨⟩)

/-- At the start nothing was accepted. -/
theorem authSys_init (cfg : Config) (ring : Ring) (master : Sink Errno) : AuthSys cfg (Sys.init cfg ring master) :=
  ⟨rfl, fun _ => ⟨fun _ => rfl, nofun, nofun, nofun, nofun, nofun, fun _ => ⟨⟨.badIntro, 0, rfl⟩, fun _ => rfl⟩⟩, nofun, nofun,
    nofun⟩

theorem authSys_exec {cfg : Config} {ring : Ring} {master : Sink Errno} (hring : ring.Bounded) {acts : List Act} {s : Sys}
    (hs : exec step (Sys.init cfg ring master) acts = .next s) : AuthSys cfg s :=
  (invariant (Q := fun _ => True) (P := fun s => RefInv s ∧ AuthSys cfg s)
    (fun _ _ _ hp _ hstep => ⟨refInv_moves hp.1 (step_moves hstep), authSys_moves hp.1 hp.2 (step_moves hstep)⟩)
    ⟨refInv_init hring, authSys_init cfg ring master⟩ (fun _ _ => trivial) hs).2

/-- The bytes of an effect. -/
def PtyEffect.data : PtyEffect → List UInt8
  | .bytes data => data
  | .winsize _ _ => []

/-- The bytes of all effects, in order. -/
def effectBytes (effects : List (Nat × PtyEffect)) : List UInt8 := effects.flatMap fun e => e.2.data

/-- What the terminal received is what the connections are recorded to have written to it. -/
theorem master_moves {s t : Sys} {a : Act} {before : List UInt8} (href : RefInv s)
    (h : s.master.written = before ++ effectBytes s.effects) (hm : Moves s a t) :
    t.master.written = before ++ effectBytes t.effects := by
  cases (outputs_of_moves href hm).1 with
  | none hlog hmaster heffects => rw [hmaster, heffects, h]
  | append chunk hlog hmaster heffects => rw [hmaster, heffects, h]
  | wrote i payload hlog hmaster heffects =>
    obtain ⟨k, hk⟩ := serverWritePty_written s.master payload
    rw [heffects, hmaster, hk, List.drop_left, effectBytes, List.flatMap_append, ← List.append_assoc, ← effectBytes, ← h]
    simp [PtyEffect.data]
  | resized i cols rows hlog hmaster heffects =>
    rw [hmaster, heffects, h]
    simp [effectBytes, PtyEffect.data]

/-- An authorised intro is short enough to be told from what follows it. -/
theorem Authorised.short {cfg : Config} {f : Frame} {i : Intro} (h : Authorised cfg f i) : f.payload.length < 2 ^ 32 - 1 := by
  obtain ⟨-, -, token, ht, -, hf⟩ := h
  simp only [optyMaxToken] at ht
  rcases hf with ⟨rfl, -⟩ | rfl
  · simp [Msg.frame, tokenField, optyPutU16]
    omega
  · simp [Msg.frame, tokenField, optyPutU16, optyPutU64]
    omega

/-- A connection that starts with an authorised control message does not start with an authorised intro. -/
theorem Stoppable.not_attachable {cfg : Config} {wire input : List UInt8} (h : Stoppable cfg wire input) : ¬Attachable cfg wire := by
  rintro ⟨f, rest, i, hwire, hauth⟩
  obtain ⟨g, rest', hwire', t, token', -, -, htok', -, hinput, rfl⟩ := h
  have hshort' : (Msg.controlShutdown token' input).frame.payload.length < 2 ^ 32 - 1 := by
    simp only [optyMaxToken, optyMaxGracefulInput] at htok' hinput
    simp [Msg.frame, tokenField, optyPutU16]
    omega
  obtain ⟨rfl, -⟩ := frameBytes_append_inj hauth.short hshort' (hwire.symm.trans hwire')
  obtain ⟨-, -, token, -, -, ⟨hf, -⟩ | hf⟩ := hauth
  · exact absurd (congrArg Frame.type hf) (show msgControlShutdown ≠ msgHello by decide)
  · exact absurd (congrArg Frame.type hf) (show msgControlShutdown ≠ msgReconnect by decide)

end ZeroPty
