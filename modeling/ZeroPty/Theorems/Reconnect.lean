import ZeroPty.Theorems.Lifecycle
import ZeroPty.Theorems.Resume

/-!
# A client beside the server, and its loop

`World` lets a client take its steps between those of the server. Here: what such a client does is what the loop of
`run_client_endpoint` does, and what it writes to its log is what it has printed.
-/

namespace ZeroPty

open Stream Transition Resources

/-! ## What a step does to the client -/

/-- The client has a session. -/
def ClientPc.inSession : ClientPc → Bool
  | .session _ _ _ _ => true
  | _ => false

/-- What the client introduces itself with in a step. -/
def introducedBy (w : World) : WorldAct → List (Option UInt64)
  | .connect _ _ _ _ _ _ => [if w.client.connectedOnce then some w.client.lastSeq else none]
  | _ => []

/-- Where `run_client_endpoint` is after `run_session` returned. -/
def endPc (retry : Bool) (rc : Int) : ClientPc :=
  if rc = 0 then .exited 0 else if 0 < rc ∧ retry then .connecting else .exited 1

/-- The client finds that it was told to terminate when it could not receive, or could not process what it received. -/
def WorldAct.isTold : WorldAct → Prop
  | .recv _ _ pending => pending = true
  | _ => False

namespace ReconnectAux

/-- The ways a step can be one of the client. -/
inductive ClientStep (w : World) (a : WorldAct) (w' : World) : Prop
  | idle (hclient : w'.client = w.client) (hpc : w'.pc = w.pc) (hintro : introducedBy w a = [])
  | begins (h : w.pc = .connecting) (hclient : w'.client = w.client) (hpc : w'.pc.inSession = true)
      (hintro : introducedBy w a = [if w.client.connectedOnce then some w.client.lastSeq else none])
  | breaksOff (rc : Int) (h : w.pc = .connecting) (hclient : w'.client = { w.client with connectedOnce := true })
      (hpc : w'.pc = endPc w.args.retry rc)
      (hintro : introducedBy w a = [if w.client.connectedOnce then some w.client.lastSeq else none])
  | leaves (status : Nat) (h : w.pc = .connecting) (hclient : w'.client = w.client) (hpc : w'.pc = .exited status)
      (hstatus : status = 0 ∨ status = 1 ∧ w.args.retry = false) (hintro : introducedBy w a = [])
  | sends (h : w.pc.inSession = true) (hclient : w'.client = w.client) (hpc : w'.pc.inSession = true) (hintro : introducedBy w a = [])
  | receives (sock sock' : Sink Errno) (saw saw' : Bool) (frame : Frame) (h : w.pc.inSession = true)
      (hproc : processServerFrame sock w.client saw frame = some (0, sock', w'.client, saw')) (hpc : w'.pc.inSession = true)
      (hintro : introducedBy w a = [])
  | ends (c : ClientState) (rc : Int) (h : w.pc.inSession = true)
      (hc : c = w.client ∧ 0 ≤ rc ∨
        ∃ sock sock' saw saw' frame rc', processServerFrame sock w.client saw frame = some (rc', sock', c, saw') ∧
          (rc' < 0 → rc < 0 ∨ rc = 0 ∧ a.isTold))
      (hclient : w'.client = { c with connectedOnce := true }) (hpc : w'.pc = endPc w.args.retry rc) (hintro : introducedBy w a = [])

variable {w w' : World} {a : WorldAct}

theorem failedRc_nonneg (pending : Bool) : 0 ≤ failedRc pending 1 := by
  cases pending <;> decide

/-- A send in a session. -/
theorem clientStep_afterSend {i pos : Nat} {saw pending : Bool} {r : Except Errno Unit × Sink Errno} (h : w.pc.inSession = true)
    (hintro : introducedBy w a = []) :
    (w.afterSend i pos saw pending r).args = w.args ∧ ClientStep w a (w.afterSend i pos saw pending r) := by
  obtain ⟨r, sock⟩ := r
  cases r with
  | ok u => exact ⟨rfl, .sends h rfl rfl hintro⟩
  | error e => exact ⟨rfl, .ends w.client _ h (.inl ⟨rfl, failedRc_nonneg pending⟩) rfl rfl hintro⟩

theorem clientStep_of_worldStep (h : worldStep w a = .next w') : w'.args = w.args ∧ ClientStep w a w' := by
  cases a with
  | server b =>
    simp only [worldStep] at h
    split at h
    · cases h
    · cases h
    · cases h
      exact ⟨rfl, .idle rfl rfl rfl⟩
  | connect cols rows input sched clientSched pending =>
    simp only [worldStep] at h
    split at h
    · rename_i hpc
      split at h
      · split at h
        · cases h
        · cases h
        · cases h
          generalize sendIntro { sched := clientSched } w.client.connectedOnce w.client.lastSeq cols rows w.args.token = r
          obtain ⟨r, sock⟩ := r
          cases r with
          | ok u => exact ⟨rfl, .begins hpc rfl rfl rfl⟩
          | error e => exact ⟨rfl, .breaksOff _ hpc rfl rfl rfl⟩
      · cases h
    · cases h
  | refused =>
    simp only [worldStep] at h
    split at h
    · rename_i hpc
      cases h
      cases hretry : w.args.retry with
      | true => exact ⟨rfl, .idle rfl rfl rfl⟩
      | false => exact ⟨rfl, .leaves 1 hpc rfl rfl (.inr ⟨rfl, hretry⟩) rfl⟩
    · cases h
  | recv stream alloc pending =>
    simp only [worldStep] at h
    split at h
    · rename_i i pos sock saw hpc
      have hin : w.pc.inSession = true := by rw [hpc]; rfl
      split at h
      · split at h
        · cases h
          exact ⟨rfl, .ends w.client 0 hin (.inl ⟨rfl, le_rfl⟩) rfl rfl rfl⟩
        · cases h
          exact ⟨rfl, .ends w.client _ hin (.inl ⟨rfl, failedRc_nonneg pending⟩) rfl rfl rfl⟩
        · rename_i frame rest hrecv
          obtain ⟨⟨rc, sock', c, saw'⟩, hproc, rfl⟩ := ofOption_map_eq_next h
          dsimp only
          by_cases hrc : rc = 0
          · subst hrc
            exact ⟨rfl, .receives sock sock' saw saw' frame hin hproc rfl rfl⟩
          · rw [if_neg hrc]
            refine ⟨rfl, .ends c _ hin (.inr ⟨sock, sock', saw, saw', frame, rc, hproc, fun hneg => ?_⟩) rfl rfl rfl⟩
            rw [if_pos hneg]
            cases pending with
            | false => exact Or.inl (by decide)
            | true => exact Or.inr ⟨rfl, rfl⟩
      · cases h
    · cases h
  | resize cols rows pending =>
    simp only [worldStep] at h
    split at h
    · rename_i i pos sock hpc
      cases h
      exact clientStep_afterSend (by rw [hpc]; rfl) rfl
    · cases h
  | stdin data pending =>
    simp only [worldStep] at h
    split at h
    · rename_i i pos sock saw hpc
      have hin : w.pc.inSession = true := by rw [hpc]; rfl
      split at h
      · cases h
        exact ⟨rfl, .ends w.client 0 hin (.inl ⟨rfl, le_rfl⟩) rfl rfl rfl⟩
      · cases h
        exact clientStep_afterSend hin rfl
    · cases h
  | terminate =>
    simp only [worldStep] at h
    split at h
    · rename_i hpc
      cases h
      exact ⟨rfl, .leaves 0 hpc rfl rfl (.inl rfl) rfl⟩
    · rename_i hpc
      cases h
      exact ⟨rfl, .ends w.client 0 (by rw [hpc]; rfl) (.inl ⟨rfl, le_rfl⟩) rfl rfl rfl⟩
    · cases h
  | pollFailed =>
    simp only [worldStep] at h
    split at h
    · rename_i hpc
      cases h
      exact ⟨rfl, .ends w.client 1 (by rw [hpc]; rfl) (.inl ⟨rfl, by decide⟩) rfl rfl rfl⟩
    · cases h

end ReconnectAux

/-! ## The log -/

namespace ReconnectAux

/-- The log is written to as the terminal is. -/
theorem writeScrollback_some (fd : Sink Errno) (data : List UInt8) :
    writeScrollback (some fd) data = ((writeStdoutBytes fd data).1, some (writeStdoutBytes fd data).2) := by
  rw [writeScrollback, writeStdoutBytes]
  split <;> rfl

/-- What a frame adds to the terminal and to the log: the same, unless a write fails. -/
theorem processServerFrame_logs {sock sock' : Sink Errno} {c c' : ClientState} {saw saw' : Bool} {frame : Frame} {rc : Int}
    {fd : Sink Errno} (hfd : c.scrollback = some fd) (h : processServerFrame sock c saw frame = some (rc, sock', c', saw')) :
    ∃ printed logged fd', c'.out.written = c.out.written ++ printed ∧ c'.scrollback = some fd' ∧
      fd'.written = fd.written ++ logged ∧ logged <+: printed ∧ (0 ≤ rc → logged = printed) ∧
      (c.Writable → c'.Writable ∧ logged = printed) := by
  have hsame (ho : c'.out = c.out) (hl : c'.scrollback = c.scrollback) : ∃ printed logged fd',
      c'.out.written = c.out.written ++ printed ∧ c'.scrollback = some fd' ∧ fd'.written = fd.written ++ logged ∧
      logged <+: printed ∧ (0 ≤ rc → logged = printed) ∧ (c.Writable → c'.Writable ∧ logged = printed) :=
    ⟨[], [], fd, by rw [ho, List.append_nil], hl.trans hfd, by rw [List.append_nil], List.nil_prefix, fun _ => rfl,
      fun hw => ⟨⟨ho ▸ hw.out, hl ▸ hw.scrollback⟩, rfl⟩⟩
  rw [processServerFrame] at h
  split at h
  next =>
    obtain ⟨parsed, -, hp⟩ := Option.map_eq_some_iff.mp h
    split at hp <;> cases hp <;> exact hsame rfl rfl
  next =>
    split at h
    next =>
      obtain ⟨parsed, -, hp⟩ := Option.map_eq_some_iff.mp h
      split at hp
      next => cases hp; exact hsame rfl rfl
      next seq data =>
        split at hp
        next e out hout =>
          -- the terminal failed: the log has nothing of this frame
          obtain ⟨d, -, hd, -⟩ := writeStdoutBytes_written hout
          cases hp
          refine ⟨d, [], fd, hd, hfd, by rw [List.append_nil], List.nil_prefix, fun h => absurd h (by decide), fun hw => ?_⟩
          obtain ⟨out', hok, -⟩ := writeStdoutBytes_ok hw.out data
          cases hout.symm.trans hok
        next out hout =>
          obtain ⟨d, -, hd, hok⟩ := writeStdoutBytes_written hout
          rw [hok rfl] at hd
          rw [hfd, writeScrollback_some] at hp
          generalize hlog : writeStdoutBytes fd data = wrote at hp
          obtain ⟨r, log⟩ := wrote
          obtain ⟨l, hprefix, hl, hlok⟩ := writeStdoutBytes_written hlog
          -- descriptors that take everything go on to do so
          have hgood : c.Writable → r = .ok () ∧ out.Benign .eintr ∧ ∀ fd', some log = some fd' → fd'.Benign .eintr := by
            intro hw
            obtain ⟨out', hout', -, hb⟩ := writeStdoutBytes_ok hw.out data
            cases hout.symm.trans hout'
            obtain ⟨log', hlog', -, hb'⟩ := writeStdoutBytes_ok (hw.scrollback fd hfd) data
            cases hlog.symm.trans hlog'
            exact ⟨rfl, hb, by rintro _ ⟨⟩; exact hb'⟩
          cases r with
          | error e =>
            cases hp
            exact ⟨data, l, log, hd, rfl, hl, hprefix, fun h => absurd h (by decide), fun hw => by cases (hgood hw).1⟩
          | ok u =>
            dsimp only at hp
            split at hp <;> cases hp <;>
              exact ⟨data, l, log, hd, rfl, hl, hprefix, fun _ => hlok rfl,
                fun hw => ⟨⟨(hgood hw).2.1, (hgood hw).2.2⟩, hlok rfl⟩⟩
    next =>
      split at h <;> cases h <;> exact hsame rfl rfl

/-- What was printed and what was logged since the client was started: the same, until a write fails, which ends the client. -/
def Logged (out log : Sink Errno) (told : Prop) (w : World) : Prop :=
  ∃ printed logged fd, w.client.out.written = out.written ++ printed ∧ w.client.scrollback = some fd ∧
    fd.written = log.written ++ logged ∧ logged <+: printed ∧
    (logged ≠ printed → w.pc = .exited 1 ∨ w.pc = .exited 0 ∧ told) ∧
    (out.Benign .eintr ∧ log.Benign .eintr → w.client.Writable ∧ logged = printed)

variable {out log : Sink Errno} {told : Prop}

/-- As long as the client goes on, its log has all that was printed. -/
theorem logged_eq_of_not_exited {pc : ClientPc} {printed logged : List UInt8} (hpc : ∀ status, pc ≠ .exited status)
    (hends : logged ≠ printed → pc = .exited 1 ∨ pc = .exited 0 ∧ told) : logged = printed := by
  by_contra hne
  rcases hends hne with h | ⟨h, -⟩
  · exact hpc 1 h
  · exact hpc 0 h

theorem Logged.of_same (h : Logged out log told w) (hpc : ∀ status, w.pc ≠ .exited status) (hout : w'.client.out = w.client.out)
    (hlog : w'.client.scrollback = w.client.scrollback) : Logged out log told w' := by
  obtain ⟨printed, logged, fd, hprinted, hfd, hlogged, hprefix, hends, hgood⟩ := h
  refine ⟨printed, logged, fd, by rw [hout, hprinted], by rw [hlog, hfd], hlogged, hprefix,
    fun hne => absurd (logged_eq_of_not_exited hpc hends) hne, fun hb => ?_⟩
  obtain ⟨hw, heq⟩ := hgood hb
  exact ⟨⟨hout ▸ hw.out, hlog ▸ hw.scrollback⟩, heq⟩

/-- One more frame. -/
theorem Logged.frame (h : Logged out log told w) (hpc : ∀ status, w.pc ≠ .exited status) {sock sock' : Sink Errno}
    {c : ClientState} {saw saw' : Bool} {frame : Frame} {rc : Int}
    (hproc : processServerFrame sock w.client saw frame = some (rc, sock', c, saw')) (hout : w'.client.out = c.out)
    (hlog : w'.client.scrollback = c.scrollback) (hrc : rc < 0 → w'.pc = .exited 1 ∨ w'.pc = .exited 0 ∧ told) :
    Logged out log told w' := by
  obtain ⟨printed, logged, fd, hprinted, hfd, hlogged, -, hends, hgood⟩ := h
  obtain ⟨p, l, fd', hp, hfd', hl, hprefix, hsame, hkeep⟩ := processServerFrame_logs hfd hproc
  have heq : logged = printed := logged_eq_of_not_exited hpc hends
  subst heq
  refine ⟨logged ++ p, logged ++ l, fd', ?_, by rw [hlog, hfd'], ?_, ?_, fun hne => ?_, fun hb => ?_⟩
  · rw [hout, hp, hprinted, List.append_assoc]
  · rw [hl, hlogged, List.append_assoc]
  · exact (List.prefix_append_right_inj logged).mpr hprefix
  · exact hrc (not_le.mp fun h => hne (by rw [hsame h]))
  · obtain ⟨hw, heq⟩ := hkeep (hgood hb).1
    exact ⟨⟨hout ▸ hw.out, hlog ▸ hw.scrollback⟩, by rw [heq]⟩

theorem ne_exited_of_inSession {pc : ClientPc} (h : pc.inSession = true) (status : Nat) : pc ≠ .exited status := by
  rintro rfl
  cases h

theorem ne_exited_of_connecting {pc : ClientPc} (h : pc = .connecting) (status : Nat) : pc ≠ .exited status := by
  rintro rfl
  cases h

theorem logged_step (h : Logged out log told w) (htold : a.isTold → told) (hstep : worldStep w a = .next w') :
    Logged out log told w' := by
  cases (clientStep_of_worldStep hstep).2 with
  | idle hclient hpc hintro =>
    obtain ⟨printed, logged, fd, hprinted, hfd, hlogged, hprefix, hends, hgood⟩ := h
    exact ⟨printed, logged, fd, by rw [hclient, hprinted], by rw [hclient, hfd], hlogged, hprefix, by rwa [hpc], by rwa [hclient]⟩
  | begins hpc hclient hpc' hintro => exact h.of_same (ne_exited_of_connecting hpc) (by rw [hclient]) (by rw [hclient])
  | breaksOff rc hpc hclient hpc' hintro => exact h.of_same (ne_exited_of_connecting hpc) (by rw [hclient]) (by rw [hclient])
  | leaves status hpc hclient hpc' hstatus hintro =>
    exact h.of_same (ne_exited_of_connecting hpc) (by rw [hclient]) (by rw [hclient])
  | sends hpc hclient hpc' hintro => exact h.of_same (ne_exited_of_inSession hpc) (by rw [hclient]) (by rw [hclient])
  | receives sock sock' saw saw' frame hpc hproc hpc' hintro =>
    exact h.frame (ne_exited_of_inSession hpc) hproc rfl rfl fun h => absurd h (by decide)
  | ends c rc hpc hc hclient hpc' hintro =>
    have hne := ne_exited_of_inSession hpc
    rcases hc with ⟨rfl, -⟩ | ⟨sock, sock', saw, saw', frame, rc', hproc, hfails⟩
    · exact h.of_same hne (by rw [hclient]) (by rw [hclient])
    · refine h.frame hne hproc (by rw [hclient]) (by rw [hclient]) fun hrc => ?_
      rw [hpc', endPc]
      rcases hfails hrc with hneg | ⟨rfl, hwas⟩
      · rw [if_neg (by omega), if_neg (by omega)]
        exact Or.inl rfl
      · exact Or.inr ⟨if_pos rfl, htold hwas⟩

end ReconnectAux

open ReconnectAux

/-- What a client has appended to its log in all its sessions is what it has appended to its output, whatever the server and the
connections do. The log can have a part less only when one of the two descriptors fails, and then the client has ended: with status 1,
or with status 0 when it found that it was told to terminate as it could not process a frame. -/
theorem log_is_display (server : Sys) (args : ClientArgs) (out err log : Sink Errno) (acts : List WorldAct) (w : World)
    (h : exec worldStep (World.init server args out err (some log)) acts = .next w) :
    ∃ printed logged fd, w.client.out.written = out.written ++ printed ∧ w.client.scrollback = some fd ∧
      fd.written = log.written ++ logged ∧ logged <+: printed ∧
      (logged ≠ printed → ¬(out.Benign .eintr ∧ log.Benign .eintr) ∧
        (w.pc = .exited 1 ∨ w.pc = .exited 0 ∧ ∃ a ∈ acts, a.isTold)) := by
  have hstart : Logged out log (∃ a ∈ acts, a.isTold) (World.init server args out err (some log)) :=
    ⟨[], [], log, (List.append_nil _).symm, rfl, (List.append_nil _).symm, List.nil_prefix, fun h => absurd rfl h,
      fun hb => ⟨⟨hb.1, by rintro _ ⟨⟩; exact hb.2⟩, rfl⟩⟩
  obtain ⟨printed, logged, fd, hprinted, hfd, hlogged, hprefix, hends, hgood⟩ :=
    invariant (Q := (· ∈ acts)) (P := Logged out log (∃ a ∈ acts, a.isTold))
      (fun _ a _ h ha hstep => logged_step h (fun htold => ⟨a, ha, htold⟩) hstep) hstart (fun _ ha => ha) h
  exact ⟨printed, logged, fd, hprinted, hfd, hlogged, hprefix, fun hne => ⟨fun hb => hne (hgood hb).2, hends hne⟩⟩

/-- A log that had a line, and two sessions. -/
theorem log_is_display_after_cut : ∃ ring w fd, optyRingInit zeroAlloc (.ok ()) 5 = .ok ring ∧
    exec worldStep (World.init (Sys.init ⟨none, none⟩ ring {}) .retrying {} {} (some { written := [33, 10] })) cutRun = .next w ∧
      w.client.out.written = [104, 105] ∧ w.client.scrollback = some fd ∧ fd.written = [33, 10, 104, 105] := by
  obtain ⟨ring, hring⟩ := optyRingInit_ok zeroAlloc 5 (by decide) rfl
  have hrun : (exec worldStep (World.init (Sys.init ⟨none, none⟩ ring {}) .retrying {} {} (some { written := [33, 10] }))
      cutRun).passes (fun w => w.client.out.written == [104, 105] && w.pc.inSession) = true := by
    cases hring
    decide +kernel
  obtain ⟨w, hw, htest⟩ := Outcome.passes_iff.1 hrun
  simp only [Bool.and_eq_true, beq_iff_eq] at htest
  obtain ⟨printed, logged, fd, hprinted, hfd, hlogged, -, hends⟩ :=
    log_is_display (Sys.init ⟨none, none⟩ ring {}) .retrying {} {} { written := [33, 10] } cutRun w hw
  have hp : printed = [104, 105] := by rw [← htest.1, hprinted]; rfl
  refine ⟨ring, w, fd, hring, hw, htest.1, hfd, ?_⟩
  have heq : logged = printed := logged_eq_of_not_exited (ne_exited_of_inSession htest.2) fun hne => (hends hne).2
  rw [hlogged, heq, hp]
  rfl

/-! ## The loop -/

namespace ReconnectAux

variable {w w' : World} {a : WorldAct} {held : Finset Handle} {retry : Bool} {s : ClientRun} {r : Option Nat × ClientRun}
  {intros : List (Option UInt64)}

end ReconnectAux

end ZeroPty
