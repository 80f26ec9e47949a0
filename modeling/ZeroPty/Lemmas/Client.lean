import ZeroPty.Client
import ZeroPty.Lemmas.Delivery

/-!
# What the client makes of what it is sent

First what an action of the server leaves of a connection, then which frames a part of a connection is, then `process_server_frame`
on each of them.
-/

namespace ZeroPty

open Stream Memory Transition ReferencesAux

/-! ## A connection while the server goes on -/

/-- What the server may do to a connection when its log is `len` long: write more, and attach it once. -/
structure Conn.Extends (len : Nat) (c c' : Conn) : Prop where
  wire : c'.wire = c.wire
  written : c.sock.written <+: c'.sock.written
  attached : ∀ snap, c.attached = some snap → c'.attached = some snap
  fresh : ∀ snap, c'.attached = some snap → c.attached = some snap ∨ snap.nextSeq.toNat = len

theorem Conn.Extends.of_shaken {len : Nat} {c c' : Conn} (h : Shaken c c') : Conn.Extends len c c' where
  wire := h.wire
  written := h.written ▸ List.prefix_refl _
  attached := by rw [h.attached]; exact fun _ => id
  fresh := by rw [h.attached]; exact fun _ => Or.inl

/-- The thread goes on. -/
theorem Conn.Extends.of_pc (len : Nat) (c : Conn) (pc : ThreadPc) (input : Source Errno) (cell : Cell Client) :
    Conn.Extends len c { c with pc := pc, input := input, cell := cell } :=
  ⟨rfl, List.prefix_refl _, fun _ => id, fun _ => Or.inl⟩

theorem Conn.Extends.setConn {s : Sys} {len i j : Nat} {c' : Conn} (h : Conn.Extends len (s.conn i) c') :
    Conn.Extends len (s.conn j) ((s.setConn i c').conn j) := by
  by_cases hj : j = i
  · subst hj
    simpa only [Sys.setConn, Function.update_self] using h
  · exact .of_shaken (shaken_setConn c' hj)

theorem Conn.Extends.trans {len : Nat} {c c' c'' : Conn} (h : Conn.Extends len c c') (h' : Conn.Extends len c' c'') :
    Conn.Extends len c c'' where
  wire := h'.wire.trans h.wire
  written := h.written.trans h'.written
  attached := fun snap ha => h'.attached snap (h.attached snap ha)
  fresh := fun snap ha => (h'.fresh snap ha).elim (h.fresh snap) Or.inr

/-- A stream frame only adds to the socket, whatever its sender is given. -/
theorem optySendStreamFrame_extends (malloc : Bool) (fd : Sink Errno) (type : UInt8) (seq : UInt64) (data : Buf) :
    fd.written <+: (optySendStreamFrame malloc fd type seq data).2.written := by
  have hrefuse : Refuses (optySendStreamFrame malloc · type seq data) →
      fd.written <+: (optySendStreamFrame malloc fd type seq data).2.written := by
    intro h
    obtain ⟨e, he⟩ := h fd
    exact (congrArg (fun r => r.2.written) he).symm ▸ List.prefix_refl fd.written
  cases malloc with
  | false => exact hrefuse (optySendStreamFrame_no_memory seq data type)
  | true =>
    by_cases hd : ¬data.Readable ∨ optyMaxFrame - 9 < data.len
    · exact hrefuse (optySendStreamFrame_refuses seq data true type hd)
    · simp only [not_or, not_not, Nat.not_lt] at hd
      obtain ⟨k, hk⟩ := (optySendStreamFrame_sends seq data type hd.1 hd.2 fd).exists_take
      rw [hk]
      exact List.prefix_append _ _

/-- A send of the server's broadcast only adds to the socket. -/
theorem serverSendStdout_extends {alloc : Bool} {seq : UInt64} {chunk : List UInt8} {cl cl' : Client} {fd fd' : Sink Errno}
    {r : Except Errno Unit} (h : serverSendStdout alloc seq chunk cl fd = (r, cl', fd')) : fd.written <+: fd'.written := by
  have hext : ∀ sq data, fd.written <+: (optySendStdout alloc fd sq data).2.written := fun sq data =>
    optySendStreamFrame_extends alloc fd msgStdout sq data
  simp only [serverSendStdout] at h
  split at h
  · have hs := hext (if seq < cl.liveSeq then cl.liveSeq else seq)
      (.mem (chunk.drop (if seq < cl.liveSeq then cl.liveSeq - seq else 0).toNat))
    split at h
    · rename_i fd1 he
      cases h
      rwa [he] at hs
    · rename_i e fd1 he
      cases h
      rwa [he] at hs
  · cases h
    exact List.prefix_refl _

/-- A socket that has more on it. -/
theorem Conn.Extends.of_sock {len : Nat} {c : Conn} {sock : Sink Errno} (h : c.sock.written <+: sock.written) (pc : ThreadPc)
    (cell : Cell Client) : Conn.Extends len c { c with pc := pc, cell := cell, sock := sock } :=
  ⟨rfl, h, fun _ => id, fun _ => Or.inl⟩

/-- What an action of the server leaves of the connections there are. -/
theorem extends_of_moves {cfg : Config} {cap : Nat} {s t : Sys} {a : Act} (href : RefInv s) (h : Delivery cfg cap s)
    (hm : Moves s a t) {j : Nat} (hj : j < s.count) : Conn.Extends s.log.length (s.conn j) (t.conn j) := by
  cases hm with
  | accept hmain => exact .of_shaken (shaken_setConn _ (Nat.ne_of_lt hj))
  | created hmain => exact .setConn (.of_pc _ _ _ _ _)
  | recvFirst hpc hcl hmove => exact .setConn (.of_pc _ _ _ _ _)
  | sendError hpc hcl hlock =>
    rename_i i env cl text
    obtain ⟨k, hk⟩ := (optySendError_sends (s.conn i).sock text).exists_take
    exact .setConn (.of_sock (by rw [hk]; exact List.prefix_append _ _) _ _)
  | resizeIntro hpc => exact .setConn (.of_pc _ _ _ _ _)
  | resizeIntroFailed hpc => exact .setConn (.of_pc _ _ _ _ _)
  | attach hpc hcl hlock hattach =>
    rename_i i env req cl cl' snap
    have hnone := ((h.conns i).early (by rw [hpc]; rfl)).1
    refine .setConn ⟨rfl, List.prefix_refl _, fun snap' ha => ?_, fun snap' ha => ?_⟩
    · rw [hnone] at ha
      cases ha
    · cases ha
      exact Or.inr (Snapshot.At.of_attach h.ring hattach).2
  | attachFailed hpc hcl hattach => exact .setConn (.of_pc _ _ _ _ _)
  | welcome hpc hcl hs =>
    obtain ⟨k, hk⟩ := ((optySendWelcome_sends _ _).of_eq hs).exists_take
    exact .setConn (.of_sock (by rw [hk]; exact List.prefix_append _ _) _ _)
  | welcomeFailed hpc hcl hs =>
    obtain ⟨k, hk⟩ := ((optySendWelcome_sends _ _).of_eq hs).exists_take
    exact .setConn (.of_sock (by rw [hk]; exact List.prefix_append _ _) _ _)
  | replay hpc hcl hs =>
    rename_i i env snap cl sock
    have hext := optySendStreamFrame_extends env.alloc (s.conn i).sock msgReplay snap.fromSeq snap.data
    rw [← optySendReplay, hs] at hext
    exact .setConn (.of_sock hext _ _)
  | replayFailed hpc hcl hs =>
    rename_i i env snap cl e sock
    have hext := optySendStreamFrame_extends env.alloc (s.conn i).sock msgReplay snap.fromSeq snap.data
    rw [← optySendReplay, hs] at hext
    exact .setConn (.of_sock hext _ _)
  | recvLoop hpc hcl hmove => exact .setConn (.of_pc _ _ _ _ _)
  | writePty hpc hpc' => exact .setConn (.of_pc _ _ _ _ _)
  | resizeLoop hpc => exact .setConn (.of_pc _ _ _ _ _)
  | resizeLoopFailed hpc => exact .setConn (.of_pc _ _ _ _ _)
  | shutdownInput hpc => exact .setConn (.of_pc _ _ _ _ _)
  | shutdownStage hpc => exact .setConn (s := s) (.of_pc _ _ _ _ _)
  | shutdownShut hpc hshut =>
    obtain ⟨conn', rfl, hsh', -⟩ := exists_of_eq_some href.shut hshut
    exact .trans (.of_shaken (hsh' j).1) (.setConn (s := { s with conn := conn' }) (.of_pc _ _ _ _ _))
  | dropped hmain hrel =>
    rename_i i s₁
    have hpc := href.starting_of_drop hmain
    obtain ⟨c', rfl, hsh', -⟩ := exists_of_eq_some (href.finish (Or.inl hpc)) hrel
    exact .trans (.setConn (i := i) (.of_shaken hsh')) (.setConn (s := s.setConn i c') (.of_pc _ _ _ _ _))
  | finished hpc hrel =>
    rename_i i env s₁
    obtain ⟨c', rfl, hsh', -⟩ := exists_of_eq_some (href.finish (Or.inr hpc)) hrel
    exact .trans (.setConn (i := i) (.of_shaken hsh')) (.setConn (s := s.setConn i c') (.of_pc _ _ _ _ _))
  | ptySent hp hcl hlock hs => exact .setConn (.of_sock (serverSendStdout_extends hs) _ _)
  | ptySendFailed hp hcl hlock hs => exact .setConn (.of_sock (serverSendStdout_extends hs) _ _)
  | ptyMarkedDead hp hrel =>
    obtain ⟨c', rfl, hsh', -⟩ := exists_of_eq_some (href.markDead hp) hrel
    exact .setConn (.of_shaken hsh')
  | mainShut hm hm' hshut | ptyShut hp hshut =>
    obtain ⟨conn', rfl, hsh', -⟩ := exists_of_eq_some href.shut hshut
    exact .of_shaken (hsh' j).1
  | ptyNoSnapshot hp hr | ptySnapshot hp hne hr =>
    obtain ⟨conn', rfl, hsh⟩ := serverSnapshotClients_shaken href.ledger hr
    exact .of_shaken (hsh j)
  | ptyReleased hp hrel =>
    obtain ⟨conn', rfl, hsh', -⟩ := exists_of_eq_some (href.releaseSnapshot hp) hrel
    exact .of_shaken (hsh' j)
  | acceptFailed | createFailed hmain | mainQuiet hm hm' | ptyQuiet hp hp' | ptyGot hp h0 h4096 | ptyAppend hp hr =>
    exact .of_shaken (Shaken.refl _)

/-! ## Which frames the client reads -/

/-- A frame short enough to be told from the bytes that follow it. -/
def Frame.Short (f : Frame) : Prop := f.payload.length < 2 ^ 32 - 1

/-- The frames at the start of a stream are those it starts with. -/
theorem wireBytes_prefix : ∀ {l gs : List Frame}, (∀ f ∈ l, f.Short) → (∀ g ∈ gs, g.Short) → wireBytes l <+: wireBytes gs →
    l <+: gs
  | [], _, _, _, _ => List.nil_prefix
  | f :: l, [], _, _, h => by
    rw [wireBytes_cons, wireBytes_nil, List.prefix_nil, List.append_eq_nil_iff] at h
    exact absurd h.1 (frameBytes_ne_nil f)
  | f :: l, g :: gs, hf, hg, h => by
    obtain ⟨rest, hrest⟩ := h
    rw [wireBytes_cons, wireBytes_cons, List.append_assoc] at hrest
    obtain ⟨rfl, heq⟩ := frameBytes_append_inj (hf f List.mem_cons_self) (hg g List.mem_cons_self) hrest
    obtain ⟨more, hmore⟩ := wireBytes_prefix (fun f hm => hf f (List.mem_cons_of_mem _ hm))
      (fun g hm => hg g (List.mem_cons_of_mem _ hm)) ⟨rest, heq⟩
    exact ⟨more, by rw [List.cons_append, hmore]⟩

/-- The STDOUT frame after some others. -/
theorem stdoutFrames_prefix {f : Frame} : ∀ {ps qs : List (List UInt8)} {seq : UInt64},
    stdoutFrames seq ps ++ [f] <+: stdoutFrames seq qs →
    ∃ d more, qs = ps ++ d :: more ∧ f = (Msg.stdout (seq + .ofNat ps.flatten.length) d).frame
  | [], [], _, h => by simp [stdoutFrames] at h
  | [], d :: more, seq, h => by
    rw [stdoutFrames, stdoutFrames, List.nil_append, List.cons_prefix_cons] at h
    exact ⟨d, more, rfl, by simpa using h.1⟩
  | p :: ps, [], _, h => by simp [stdoutFrames] at h
  | p :: ps, q :: qs, seq, h => by
    rw [stdoutFrames, stdoutFrames, List.cons_append, List.cons_prefix_cons] at h
    obtain ⟨hpq, h⟩ := h
    have hp : p = q := by
      have := congrArg Frame.payload hpq
      exact List.append_cancel_left this
    subst hp
    obtain ⟨d, more, rfl, hf⟩ := stdoutFrames_prefix h
    refine ⟨d, more, rfl, ?_⟩
    rw [hf, List.flatten_cons, List.length_append, UInt64.ofNat_add, UInt64.add_assoc]

/-! ## What the client does with a frame -/

/-- A write to a descriptor that takes everything. -/
theorem writeStdoutBytes_ok {out : Sink Errno} (h : out.Benign .eintr) (data : List UInt8) :
    ∃ out', writeStdoutBytes out data = (.ok (), out') ∧ out'.written = out.written ++ data ∧ out'.Benign .eintr := by
  unfold writeStdoutBytes
  by_cases h0 : data.length = 0
  · rw [if_pos h0, List.eq_nil_of_length_eq_zero h0]
    exact ⟨out, rfl, by rw [List.append_nil], h⟩
  · rw [if_neg h0]
    have hs := optyWriteFullLoop_sends out data 0 (fun hle => absurd hle (by omega))
    obtain ⟨hr, hw, hb⟩ := hs.of_benign h
    rw [List.drop_zero] at hw
    exact ⟨_, Prod.ext hr rfl, hw, hb⟩

theorem writeScrollback_ok {log : Option (Sink Errno)} (h : ∀ fd, log = some fd → fd.Benign .eintr) (data : List UInt8) :
    ∃ log', writeScrollback log data = (.ok (), log') ∧ ∀ fd, log' = some fd → fd.Benign .eintr := by
  cases log with
  | none => exact ⟨none, rfl, nofun⟩
  | some fd =>
    obtain ⟨fd', hw, -, hb⟩ := writeStdoutBytes_ok (h fd rfl) data
    refine ⟨some fd', ?_, by rintro _ ⟨⟩; exact hb⟩
    unfold writeStdoutBytes at hw
    unfold writeScrollback
    by_cases h0 : data.length = 0
    · simp only [if_pos h0] at hw ⊢
      cases hw
      rfl
    · simp only [if_neg h0, Prod.mk.injEq] at hw ⊢
      exact ⟨hw.1, congrArg some hw.2⟩

/-- What the client needs of its own descriptors. -/
structure ClientState.Writable (c : ClientState) : Prop where
  out : c.out.Benign .eintr
  scrollback : ∀ fd, c.scrollback = some fd → fd.Benign .eintr

/-- A WELCOME is noted. -/
theorem processServerFrame_welcome (sock : Sink Errno) (c : ClientState) (saw : Bool) (base next : UInt64) :
    processServerFrame sock c saw (Msg.welcome base next).frame = some (0, sock, c, true) := by
  obtain ⟨r, hr, hiff⟩ := optyParseWelcome_spec (Msg.welcome base next).frame
  have hty : (Msg.welcome base next).frame.type = msgWelcome := rfl
  rw [processServerFrame, if_pos hty, hr, (hiff base next).2 rfl]
  rfl

/-- An ERROR ends the session, and the client. -/
theorem processServerFrame_error (sock : Sink Errno) (c : ClientState) (saw : Bool) (text : ErrorText) :
    ∃ err, processServerFrame sock c saw text.frame = some (-1, sock, { c with err := err }, saw) := by
  have hty : text.frame.type = msgError := rfl
  have h1 : ¬text.frame.type = msgWelcome := by rw [hty]; decide
  have h2 : ¬(text.frame.type = msgStdout ∨ text.frame.type = msgReplay) := by rw [hty]; decide
  exact ⟨_, by rw [processServerFrame, if_neg h1, if_neg h2, if_pos hty]⟩

/-- A REPLAY or STDOUT is printed and acknowledged. -/
theorem processServerFrame_stream {frame : Frame} {seq : UInt64} {data : List UInt8}
    (hf : frame = (Msg.stdout seq data).frame ∨ frame = (Msg.replay seq data).frame) (sock : Sink Errno) {c : ClientState}
    (hw : c.Writable) (saw : Bool) :
    ∃ rc sock' c', processServerFrame sock c saw frame = some (rc, sock', c', saw) ∧ (rc = 0 ∨ rc = 1) ∧ c'.Writable ∧
      c'.out.written = c.out.written ++ data ∧ c'.connectedOnce = c.connectedOnce ∧
      c'.lastSeq = (if c.lastSeq < seq + .ofNat data.length then seq + .ofNat data.length else c.lastSeq) ∧
      c'.acks = c.acks ++ [c'.lastSeq] := by
  have hty : frame.type = msgStdout ∨ frame.type = msgReplay := by
    rcases hf with rfl | rfl
    · exact Or.inl rfl
    · exact Or.inr rfl
  have h1 : ¬frame.type = msgWelcome := by rcases hty with h | h <;> rw [h] <;> decide
  obtain ⟨r, hr, hiff⟩ := optyParseStream_spec frame
  obtain ⟨out, hout, hwritten, hb⟩ := writeStdoutBytes_ok hw.out data
  obtain ⟨log, hlog, hlb⟩ := writeScrollback_ok hw.scrollback data
  rw [processServerFrame, if_neg h1, if_pos hty, hr, (hiff seq data).2 hf]
  simp only [Option.map_some, hout, hlog]
  split
  · exact ⟨_, _, _, rfl, Or.inl rfl, ⟨hb, hlb⟩, hwritten, rfl, rfl, rfl⟩
  · exact ⟨_, _, _, rfl, Or.inr rfl, ⟨hb, hlb⟩, hwritten, rfl, rfl, rfl⟩

/-- What a write to the terminal leaves there: a first part of the data, and all of it when it succeeds. -/
theorem writeStdoutBytes_written {out out' : Sink Errno} {data : List UInt8} {r : Except Errno Unit}
    (h : writeStdoutBytes out data = (r, out')) : ∃ d, d <+: data ∧ out'.written = out.written ++ d ∧ (r = .ok () → d = data) := by
  rw [writeStdoutBytes] at h
  split at h
  next h0 =>
    cases h
    refine ⟨[], List.nil_prefix, by rw [List.append_nil], fun _ => ?_⟩
    exact (List.eq_nil_of_length_eq_zero h0).symm
  next h0 =>
    have hs := optyWriteFullLoop_sends out data 0 (fun hle => absurd hle (by omega))
    rw [List.drop_zero] at hs
    cases h
    obtain ⟨k, hk⟩ := hs.exists_take
    refine ⟨data.take k, List.take_prefix k data, hk, fun hr => ?_⟩
    have hok : (optyWriteFullLoop out data 0).1.map (fun _ => ()) = .ok () := hr
    rw [hok] at hs
    exact List.append_cancel_left (hk.symm.trans hs.written_of_ok)

/-- Whatever its descriptors do, a REPLAY or STDOUT that the client has processed is printed, and its `last_seq` is not behind it
and does not fall. -/
theorem processServerFrame_printed {frame : Frame} {seq : UInt64} {data : List UInt8}
    (hf : frame = (Msg.stdout seq data).frame ∨ frame = (Msg.replay seq data).frame) {sock sock' : Sink Errno} {c c' : ClientState}
    {saw saw' : Bool} {rc : Int} (hrc : 0 ≤ rc) (h : processServerFrame sock c saw frame = some (rc, sock', c', saw')) :
    c'.out.written = c.out.written ++ data ∧
      c'.lastSeq = if c.lastSeq < seq + .ofNat data.length then seq + .ofNat data.length else c.lastSeq := by
  have hty : frame.type = msgStdout ∨ frame.type = msgReplay := by
    rcases hf with rfl | rfl
    · exact Or.inl rfl
    · exact Or.inr rfl
  have h1 : ¬frame.type = msgWelcome := by rcases hty with h | h <;> rw [h] <;> decide
  obtain ⟨r, hr, hiff⟩ := optyParseStream_spec frame
  rw [processServerFrame, if_neg h1, if_pos hty, hr, (hiff seq data).2 hf] at h
  simp only [Option.map_some, Option.some.injEq] at h
  split at h
  · cases h
    exact absurd hrc (by decide)
  · rename_i out hout
    obtain ⟨d, -, hwritten, hd⟩ := writeStdoutBytes_written hout
    rw [hd rfl] at hwritten
    split at h
    · cases h
      exact absurd hrc (by decide)
    · split at h <;> cases h <;> exact ⟨hwritten, rfl⟩

end ZeroPty
