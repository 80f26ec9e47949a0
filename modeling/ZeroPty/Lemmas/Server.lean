import ZeroPty.Server
import ZeroPty.Lemmas.Messages
import ZeroPty.Lemmas.Ring

/-!
# One lemma for each decision and section of the server

Which tokens match, which first frames are accepted, what an attach sends and what it leaves in the client, and what a chunk
becomes on the socket of one client.
-/

namespace ZeroPty

open Stream Memory

/-! ## Tokens -/

/-- A token on the wire matches a configured one: it is that one, followed by any number of NULs. -/
def TokenMatches (wire : List UInt8) (t : Secret) : Prop := ∃ k, wire = t.text.bytes ++ List.replicate k 0

namespace ServerAux

/-- Or-ing bytes gives zero exactly when all of them are zero. -/
theorem foldl_or_eq_zero (l : List UInt8) : ∀ b : UInt8, l.foldl (· ||| ·) b = 0 ↔ b = 0 ∧ ∀ x ∈ l, x = 0 := by
  induction l with
  | nil => intro b; simp
  | cons x l ih =>
    intro b
    rw [List.foldl_cons, ih]
    have hor : b ||| x = 0 ↔ b = 0 ∧ x = 0 := by
      simp only [← UInt8.toNat_inj, UInt8.toNat_or, UInt8.toNat_zero, Nat.or_eq_zero_iff]
    rw [hor, List.forall_mem_cons]
    exact and_assoc

/-- Two lists of one length agree exactly when all their differences are zero. -/
theorem zipWith_xor_eq_zero : ∀ {a b : List UInt8}, a.length = b.length →
    ((∀ x ∈ List.zipWith (· ^^^ ·) a b, x = 0) ↔ a = b)
  | [], [], _ => by simp
  | x :: a, y :: b, h => by
    have ih := zipWith_xor_eq_zero (a := a) (b := b) (Nat.succ.inj h)
    have hxor : x ^^^ y = 0 ↔ x = y := UInt8.xor_eq_zero_iff
    rw [List.zipWith_cons_cons, List.forall_mem_cons, ih, hxor, List.cons.injEq]

theorem stored_cells (t : Secret) :
    t.buf.cells = t.text.bytes ++ List.replicate (optyMaxToken + 1 - t.text.bytes.length) 0 := by
  have hlen : 0 + t.text.bytes.length ≤ optyMaxToken + 1 := by
    have := t.fits
    omega
  obtain ⟨out, hout, hcells⟩ := memcpy_eq_some (.fill (optyMaxToken + 1) 0) t.text.bytes (s := 0) hlen (Nat.le_of_eq (Nat.zero_add _))
  have hbuf : t.buf = out := Option.some.inj (t.stored.symm.trans hout)
  rw [hbuf, hcells]
  simp [splice, Block.fill]

theorem tokenBuffer_zero (token : List UInt8) : tokenBuffer token (Block.fill (optyMaxToken + 1) 0).cells =
    token ++ 0 :: List.replicate (optyMaxToken - token.length) 0 := by
  simp [tokenBuffer, Block.fill]

end ServerAux

open ServerAux

/-- `server_tokens_equal` compares whole buffers. -/
theorem serverTokensEqual_iff (e a : TokenBuf) : serverTokensEqual (some e) (some a) = true ↔ e.cells = a.cells := by
  rw [serverTokensEqual, beq_iff_eq, foldl_or_eq_zero, and_iff_right rfl,
    zipWith_xor_eq_zero (e.length_eq.trans a.length_eq.symm)]

/-- A token is set exactly when it is not empty. -/
theorem isSet_iff (t : Secret) : Secret.isSet (some t) = true ↔ t.text.bytes ≠ [] := by
  rw [Secret.isSet, stored_cells]
  cases h : t.text.bytes with
  | nil => simp [List.replicate_succ]
  | cons b l =>
    have hb : b ≠ 0 := by
      rintro rfl
      exact t.text.noNul (by rw [h]; exact List.mem_cons_self)
    simpa using hb

/-- A wire token in its buffer equals a configured one exactly when it is that one followed by NULs. -/
theorem tokens_match_iff (t : Secret) (token : List UInt8) (ht : token.length ≤ optyMaxToken) (tok : TokenBuf)
    (htok : tok.cells = tokenBuffer token (Block.fill (optyMaxToken + 1) 0).cells) :
    serverTokensEqual (some t.buf) (some tok) = true ↔ TokenMatches token t := by
  have hzero : (0 : UInt8) :: List.replicate (optyMaxToken - token.length) 0 =
      List.replicate (optyMaxToken + 1 - token.length) 0 := by
    rw [← List.replicate_succ]
    congr 1
    omega
  rw [serverTokensEqual_iff, htok, tokenBuffer_zero, stored_cells, hzero]
  constructor
  · intro h
    rcases List.append_eq_append_iff.1 h with ⟨c, hc, hrest⟩ | ⟨c, hc, hrest⟩
    · refine ⟨c.length, ?_⟩
      rw [hc, ← List.eq_replicate_of_mem (a := (0 : UInt8)) (l := c)]
      intro x hx
      exact List.eq_of_mem_replicate (hrest ▸ List.mem_append_left _ hx)
    · -- the wire token ends inside the configured one, which would then hold the NUL behind it
      cases c with
      | nil => exact ⟨0, by simpa using hc.symm⟩
      | cons x c =>
        have hx : x = 0 := List.eq_of_mem_replicate (hrest ▸ List.mem_append_left _ List.mem_cons_self)
        refine absurd ?_ t.text.noNul
        rw [hc, hx]
        exact List.mem_append_right _ List.mem_cons_self
  · rintro ⟨k, rfl⟩
    rw [List.length_append, List.length_replicate] at ht ⊢
    rw [List.append_assoc, List.replicate_append_replicate]
    congr 2
    omega

/-! ## The first frame -/

/-- The attach token lets this wire token in: none is set, or they match. -/
def TokenAdmits (cfg : Option Secret) (token : List UInt8) : Prop :=
  ∀ t, cfg = some t → t.text.bytes ≠ [] → TokenMatches token t

/-- A HELLO or RECONNECT that parses, with a size that is not zero and an admitted token; the intro is what it asks for. -/
def Authorised (cfg : Config) (frame : Frame) (i : Intro) : Prop :=
  i.cols ≠ 0 ∧ i.rows ≠ 0 ∧ ∃ token, token.length ≤ optyMaxToken ∧ TokenAdmits cfg.token token ∧
    ((frame = (Msg.hello i.cols i.rows token).frame ∧ i.requestedSeq = 0) ∨
      frame = (Msg.reconnect i.requestedSeq i.cols i.rows token).frame)

/-- A CONTROL_SHUTDOWN that parses, with a token that matches a set control token. -/
def ControlAuthorised (cfg : Config) (frame : Frame) (input : List UInt8) : Prop :=
  ∃ t token, cfg.controlToken = some t ∧ t.text.bytes ≠ [] ∧ token.length ≤ optyMaxToken ∧ TokenMatches token t ∧
    input.length ≤ optyMaxGracefulInput ∧ frame = (Msg.controlShutdown token input).frame

/-- The token check of `server_process_intro`. -/
theorem tokenAdmits_iff (cfg : Option Secret) (token : List UInt8) (ht : token.length ≤ optyMaxToken) (tok : TokenBuf)
    (htok : tok.cells = tokenBuffer token (Block.fill (optyMaxToken + 1) 0).cells) :
    TokenAdmits cfg token ↔ ¬(Secret.isSet cfg ∧ ¬serverTokensEqual (cfg.map Secret.buf) (some tok)) := by
  cases cfg with
  | none => simp [TokenAdmits, Secret.isSet]
  | some t =>
    rw [isSet_iff, Option.map_some, tokens_match_iff t token ht tok htok]
    simp only [TokenAdmits, Option.some.injEq, forall_eq']
    constructor
    · rintro h ⟨h1, h2⟩
      exact h2 (h h1)
    · intro h h1
      by_contra h2
      exact h ⟨h1, h2⟩

/-- The control token check of `server_process_control_shutdown`. -/
theorem controlTokenAdmits_iff (cfg : Option Secret) (token : List UInt8) (ht : token.length ≤ optyMaxToken) (tok : TokenBuf)
    (htok : tok.cells = tokenBuffer token (Block.fill (optyMaxToken + 1) 0).cells) :
    (∃ t, cfg = some t ∧ t.text.bytes ≠ [] ∧ TokenMatches token t) ↔
      ¬(¬Secret.isSet cfg ∨ ¬serverTokensEqual (cfg.map Secret.buf) (some tok)) := by
  cases cfg with
  | none => simp [Secret.isSet]
  | some t =>
    rw [isSet_iff, Option.map_some, tokens_match_iff t token ht tok htok]
    simp only [Option.some.injEq, exists_eq_left', not_or, not_not]

/-- `server_process_intro` goes on to the resize exactly for an authorised intro. -/
theorem serverCheckIntro_spec (cfg : Config) (frame : Frame) :
    ∃ v, serverCheckIntro cfg frame = some v ∧ ∀ i, v = .granted i ↔ Authorised cfg frame i := by
  obtain ⟨r, hr, hiff⟩ := optyParseClientIntro_spec frame (Nat.lt_succ_self optyMaxToken) (.fill (optyMaxToken + 1) 0)
  rw [serverCheckIntro, hr, Option.bind_some]
  have hne : msgReconnect ≠ msgHello := by decide
  -- the fields of an authorised frame are those the parser returns
  have hauth : ∀ i, Authorised cfg frame i → ∃ fields, r = .ok fields ∧ i.cols ≠ 0 ∧ i.rows ≠ 0 ∧
      ¬(Secret.isSet cfg.token ∧ ¬serverTokensEqual (cfg.token.map Secret.buf) (some fields.token)) ∧
      i = ⟨if frame.type = msgReconnect then fields.lastSeq else 0, fields.cols, fields.rows⟩ := by
    rintro i ⟨hc, hrows, token, ht, hadmit, hf⟩
    have hlen := length_tokenBuffer token (.fill (optyMaxToken + 1) 0) (Nat.lt_succ_of_le ht)
    have hok := (tokenAdmits_iff cfg.token token ht ⟨_, hlen⟩ rfl).1 hadmit
    rcases hf with ⟨hf, hseq⟩ | hf
    · refine ⟨⟨0, i.cols, i.rows, ⟨_, hlen⟩⟩, (hiff _).2 ⟨token, ht, rfl, Or.inl ⟨hf, rfl⟩⟩, hc, hrows, hok, ?_⟩
      have htype : frame.type ≠ msgReconnect := fun h => hne (h.symm.trans (congrArg Frame.type hf))
      rw [if_neg htype, ← hseq]
    · refine ⟨⟨i.requestedSeq, i.cols, i.rows, ⟨_, hlen⟩⟩, (hiff _).2 ⟨token, ht, rfl, Or.inr hf⟩, hc, hrows, hok, ?_⟩
      have htype : frame.type = msgReconnect := congrArg Frame.type hf
      rw [if_pos htype]
  cases r with
  | error e =>
    refine ⟨.bad, rfl, fun i => ⟨nofun, fun h => ?_⟩⟩
    obtain ⟨fields, hf, -⟩ := hauth i h
    cases hf
  | ok fields =>
    obtain ⟨token, ht, htok, hframe⟩ := (hiff fields).1 rfl
    simp only
    by_cases hz : fields.cols = 0 ∨ fields.rows = 0
    · rw [if_pos hz]
      refine ⟨.bad, rfl, fun i => ⟨nofun, fun h => ?_⟩⟩
      obtain ⟨_, hf, hc, hrows, -, rfl⟩ := hauth i h
      cases hf
      exact absurd hz (not_or.2 ⟨hc, hrows⟩)
    · rw [if_neg hz]
      by_cases hd : Secret.isSet cfg.token ∧ ¬serverTokensEqual (cfg.token.map Secret.buf) (some fields.token)
      · rw [if_pos hd]
        refine ⟨.denied, rfl, fun i => ⟨nofun, fun h => ?_⟩⟩
        obtain ⟨_, hf, -, -, hok, -⟩ := hauth i h
        cases hf
        exact absurd hd hok
      · rw [if_neg hd]
        refine ⟨_, rfl, fun i => ⟨?_, fun h => ?_⟩⟩
        · intro h
          cases h
          obtain ⟨hc, hrows⟩ := not_or.1 hz
          refine ⟨hc, hrows, token, ht, (tokenAdmits_iff cfg.token token ht fields.token htok).2 hd, ?_⟩
          rcases hframe with ⟨hf, hseq⟩ | hf
          · exact Or.inl ⟨hf, if_neg (fun h => hne (h.symm.trans (congrArg Frame.type hf)))⟩
          · rw [if_pos (show frame.type = msgReconnect from congrArg Frame.type hf)]
            exact Or.inr hf
        · obtain ⟨_, hf, -, -, -, rfl⟩ := hauth i h
          cases hf
          rfl

/-- `server_process_control_shutdown` requests the shutdown exactly for an authorised control message. -/
theorem serverCheckControlShutdown_spec (cfg : Config) (frame : Frame) :
    ∃ v, serverCheckControlShutdown cfg frame = some v ∧ ∀ input, v = .granted input ↔ ControlAuthorised cfg frame input := by
  obtain ⟨r, hr, hiff⟩ := optyParseControlShutdown_spec frame (Nat.lt_succ_self optyMaxToken) (.fill (optyMaxToken + 1) 0)
  rw [serverCheckControlShutdown, hr, Option.bind_some]
  have hauth : ∀ input, ControlAuthorised cfg frame input → ∃ tok, r = .ok (tok, input) ∧
      ¬(¬Secret.isSet cfg.controlToken ∨ ¬serverTokensEqual (cfg.controlToken.map Secret.buf) (some tok)) := by
    rintro input ⟨t, token, hcfg, hset, ht, hmatch, hi, hf⟩
    have hlen := length_tokenBuffer token (.fill (optyMaxToken + 1) 0) (Nat.lt_succ_of_le ht)
    exact ⟨⟨_, hlen⟩, (hiff _ _).2 ⟨token, ht, hi, rfl, hf⟩,
      (controlTokenAdmits_iff cfg.controlToken token ht ⟨_, hlen⟩ rfl).1 ⟨t, hcfg, hset, hmatch⟩⟩
  cases r with
  | error e =>
    refine ⟨.bad, rfl, fun input => ⟨nofun, fun h => ?_⟩⟩
    obtain ⟨tok, hf, -⟩ := hauth input h
    cases hf
  | ok fields =>
    obtain ⟨tok, input⟩ := fields
    obtain ⟨token, ht, hi, htok, hframe⟩ := (hiff tok input).1 rfl
    simp only
    by_cases hd : ¬Secret.isSet cfg.controlToken ∨ ¬serverTokensEqual (cfg.controlToken.map Secret.buf) (some tok)
    · rw [if_pos hd]
      refine ⟨.denied, rfl, fun input' => ⟨nofun, fun h => ?_⟩⟩
      obtain ⟨tok', hf, hok⟩ := hauth input' h
      cases hf
      exact absurd hd hok
    · rw [if_neg hd]
      refine ⟨.granted input, rfl, fun input' => ⟨?_, fun h => ?_⟩⟩
      · intro h
        cases h
        obtain ⟨t, hcfg, hset, hmatch⟩ := (controlTokenAdmits_iff cfg.controlToken token ht tok htok).2 hd
        exact ⟨t, token, hcfg, hset, ht, hmatch, hi, hframe⟩
      · obtain ⟨tok', hf, -⟩ := hauth input' h
        cases hf
        rfl

/-- What `client_thread_main` does with its first frame: it goes on to the resize exactly for an authorised intro, and to
`server_request_shutdown` exactly for an authorised control message. -/
theorem firstMove_spec (cfg : Config) (received : Except Errno (Option Frame)) :
    ∃ move, firstMove cfg received = some move ∧
      (∀ i, move = .intro i ↔ ∃ f, received = .ok (some f) ∧ Authorised cfg f i) ∧
      (∀ input, move = .shutdown input ↔ ∃ f, received = .ok (some f) ∧ ControlAuthorised cfg f input) := by
  have hnone : ∀ move : FirstMove, (∀ i, move ≠ .intro i) → (∀ input, move ≠ .shutdown input) → (∀ f, received ≠ .ok (some f)) →
      (∀ i, move = .intro i ↔ ∃ f, received = .ok (some f) ∧ Authorised cfg f i) ∧
      (∀ input, move = .shutdown input ↔ ∃ f, received = .ok (some f) ∧ ControlAuthorised cfg f input) :=
    fun move h1 h2 h => ⟨fun i => ⟨fun e => absurd e (h1 i), fun ⟨f, hf, _⟩ => absurd hf (h f)⟩,
      fun input => ⟨fun e => absurd e (h2 input), fun ⟨f, hf, _⟩ => absurd hf (h f)⟩⟩
  have hintro : ∀ f i, Authorised cfg f i → f.type = msgHello ∨ f.type = msgReconnect := by
    rintro f i ⟨-, -, token, -, -, ⟨rfl, -⟩ | rfl⟩
    · exact Or.inl rfl
    · exact Or.inr rfl
  have hcontrol : ∀ f input, ControlAuthorised cfg f input → f.type = msgControlShutdown := by
    rintro f input ⟨t, token, -, -, -, -, -, rfl⟩
    rfl
  match received with
  | .error e => exact ⟨_, rfl, hnone _ nofun nofun nofun⟩
  | .ok none => exact ⟨_, rfl, hnone _ nofun nofun nofun⟩
  | .ok (some frame) =>
    simp only [firstMove, Except.ok.injEq, Option.some.injEq, exists_eq_left']
    by_cases hc : frame.type = msgControlShutdown
    · rw [if_pos hc]
      have hno : ∀ i, ¬Authorised cfg frame i := by
        intro i h
        rcases hintro frame i h with h | h
        · rw [hc] at h; exact absurd h (by decide)
        · rw [hc] at h; exact absurd h (by decide)
      obtain ⟨v, hv, hiff⟩ := serverCheckControlShutdown_spec cfg frame
      rw [hv, Option.map_some]
      refine ⟨_, rfl, fun i => ⟨fun h => ?_, fun h => absurd h (hno i)⟩, fun input => ?_⟩
      · cases v <;> cases h
      · rw [← hiff]
        cases v <;> simp
    · rw [if_neg hc]
      have hno : ∀ input, ¬ControlAuthorised cfg frame input := fun input h => hc (hcontrol frame input h)
      by_cases ht : frame.type ≠ msgHello ∧ frame.type ≠ msgReconnect
      · rw [if_pos ht]
        refine ⟨_, rfl, fun i => ⟨nofun, fun h => ?_⟩, fun input => ⟨nofun, fun h => absurd h (hno input)⟩⟩
        rcases hintro frame i h with h | h
        · exact absurd h ht.1
        · exact absurd h ht.2
      · rw [if_neg ht]
        obtain ⟨v, hv, hiff⟩ := serverCheckIntro_spec cfg frame
        rw [hv, Option.map_some]
        refine ⟨_, rfl, fun i => ?_, fun input => ⟨fun h => ?_, fun h => absurd h (hno input)⟩⟩
        · rw [← hiff]
          cases v <;> simp
        · cases v <;> cases h

/-- The loop of `client_thread_main` finds a branch for every frame, without reading outside it. -/
theorem loopMove_total (received : Except Errno (Option Frame)) : ∃ move, loopMove received = some move := by
  match received with
  | .error e => exact ⟨_, rfl⟩
  | .ok none => exact ⟨_, rfl⟩
  | .ok (some frame) =>
    obtain ⟨r, hr, -⟩ := optyParseResize_spec frame
    obtain ⟨a, ha, -⟩ := optyParseAck_spec frame
    simp only [loopMove, hr, ha, Option.map_some]
    split
    · exact ⟨_, rfl⟩
    · split
      · exact ⟨_, rfl⟩
      · split <;> exact ⟨_, rfl⟩

/-! ## What a thread writes -/

/-- `server_write_pty` writes a first part of its data. -/
theorem serverWritePty_written (master : Sink Errno) (data : List UInt8) :
    ∃ k, (serverWritePty master data).2.written = master.written ++ data.take k := by
  unfold serverWritePty
  by_cases h0 : data.length = 0
  · rw [if_pos h0]
    exact ⟨0, by simp⟩
  · rw [if_neg h0]
    have hs := optyWriteFullLoop_sends master data 0 (fun hle => absurd hle (by omega))
    rw [List.drop_zero] at hs
    exact hs.exists_take

/-- The ERROR frame with a text. -/
def ErrorText.frame (t : ErrorText) : Frame := ⟨msgError, t.cString.bytes⟩

/-- `server_send_error` writes the ERROR frame of its text, whole or up to a failure. -/
theorem optySendError_sends (fd : Sink Errno) (t : ErrorText) :
    Sends .eintr fd (frameBytes t.frame) (optySendError fd (some t.cString)).1 (optySendError fd (some t.cString)).2 := by
  have hlen : t.cString.bytes.length ≤ optyMaxFrame - 1 := by
    cases t <;> decide
  unfold optySendError
  simp only [Option.map_some, Option.getD_some]
  rw [if_neg (by omega)]
  exact optySendFrame_mem fd t.frame hlen

/-! ## Attaching -/

/-- The snapshot a ring gives from a position: its bounds, and the log from that position, moved into them, to the end. -/
structure Snapshot.Of (snap : Snapshot) (ring : Ring) (log : List UInt8) (requestedSeq : UInt64) : Prop where
  base : snap.baseSeq = ring.baseSeq
  next : snap.nextSeq = ring.nextSeq
  start : snap.fromSeq = ring.clampSeq requestedSeq
  readable : snap.data.Readable
  bytes : snap.data.bytes = log.drop snap.fromSeq.toNat

/-- With allocations that succeed the attach section does: the client is authenticated at the end of the log. -/
theorem serverAttach_ok {ring : Ring} {log : List UInt8} (h : ring.Represents log) (malloc : Alloc UInt8)
    (hm : ∀ n, (malloc n).isSome) (c : Client) (requestedSeq : UInt64) :
    ∃ snap, serverAttach malloc ring c requestedSeq =
        some (some ({ c with authenticated := true, liveSeq := ring.nextSeq, writeLocked := true }, snap)) ∧
      snap.Of ring log requestedSeq := by
  obtain ⟨snap, hsnap, hbase, hnext, hfrom, hlen, hbytes, hnull⟩ := snapshot_represents h malloc hm requestedSeq
  have hok : ¬(0 < snap.len ∧ snap.out = none) := by
    rintro ⟨hpos, hout⟩
    rw [hnull.1 hout] at hpos
    exact absurd hpos (UInt64.lt_irrefl 0)
  refine ⟨snap, ?_, hbase, hnext, hfrom, ?_, ?_⟩
  · rw [serverAttach, hsnap, Option.map_some, if_neg hok, hnext]
  · cases hout : snap.out with
    | none =>
      rw [Snapshot.data, hout, hnull.1 hout]
      rfl
    | some bytes =>
      rw [Snapshot.data, hout]
      rfl
  · rw [← hbytes, Snapshot.bytes, Snapshot.data]
    cases snap.out <;> rfl

/-- Whatever else cannot be allocated: a client that is attached has the snapshot. -/
theorem serverAttach_of {malloc : Alloc UInt8} {ring : Ring} {log : List UInt8} {c c' : Client} {requestedSeq : UInt64}
    {snap : Snapshot} (h : ring.Represents log) (ha : serverAttach malloc ring c requestedSeq = some (some (c', snap))) :
    snap.Of ring log requestedSeq := by
  -- an allocator that never fails, and is this one where it did not
  let total : Alloc UInt8 := fun n => (malloc n).or (some (.fill n 0))
  have htotal : ∀ n, (total n).isSome := fun n => by cases hn : malloc n <;> simp [total, hn]
  obtain ⟨snap', hok, hof⟩ := serverAttach_ok h total htotal c requestedSeq
  have hsame : serverAttach malloc ring c requestedSeq = serverAttach total ring c requestedSeq := by
    by_cases h0 : ring.nextSeq - ring.clampSeq requestedSeq = 0
    · simp only [serverAttach, optyRingSnapshotWindow, if_pos h0]
    · cases hm : malloc (ring.nextSeq - ring.clampSeq requestedSeq).toNat with
      | some out =>
        have ht : total (ring.nextSeq - ring.clampSeq requestedSeq).toNat = some out := by simp [total, hm]
        simp only [serverAttach, optyRingSnapshotWindow, if_neg h0, hm, ht]
      | none =>
        have hpos : 0 < ring.nextSeq - ring.clampSeq requestedSeq := UInt64.pos_iff_ne_zero.2 h0
        simp [serverAttach, optyRingSnapshotWindow, h0, hm, hpos] at ha
  rw [hsame, hok] at ha
  cases ha
  exact hof

/-- The replay, as a number of bytes. -/
theorem Snapshot.Of.data_len {snap : Snapshot} {ring : Ring} {log : List UInt8} {requestedSeq : UInt64}
    (h : snap.Of ring log requestedSeq) : snap.data.len = log.length - (ring.clampSeq requestedSeq).toNat := by
  have hr : snap.data.bytes.length = snap.data.len := h.readable
  rw [← hr, h.bytes, List.length_drop, h.start]

/-- The position a replay starts at, in terms of the log. -/
theorem Ring.Represents.toNat_clampSeq {ring : Ring} {log : List UInt8} (h : ring.Represents log) (requestedSeq : UInt64) :
    (ring.clampSeq requestedSeq).toNat = max (log.length - ring.cap.toNat) (min requestedSeq.toNat log.length) := by
  rw [RingAux.toNat_clampSeq ring requestedSeq h.base_le_next, h.base, h.next]

end ZeroPty
