import ZeroPty.Theorems.Typing

/-!
# The server and the client understand each other

Every frame that a client of this program writes is one that the server takes: the intro is within the limit for peers that are not known
yet and has a size, and each later frame is one of the loop's. The server ends such a connection only when it is cut or a call fails. And
every frame that the server writes is one that the client takes.
-/

namespace ZeroPty

open Stream Memory Transition TypingAux

/-- A size that `get_terminal_size` found. -/
def MeasuredSize (cols rows : UInt16) : Prop := ∃ stdin stdout, getTerminalSize stdin stdout = (cols, rows)

/-- This receive finds no whole frame: it reports the end of a connection that is at its end, or the cut of one that is cut; or it
fails because a read does, or because the payload cannot be allocated. -/
def Broken (limit : Nat) (alloc : Bool) (input : Source Errno) : Prop :=
  ((optyRecvFrameLimited alloc input limit).1 = .ok none ∧ input.bytes = []) ∨
  ((optyRecvFrameLimited alloc input limit).1 = .error .econnreset ∧ Truncated limit input.bytes) ∨
  ∃ e, (optyRecvFrameLimited alloc input limit).1 = .error e ∧ e ≠ .eintr ∧ (¬input.Benign .eintr ∨ alloc = false)

namespace AdmissionAux

/-- A terminal always has a size. -/
theorem measuredSize_ne_zero {cols rows : UInt16} (h : MeasuredSize cols rows) : cols ≠ 0 ∧ rows ≠ 0 := by
  have hfound : ∀ n d : UInt16, d ≠ 0 → (if 0 < n then n else d) ≠ 0 := by
    intro n d hd
    by_cases hn : 0 < n
    · rw [if_pos hn]
      exact (UInt16.pos_iff_ne_zero).1 hn
    · rw [if_neg hn]
      exact hd
  obtain ⟨stdin, stdout, h⟩ := h
  cases stdin with
  | ok ws =>
    cases h
    exact ⟨hfound _ _ (by decide), hfound _ _ (by decide)⟩
  | error e =>
    cases stdout with
    | ok ws =>
      cases h
      exact ⟨hfound _ _ (by decide), hfound _ _ (by decide)⟩
    | error e' =>
      cases h
      exact ⟨by decide, by decide⟩

/-- The length at the start of a frame. -/
theorem wirePrefix_frame {n : Nat} (hn : n < 2 ^ 32) {g : Frame} (hg : g.Short) {x y : List UInt8}
    (h : wirePrefix (UInt32.ofNat n) ++ x = frameBytes g ++ y) : n = g.payload.length + 1 := by
  rw [frameBytes, List.append_assoc] at h
  obtain ⟨hpre, -⟩ := List.append_inj h rfl
  have hshort : g.payload.length < 2 ^ 32 - 1 := hg
  have h1 := (wirePrefix_eq_iff n hn _ _ _ _).1 rfl
  have h2 := (wirePrefix_eq_iff (g.payload.length + 1) (by omega) _ _ _ _).1 hpre.symm
  omega

/-- What is received after the frames `fs`, from a peer that writes the frames `ms` and has written what is read: the next of them, when
it is not too long. -/
theorem recv_next {fs ms : List Frame} (hfs : ∀ f ∈ fs, f.Short) (hms : ∀ g ∈ ms, g.Short) {alloc : Bool} {input : Source Errno}
    {limit : Nat} (hle : ∀ got, input.bytes = got ++ (optyRecvFrameLimited alloc input limit).2.bytes → wireBytes fs ++ got <+: wireBytes ms)
    (hcap : ∀ g gs, ms = fs ++ g :: gs → g.payload.length ≤ payloadCap limit) :
    (∃ g gs, ms = fs ++ g :: gs ∧ (optyRecvFrameLimited alloc input limit).1 = .ok (some g)) ∨ Broken limit alloc input := by
  obtain ⟨r, input', heq, -, hc⟩ := optyRecvFrameLimited_cases alloc input limit
  unfold Broken
  rw [heq] at hle ⊢
  rcases hc with ⟨f, rfl, hb, hlen⟩ | ⟨rfl, hb, -⟩ | ⟨n, rfl, hb, hn, hbad⟩ | ⟨rfl, hb, -⟩ | ⟨e, rfl, he, hb⟩
  · -- the frames that were read are the first of those that were written
    have hshort : f.Short := Nat.lt_of_le_of_lt hlen (Nat.lt_trans (payloadCap_lt limit) (by decide))
    have hall : ∀ g ∈ fs ++ [f], g.Short := List.forall_mem_append.2 ⟨hfs, List.forall_mem_singleton.2 hshort⟩
    have hread := hle _ hb
    rw [← wireBytes_concat] at hread
    obtain ⟨gs, hgs⟩ := wireBytes_prefix hall hms hread
    exact Or.inl ⟨f, gs, by rw [← hgs, List.append_assoc]; rfl, rfl⟩
  · exact Or.inr (Or.inl ⟨rfl, hb⟩)
  · -- a length that is refused is not one of a frame
    have hread := hle _ hb
    obtain ⟨gs, rfl⟩ := wireBytes_prefix hfs hms ((List.prefix_append _ _).trans hread)
    rw [wireBytes_append, List.prefix_append_right_inj] at hread
    cases gs with
    | nil => exact absurd hread.length_le (by rw [length_wirePrefix]; decide)
    | cons g gs =>
      obtain ⟨y, hy⟩ := hread
      have hlen := wirePrefix_frame hn (hms g (by simp)) (hy.trans (wireBytes_cons g gs))
      have hg := hcap g gs rfl
      omega
  · exact Or.inr (Or.inr (Or.inl ⟨rfl, hb⟩))
  · exact Or.inr (Or.inr (Or.inr ⟨e, rfl, he, hb⟩))

/-- With a whole frame before it, and when no call fails, there is a frame to be had. -/
theorem not_broken (limit : Nat) {input : Source Errno} {g : Frame} {more : List UInt8} (hbytes : input.bytes = frameBytes g ++ more)
    (hg : g.Short) (hread : input.Benign .eintr) : ¬Broken limit true input := by
  rintro (⟨-, h⟩ | ⟨-, -, h | ⟨n, rest, h1, hn, h, hrest⟩⟩ | ⟨e, -, -, h | h⟩)
  · exact frameBytes_ne_nil g (List.append_eq_nil_iff.1 (hbytes.symm.trans h)).1
  · rw [hbytes, List.length_append, length_frameBytes] at h
    omega
  · have hcap := payloadCap_lt limit
    have hlen := congrArg List.length (h.symm.trans hbytes)
    have heq := wirePrefix_frame (by omega) hg (h.symm.trans hbytes)
    rw [List.length_append, List.length_append, length_frameBytes, length_wirePrefix] at hlen
    omega
  · exact h hread
  · cases h

/-- The thread receives its first frame. -/
theorem step_recvFirst {s t : Sys} {i : Nat} {env : Env} (hpc : (s.conn i).pc = .recvFirst) (h : step s (.client i env) = .next t) :
    ∃ move, firstMove s.cfg (optyRecvFrameLimited env.alloc (s.conn i).input optyMaxUnauthPayload).1 = some move ∧
      (t.conn i).pc = move.pc ∧ (t.conn i).input = (optyRecvFrameLimited env.alloc (s.conn i).input optyMaxUnauthPayload).2 := by
  simp only [step, clientStep, hpc] at h
  obtain ⟨cl, -, h⟩ := ThreadsAux.withClient_eq_next h
  obtain ⟨move, hmove, rfl⟩ := ofOption_map_eq_next h
  have hconn := fun d : Conn => show (s.setConn i d).conn i = d from Function.update_self _ _ _
  exact ⟨move, hmove, congrArg Conn.pc (hconn _), congrArg Conn.input (hconn _)⟩

/-- The thread receives a frame in its loop. -/
theorem step_recvLoop {s t : Sys} {i : Nat} {env : Env} (hpc : (s.conn i).pc = .recvLoop) (h : step s (.client i env) = .next t) :
    ∃ move, loopMove (optyRecvFrame env.alloc (s.conn i).input).1 = some move ∧
      (t.conn i).pc = move.pc ∧ (t.conn i).input = (optyRecvFrame env.alloc (s.conn i).input).2 := by
  simp only [step, clientStep, hpc] at h
  obtain ⟨cl, -, h⟩ := ThreadsAux.withClient_eq_next h
  obtain ⟨move, hmove, rfl⟩ := ofOption_map_eq_next h
  have hconn := fun d : Conn => show (s.setConn i d).conn i = d from Function.update_self _ _ _
  exact ⟨move, hmove, congrArg Conn.pc (hconn _), congrArg Conn.input (hconn _)⟩

/-- The intro of a client with a token that is let in. -/
theorem firstMove_intro {cfg : Config} {token : List UInt8} (htoken : TokenAdmits cfg.token token) {f : Frame} {cols rows : UInt16}
    (hf : IntroSize token f cols rows) (hcols : cols ≠ 0) (hrows : rows ≠ 0) :
    ∃ intro, firstMove cfg (.ok (some f)) = some (.intro intro) ∧ intro.cols = cols ∧ intro.rows = rows := by
  obtain ⟨move, hmove, hintro, -⟩ := firstMove_spec cfg (.ok (some f))
  obtain ⟨intro, hauth, hc, hr⟩ : ∃ intro, Authorised cfg f intro ∧ intro.cols = cols ∧ intro.rows = rows := by
    obtain ⟨hfits, seq, hf | hf⟩ := hf
    · exact ⟨⟨0, cols, rows⟩, ⟨hcols, hrows, token, hfits, htoken, Or.inl ⟨hf, rfl⟩⟩, rfl, rfl⟩
    · exact ⟨⟨seq, cols, rows⟩, ⟨hcols, hrows, token, hfits, htoken, Or.inr hf⟩, rfl, rfl⟩
  exact ⟨intro, by rw [hmove, (hintro intro).2 ⟨f, rfl, hauth⟩], hc, hr⟩

/-- A later frame of a client keeps the thread in its loop. -/
theorem loopMove_followUp {g : Frame} (h : FollowUp MeasuredSize g) {move : LoopMove} (hmove : loopMove (.ok (some g)) = some move) :
    move ≠ .leave := by
  rcases h with ⟨data, -, rfl⟩ | ⟨seq, rfl⟩ | ⟨cols, rows, hsize, rfl⟩
  · cases hmove
    rintro ⟨⟩
  · rw [loopMove_ack] at hmove
    cases hmove
    rintro ⟨⟩
  · obtain ⟨hcols, hrows⟩ := measuredSize_ne_zero hsize
    rw [loopMove_resize, if_neg (not_or.2 ⟨hcols, hrows⟩)] at hmove
    cases hmove
    rintro ⟨⟩

end AdmissionAux

open AdmissionAux

/-- The frames of a client over a connection, if it is one of its own, where it asked for this. -/
def Uttered (token : List UInt8) (asked : List PtyEffect) (ms : List Frame) : Prop :=
  ms = [] ∨ ∃ f gs cols rows, ms = f :: gs ∧ Speech MeasuredSize token f gs cols rows ∧ sizeEffect cols rows <+: asked

/-- The client has written a first part of its frames. -/
theorem TypistInv.uttered {token : List UInt8} {t : Typist} (h : TypistInv MeasuredSize token t) (i : Nat) :
    ∃ ms, Uttered token (t.asked i) ms ∧ t.sent i <+: wireBytes ms := by
  rcases h.spoke i with hnone | ⟨f, gs, cols, rows, hsp, hsent, hasked⟩
  · exact ⟨[], Or.inl rfl, by rw [hnone]; exact List.nil_prefix⟩
  · exact ⟨f :: gs, Or.inr ⟨f, gs, cols, rows, rfl, hsp, (List.prefix_append _ _).trans hasked⟩, hsent⟩

section Uttered

variable {token : List UInt8} {asked : List PtyEffect} {ms : List Frame}

theorem Uttered.short (h : Uttered token asked ms) : ∀ g ∈ ms, g.Short := by
  rcases h with rfl | ⟨f, gs, cols, rows, rfl, hsp, -⟩
  · intro g hg
    cases hg
  · exact hsp.short

/-- The first frame is an intro with a size. -/
theorem Uttered.first (h : Uttered token asked ms) {g : Frame} {gs : List Frame} (hms : ms = g :: gs) :
    ∃ cols rows more, IntroSize token g cols rows ∧ cols ≠ 0 ∧ rows ≠ 0 ∧ asked = .winsize cols rows :: more := by
  rcases h with rfl | ⟨f, gs', cols, rows, rfl, hsp, more, hmore⟩
  · cases hms
  · cases hms
    obtain ⟨hcols, hrows⟩ := measuredSize_ne_zero hsp.size
    rw [sizeEffect, if_neg (not_or.2 ⟨hcols, hrows⟩)] at hmore
    exact ⟨cols, rows, more, hsp.first, hcols, hrows, hmore.symm⟩

/-- Each later frame is one of the loop. -/
theorem Uttered.followUp (h : Uttered token asked ms) {f g : Frame} {fs gs : List Frame} (hms : ms = f :: fs ++ g :: gs) :
    FollowUp MeasuredSize g := by
  rcases h with rfl | ⟨f', gs', cols, rows, rfl, hsp, -⟩
  · cases hms
  · cases hms
    exact hsp.rest g (by simp)

end Uttered

/-- The server serves its own client. In every state of every run of the server and a client of it, with sizes as `get_terminal_size`
finds them and a token that is let in: when a thread of the server has read, after its next step, no more than the client wrote to its
connection, then its intro was accepted with the size that the client asked for, and each later frame kept the thread in its loop. The
exceptions are those in which there is no whole frame; no frame is refused for its type, length, size or contents. -/
theorem own_client_is_served (cfg : Config) (malloc : Alloc UInt8) (capacity : UInt64) (ring : Ring)
    (hinit : optyRingInit malloc (.ok ()) capacity = .ok ring) (master : Sink Errno) (args : ClientArgs) (out err : Sink Errno)
    (scrollback : Option (Sink Errno)) (htoken : TokenAdmits cfg.token (tokenBytes args.token)) (acts : List WorldAct)
    (hacts : ∀ a ∈ acts, a.Sized MeasuredSize) (t : Typist)
    (ht : exec typistStep (.init (World.init (Sys.init cfg ring master) args out err scrollback)) acts = .next t) (i : Nat) (env : Env)
    (s : Sys) (hstep : step t.world.server (.client i env) = .next s) (got : List UInt8)
    (hgot : (t.world.server.conn i).wire = got ++ (s.conn i).input.bytes) (hsent : got <+: t.sent i) :
    ((t.world.server.conn i).pc = .recvFirst →
      (∃ intro more, (s.conn i).pc = .resizeIntro intro ∧ t.asked i = .winsize intro.cols intro.rows :: more) ∨
        Broken optyMaxUnauthPayload env.alloc (t.world.server.conn i).input) ∧
    ((t.world.server.conn i).pc = .recvLoop →
      (s.conn i).pc.isAdmitted = true ∨ Broken (optyMaxFrame - 1) env.alloc (t.world.server.conn i).input) := by
  obtain ⟨-, hauth, hfed, hinv⟩ := runInv_of_exec hinit hacts ht
  obtain ⟨fs, hfs⟩ := hfed i
  obtain ⟨ms, hframes, hms⟩ := hinv.uttered i
  have hle : ∀ got' rest, wireBytes fs ++ (got' ++ rest) = got ++ rest → wireBytes fs ++ got' <+: wireBytes ms := by
    intro got' rest h
    rw [← List.append_assoc] at h
    rw [List.append_cancel_right h]
    exact hsent.trans hms
  refine ⟨fun hpc => ?_, fun hpc => ?_⟩
  · obtain ⟨move, hmove, hpc', hinput⟩ := step_recvFirst hpc hstep
    rw [hfs.unread (by rw [hpc]; rfl), hinput] at hgot
    obtain rfl := hfs.first (by rw [hpc]; rfl)
    -- the frame that is read is the client's intro
    refine (recv_next hfs.short hframes.short (fun got' h => hle got' _ (by rw [← h]; exact hgot)) fun g gs hg => ?_).imp_left ?_
    · obtain ⟨cols, rows, -, hintro, -⟩ := hframes.first hg
      exact Nat.le_trans (introSize_length hintro) (by decide)
    · rintro ⟨g, gs, hg, hrecv⟩
      obtain ⟨cols, rows, more, hsize, hcols, hrows, hasked⟩ := hframes.first hg
      obtain ⟨intro, hintro, rfl, rfl⟩ := firstMove_intro htoken hsize hcols hrows
      rw [hrecv, hauth.cfg_eq, hintro] at hmove
      cases hmove
      exact ⟨intro, more, hpc', hasked⟩
  · obtain ⟨move, hmove, hpc', hinput⟩ := step_recvLoop hpc hstep
    rw [hfs.unread (by rw [hpc]; rfl), hinput] at hgot
    obtain ⟨f₀, fs', intro, rfl, -⟩ := hfs.admits (by rw [hpc]; rfl)
    -- the frame that is read is one that the client wrote after its intro
    refine (recv_next hfs.short hframes.short (fun got' h => hle got' _ (by rw [← h]; exact hgot)) fun g gs hg => ?_).imp_left ?_
    · exact Nat.le_trans (followUp_length (hframes.followUp hg)) (by decide)
    · rintro ⟨g, gs, hg, hrecv⟩
      rw [optyRecvFrame, hrecv] at hmove
      have hleave := loopMove_followUp (hframes.followUp hg) hmove
      rw [hpc']
      cases move with
      | leave => exact absurd rfl hleave
      | again => rfl
      | write payload => rfl
      | resize cols rows => rfl

/-- A client whose input and output are no terminals. -/
def pipedRun : List WorldAct := [.connect 80 24 ⟨frameBytes (Msg.hello 80 24 []).frame, []⟩ [] [] false, .server (.create true)]

/-- It is accepted with 80 columns and 24 rows. -/
theorem own_client_is_served_piped : ∃ ring t s intro more, optyRingInit zeroAlloc (.ok ()) 5 = .ok ring ∧
    exec typistStep (.init (World.init (Sys.init ⟨none, none⟩ ring {}) .retrying {} {} none)) pipedRun = .next t ∧
    step t.world.server (.client 0 .ok) = .next s ∧ (s.conn 0).pc = .resizeIntro intro ∧
    t.asked 0 = .winsize intro.cols intro.rows :: more := by
  obtain ⟨ring, hring⟩ := optyRingInit_ok zeroAlloc 5 (by decide) rfl
  have hrun : (exec typistStep (.init (World.init (Sys.init ⟨none, none⟩ ring {}) .retrying {} {} none)) pipedRun).passes (fun t =>
      (step t.world.server (.client 0 .ok)).passes (fun s => (s.conn 0).input.bytes == []) &&
        (t.world.server.conn 0).pc == .recvFirst && (t.world.server.conn 0).wire == frameBytes (Msg.hello 80 24 []).frame &&
        (t.world.server.conn 0).input.bytes == frameBytes (Msg.hello 80 24 []).frame &&
        (t.world.server.conn 0).input.sched.isEmpty && t.sent 0 == frameBytes (Msg.hello 80 24 []).frame) = true := by
    cases hring
    decide +kernel
  obtain ⟨t, ht, htest⟩ := Outcome.passes_iff.1 hrun
  simp only [Bool.and_eq_true, beq_iff_eq, List.isEmpty_iff] at htest
  obtain ⟨⟨⟨⟨⟨hs, hpc⟩, hwire⟩, hinput⟩, hsched⟩, hsent⟩ := htest
  obtain ⟨s, hstep, hread⟩ := Outcome.passes_iff.1 hs
  rw [beq_iff_eq] at hread
  have hsized : ∀ a ∈ pipedRun, a.Sized MeasuredSize := by
    intro a ha
    simp only [pipedRun, List.mem_cons, List.not_mem_nil, or_false] at ha
    rcases ha with rfl | rfl
    · exact ⟨.error (.other 25), .error (.other 25), rfl⟩
    · trivial
  have hserved := own_client_is_served ⟨none, none⟩ zeroAlloc 5 ring hring {} .retrying {} {} none (fun _ h => by cases h) pipedRun hsized t
    ht 0 .ok s hstep _ (by rw [hread, List.append_nil]) ⟨[], by rw [List.append_nil, hwire, hsent]⟩
  have hbenign : (t.world.server.conn 0).input.Benign .eintr := by
    intro e he
    rw [hsched] at he
    cases he
  have hwhole := not_broken optyMaxUnauthPayload (hinput.trans (List.append_nil _).symm) (show 6 < 2 ^ 32 - 1 by decide) hbenign
  obtain ⟨intro, more, hresize, hasked⟩ := (hserved.1 hpc).resolve_right hwhole
  exact ⟨ring, t, s, intro, more, hring, ht, hstep, hresize, hasked⟩

/-! ## The other way -/

namespace AdmissionAux

theorem stdoutFrames_length {parts : List (List UInt8)} (hpart : ∀ d ∈ parts, d.length ≤ 4096) :
    ∀ {seq : UInt64}, ∀ f ∈ stdoutFrames seq parts, f.payload.length ≤ optyMaxFrame - 1 := by
  have hmax : 8 + 4096 ≤ optyMaxFrame - 1 := by decide
  induction parts with
  | nil =>
    intro seq f hf
    cases hf
  | cons d parts ih =>
    intro seq f hf
    rcases List.mem_cons.1 hf with rfl | hf
    · have hd := hpart d List.mem_cons_self
      simp only [Msg.frame, List.length_append, length_optyPutU64]
      omega
    · exact ih (fun d hd => hpart d (List.mem_cons_of_mem _ hd)) f hf

/-- What an attached client is sent is not too long for it. -/
theorem deliveryFrames_length {snap : Snapshot} {parts : List (List UInt8)} (hdata : snap.data.bytes.length ≤ optyMaxFrame - 9)
    (hpart : ∀ d ∈ parts, d.length ≤ 4096) : ∀ f ∈ deliveryFrames snap parts, f.payload.length ≤ optyMaxFrame - 1 := by
  intro f hf
  rw [deliveryFrames, List.mem_cons, List.mem_cons] at hf
  rcases hf with rfl | rfl | hf
  · exact show 16 ≤ optyMaxFrame - 1 by decide
  · have hmax : 9 ≤ optyMaxFrame := by decide
    simp only [Snapshot.replay, Msg.frame, List.length_append, length_optyPutU64]
    omega
  · exact stdoutFrames_length hpart f hf

theorem errorText_length (text : ErrorText) : text.frame.payload.length ≤ optyMaxFrame - 1 := by
  cases text <;> decide

/-- The frames that the client of a session has read, and those of which the server has written a first part. -/
theorem inSession_frames {cfg : Config} {cap : Nat} {s : Sys} {i pos : Nat} {e last : UInt64} {closed slices : List Slice}
    (hauth : AuthSys cfg s) (hdel : Delivery cfg cap s) (hcap : cap ≤ optyMaxFrame - 9) (h : InSession s i pos e closed last slices) :
    ∃ fs ms, pos = (wireBytes fs).length ∧ wireBytes fs <+: (s.conn i).sock.written ∧ (s.conn i).sock.written <+: wireBytes ms ∧
      (∀ f ∈ fs, f.Short) ∧ ∀ g ∈ ms, g.payload.length ≤ optyMaxFrame - 1 := by
  cases hatt : (s.conn i).attached with
  | none =>
    obtain ⟨⟨text, k, hw⟩, -⟩ := (hauth.conns i).silent hatt
    refine ⟨[], [text.frame], ?_, List.nil_prefix, ?_, (fun f hf => by cases hf), fun g hg => ?_⟩
    · cases h.reading with
      | start hpos => exact hpos
      | welcomed snap ha hsent hpos =>
        rw [hatt] at ha
        cases ha
      | streaming snap parts last ha hsent hpos hpart hlast hbytes =>
        rw [hatt] at ha
        cases ha
    · rw [hw, wireBytes_cons, wireBytes_nil, List.append_nil]
      exact List.take_prefix _ _
    · exact List.mem_singleton.1 hg ▸ errorText_length text
  | some snap =>
    obtain ⟨req, -, hat⟩ := (hdel.conns i).snapshot snap hatt
    obtain ⟨parts, hd⟩ := (hdel.conns i).delivered snap hatt
    have hdata : snap.data.bytes.length ≤ optyMaxFrame - 9 := by
      rw [show snap.data.bytes.length = snap.data.len from hat.readable]
      exact Nat.le_trans hat.data_le hcap
    have hwritten := hd.sent.1.trans ((s.conn i).pc.sentFrames_prefix snap parts)
    have hlen := deliveryFrames_length hdata fun d hmem => (hd.part d hmem).2
    cases h.reading with
    | start hpos => exact ⟨[], _, hpos, List.nil_prefix, hwritten, (fun f hf => by cases hf), hlen⟩
    | welcomed snap' ha hsent hpos =>
      have hone : wireBytes [snap'.welcome] = frameBytes snap'.welcome := by rw [wireBytes_cons, wireBytes_nil, List.append_nil]
      refine ⟨[snap'.welcome], _, by rw [hone]; exact hpos, by rw [hone]; exact hsent, hwritten, fun f hf => ?_, hlen⟩
      exact List.mem_singleton.1 hf ▸ show 16 < 2 ^ 32 - 1 by decide
    | streaming snap' parts' last ha hsent hpos hpart hlast hbytes =>
      rw [hatt] at ha
      cases ha
      exact ⟨_, _, hpos, hsent, hwritten, deliveryFrames_short hdata hpart, hlen⟩

/-- What the client makes of a frame that its server sent. -/
theorem processServerFrame_received {s : Sys} {i pos : Nat} {e last : UInt64} {closed slices : List Slice} {f : Frame}
    (h : Received s i pos e closed last slices f) (sock : Sink Errno) {c : ClientState} (hw : c.Writable) (saw : Bool) :
    ∃ rc sock' c' saw', processServerFrame sock c saw f = some (rc, sock', c', saw') ∧
      (rc = 0 ∨ rc = 1 ∨ rc = -1 ∧ ∃ text : ErrorText, f = text.frame) := by
  cases h with
  | error text hf =>
    subst hf
    obtain ⟨err, herr⟩ := processServerFrame_error sock c saw text
    exact ⟨_, _, _, _, herr, Or.inr (Or.inr ⟨rfl, text, rfl⟩)⟩
  | welcome base next hf hin =>
    subst hf
    exact ⟨_, _, _, _, processServerFrame_welcome sock c saw base next, Or.inl rfl⟩
  | stream seq data last' slices' hf hlast hle hprinted hin =>
    obtain ⟨rc, sock', c', hproc, hrc, -⟩ := processServerFrame_stream (hf.imp And.left And.left) sock hw saw
    exact ⟨rc, sock', c', saw, hproc, hrc.imp_right Or.inl⟩

end AdmissionAux

/-- The client understands its own server. In every state of every run of the server, its peers and one client that connects again and
again, whatever the client receives next of what the server wrote to its connection, in whatever pieces: it is a whole frame, not too
long, which the client displays or notes (0), perhaps to find that it cannot acknowledge it and to connect again (1); it gives up (-1)
for an ERROR of the server only. The exceptions are those in which there is no whole frame. It is so for a ring that a REPLAY can
hold, and in the runs in which what the client displays and logs is taken, the allocations of the snapshots of broadcasts and of the
payloads of replays succeed, a failed write is the last on its socket, and the log stays shorter than `2 ^ 64`. -/
theorem own_server_is_understood (cfg : Config) (malloc : Alloc UInt8) (capacity : UInt64)
    (hcap : capacity.toNat + 8 ≤ optyMaxFrame - 1) (ring : Ring) (hinit : optyRingInit malloc (.ok ()) capacity = .ok ring)
    (master : Sink Errno) (args : ClientArgs) (out err : Sink Errno) (scrollback : Option (Sink Errno))
    (hout : out.Benign .eintr) (hempty : out.written = []) (hscrollback : ∀ fd, scrollback = some fd → fd.Benign .eintr)
    (acts : List WorldAct)
    (hacts : Meets worldStep WorldAllows (World.init (Sys.init cfg ring master) args out err scrollback) acts) (w : World)
    (hw : exec worldStep (World.init (Sys.init cfg ring master) args out err scrollback) acts = .next w)
    (hlen : w.server.log.length < 2 ^ 64) (i pos : Nat) (sock : Sink Errno) (saw : Bool) (hpc : w.pc = .session i pos sock saw)
    (stream : Source Errno) (alloc : Bool) (hstream : stream.bytes <+: (w.server.conn i).sock.written.drop pos) :
    (∃ frame rc sock' c' saw', (optyRecvFrame alloc stream).1 = .ok (some frame) ∧
      processServerFrame sock w.client saw frame = some (rc, sock', c', saw') ∧
      (rc = 0 ∨ rc = 1 ∨ rc = -1 ∧ ∃ text : ErrorText, frame = text.frame)) ∨
    Broken (optyMaxFrame - 1) alloc stream := by
  obtain ⟨hcap₀, hrep₀⟩ := represents_init hinit
  have hcap' : ring.cap.toNat ≤ optyMaxFrame - 9 := by
    rw [hcap₀]
    omega
  have hstart : WorldInv cfg ring.cap.toNat (World.init (Sys.init cfg ring master) args out err scrollback) :=
    ⟨serverInv_init cfg master hrep₀, fun _ => ⟨⟨hout, hscrollback⟩, 0, [], [],
      ⟨rfl, ⟨rfl, rfl⟩, hempty, rfl, fun _ _ => rfl, List.Pairwise.nil, (fun _ h => by cases h), (fun _ h => by cases h)⟩⟩⟩
  have h := invariant_of_meets (P := WorldInv cfg ring.cap.toNat)
    (fun _ _ _ h hallows hstep => worldInv_step h hcap' hallows hstep) hstart hacts hw
  obtain ⟨hwritable, e, closed, slices, hres⟩ := h.2 hlen
  have hdel := h.1.2.2 hlen
  have hin := hres.place
  rw [hpc] at hin
  obtain ⟨fs, ms, rfl, hread, hsent, hfs, hms⟩ := inSession_frames h.1.2.1 hdel hcap' hin
  have hshort : ∀ g ∈ ms, g.Short := fun g hg => Nat.lt_of_le_of_lt (hms g hg) (by decide)
  have hle : ∀ got rest, stream.bytes = got ++ rest → wireBytes fs ++ got <+: wireBytes ms := by
    intro got rest hgot
    rw [hgot] at hstream
    exact (prefix_append_of_drop hread ((List.prefix_append _ _).trans hstream)).trans hsent
  refine (recv_next hfs hshort (fun got => hle got _) fun g gs hg => ?_).imp_left ?_
  · exact Nat.le_trans (hms g (by rw [hg]; simp)) (by decide)
  · rintro ⟨f, gs, -, hrecv⟩
    obtain ⟨hbytes, hfit⟩ := optyRecvFrame_some (Prod.ext hrecv rfl)
    have hrec := InSession.recv h.1.2.1 hdel hcap' hlen hin hfit (List.IsPrefix.trans ⟨_, hbytes.symm⟩ hstream)
    obtain ⟨rc, sock', c', saw', hproc, hrc⟩ := processServerFrame_received hrec sock hwritable saw
    exact ⟨f, rc, sock', c', saw', hrecv, hproc, hrc⟩

/-- What the client has yet to read. -/
def World.unread (w : World) : List UInt8 :=
  match w.pc with
  | .session i pos _ _ => (w.server.conn i).sock.written.drop pos
  | _ => []

/-- The client understands the WELCOME. -/
theorem own_server_is_understood_welcome : ∃ ring w sock saw frame rc sock' c' saw', optyRingInit zeroAlloc (.ok ()) 5 = .ok ring ∧
    exec worldStep (World.init (Sys.init ⟨none, none⟩ ring {}) .retrying {} {} none) (attachRun 0 (Msg.hello 80 24 []).frame) = .next w ∧
    (optyRecvFrame true ⟨frameBytes (Msg.welcome 0 0).frame, []⟩).1 = .ok (some frame) ∧
    processServerFrame sock w.client saw frame = some (rc, sock', c', saw') ∧
    (rc = 0 ∨ rc = 1 ∨ rc = -1 ∧ ∃ text : ErrorText, frame = text.frame) := by
  obtain ⟨ring, hinit⟩ := optyRingInit_ok zeroAlloc 5 (by decide) rfl
  have hrun : (exec worldStep (World.init (Sys.init ⟨none, none⟩ ring {}) .retrying {} {} none)
      (attachRun 0 (Msg.hello 80 24 []).frame)).passes (fun w =>
        (frameBytes (Msg.welcome 0 0).frame).isPrefixOf w.unread && decide (w.server.log.length < 2 ^ 64)) = true := by
    cases hinit
    decide +kernel
  obtain ⟨w, hw, htest⟩ := Outcome.passes_iff.1 hrun
  simp only [Bool.and_eq_true, decide_eq_true_eq, List.isPrefixOf_iff_prefix] at htest
  obtain ⟨hnext, hlen⟩ := htest
  have hmeets : Meets worldStep WorldAllows (World.init (Sys.init ⟨none, none⟩ ring {}) .retrying {} {} none)
      (attachRun 0 (Msg.hello 80 24 []).frame) := by
    refine .of_forall ?_
    simp [attachRun, WorldAllows, Allows, Env.ok, Sink.FailsForGood]
  cases hpc : w.pc with
  | connecting =>
    rw [World.unread, hpc, List.prefix_nil] at hnext
    exact absurd hnext (frameBytes_ne_nil _)
  | exited status =>
    rw [World.unread, hpc, List.prefix_nil] at hnext
    exact absurd hnext (frameBytes_ne_nil _)
  | session i pos sock saw =>
    rw [World.unread, hpc] at hnext
    have hwhole : ¬Broken (optyMaxFrame - 1) true ⟨frameBytes (Msg.welcome 0 0).frame, []⟩ :=
      not_broken _ (List.append_nil _).symm (show 16 < 2 ^ 32 - 1 by decide) fun e he => by cases he
    obtain ⟨frame, rc, sock', c', saw', hrecv, hproc, hrc⟩ := (own_server_is_understood ⟨none, none⟩ zeroAlloc 5 (by decide) ring hinit {}
      .retrying {} {} none ⟨rfl, (by rintro _ _ ⟨⟩)⟩ rfl (by rintro _ ⟨⟩) _ hmeets w hw hlen i pos sock saw hpc
      ⟨frameBytes (Msg.welcome 0 0).frame, []⟩ true hnext).resolve_right hwhole
    exact ⟨ring, w, sock, saw, frame, rc, sock', c', saw', hinit, hw, hrecv, hproc, hrc⟩

end ZeroPty
