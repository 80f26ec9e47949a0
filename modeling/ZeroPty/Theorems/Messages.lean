import ZeroPty.Lemmas.Messages
import ZeroPty.Theorems.Framing

/-!
# Every message round-trips, and only messages are accepted

The senders and the parsers, composed over a descriptor: what a sender accepts is read back field by field, and what a parser
accepts is the encoding of a message.
-/

namespace ZeroPty

open Stream Memory

/-- On a descriptor without failures the sender succeeds, and what it wrote, read back in pieces of any sizes with anything behind
it, is one frame, which has the property. -/
def Delivers (limit : Nat) (send : Sink Errno → Except Errno Unit × Sink Errno) (p : Frame → Prop) : Prop :=
  ∀ w : Sink Errno, w.Benign .eintr → (send w).1 = .ok () ∧ ∃ bytes, (send w).2.written = w.written ++ bytes ∧
    ∀ (fd : Source Errno) (rest : List UInt8), fd.Benign .eintr → fd.bytes = bytes ++ rest →
      ∃ f fd', optyRecvFrameLimited true fd limit = (.ok (some f), fd') ∧ fd'.bytes = rest ∧ p f

/-- The parsed intro is this one. -/
def IntroFields.Is {cap : Nat} (fields : IntroFields cap) (lastSeq : UInt64) (cols rows : UInt16) (token : List UInt8) : Prop :=
  fields.lastSeq = lastSeq ∧ fields.cols = cols ∧ fields.rows = rows ∧ cString fields.token.cells = token

/-- A sender of a message delivers its frame, under any limit its payload meets. -/
theorem SendsMsg.delivers {send : Sink Errno → Except Errno Unit × Sink Errno} {m : Msg} (h : SendsMsg send m) {limit : Nat}
    (hlimit : m.frame.payload.length ≤ min limit (optyMaxFrame - 1)) {p : Frame → Prop} (hp : p m.frame) :
    Delivers limit send p := by
  intro w hw
  obtain ⟨hok, hwritten, -⟩ := (h w).of_benign hw
  refine ⟨hok, frameBytes m.frame, hwritten, fun fd rest hfd hb => ?_⟩
  obtain ⟨fd', hrecv, hrest, -⟩ := FramingAux.recv_whole hfd hb hlimit
  exact ⟨m.frame, fd', hrecv, hrest, hp⟩

namespace MessagesAux

/-- A token without NUL is the C string in its buffer. -/
theorem cString_tokenBuffer (token old : List UInt8) (h : (0 : UInt8) ∉ token) : cString (tokenBuffer token old) = token := by
  rw [cString, tokenBuffer, List.takeWhile_append_of_pos, List.takeWhile_cons_of_neg (by simp), List.append_nil]
  intro x hx
  simp only [bne_iff_ne, ne_eq]
  rintro rfl
  exact h hx

theorem tokenBytes_noNul (token : Option CString) : (0 : UInt8) ∉ tokenBytes token := by
  cases token with
  | none => simp [tokenBytes]
  | some s => exact s.noNul

variable {cols rows : UInt16} {seq : UInt64} {token input : List UInt8} (buf : Block UInt8 (optyMaxToken + 1))
  (ht : token.length ≤ optyMaxToken) (h0 : (0 : UInt8) ∉ token)
include ht h0

/-- The parser returns the fields of a HELLO. -/
theorem parse_hello : ∃ fields, optyParseClientIntro (Msg.hello cols rows token).frame buf = some (.ok fields) ∧
    fields.Is 0 cols rows token := by
  obtain ⟨r, hr, hiff⟩ := optyParseClientIntro_spec (Msg.hello cols rows token).frame (Nat.lt_succ_self _) buf
  let fields : IntroFields (optyMaxToken + 1) :=
    ⟨0, cols, rows, ⟨tokenBuffer token buf.cells, length_tokenBuffer token buf (Nat.lt_succ_of_le ht)⟩⟩
  refine ⟨fields, ?_, rfl, rfl, rfl, cString_tokenBuffer token _ h0⟩
  rw [hr, (hiff fields).2 ⟨token, ht, rfl, Or.inl ⟨rfl, rfl⟩⟩]

/-- The parser returns the fields of a RECONNECT. -/
theorem parse_reconnect : ∃ fields, optyParseClientIntro (Msg.reconnect seq cols rows token).frame buf = some (.ok fields) ∧
    fields.Is seq cols rows token := by
  obtain ⟨r, hr, hiff⟩ := optyParseClientIntro_spec (Msg.reconnect seq cols rows token).frame (Nat.lt_succ_self _) buf
  let fields : IntroFields (optyMaxToken + 1) :=
    ⟨seq, cols, rows, ⟨tokenBuffer token buf.cells, length_tokenBuffer token buf (Nat.lt_succ_of_le ht)⟩⟩
  refine ⟨fields, ?_, rfl, rfl, rfl, cString_tokenBuffer token _ h0⟩
  rw [hr, (hiff fields).2 ⟨token, ht, rfl, Or.inr rfl⟩]

/-- The parser returns the fields of a CONTROL_SHUTDOWN. -/
theorem parse_controlShutdown (hi : input.length ≤ optyMaxGracefulInput) :
    ∃ tok, optyParseControlShutdown (Msg.controlShutdown token input).frame buf = some (.ok (tok, input)) ∧
      cString tok.cells = token := by
  obtain ⟨r, hr, hiff⟩ := optyParseControlShutdown_spec (Msg.controlShutdown token input).frame (Nat.lt_succ_self _) buf
  let tok : Block UInt8 (optyMaxToken + 1) :=
    ⟨tokenBuffer token buf.cells, length_tokenBuffer token buf (Nat.lt_succ_of_le ht)⟩
  refine ⟨tok, ?_, cString_tokenBuffer token _ h0⟩
  rw [hr, (hiff tok input).2 ⟨token, ht, hi, rfl, rfl⟩]

end MessagesAux

open MessagesAux

/-- Every message round-trips. Whatever the senders accept (any numbers, a token of at most 255 bytes or NULL, stream data of at
most `OPTY_MAX_FRAME - 9` bytes, a graceful input of at most `OPTY_MAX_GRACEFUL_INPUT`) is sent, received as one frame and parsed
to the same fields; the three messages a client may send first also pass the limit the server sets before authentication.
Anything else is refused, with the descriptor as it was. -/
theorem messages_round_trip (cols rows : UInt16) (seq next : UInt64) (token : Option CString) (data : Buf) (malloc : Bool)
    (buf : Block UInt8 (optyMaxToken + 1)) :
    ((tokenBytes token).length ≤ optyMaxToken → ∀ limit, optyMaxUnauthPayload ≤ limit →
      Delivers limit (optySendHello · cols rows token)
        (fun f => ∃ fields, optyParseClientIntro f buf = some (.ok fields) ∧ fields.Is 0 cols rows (tokenBytes token)) ∧
      Delivers limit (optySendReconnect · seq cols rows token)
        (fun f => ∃ fields, optyParseClientIntro f buf = some (.ok fields) ∧ fields.Is seq cols rows (tokenBytes token)) ∧
      (data.Readable → data.len ≤ optyMaxGracefulInput →
        Delivers limit (optySendControlShutdown · token data)
          (fun f => ∃ tok, optyParseControlShutdown f buf = some (.ok (tok, data.bytes)) ∧
            cString tok.cells = tokenBytes token))) ∧
    Delivers (optyMaxFrame - 1) (optySendResize · cols rows) (fun f => optyParseResize f = some (.ok (cols, rows))) ∧
    Delivers (optyMaxFrame - 1) (optySendAck · seq) (fun f => optyParseAck f = some (.ok seq)) ∧
    Delivers (optyMaxFrame - 1) (optySendWelcome · seq next) (fun f => optyParseWelcome f = some (.ok (seq, next))) ∧
    (data.Readable → data.len ≤ optyMaxFrame - 9 →
      Delivers (optyMaxFrame - 1) (optySendStdout true · seq data)
        (fun f => f.type = msgStdout ∧ optyParseStream f = some (.ok (seq, data.bytes))) ∧
      Delivers (optyMaxFrame - 1) (optySendReplay true · seq data)
        (fun f => f.type = msgReplay ∧ optyParseStream f = some (.ok (seq, data.bytes)))) ∧
    (optyMaxToken < (tokenBytes token).length →
      Refuses (optySendHello · cols rows token) ∧ Refuses (optySendReconnect · seq cols rows token)) ∧
    (¬data.Readable ∨ optyMaxFrame - 9 < data.len →
      Refuses (optySendStdout malloc · seq data) ∧ Refuses (optySendReplay malloc · seq data)) ∧
    (optyMaxToken < (tokenBytes token).length ∨ ¬data.Readable ∨ optyMaxGracefulInput < data.len →
      Refuses (optySendControlShutdown · token data)) := by
  have h0 := tokenBytes_noNul token
  have hunauth : optyMaxUnauthPayload ≤ optyMaxFrame - 1 := by decide
  refine ⟨fun ht limit hlimit => ⟨?_, ?_, fun hr hd => ?_⟩, ?_, ?_, ?_, fun hr hd => ⟨?_, ?_⟩, fun ht => ⟨?_, ?_⟩,
    fun hd => ⟨?_, ?_⟩, fun h => ?_⟩
  · refine (optySendHello_sends cols rows token ht).delivers (Nat.le_trans ?_ (Nat.le_min.2 ⟨hlimit, hunauth⟩))
      (parse_hello buf ht h0)
    simp only [Msg.frame, tokenField, List.length_cons, List.length_append, length_optyPutU16, optyMaxUnauthPayload,
      optyMaxGracefulInput]
    omega
  · refine (optySendReconnect_sends cols rows seq token ht).delivers (Nat.le_trans ?_ (Nat.le_min.2 ⟨hlimit, hunauth⟩))
      (parse_reconnect buf ht h0)
    simp only [Msg.frame, tokenField, List.length_cons, List.length_append, length_optyPutU16, length_optyPutU64,
      optyMaxUnauthPayload, optyMaxGracefulInput]
    omega
  · have hi : data.bytes.length ≤ optyMaxGracefulInput := Nat.le_trans (Nat.le_of_eq hr) hd
    refine (optySendControlShutdown_sends token data ht hr hd).delivers (Nat.le_trans ?_ (Nat.le_min.2 ⟨hlimit, hunauth⟩))
      (parse_controlShutdown buf ht h0 hi)
    simp only [Msg.frame, tokenField, List.length_cons, List.length_append, length_optyPutU16, optyMaxUnauthPayload]
    omega
  · obtain ⟨r, hr, hiff⟩ := optyParseResize_spec (Msg.resize cols rows).frame
    exact (optySendResize_sends cols rows).delivers (Nat.le_of_ble_eq_true rfl) (by rw [hr, (hiff cols rows).2 rfl])
  · obtain ⟨r, hr, hiff⟩ := optyParseAck_spec (Msg.ack seq).frame
    exact (optySendAck_sends seq).delivers (Nat.le_of_ble_eq_true rfl) (by rw [hr, (hiff seq).2 rfl])
  · obtain ⟨r, hr, hiff⟩ := optyParseWelcome_spec (Msg.welcome seq next).frame
    exact (optySendWelcome_sends seq next).delivers (Nat.le_of_ble_eq_true rfl) (by rw [hr, (hiff seq next).2 rfl])
  · obtain ⟨r, hr', hiff⟩ := optyParseStream_spec (Msg.stdout seq data.bytes).frame
    refine (optySendStdout_sends seq data hr hd).delivers ?_ ⟨rfl, by rw [hr', (hiff seq data.bytes).2 (Or.inl rfl)]⟩
    simp only [Msg.frame, List.length_append, length_optyPutU64, Nat.min_self, Buf.Readable, optyMaxFrame] at hr hd ⊢
    omega
  · obtain ⟨r, hr', hiff⟩ := optyParseStream_spec (Msg.replay seq data.bytes).frame
    refine (optySendReplay_sends seq data hr hd).delivers ?_ ⟨rfl, by rw [hr', (hiff seq data.bytes).2 (Or.inr rfl)]⟩
    simp only [Msg.frame, List.length_append, length_optyPutU64, Nat.min_self, Buf.Readable, optyMaxFrame] at hr hd ⊢
    omega
  · exact optySendTokenizedIntro_refuses cols rows 0 token msgHello false ht
  · exact optySendTokenizedIntro_refuses cols rows seq token msgReconnect true ht
  · exact optySendStreamFrame_refuses seq data malloc msgStdout hd
  · exact optySendStreamFrame_refuses seq data malloc msgReplay hd
  · exact optySendControlShutdown_refuses token data h

/-- The largest first message there is, a CONTROL_SHUTDOWN with both fields at their bounds, passes the limit of the server. -/
theorem messages_round_trip_largest :
    let token : Option CString := some ⟨List.replicate optyMaxToken 65, by simp⟩
    let data : Buf := .mem (List.replicate optyMaxGracefulInput 7)
    Delivers optyMaxUnauthPayload (optySendControlShutdown · token data)
      (fun f => ∃ tok, optyParseControlShutdown f (.fill (optyMaxToken + 1) 0) = some (.ok (tok, data.bytes)) ∧
        cString tok.cells = tokenBytes token) :=
  ((messages_round_trip 80 24 0 0 (some ⟨List.replicate optyMaxToken 65, by simp⟩)
    (.mem (List.replicate optyMaxGracefulInput 7)) true (.fill (optyMaxToken + 1) 0)).1
    (by simp [tokenBytes]) optyMaxUnauthPayload (Nat.le_refl _)).2.2 rfl (by simp [Buf.len])

/-- What a parser does to a frame: it stays inside its buffers, and it accepts with these results exactly when they encode to the
frame. -/
def Parses {α : Type} (parsed : Option (Except Errno α)) (encoded : α → Prop) : Prop :=
  ∃ r, parsed = some r ∧ ∀ fields, r = .ok fields ↔ encoded fields

/-- The parsers accept exactly the wire format. On every frame a parser reads inside the payload and writes inside the token buffer
of 256 bytes, and it returns some fields exactly when the frame is the encoding of a message with these fields; the two that
fill a token buffer leave the token there, followed by NUL, and accept every token of at most 255 bytes, NUL or not. -/
theorem parsers_accept_exactly (frame : Frame) (buf : Block UInt8 (optyMaxToken + 1)) :
    Parses (optyParseClientIntro frame buf) (fun fields => ∃ token, token.length ≤ optyMaxToken ∧
      fields.token.cells = tokenBuffer token buf.cells ∧
      ((frame = (Msg.hello fields.cols fields.rows token).frame ∧ fields.lastSeq = 0) ∨
        frame = (Msg.reconnect fields.lastSeq fields.cols fields.rows token).frame)) ∧
    ((∃ fields, optyParseClientIntro frame buf = some (.ok fields)) ↔ ∃ lastSeq cols rows token,
      token.length ≤ optyMaxToken ∧
        (frame = (Msg.hello cols rows token).frame ∨ frame = (Msg.reconnect lastSeq cols rows token).frame)) ∧
    Parses (optyParseResize frame) (fun fields => frame = (Msg.resize fields.1 fields.2).frame) ∧
    Parses (optyParseAck frame) (fun seq => frame = (Msg.ack seq).frame) ∧
    Parses (optyParseStream frame)
      (fun fields => frame = (Msg.stdout fields.1 fields.2).frame ∨ frame = (Msg.replay fields.1 fields.2).frame) ∧
    Parses (optyParseWelcome frame) (fun fields => frame = (Msg.welcome fields.1 fields.2).frame) ∧
    Parses (optyParseControlShutdown frame buf) (fun fields => ∃ token, token.length ≤ optyMaxToken ∧
      fields.2.length ≤ optyMaxGracefulInput ∧ fields.1.cells = tokenBuffer token buf.cells ∧
      frame = (Msg.controlShutdown token fields.2).frame) ∧
    ((∃ fields, optyParseControlShutdown frame buf = some (.ok fields)) ↔ ∃ token input,
      token.length ≤ optyMaxToken ∧ input.length ≤ optyMaxGracefulInput ∧ frame = (Msg.controlShutdown token input).frame) := by
  have hcap : optyMaxToken < optyMaxToken + 1 := Nat.lt_succ_self _
  obtain ⟨intro, hintro, hintroIff⟩ := optyParseClientIntro_spec frame hcap buf
  obtain ⟨ctl, hctl, hctlIff⟩ := optyParseControlShutdown_spec frame hcap buf
  obtain ⟨resize, hresize, hresizeIff⟩ := optyParseResize_spec frame
  obtain ⟨stream, hstream, hstreamIff⟩ := optyParseStream_spec frame
  obtain ⟨welcome, hwelcome, hwelcomeIff⟩ := optyParseWelcome_spec frame
  -- a token that fits has a buffer that holds it
  have hbuf : ∀ token : List UInt8, token.length ≤ optyMaxToken →
      ∃ tok : Block UInt8 (optyMaxToken + 1), tok.cells = tokenBuffer token buf.cells :=
    fun token ht => ⟨⟨_, length_tokenBuffer token buf (Nat.lt_succ_of_le ht)⟩, rfl⟩
  refine ⟨⟨intro, hintro, hintroIff⟩, ⟨?_, ?_⟩, ⟨resize, hresize, fun _ => hresizeIff _ _⟩, optyParseAck_spec frame,
    ⟨stream, hstream, fun _ => hstreamIff _ _⟩, ⟨welcome, hwelcome, fun _ => hwelcomeIff _ _⟩,
    ⟨ctl, hctl, fun _ => hctlIff _ _⟩, ⟨?_, ?_⟩⟩
  · rintro ⟨fields, hf⟩
    obtain ⟨token, ht, -, h⟩ := (hintroIff fields).1 (Option.some.inj (hintro.symm.trans hf))
    exact ⟨_, _, _, token, ht, h.imp And.left id⟩
  · rintro ⟨lastSeq, cols, rows, token, ht, h⟩
    obtain ⟨tok, htok⟩ := hbuf token ht
    rw [hintro]
    rcases h with h | h
    · exact ⟨⟨0, cols, rows, tok⟩, congrArg some ((hintroIff ⟨0, cols, rows, tok⟩).2 ⟨token, ht, htok, Or.inl ⟨h, rfl⟩⟩)⟩
    · exact ⟨⟨lastSeq, cols, rows, tok⟩, congrArg some ((hintroIff ⟨lastSeq, cols, rows, tok⟩).2 ⟨token, ht, htok, Or.inr h⟩)⟩
  · rintro ⟨⟨tok, input⟩, hf⟩
    obtain ⟨token, ht, hi, -, h⟩ := (hctlIff tok input).1 (Option.some.inj (hctl.symm.trans hf))
    exact ⟨token, input, ht, hi, h⟩
  · rintro ⟨token, input, ht, hi, h⟩
    obtain ⟨tok, htok⟩ := hbuf token ht
    exact ⟨(tok, input), by rw [hctl, (hctlIff tok input).2 ⟨token, ht, hi, htok, h⟩]⟩

end ZeroPty
