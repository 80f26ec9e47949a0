import ZeroPty.Messages
import ZeroPty.Lemmas.Framing

/-!
# What the senders write and the parsers read

The numbers first: `optyPutU16_eq_iff` and `optyPutU64_eq_iff` say that storing and reading a number undo each other, whichever
comes first. Then one lemma for each sender, which puts the frame of its message on the descriptor or refuses its arguments
without touching it, and one for each parser, which accepts exactly the frames of its message.
-/

namespace ZeroPty

open Stream Memory ByteOrder

/-! ## Numbers -/

namespace MessagesAux

theorem toNat_mask16 (v : UInt16) : (v &&& 0xff).toUInt8 = UInt8.ofNat v.toNat := by
  apply UInt8.toNat_inj.1
  rw [UInt8.toNat_ofNat', UInt16.toNat_toUInt8, UInt16.toNat_and]
  change (v.toNat &&& (2 ^ 8 - 1)) % 2 ^ 8 = v.toNat % 2 ^ 8
  rw [Nat.and_two_pow_sub_one_eq_mod, Nat.mod_mod]

theorem toNat_mask64 (v : UInt64) : (v &&& 0xff).toUInt8 = UInt8.ofNat v.toNat := by
  apply UInt8.toNat_inj.1
  rw [UInt8.toNat_ofNat', UInt64.toNat_toUInt8, UInt64.toNat_and]
  change (v.toNat &&& (2 ^ 8 - 1)) % 2 ^ 8 = v.toNat % 2 ^ 8
  rw [Nat.and_two_pow_sub_one_eq_mod, Nat.mod_mod]

theorem optyPutU16_eq_toBe (v : UInt16) : optyPutU16 v = toBe 2 v.toNat := by
  simp only [optyPutU16, toBe, toNat_mask16]
  simp [UInt16.toNat_shiftRight, Nat.shiftRight_eq_div_pow]

theorem optyPutU64_eq_toBe (v : UInt64) : optyPutU64 v = toBe 8 v.toNat := by
  simp only [optyPutU64, toBe, toNat_mask64]
  simp [UInt64.toNat_shiftRight, Nat.shiftRight_eq_div_pow]

/-- A byte shifted inside a 64-bit word. -/
theorem toNat_byte_shift (p : UInt8) (k : UInt64) (i : Nat) (hk : k.toNat = i) (hi : i ≤ 56) :
    (p.toUInt64 <<< k).toNat = 2 ^ i * p.toNat := by
  have hlt : p.toNat * 2 ^ i < 2 ^ 64 :=
    calc p.toNat * 2 ^ i < 2 ^ 8 * 2 ^ i := Nat.mul_lt_mul_of_pos_right p.toNat_lt (Nat.two_pow_pos i)
      _ = 2 ^ (8 + i) := by rw [Nat.pow_add]
      _ ≤ 2 ^ 64 := Nat.pow_le_pow_right (by decide) (by omega)
  rw [UInt64.toNat_shiftLeft, UInt8.toNat_toUInt64, hk, Nat.mod_eq_of_lt (show i < 64 by omega), Nat.shiftLeft_eq,
    Nat.mod_eq_of_lt hlt, Nat.mul_comm]

theorem toNat_optyGetU16 (p0 p1 : UInt8) : (optyGetU16 p0 p1).toNat = ofBe [p0, p1] := by
  have h0 := p0.toNat_lt
  have hlast := or_byte p0.toNat p1.toNat 0 p1.toNat_lt
  simp only [Nat.zero_add, Nat.pow_zero, Nat.one_mul] at hlast
  have hshift : (p0.toUInt16 <<< 8).toNat = 2 ^ 8 * p0.toNat := by
    rw [UInt16.toNat_shiftLeft, UInt8.toNat_toUInt16]
    change (p0.toNat <<< 8) % 2 ^ 16 = 2 ^ 8 * p0.toNat
    rw [Nat.shiftLeft_eq]
    omega
  rw [optyGetU16, UInt16.toNat_or, hshift, UInt8.toNat_toUInt16, hlast]
  simp only [ofBe, List.length_cons, List.length_nil]
  omega

theorem toNat_optyGetU64 (p0 p1 p2 p3 p4 p5 p6 p7 : UInt8) :
    (optyGetU64 p0 p1 p2 p3 p4 p5 p6 p7).toNat = ofBe [p0, p1, p2, p3, p4, p5, p6, p7] := by
  simp only [optyGetU64, UInt64.toNat_or]
  rw [toNat_byte_shift p0 56 56 rfl (by decide), toNat_byte_shift p1 48 48 rfl (by decide),
    toNat_byte_shift p2 40 40 rfl (by decide), toNat_byte_shift p3 32 32 rfl (by decide),
    toNat_byte_shift p4 24 24 rfl (by decide), toNat_byte_shift p5 16 16 rfl (by decide),
    toNat_byte_shift p6 8 8 rfl (by decide), UInt8.toNat_toUInt64, or_byte _ _ 48 p1.toNat_lt, or_byte _ _ 40 p2.toNat_lt,
    or_byte _ _ 32 p3.toNat_lt, or_byte _ _ 24 p4.toNat_lt, or_byte _ _ 16 p5.toNat_lt, or_byte _ _ 8 p6.toNat_lt]
  have hlast := or_byte ((((((p0.toNat * 256 + p1.toNat) * 256 + p2.toNat) * 256 + p3.toNat) * 256 + p4.toNat) * 256 +
    p5.toNat) * 256 + p6.toNat) p7.toNat 0 p7.toNat_lt
  simp only [Nat.zero_add, Nat.pow_zero, Nat.one_mul] at hlast
  rw [hlast]
  simp only [ofBe, List.length_cons, List.length_nil]
  omega

end MessagesAux

open MessagesAux

@[simp] theorem length_optyPutU16 (v : UInt16) : (optyPutU16 v).length = 2 := rfl

@[simp] theorem length_optyPutU64 (v : UInt64) : (optyPutU64 v).length = 8 := rfl

/-- Two bytes are the stored form of exactly the number read from them. -/
theorem optyPutU16_eq_iff (v : UInt16) (p0 p1 : UInt8) : optyPutU16 v = [p0, p1] ↔ optyGetU16 p0 p1 = v := by
  rw [optyPutU16_eq_toBe, ← UInt16.toNat_inj, toNat_optyGetU16]
  constructor
  · intro h
    rw [← h, ofBe_toBe]
    exact Nat.mod_eq_of_lt v.toNat_lt
  · intro h
    rw [← h]
    exact toBe_ofBe [p0, p1]

/-- Eight bytes are the stored form of exactly the number read from them. -/
theorem optyPutU64_eq_iff (v : UInt64) (p0 p1 p2 p3 p4 p5 p6 p7 : UInt8) :
    optyPutU64 v = [p0, p1, p2, p3, p4, p5, p6, p7] ↔ optyGetU64 p0 p1 p2 p3 p4 p5 p6 p7 = v := by
  rw [optyPutU64_eq_toBe, ← UInt64.toNat_inj, toNat_optyGetU64]
  constructor
  · intro h
    rw [← h, ofBe_toBe]
    exact Nat.mod_eq_of_lt v.toNat_lt
  · intro h
    rw [← h]
    exact toBe_ofBe [p0, p1, p2, p3, p4, p5, p6, p7]

/-- The stored form followed by anything, in either direction. -/
theorem optyPutU16_append_eq_iff (v : UInt16) (p0 p1 : UInt8) (x y : List UInt8) :
    optyPutU16 v ++ x = p0 :: p1 :: y ↔ optyGetU16 p0 p1 = v ∧ x = y := by
  rw [← optyPutU16_eq_iff]
  constructor
  · intro h
    exact List.append_inj (show optyPutU16 v ++ x = [p0, p1] ++ y from h) rfl
  · rintro ⟨h, rfl⟩
    rw [h]
    rfl

theorem optyPutU64_append_eq_iff (v : UInt64) (p0 p1 p2 p3 p4 p5 p6 p7 : UInt8) (x y : List UInt8) :
    optyPutU64 v ++ x = p0 :: p1 :: p2 :: p3 :: p4 :: p5 :: p6 :: p7 :: y ↔
      optyGetU64 p0 p1 p2 p3 p4 p5 p6 p7 = v ∧ x = y := by
  rw [← optyPutU64_eq_iff]
  constructor
  · intro h
    exact List.append_inj (show optyPutU64 v ++ x = [p0, p1, p2, p3, p4, p5, p6, p7] ++ y from h) rfl
  · rintro ⟨h, rfl⟩
    rw [h]
    rfl

/-- The length of a token fits its byte. -/
theorem toNat_tokenLength {token : List UInt8} (ht : token.length ≤ optyMaxToken) :
    (UInt8.ofNat token.length).toNat = token.length := by
  rw [UInt8.toNat_ofNat']
  exact Nat.mod_eq_of_lt (Nat.lt_succ_of_le ht)

/-- A token field is a length byte and as many bytes. -/
theorem tokenField_eq_iff (token : List UInt8) (ht : token.length ≤ optyMaxToken) (b : UInt8) (y : List UInt8) :
    tokenField token = b :: y ↔ b.toNat = y.length ∧ token = y := by
  have hb := toNat_tokenLength ht
  constructor
  · intro h
    obtain ⟨h1, rfl⟩ := List.cons.inj h
    exact ⟨by rw [← h1, hb], rfl⟩
  · rintro ⟨h1, rfl⟩
    rw [tokenField, UInt8.toNat_inj.1 (hb.trans h1.symm)]

/-! ## Parsers -/

namespace MessagesAux

/-- A list of at least `n` elements, cut after the first `n`. -/
theorem exists_split (l : List UInt8) (n : Nat) (h : n ≤ l.length) : ∃ x y, l = x ++ y ∧ x.length = n :=
  ⟨l.take n, l.drop n, (List.take_append_drop n l).symm, by rw [List.length_take]; omega⟩

theorem getU16At_append (x y : List UInt8) (n i : Nat) (h : x.length = n) : getU16At (x ++ y) (n + i) = getU16At y i := by
  subst h
  rw [getU16At, getU16At, Nat.add_assoc, List.getElem?_append_right (Nat.le_add_right _ _),
    List.getElem?_append_right (Nat.le_add_right _ _), Nat.add_sub_cancel_left, Nat.add_sub_cancel_left]

/-- Copying a token and its NUL into a buffer with room for both: both copies are inside it, and this is what it holds. -/
theorem copy_token {cap : Nat} (buf : Block UInt8 cap) (p : List UInt8) (off n : Nat) (hn : n + 1 ≤ cap)
    (hp : off + n ≤ p.length) :
    ∃ b1 b2, (if 0 < n then memcpy buf 0 p off n else some buf) = some b1 ∧ memcpy b1 n [0] 0 1 = some b2 ∧
      b2.cells = tokenBuffer ((p.drop off).take n) buf.cells := by
  have hlen : ((p.drop off).take n).length = n := by rw [List.length_take, List.length_drop]; omega
  have hb1 : ∃ b1, (if 0 < n then memcpy buf 0 p off n else some buf) = some b1 ∧
      b1.cells = (p.drop off).take n ++ buf.cells.drop n := by
    by_cases h0 : 0 < n
    · obtain ⟨b1, h1, hv⟩ := memcpy_eq_some buf p (d := 0) (s := off) (k := n) (by omega) hp
      refine ⟨b1, by rw [if_pos h0, h1], ?_⟩
      rw [hv, splice, hlen]
      simp
    · have h0' : n = 0 := by omega
      subst h0'
      exact ⟨buf, if_neg h0, by simp⟩
  obtain ⟨b1, h1, hv1⟩ := hb1
  obtain ⟨b2, h2, hv2⟩ := memcpy_eq_some b1 [0] (d := n) (s := 0) (k := 1) hn (by simp)
  refine ⟨b1, b2, h1, h2, ?_⟩
  rw [hv2, hv1, tokenBuffer, hlen, splice]
  have htake : ((p.drop off).take n ++ buf.cells.drop n).take n = (p.drop off).take n := List.take_left' hlen
  have hdrop : ((p.drop off).take n ++ buf.cells.drop n).drop (n + 1) = buf.cells.drop (n + 1) := by
    rw [List.drop_append, hlen, List.drop_of_length_le (by omega), List.nil_append, List.drop_drop]
    congr 1
    omega
  simp only [List.drop_zero, List.take_succ_cons, List.take_zero, List.length_cons, List.length_nil, Nat.zero_add, htake, hdrop,
    List.append_assoc, List.cons_append, List.nil_append]

end MessagesAux

/-- The end of `opty_parse_intro_payload`: what follows the sequence number. -/
theorem parse_intro_tail {cap : Nat} (hcap : optyMaxToken < cap) (buf : Block UInt8 cap) (pre rest : List UInt8)
    (seq : UInt64) (cols rows : UInt16) (tl : UInt8) (off : Nat) (hoff : pre.length = off) :
    ∃ r : Except Errno (IntroFields cap), (if (pre ++ rest).length ≠ off + tl.toNat then some (.error .eproto)
      else if cap < tl.toNat + 1 then
        if cap = 0 ∧ tl.toNat = 0 then some (.ok { lastSeq := seq, cols := cols, rows := rows, token := buf })
        else some (.error .enospc)
      else
        (if 0 < tl.toNat then memcpy buf 0 (pre ++ rest) off tl.toNat else some buf).bind fun token1 =>
        (if 0 < cap then memcpy token1 tl.toNat [0] 0 1 else some token1).bind fun token2 =>
        some (.ok { lastSeq := seq, cols := cols, rows := rows, token := token2 })) = some r ∧
      ∀ fields, r = .ok fields ↔ tl.toNat = rest.length ∧ fields.lastSeq = seq ∧ fields.cols = cols ∧ fields.rows = rows ∧
        fields.token.cells = tokenBuffer rest buf.cells := by
  have htl : tl.toNat < 256 := tl.toNat_lt
  have hroom : tl.toNat + 1 ≤ cap := by simp only [optyMaxToken] at hcap; omega
  subst hoff
  by_cases hlen : tl.toNat = rest.length
  · rw [if_neg (by rw [List.length_append, hlen]; exact fun h => h rfl), if_neg (by omega)]
    obtain ⟨b1, b2, h1, h2, hv⟩ := copy_token buf (pre ++ rest) pre.length tl.toNat hroom (by rw [List.length_append]; omega)
    rw [h1]
    simp only [Option.bind_some, if_pos (show 0 < cap by omega), h2]
    refine ⟨_, rfl, fun fields => ?_⟩
    rw [List.drop_left, hlen, List.take_length] at hv
    constructor
    · intro h
      cases h
      exact ⟨hlen, rfl, rfl, rfl, hv⟩
    · rintro ⟨-, h1, h2, h3, h4⟩
      obtain ⟨s, c, r, t⟩ := fields
      simp only at h1 h2 h3 h4
      subst h1 h2 h3
      obtain ⟨tc, htc⟩ := t
      obtain ⟨bc, hbc⟩ := b2
      simp only at h4 hv
      subst h4 hv
      rfl
  · rw [if_pos (by rw [List.length_append]; omega)]
    exact ⟨_, rfl, fun fields => ⟨nofun, fun h => absurd h.1 hlen⟩⟩

/-- The payload of a HELLO: what `opty_parse_intro_payload` accepts without a sequence number. -/
theorem parse_hello_payload (frame : Frame) {cap : Nat} (hcap : optyMaxToken < cap) (buf : Block UInt8 cap) :
    ∃ r, optyParseIntroPayload frame buf false = some r ∧ ∀ fields, r = .ok fields ↔
      ∃ token, token.length ≤ optyMaxToken ∧ fields.token.cells = tokenBuffer token buf.cells ∧
        frame.payload = (Msg.hello fields.cols fields.rows token).frame.payload ∧ fields.lastSeq = 0 := by
  obtain ⟨type, p⟩ := frame
  unfold optyParseIntroPayload
  simp only [Bool.false_eq_true, if_false]
  by_cases hlen : p.length < 6
  · rw [if_pos hlen]
    refine ⟨_, rfl, fun fields => ⟨nofun, ?_⟩⟩
    rintro ⟨token, -, -, h, -⟩
    have := congrArg List.length h
    simp only [Msg.frame, tokenField, List.length_cons, List.length_append, length_optyPutU16] at this
    omega
  obtain ⟨v, c0, c1, r0, r1, tl, rest, rfl⟩ : ∃ v c0 c1 r0 r1 tl rest, p = v :: c0 :: c1 :: r0 :: r1 :: tl :: rest := by
    obtain ⟨x, rest, rfl, hx⟩ := exists_split p 6 (by omega)
    match x, hx with
    | [v, c0, c1, r0, r1, tl], _ => exact ⟨v, c0, c1, r0, r1, tl, rest, rfl⟩
  rw [if_neg hlen]
  simp only [List.getElem?_cons_zero, Option.bind_some]
  by_cases hv : v = optyVersion
  · subst hv
    rw [if_neg (fun h => h rfl)]
    obtain ⟨r, hr, hiff⟩ := parse_intro_tail hcap buf [optyVersion, c0, c1, r0, r1, tl] rest 0 (optyGetU16 c0 c1)
      (optyGetU16 r0 r1) tl 6 rfl
    refine ⟨r, hr, fun fields => ?_⟩
    rw [hiff]
    constructor
    · rintro ⟨h1, h2, h3, h4, h5⟩
      have hlt : rest.length ≤ optyMaxToken := h1 ▸ Nat.le_of_lt_succ tl.toNat_lt
      refine ⟨rest, hlt, h5, ?_, h2⟩
      rw [Msg.frame, List.append_assoc, (optyPutU16_append_eq_iff _ c0 c1 _ _).2 ⟨h3.symm, rfl⟩,
        (optyPutU16_append_eq_iff _ r0 r1 _ _).2 ⟨h4.symm, rfl⟩, (tokenField_eq_iff rest hlt tl rest).2 ⟨h1, rfl⟩]
    · rintro ⟨token, ht, hb, h, hs⟩
      rw [Msg.frame, List.append_assoc] at h
      obtain ⟨h1, hp⟩ := (optyPutU16_append_eq_iff _ _ _ _ _).1 (List.cons.inj h).2.symm
      obtain ⟨h2, hp⟩ := (optyPutU16_append_eq_iff _ _ _ _ _).1 hp
      obtain ⟨h3, rfl⟩ := (tokenField_eq_iff token ht _ _).1 hp
      exact ⟨h3, hs, h1.symm, h2.symm, hb⟩
  · rw [if_pos hv]
    refine ⟨_, rfl, fun fields => ⟨nofun, ?_⟩⟩
    rintro ⟨token, -, -, h, -⟩
    exact absurd (List.cons.inj h).1 hv

/-- The payload of a RECONNECT: what `opty_parse_intro_payload` accepts with a sequence number. -/
theorem parse_reconnect_payload (frame : Frame) {cap : Nat} (hcap : optyMaxToken < cap) (buf : Block UInt8 cap) :
    ∃ r, optyParseIntroPayload frame buf true = some r ∧ ∀ fields, r = .ok fields ↔
      ∃ token, token.length ≤ optyMaxToken ∧ fields.token.cells = tokenBuffer token buf.cells ∧
        frame.payload = (Msg.reconnect fields.lastSeq fields.cols fields.rows token).frame.payload := by
  obtain ⟨type, p⟩ := frame
  unfold optyParseIntroPayload
  simp only [if_true]
  by_cases hlen : p.length < 14
  · rw [if_pos hlen]
    refine ⟨_, rfl, fun fields => ⟨nofun, ?_⟩⟩
    rintro ⟨token, -, -, h⟩
    have := congrArg List.length h
    simp only [Msg.frame, tokenField, List.length_cons, List.length_append, length_optyPutU16, length_optyPutU64] at this
    omega
  obtain ⟨v, s0, s1, s2, s3, s4, s5, s6, s7, c0, c1, r0, r1, tl, rest, rfl⟩ : ∃ v s0 s1 s2 s3 s4 s5 s6 s7 c0 c1 r0 r1 tl rest,
      p = v :: s0 :: s1 :: s2 :: s3 :: s4 :: s5 :: s6 :: s7 :: c0 :: c1 :: r0 :: r1 :: tl :: rest := by
    obtain ⟨x, rest, rfl, hx⟩ := exists_split p 14 (by omega)
    match x, hx with
    | [v, s0, s1, s2, s3, s4, s5, s6, s7, c0, c1, r0, r1, tl], _ =>
      exact ⟨v, s0, s1, s2, s3, s4, s5, s6, s7, c0, c1, r0, r1, tl, rest, rfl⟩
  rw [if_neg hlen]
  simp only [List.getElem?_cons_zero, Option.bind_some]
  by_cases hv : v = optyVersion
  · subst hv
    rw [if_neg (fun h => h rfl)]
    obtain ⟨r, hr, hiff⟩ := parse_intro_tail hcap buf [optyVersion, s0, s1, s2, s3, s4, s5, s6, s7, c0, c1, r0, r1, tl] rest
      (optyGetU64 s0 s1 s2 s3 s4 s5 s6 s7) (optyGetU16 c0 c1) (optyGetU16 r0 r1) tl 14 rfl
    refine ⟨r, hr, fun fields => ?_⟩
    rw [hiff]
    constructor
    · rintro ⟨h1, h2, h3, h4, h5⟩
      have hlt : rest.length ≤ optyMaxToken := h1 ▸ Nat.le_of_lt_succ tl.toNat_lt
      refine ⟨rest, hlt, h5, ?_⟩
      rw [Msg.frame, List.append_assoc, List.append_assoc,
        (optyPutU64_append_eq_iff _ s0 s1 s2 s3 s4 s5 s6 s7 _ _).2 ⟨h2.symm, rfl⟩,
        (optyPutU16_append_eq_iff _ c0 c1 _ _).2 ⟨h3.symm, rfl⟩, (optyPutU16_append_eq_iff _ r0 r1 _ _).2 ⟨h4.symm, rfl⟩,
        (tokenField_eq_iff rest hlt tl rest).2 ⟨h1, rfl⟩]
    · rintro ⟨token, ht, hb, h⟩
      rw [Msg.frame, List.append_assoc, List.append_assoc] at h
      obtain ⟨h0, hp⟩ := (optyPutU64_append_eq_iff _ _ _ _ _ _ _ _ _ _ _).1 (List.cons.inj h).2.symm
      obtain ⟨h1, hp⟩ := (optyPutU16_append_eq_iff _ _ _ _ _).1 hp
      obtain ⟨h2, hp⟩ := (optyPutU16_append_eq_iff _ _ _ _ _).1 hp
      obtain ⟨h3, rfl⟩ := (tokenField_eq_iff token ht _ _).1 hp
      exact ⟨h3, h0.symm, h1.symm, h2.symm, hb⟩
  · rw [if_pos hv]
    refine ⟨_, rfl, fun fields => ⟨nofun, ?_⟩⟩
    rintro ⟨token, -, -, h⟩
    exact absurd (List.cons.inj h).1 hv

/-- `opty_parse_client_intro` never reads or writes outside its buffers, and accepts exactly the frames of a HELLO or a RECONNECT. -/
theorem optyParseClientIntro_spec (frame : Frame) {cap : Nat} (hcap : optyMaxToken < cap) (buf : Block UInt8 cap) :
    ∃ r, optyParseClientIntro frame buf = some r ∧ ∀ fields, r = .ok fields ↔
      ∃ token, token.length ≤ optyMaxToken ∧ fields.token.cells = tokenBuffer token buf.cells ∧
        ((frame = (Msg.hello fields.cols fields.rows token).frame ∧ fields.lastSeq = 0) ∨
          frame = (Msg.reconnect fields.lastSeq fields.cols fields.rows token).frame) := by
  have hne : msgReconnect ≠ msgHello := by decide
  unfold optyParseClientIntro
  by_cases hh : frame.type = msgHello
  · rw [if_pos hh]
    obtain ⟨r, hr, hiff⟩ := parse_hello_payload frame hcap buf
    refine ⟨r, hr, fun fields => (hiff fields).trans ?_⟩
    constructor
    · rintro ⟨token, ht, hb, hp, hs⟩
      exact ⟨token, ht, hb, Or.inl ⟨Frame.ext hh hp, hs⟩⟩
    · rintro ⟨token, ht, hb, ⟨h, hs⟩ | h⟩
      · exact ⟨token, ht, hb, congrArg Frame.payload h, hs⟩
      · exact absurd ((congrArg Frame.type h).symm.trans hh) hne
  · rw [if_neg hh]
    by_cases hr : frame.type = msgReconnect
    · rw [if_pos hr]
      obtain ⟨r, hr', hiff⟩ := parse_reconnect_payload frame hcap buf
      refine ⟨r, hr', fun fields => (hiff fields).trans ?_⟩
      constructor
      · rintro ⟨token, ht, hb, hp⟩
        exact ⟨token, ht, hb, Or.inr (Frame.ext hr hp)⟩
      · rintro ⟨token, ht, hb, ⟨h, -⟩ | h⟩
        · exact absurd (congrArg Frame.type h) hh
        · exact ⟨token, ht, hb, congrArg Frame.payload h⟩
    · rw [if_neg hr]
      refine ⟨_, rfl, fun fields => ⟨nofun, ?_⟩⟩
      rintro ⟨token, -, -, ⟨h, -⟩ | h⟩
      · exact absurd (congrArg Frame.type h) hh
      · exact absurd (congrArg Frame.type h) hr

/-- `opty_parse_resize` accepts exactly the frames of a RESIZE. -/
theorem optyParseResize_spec (frame : Frame) : ∃ r, optyParseResize frame = some r ∧
    ∀ cols rows, r = .ok (cols, rows) ↔ frame = (Msg.resize cols rows).frame := by
  unfold optyParseResize
  by_cases hbad : frame.type ≠ msgResize ∨ frame.payload.length ≠ 4
  · rw [if_pos hbad]
    refine ⟨_, rfl, fun cols rows => ⟨nofun, ?_⟩⟩
    rintro rfl
    rcases hbad with h | h
    · exact absurd rfl h
    · exact absurd rfl h
  · rw [if_neg hbad]
    obtain ⟨type, p⟩ := frame
    simp only [not_or, not_not] at hbad
    obtain ⟨rfl, hlen⟩ := hbad
    match p, hlen with
    | [c0, c1, r0, r1], _ =>
      refine ⟨_, rfl, fun cols rows => ?_⟩
      rw [Msg.frame, Frame.mk.injEq, and_iff_right rfl, eq_comm (a := [c0, c1, r0, r1]), optyPutU16_append_eq_iff,
        optyPutU16_eq_iff]
      simp

/-- `opty_parse_ack` accepts exactly the frames of an ACK. -/
theorem optyParseAck_spec (frame : Frame) : ∃ r, optyParseAck frame = some r ∧
    ∀ seq, r = .ok seq ↔ frame = (Msg.ack seq).frame := by
  unfold optyParseAck
  by_cases hbad : frame.type ≠ msgAck ∨ frame.payload.length ≠ 8
  · rw [if_pos hbad]
    refine ⟨_, rfl, fun seq => ⟨nofun, ?_⟩⟩
    rintro rfl
    rcases hbad with h | h
    · exact absurd rfl h
    · exact absurd rfl h
  · rw [if_neg hbad]
    obtain ⟨type, p⟩ := frame
    simp only [not_or, not_not] at hbad
    obtain ⟨rfl, hlen⟩ := hbad
    match p, hlen with
    | [s0, s1, s2, s3, s4, s5, s6, s7], _ =>
      refine ⟨_, rfl, fun seq => ?_⟩
      rw [Msg.frame, Frame.mk.injEq, and_iff_right rfl, eq_comm (a := [s0, s1, s2, s3, s4, s5, s6, s7]), optyPutU64_eq_iff]
      simp

/-- `opty_parse_stream` accepts exactly the frames of a STDOUT or a REPLAY. -/
theorem optyParseStream_spec (frame : Frame) : ∃ r, optyParseStream frame = some r ∧
    ∀ seq data, r = .ok (seq, data) ↔ frame = (Msg.stdout seq data).frame ∨ frame = (Msg.replay seq data).frame := by
  unfold optyParseStream
  by_cases hbad : (frame.type ≠ msgStdout ∧ frame.type ≠ msgReplay) ∨ frame.payload.length < 8
  · rw [if_pos hbad]
    refine ⟨_, rfl, fun seq data => ⟨nofun, ?_⟩⟩
    have hlong : ∀ d : List UInt8, ¬(optyPutU64 seq ++ d).length < 8 := by
      intro d
      rw [List.length_append, length_optyPutU64]
      omega
    rintro (rfl | rfl)
    · rcases hbad with h | h
      · exact absurd rfl h.1
      · exact absurd h (hlong _)
    · rcases hbad with h | h
      · exact absurd rfl h.2
      · exact absurd h (hlong _)
  · rw [if_neg hbad]
    obtain ⟨type, p⟩ := frame
    simp only [not_or, not_and, not_not, Nat.not_lt] at hbad
    obtain ⟨htype, hlen⟩ := hbad
    obtain ⟨x, data', rfl, hx⟩ := exists_split p 8 hlen
    match x, hx with
    | [s0, s1, s2, s3, s4, s5, s6, s7], _ =>
      refine ⟨_, rfl, fun seq data => ?_⟩
      rw [Msg.frame, Msg.frame, Frame.mk.injEq, Frame.mk.injEq, ← or_and_right,
        eq_comm (a := [s0, s1, s2, s3, s4, s5, s6, s7] ++ data')]
      change _ ↔ _ ∧ optyPutU64 seq ++ data = s0 :: s1 :: s2 :: s3 :: s4 :: s5 :: s6 :: s7 :: data'
      rw [optyPutU64_append_eq_iff, and_iff_right (by by_cases h : type = msgStdout <;> simp_all)]
      simp [eq_comm (a := data)]

/-- `opty_parse_welcome` accepts exactly the frames of a WELCOME. -/
theorem optyParseWelcome_spec (frame : Frame) : ∃ r, optyParseWelcome frame = some r ∧
    ∀ base next, r = .ok (base, next) ↔ frame = (Msg.welcome base next).frame := by
  unfold optyParseWelcome
  by_cases hbad : frame.type ≠ msgWelcome ∨ frame.payload.length ≠ 16
  · rw [if_pos hbad]
    refine ⟨_, rfl, fun base next => ⟨nofun, ?_⟩⟩
    rintro rfl
    rcases hbad with h | h
    · exact absurd rfl h
    · exact absurd rfl h
  · rw [if_neg hbad]
    obtain ⟨type, p⟩ := frame
    simp only [not_or, not_not] at hbad
    obtain ⟨rfl, hlen⟩ := hbad
    match p, hlen with
    | [b0, b1, b2, b3, b4, b5, b6, b7, n0, n1, n2, n3, n4, n5, n6, n7], _ =>
      refine ⟨_, rfl, fun base next => ?_⟩
      rw [Msg.frame, Frame.mk.injEq, and_iff_right rfl,
        eq_comm (a := [b0, b1, b2, b3, b4, b5, b6, b7, n0, n1, n2, n3, n4, n5, n6, n7]), optyPutU64_append_eq_iff,
        optyPutU64_eq_iff]
      simp

/-- The frame of a CONTROL_SHUTDOWN, field by field. -/
theorem controlShutdown_frame_iff {token token' input input' : List UInt8} {tl g0 g1 : UInt8} (hlen : token'.length = tl.toNat)
    (ht : token.length ≤ optyMaxToken) :
    (⟨msgControlShutdown, optyVersion :: tl :: (token' ++ g0 :: g1 :: input')⟩ : Frame) = (Msg.controlShutdown token input).frame ↔
      token = token' ∧ optyGetU16 g0 g1 = UInt16.ofNat input.length ∧ input = input' := by
  rw [Msg.frame, Frame.mk.injEq, and_iff_right rfl, List.cons.injEq, and_iff_right rfl, tokenField, List.append_assoc,
    List.cons_append, List.cons.injEq]
  constructor
  · rintro ⟨hl, hp⟩
    obtain ⟨htk, hp'⟩ := List.append_inj hp (by rw [hlen, hl, toNat_tokenLength ht])
    obtain ⟨hg, hin⟩ := (optyPutU16_append_eq_iff _ _ _ _ _).1 hp'.symm
    exact ⟨htk.symm, hg, hin⟩
  · rintro ⟨rfl, hg, rfl⟩
    refine ⟨UInt8.toNat_inj.1 (by rw [toNat_tokenLength ht, hlen]), ?_⟩
    rw [(optyPutU16_append_eq_iff _ g0 g1 _ _).2 ⟨hg, rfl⟩]

/-- `opty_parse_control_shutdown` never reads or writes outside its buffers, and accepts exactly the frames of a CONTROL_SHUTDOWN. -/
theorem optyParseControlShutdown_spec (frame : Frame) {cap : Nat} (hcap : optyMaxToken < cap) (buf : Block UInt8 cap) :
    ∃ r, optyParseControlShutdown frame buf = some r ∧ ∀ tok input, r = .ok (tok, input) ↔
      ∃ token, token.length ≤ optyMaxToken ∧ input.length ≤ optyMaxGracefulInput ∧
        tok.cells = tokenBuffer token buf.cells ∧ frame = (Msg.controlShutdown token input).frame := by
  obtain ⟨type, p⟩ := frame
  unfold optyParseControlShutdown
  simp only
  by_cases hbad : cap = 0 ∨ type ≠ msgControlShutdown ∨ p.length < 4
  · rw [if_pos hbad]
    refine ⟨_, rfl, fun tok input => ⟨nofun, ?_⟩⟩
    rintro ⟨token, -, -, -, h⟩
    rw [Msg.frame, Frame.mk.injEq] at h
    have := congrArg List.length h.2
    simp only [tokenField, List.length_cons, List.length_append, length_optyPutU16] at this
    rcases hbad with h0 | h0 | h0
    · omega
    · exact absurd h.1 h0
    · omega
  rw [if_neg hbad]
  simp only [not_or, not_not, Nat.not_lt] at hbad
  obtain ⟨hc0, rfl, hlen⟩ := hbad
  obtain ⟨v, tl, rest, rfl⟩ : ∃ v tl rest, p = v :: tl :: rest := by
    obtain ⟨x, rest, rfl, hx⟩ := exists_split p 2 (by omega)
    match x, hx with
    | [v, tl], _ => exact ⟨v, tl, rest, rfl⟩
  simp only [List.getElem?_cons_zero, List.getElem?_cons_succ, Option.bind_some]
  by_cases hv : v = optyVersion
  swap
  · rw [if_pos hv]
    refine ⟨_, rfl, fun tok input => ⟨nofun, ?_⟩⟩
    rintro ⟨token, -, -, -, h⟩
    rw [Msg.frame, Frame.mk.injEq] at h
    exact absurd (List.cons.inj h.2).1 hv
  subst hv
  rw [if_neg (fun h => h rfl)]
  have htl : tl.toNat < 256 := tl.toNat_lt
  have hroom : tl.toNat + 1 ≤ cap := by simp only [optyMaxToken] at hcap; omega
  by_cases hshort : cap < tl.toNat + 1 ∨ (optyVersion :: tl :: rest).length < 2 + tl.toNat + 2
  · rw [if_pos hshort]
    refine ⟨_, rfl, fun tok input => ⟨nofun, ?_⟩⟩
    rintro ⟨token, ht, -, -, h⟩
    rw [Msg.frame, Frame.mk.injEq, tokenField, List.cons_append, List.cons_append] at h
    obtain ⟨h1, h2⟩ := List.cons.inj (List.cons.inj h.2).2
    have hn : tl.toNat = token.length := by rw [h1, toNat_tokenLength ht]
    rw [List.length_cons, List.length_cons, h2] at hshort
    simp only [List.length_append, length_optyPutU16] at hshort
    omega
  rw [if_neg hshort]
  simp only [List.length_cons, not_or, Nat.not_lt] at hshort
  obtain ⟨token', rest, rfl, htok⟩ := exists_split rest tl.toNat (by omega)
  obtain ⟨g0, g1, input', rfl⟩ : ∃ g0 g1 input', rest = g0 :: g1 :: input' := by
    rw [List.length_append] at hshort
    obtain ⟨x, y, rfl, hx⟩ := exists_split rest 2 (by omega)
    match x, hx with
    | [g0, g1], _ => exact ⟨g0, g1, y, rfl⟩
  obtain ⟨b1, b2, h1, h2, hv⟩ := copy_token buf (optyVersion :: tl :: (token' ++ g0 :: g1 :: input')) 2 tl.toNat hroom
    (by simp only [List.length_cons, List.length_append]; omega)
  have hcopied : ((optyVersion :: tl :: (token' ++ g0 :: g1 :: input')).drop 2).take tl.toNat = token' := List.take_left' htok
  rw [hcopied] at hv
  have hget : getU16At (optyVersion :: tl :: (token' ++ g0 :: g1 :: input')) (2 + tl.toNat) = some (optyGetU16 g0 g1) :=
    getU16At_append (optyVersion :: tl :: token') (g0 :: g1 :: input') (2 + tl.toNat) 0
      (by simp only [List.length_cons]; omega)
  have hdrop : (optyVersion :: tl :: (token' ++ g0 :: g1 :: input')).drop (2 + tl.toNat + 2) = input' := by
    have hl : (optyVersion :: tl :: (token' ++ [g0, g1])).length = 2 + tl.toNat + 2 := by
      simp only [List.length_cons, List.length_append, List.length_nil]
      omega
    rw [← hl, show optyVersion :: tl :: (token' ++ g0 :: g1 :: input') =
      (optyVersion :: tl :: (token' ++ [g0, g1])) ++ input' by simp, List.drop_left]
  simp only [h1, h2, hget, Option.bind_some, hdrop]
  have htok' : token'.length ≤ optyMaxToken := htok ▸ Nat.le_of_lt_succ htl
  have hglt : (optyGetU16 g0 g1).toNat < 2 ^ 16 := UInt16.toNat_lt _
  have hlen' : (optyVersion :: tl :: (token' ++ g0 :: g1 :: input')).length = 2 + tl.toNat + 2 + input'.length := by
    simp only [List.length_cons, List.length_append]
    omega
  rw [hlen']
  by_cases hg : optyMaxGracefulInput < (optyGetU16 g0 g1).toNat ∨
      2 + tl.toNat + 2 + input'.length ≠ 2 + tl.toNat + 2 + (optyGetU16 g0 g1).toNat
  · rw [if_pos hg]
    refine ⟨_, rfl, fun tok input => ⟨nofun, ?_⟩⟩
    rintro ⟨token, ht, hi, -, h⟩
    obtain ⟨-, hgl, rfl⟩ := (controlShutdown_frame_iff htok ht).1 h
    rw [hgl, UInt16.toNat_ofNat', Nat.mod_eq_of_lt (by simp only [optyMaxGracefulInput] at hi; omega)] at hg
    omega
  · rw [if_neg hg]
    simp only [not_or, Nat.not_lt, not_not] at hg
    refine ⟨_, rfl, fun tok input => ?_⟩
    constructor
    · intro h
      cases h
      refine ⟨token', htok', by omega, hv, (controlShutdown_frame_iff htok htok').2 ⟨rfl, ?_, rfl⟩⟩
      rw [show input'.length = (optyGetU16 g0 g1).toNat by omega, UInt16.ofNat_toNat]
    · rintro ⟨token, ht, -, hb, h⟩
      obtain ⟨rfl, -, rfl⟩ := (controlShutdown_frame_iff htok ht).1 h
      obtain ⟨tc, htc⟩ := tok
      obtain ⟨bc, hbc⟩ := b2
      simp only at hb hv
      subst hb hv
      rfl

/-- A token that fits leaves its buffer as large as it was. -/
theorem length_tokenBuffer {cap : Nat} (token : List UInt8) (buf : Block UInt8 cap) (h : token.length < cap) :
    (tokenBuffer token buf.cells).length = cap := by
  simp only [tokenBuffer, List.length_append, List.length_cons, List.length_drop, buf.length_eq]
  omega

/-! ## Senders -/

/-- A data argument that is NULL only with a length of zero. -/
def Buf.Readable (data : Buf) : Prop := data.bytes.length = data.len

theorem Buf.readable_iff (data : Buf) : data.Readable ↔ ¬(0 < data.len ∧ data.isNull) := by
  cases data with
  | null n =>
    simp only [Buf.Readable, Buf.bytes, Buf.len, Buf.isNull, List.length_nil, and_true]
    omega
  | mem bytes => simp [Buf.Readable, Buf.bytes, Buf.len, Buf.isNull]

/-- `opty_token_payload` refuses exactly a token that is too long. -/
theorem optyTokenPayload_spec (token : Option CString) :
    ((tokenBytes token).length ≤ optyMaxToken → optyTokenPayload token = .ok (tokenBytes token)) ∧
      (optyMaxToken < (tokenBytes token).length → optyTokenPayload token = .error .emsgsize) := by
  cases token with
  | none => exact ⟨fun _ => rfl, fun h => absurd h (by simp [tokenBytes])⟩
  | some s =>
    simp only [tokenBytes, Option.map_some, Option.getD_some, optyTokenPayload]
    exact ⟨fun h => if_neg (by omega), fun h => if_pos h⟩

/-- A sender of the message writes its frame, whole or up to a failure of the descriptor. -/
def SendsMsg (send : Sink Errno → Except Errno Unit × Sink Errno) (m : Msg) : Prop :=
  ∀ fd, Sends .eintr fd (frameBytes m.frame) (send fd).1 (send fd).2

theorem SendsMsg.of_eq {send : Sink Errno → Except Errno Unit × Sink Errno} {m : Msg} (h : SendsMsg send m) {fd fd' : Sink Errno}
    {r : Except Errno Unit} (he : send fd = (r, fd')) : Sends .eintr fd (frameBytes m.frame) r fd' := by
  have hs := h fd
  rwa [he] at hs

/-- A sender refuses its arguments: it fails and the descriptor is as it was. -/
def Refuses (send : Sink Errno → Except Errno Unit × Sink Errno) : Prop := ∀ fd, ∃ e, send fd = (.error e, fd)

/-- A payload that fits is sent as its frame. -/
theorem optySendFrame_mem (fd : Sink Errno) (f : Frame) (h : f.payload.length ≤ optyMaxFrame - 1) :
    Sends .eintr fd (frameBytes f) (optySendFrame fd f.type (.mem f.payload)).1 (optySendFrame fd f.type (.mem f.payload)).2 :=
  optySendFrame_sends fd f.type (.mem f.payload) ⟨h, rfl⟩

section Senders

variable (cols rows : UInt16) (seq next : UInt64) (token : Option CString) (data : Buf) (malloc : Bool)

theorem optySendHello_sends (ht : (tokenBytes token).length ≤ optyMaxToken) :
    SendsMsg (optySendHello · cols rows token) (.hello cols rows (tokenBytes token)) := by
  intro fd
  simp only [optySendHello, optySendTokenizedIntro, (optyTokenPayload_spec token).1 ht]
  have hfit : (Msg.hello cols rows (tokenBytes token)).frame.payload.length ≤ optyMaxFrame - 1 := by
    simp only [Msg.frame, tokenField, List.length_cons, List.length_append, length_optyPutU16, optyMaxFrame, optyMaxToken] at ht ⊢
    omega
  have hs := optySendFrame_mem fd _ hfit
  simpa [Msg.frame, tokenField] using hs

theorem optySendReconnect_sends (ht : (tokenBytes token).length ≤ optyMaxToken) :
    SendsMsg (optySendReconnect · seq cols rows token) (.reconnect seq cols rows (tokenBytes token)) := by
  intro fd
  simp only [optySendReconnect, optySendTokenizedIntro, (optyTokenPayload_spec token).1 ht]
  have hfit : (Msg.reconnect seq cols rows (tokenBytes token)).frame.payload.length ≤ optyMaxFrame - 1 := by
    simp only [Msg.frame, tokenField, List.length_cons, List.length_append, length_optyPutU16, length_optyPutU64, optyMaxFrame,
      optyMaxToken] at ht ⊢
    omega
  have hs := optySendFrame_mem fd _ hfit
  simpa [Msg.frame, tokenField] using hs

theorem optySendResize_sends : SendsMsg (optySendResize · cols rows) (.resize cols rows) :=
  fun fd => optySendFrame_mem fd (Msg.resize cols rows).frame (Nat.le_of_ble_eq_true rfl)

theorem optySendAck_sends : SendsMsg (optySendAck · seq) (.ack seq) :=
  fun fd => optySendFrame_mem fd (Msg.ack seq).frame (Nat.le_of_ble_eq_true rfl)

theorem optySendWelcome_sends : SendsMsg (optySendWelcome · seq next) (.welcome seq next) :=
  fun fd => optySendFrame_mem fd (Msg.welcome seq next).frame (Nat.le_of_ble_eq_true rfl)

/-- `opty_send_stream_frame` on data it accepts writes the sequence and the data. -/
theorem optySendStreamFrame_sends (type : UInt8) (hr : data.Readable) (hd : data.len ≤ optyMaxFrame - 9) (fd : Sink Errno) :
    Sends .eintr fd (frameBytes ⟨type, optyPutU64 seq ++ data.bytes⟩) (optySendStreamFrame true fd type seq data).1
      (optySendStreamFrame true fd type seq data).2 := by
  unfold optySendStreamFrame
  rw [if_neg ((Buf.readable_iff data).1 hr), if_neg (by simp only [sizeMax, optyMaxFrame] at hd ⊢; omega), if_pos rfl]
  refine optySendFrame_sends fd type (.mem (optyPutU64 seq ++ data.bytes)) ⟨?_, rfl⟩
  simp only [Buf.len, List.length_append, length_optyPutU64, Buf.Readable, optyMaxFrame] at hd hr ⊢
  omega

/-- Without memory for the payload nothing is written. -/
theorem optySendStreamFrame_no_memory (type : UInt8) : Refuses (optySendStreamFrame false · type seq data) := by
  intro fd
  unfold optySendStreamFrame
  split
  · exact ⟨_, rfl⟩
  · split
    · exact ⟨_, rfl⟩
    · exact ⟨_, rfl⟩

theorem optySendStdout_sends (hr : data.Readable) (hd : data.len ≤ optyMaxFrame - 9) :
    SendsMsg (optySendStdout true · seq data) (.stdout seq data.bytes) :=
  fun fd => optySendStreamFrame_sends seq data msgStdout hr hd fd

theorem optySendReplay_sends (hr : data.Readable) (hd : data.len ≤ optyMaxFrame - 9) :
    SendsMsg (optySendReplay true · seq data) (.replay seq data.bytes) :=
  fun fd => optySendStreamFrame_sends seq data msgReplay hr hd fd

theorem optySendControlShutdown_sends (ht : (tokenBytes token).length ≤ optyMaxToken) (hr : data.Readable)
    (hd : data.len ≤ optyMaxGracefulInput) :
    SendsMsg (optySendControlShutdown · token data) (.controlShutdown (tokenBytes token) data.bytes) := by
  intro fd
  simp only [optySendControlShutdown, (optyTokenPayload_spec token).1 ht]
  rw [if_neg (by omega), if_neg ((Buf.readable_iff data).1 hr)]
  have hfit : (Msg.controlShutdown (tokenBytes token) data.bytes).frame.payload.length ≤ optyMaxFrame - 1 := by
    simp only [Msg.frame, tokenField, List.length_cons, List.length_append, length_optyPutU16, optyMaxFrame, optyMaxToken,
      optyMaxGracefulInput, Buf.Readable] at ht hd hr ⊢
    omega
  have hs := optySendFrame_mem fd _ hfit
  simpa [Msg.frame, tokenField, show data.bytes.length = data.len from hr] using hs

/-- A token that is too long is refused by both intros. -/
theorem optySendTokenizedIntro_refuses (type : UInt8) (withSeq : Bool) (ht : optyMaxToken < (tokenBytes token).length) :
    Refuses (optySendTokenizedIntro · type seq cols rows token withSeq) := by
  intro fd
  simp only [optySendTokenizedIntro, (optyTokenPayload_spec token).2 ht]
  exact ⟨_, rfl⟩

/-- Stream data that is too long, or that is NULL, is refused. -/
theorem optySendStreamFrame_refuses (type : UInt8) (hd : ¬data.Readable ∨ optyMaxFrame - 9 < data.len) :
    Refuses (optySendStreamFrame malloc · type seq data) := by
  intro fd
  simp only [optySendStreamFrame]
  by_cases hn : 0 < data.len ∧ data.isNull
  · exact ⟨_, if_pos hn⟩
  · rw [if_neg hn]
    have hr := (Buf.readable_iff data).2 hn
    by_cases hbig : sizeMax - 8 < data.len
    · exact ⟨_, if_pos hbig⟩
    · rw [if_neg hbig]
      cases malloc with
      | false => exact ⟨_, rfl⟩
      | true =>
        refine optySendFrame_refuses fd type (.mem (optyPutU64 seq ++ data.bytes)) (fun h => ?_)
        have hlen := h.1
        simp only [Buf.len, List.length_append, length_optyPutU64, Buf.Readable, optyMaxFrame] at hd hr hlen
        omega

/-- A replay that was sent had its payload, was readable and fit. -/
theorem optySendReplay_of_ok {fd fd' : Sink Errno} (h : optySendReplay malloc fd seq data = (.ok (), fd')) :
    Sends .eintr fd (frameBytes (Msg.replay seq data.bytes).frame) (.ok ()) fd' ∧ data.bytes.length ≤ optyMaxFrame - 9 := by
  have hnot : ¬Refuses (optySendReplay malloc · seq data) := by
    intro hr
    obtain ⟨e, he⟩ := hr fd
    cases h.symm.trans he
  cases malloc with
  | false => exact absurd (optySendStreamFrame_no_memory seq data msgReplay) hnot
  | true =>
    by_cases hd : ¬data.Readable ∨ optyMaxFrame - 9 < data.len
    · exact absurd (optySendStreamFrame_refuses seq data true msgReplay hd) hnot
    · rw [not_or, not_not, Nat.not_lt] at hd
      exact ⟨(optySendReplay_sends seq data hd.1 hd.2).of_eq h, Nat.le_trans (Nat.le_of_eq hd.1) hd.2⟩

/-- A token or a graceful input that is too long, or an input that is NULL, is refused. -/
theorem optySendControlShutdown_refuses
    (h : optyMaxToken < (tokenBytes token).length ∨ ¬data.Readable ∨ optyMaxGracefulInput < data.len) :
    Refuses (optySendControlShutdown · token data) := by
  intro fd
  simp only [optySendControlShutdown]
  by_cases hbig : optyMaxGracefulInput < data.len
  · exact ⟨_, if_pos hbig⟩
  · rw [if_neg hbig]
    by_cases hn : 0 < data.len ∧ data.isNull
    · exact ⟨_, if_pos hn⟩
    · rw [if_neg hn]
      have ht : optyMaxToken < (tokenBytes token).length := by
        rcases h with h | h | h
        · exact h
        · exact absurd ((Buf.readable_iff data).2 hn) h
        · exact absurd h hbig
      simp only [(optyTokenPayload_spec token).2 ht]
      exact ⟨_, rfl⟩

end Senders

end ZeroPty
