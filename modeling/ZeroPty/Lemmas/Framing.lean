import ZeroPty.Framing

/-!
# What the transfers of `protocol.c` do

One specification for each loop, for every descriptor: `optyReadFull_spec`, `optyWritevFull_sends`, `optySendFrame_sends`,
`optyRecvFrameLimited_cases`. The frames of a stream are found again because the bytes of a frame determine where it ends
(`frameBytes_append_inj`).
-/

namespace ZeroPty

open Stream ByteOrder

/-! ## Reading a number of bytes -/

/-- The loop of `opty_read_full`: it consumes the bytes it returns, or reaches the end of the stream before it has them all, or
meets an error that is not an interruption. -/
theorem optyReadFullLoop_spec (fd : Source Errno) (buf : List UInt8) (len : Nat) (hbuf : buf.length ≤ len) :
    ∃ r fd' got, optyReadFullLoop fd buf len = (r, fd') ∧ fd.bytes = got ++ fd'.bytes ∧ fd'.sched <:+ fd.sched ∧
      ((r = .ok (buf ++ got) ∧ buf.length + got.length = len) ∨
        (r = .ok [] ∧ buf = [] ∧ got = [] ∧ 0 < len ∧ fd'.bytes = []) ∨
        (r = .error .econnreset ∧ 0 < buf.length + got.length ∧ buf.length + got.length < len ∧ fd'.bytes = []) ∨
        (∃ e, r = .error e ∧ e ≠ .eintr ∧ .fail e ∈ fd.sched ∧ buf.length + got.length < len)) := by
  fun_induction optyReadFullLoop fd buf len with
  | case1 fd buf hlt bs fd' hr ih =>
    -- some bytes: the rest of the loop starts with them in the buffer
    obtain ⟨-, hb, hle, hpos, hsuf⟩ := fd.read_got hr
    have hpos := hpos (by omega)
    have hfit : (buf ++ bs).length ≤ len := by rw [List.length_append]; omega
    obtain ⟨r, fd'', got, heq, hbytes, hsuf', hcases⟩ := ih hfit
    refine ⟨r, fd'', bs ++ got, heq, by rw [hb, hbytes, List.append_assoc], hsuf'.trans hsuf, ?_⟩
    rw [List.length_append] at hcases ⊢
    rcases hcases with ⟨h1, h2⟩ | ⟨-, h2, -⟩ | ⟨h1, h2, h3, h4⟩ | ⟨e, h1, h2, h3, h4⟩
    · exact Or.inl ⟨by rw [h1, List.append_assoc], by omega⟩
    · rw [(List.append_eq_nil_iff.1 h2).2] at hpos
      exact absurd hpos (Nat.lt_irrefl 0)
    · exact Or.inr (Or.inr (Or.inl ⟨h1, by omega, by omega, h4⟩))
    · exact Or.inr (Or.inr (Or.inr ⟨e, h1, h2, hsuf.subset h3, by omega⟩))
  | case2 fd buf hlt fd' hr h0 =>
    obtain ⟨hb, hb', hsuf⟩ := fd.read_eof hr
    exact ⟨_, _, [], rfl, by rw [hb, hb']; rfl, hsuf,
      Or.inr (Or.inl ⟨rfl, List.eq_nil_of_length_eq_zero h0, rfl, by omega, hb'⟩)⟩
  | case3 fd buf hlt fd' hr h0 =>
    obtain ⟨hb, hb', hsuf⟩ := fd.read_eof hr
    exact ⟨_, _, [], rfl, by rw [hb, hb']; rfl, hsuf,
      Or.inr (Or.inr (Or.inl ⟨rfl, by rw [List.length_nil]; omega, by rw [List.length_nil]; omega, hb'⟩))⟩
  | case4 fd buf hlt fd' hr ih =>
    -- an interruption: the same loop with one event less
    obtain ⟨-, hb, hsuf⟩ := fd.read_error hr
    obtain ⟨r, fd'', got, heq, hbytes, hsuf', hcases⟩ := ih hbuf
    refine ⟨r, fd'', got, heq, hb ▸ hbytes, hsuf'.trans hsuf, ?_⟩
    rcases hcases with h | h | h | ⟨e, h1, h2, h3, h4⟩
    · exact Or.inl h
    · exact Or.inr (Or.inl h)
    · exact Or.inr (Or.inr (Or.inl h))
    · exact Or.inr (Or.inr (Or.inr ⟨e, h1, h2, hsuf.subset h3, h4⟩))
  | case5 fd buf hlt e fd' hr he =>
    obtain ⟨hmem, hb, hsuf⟩ := fd.read_error hr
    exact ⟨_, _, [], rfl, hb.symm, hsuf, Or.inr (Or.inr (Or.inr ⟨e, rfl, he, hmem, by rw [List.length_nil]; omega⟩))⟩
  | case6 fd buf hlt =>
    exact ⟨_, _, [], rfl, rfl, List.suffix_refl _, Or.inl ⟨by rw [List.append_nil], by rw [List.length_nil]; omega⟩⟩

/-- `opty_read_full`: all the bytes asked for, or the end of the stream before or after the first of them, or an error that is not
an interruption. -/
theorem optyReadFull_spec (fd : Source Errno) (len : Nat) :
    ∃ r fd' got, optyReadFull fd len = (r, fd') ∧ fd.bytes = got ++ fd'.bytes ∧ fd'.sched <:+ fd.sched ∧
      ((r = .ok got ∧ got.length = len) ∨
        (r = .ok [] ∧ got = [] ∧ 0 < len ∧ fd'.bytes = []) ∨
        (r = .error .econnreset ∧ 0 < got.length ∧ got.length < len ∧ fd'.bytes = []) ∨
        (∃ e, r = .error e ∧ e ≠ .eintr ∧ .fail e ∈ fd.sched ∧ got.length < len)) := by
  obtain ⟨r, fd', got, h1, h2, h3, h4⟩ := optyReadFullLoop_spec fd [] len (Nat.zero_le _)
  refine ⟨r, fd', got, h1, h2, h3, ?_⟩
  simpa using h4

/-! ## Writing all of some bytes -/

/-- Segments of which none is empty, after some of their bytes were taken. -/
theorem iovAdvance_ne_nil (segs : List (List UInt8)) (n : Nat) (h : ∀ seg ∈ segs, seg ≠ []) :
    ∀ seg ∈ iovAdvance segs n, seg ≠ [] := by
  induction segs generalizing n with
  | nil => simp [iovAdvance]
  | cons seg segs ih =>
    rw [iovAdvance]
    split
    · exact ih _ (fun s hs => h s (List.mem_cons_of_mem _ hs))
    · rename_i hlt
      split
      · intro s hs
        rcases List.mem_cons.1 hs with rfl | hs
        · rw [ne_eq, List.drop_eq_nil_iff]
          exact hlt
        · exact h s (List.mem_cons_of_mem _ hs)
      · exact h

/-- Segments that are not empty have bytes. -/
theorem flatten_ne_nil {cur : List (List UInt8)} (hcur : ∀ seg ∈ cur, seg ≠ []) (hne : cur ≠ []) : cur.flatten ≠ [] := by
  obtain ⟨seg, segs, rfl⟩ := List.exists_cons_of_ne_nil hne
  intro h
  exact hcur seg List.mem_cons_self (List.append_eq_nil_iff.1 h).1

/-- The loop of `opty_writev_full` writes its segments, one after another, whole or up to a failure. -/
theorem optyWritevFullLoop_sends (fd : Sink Errno) (cur : List (List UInt8)) (total : Nat) (hcur : ∀ seg ∈ cur, seg ≠ [])
    (hb : cur = [] → fd.broken = false) :
    Sends .eintr fd cur.flatten ((optyWritevFullLoop fd cur total).1.map fun _ => ()) (optyWritevFullLoop fd cur total).2 ∧
      ∀ n, (optyWritevFullLoop fd cur total).1 = .ok n → n = total + cur.flatten.length := by
  fun_induction optyWritevFullLoop fd cur total with
  | case1 fd total =>
    exact ⟨.whole _ (hb rfl) (by simp) (List.suffix_refl _) (hb rfl), fun n hn => by cases hn; simp⟩
  | case2 fd cur total hne n fd' hw hn ih =>
    have hlen := ((fd.write_progress .epipe cur.flatten).2 n (by rw [hw]) hn).1
    obtain ⟨hbr, hgo⟩ := (Sends.of_write_ok Errno.eintr (flatten_ne_nil hcur hne) hw).2 hn
    obtain ⟨ih1, ih2⟩ := ih (iovAdvance_ne_nil cur n hcur) (fun _ => hbr)
    rw [flatten_iovAdvance] at ih1 ih2
    refine ⟨hgo _ _ ih1, fun m hm => ?_⟩
    rw [ih2 m hm, List.length_drop]
    omega
  | case3 fd cur total hne n fd' hw hn =>
    exact ⟨(Sends.of_write_ok Errno.eintr (flatten_ne_nil hcur hne) hw).1 (by omega) .eio (by decide), nofun⟩
  | case4 fd cur total hne fd' hw ih =>
    obtain ⟨ih1, ih2⟩ := ih hcur (fun h => absurd h hne)
    exact ⟨(Sends.of_write_error (by decide) (flatten_ne_nil hcur hne) hw).2 rfl _ _ ih1, ih2⟩
  | case5 fd cur total hne e fd' hw he =>
    exact ⟨(Sends.of_write_error (by decide) (flatten_ne_nil hcur hne) hw).1 he, nofun⟩

/-- The loop of `opty_write_full` writes the rest of its data, whole or up to a failure. -/
theorem optyWriteFullLoop_sends (fd : Sink Errno) (data : List UInt8) (total : Nat) (hb : data.length ≤ total → fd.broken = false) :
    Sends .eintr fd (data.drop total) ((optyWriteFullLoop fd data total).1.map fun _ => ()) (optyWriteFullLoop fd data total).2 := by
  have hdrop : ∀ {total : Nat}, total < data.length → data.drop total ≠ [] := by
    intro total h he
    rw [List.drop_eq_nil_iff] at he
    omega
  fun_induction optyWriteFullLoop fd data total with
  | case1 fd total h n fd' hw hn ih =>
    obtain ⟨hbr, hgo⟩ := (Sends.of_write_ok Errno.eintr (hdrop h) hw).2 hn
    have ih := ih (fun _ => hbr)
    rw [← List.drop_drop] at ih
    exact hgo _ _ ih
  | case2 fd total h n fd' hw hn => exact (Sends.of_write_ok Errno.eintr (hdrop h) hw).1 (by omega) .eio (by decide)
  | case3 fd total h fd' hw ih =>
    exact (Sends.of_write_error (by decide) (hdrop h) hw).2 rfl _ _ (ih (fun hle => absurd h (by omega)))
  | case4 fd total h e fd' hw he => exact (Sends.of_write_error (by decide) (hdrop h) hw).1 he
  | case5 fd total h =>
    rw [List.drop_of_length_le (by omega)]
    exact .whole _ (hb (by omega)) (by simp) (List.suffix_refl _) (hb (by omega))

/-! ## The bytes of a frame -/

@[simp] theorem length_wirePrefix (w : UInt32) : (wirePrefix w).length = 4 := rfl

/-- The four bytes `opty_send_frame` computes are the big-endian form of the length. -/
theorem wirePrefix_eq_toBe (w : UInt32) : wirePrefix w = toBe 4 w.toNat := by
  have hmask : ∀ v : UInt32, (v &&& 0xff).toUInt8 = UInt8.ofNat v.toNat := by
    intro v
    apply UInt8.toNat_inj.1
    rw [UInt8.toNat_ofNat', UInt32.toNat_toUInt8, UInt32.toNat_and]
    change (v.toNat &&& (2 ^ 8 - 1)) % 2 ^ 8 = v.toNat % 2 ^ 8
    rw [Nat.and_two_pow_sub_one_eq_mod, Nat.mod_mod]
  simp only [wirePrefix, toBe, hmask]
  simp [UInt32.toNat_shiftRight, Nat.shiftRight_eq_div_pow]

/-- The length `opty_recv_frame_limited` computes is the number the four bytes stand for. -/
theorem toNat_wireLenOf (p0 p1 p2 p3 : UInt8) : (wireLenOf p0 p1 p2 p3).toNat = ofBe [p0, p1, p2, p3] := by
  have h0 := p0.toNat_lt
  have h1 := p1.toNat_lt
  have h2 := p2.toNat_lt
  have h3 := p3.toNat_lt
  have hshift : ∀ (p : UInt8) (k : UInt32) (i : Nat), k.toNat = i → i ≤ 24 → (p.toUInt32 <<< k).toNat = 2 ^ i * p.toNat := by
    intro p k i hk hi
    have hlt : p.toNat * 2 ^ i < 2 ^ 32 :=
      calc p.toNat * 2 ^ i < 2 ^ 8 * 2 ^ i := Nat.mul_lt_mul_of_pos_right p.toNat_lt (Nat.two_pow_pos i)
        _ = 2 ^ (8 + i) := by rw [Nat.pow_add]
        _ ≤ 2 ^ 32 := Nat.pow_le_pow_right (by decide) (by omega)
    rw [UInt32.toNat_shiftLeft, UInt8.toNat_toUInt32, hk, Nat.mod_eq_of_lt (show i < 32 by omega), Nat.shiftLeft_eq,
      Nat.mod_eq_of_lt hlt, Nat.mul_comm]
  simp only [wireLenOf, UInt32.toNat_or]
  rw [hshift p0 24 24 rfl (by decide), hshift p1 16 16 rfl (by decide), hshift p2 8 8 rfl (by decide),
    UInt8.toNat_toUInt32, or_byte _ _ 16 h1, or_byte _ _ 8 h2]
  have hlast := or_byte ((p0.toNat * 256 + p1.toNat) * 256 + p2.toNat) p3.toNat 0 h3
  simp only [Nat.zero_add, Nat.pow_zero, Nat.one_mul] at hlast
  rw [hlast]
  simp only [ofBe, List.length_cons, List.length_nil]
  omega

/-- Four bytes are the length prefix of exactly the number `opty_recv_frame_limited` reads in them. -/
theorem wirePrefix_eq_iff (n : Nat) (hn : n < 2 ^ 32) (p0 p1 p2 p3 : UInt8) :
    wirePrefix (UInt32.ofNat n) = [p0, p1, p2, p3] ↔ (wireLenOf p0 p1 p2 p3).toNat = n := by
  rw [wirePrefix_eq_toBe, toNat_wireLenOf, UInt32.toNat_ofNat', Nat.mod_eq_of_lt hn]
  constructor
  · intro h
    rw [← h, ofBe_toBe]
    exact Nat.mod_eq_of_lt hn
  · rintro rfl
    exact toBe_ofBe [p0, p1, p2, p3]

@[simp] theorem length_frameBytes (f : Frame) : (frameBytes f).length = 5 + f.payload.length := by
  simp only [frameBytes, List.length_append, length_wirePrefix, List.length_cons]
  omega

theorem frameBytes_ne_nil (f : Frame) : frameBytes f ≠ [] :=
  List.ne_nil_of_length_pos (by rw [length_frameBytes]; omega)

@[simp] theorem wireBytes_nil : wireBytes [] = [] := rfl

@[simp] theorem wireBytes_cons (f : Frame) (fs : List Frame) : wireBytes (f :: fs) = frameBytes f ++ wireBytes fs :=
  List.flatMap_cons

theorem wireBytes_append (fs gs : List Frame) : wireBytes (fs ++ gs) = wireBytes fs ++ wireBytes gs := by
  simp [wireBytes]

/-- The first four bytes say where a frame ends: two streams that start with a frame each and agree have the same first frame. -/
theorem frameBytes_append_inj {f g : Frame} {x y : List UInt8} (hf : f.payload.length < 2 ^ 32 - 1)
    (hg : g.payload.length < 2 ^ 32 - 1) (h : frameBytes f ++ x = frameBytes g ++ y) : f = g ∧ x = y := by
  simp only [frameBytes, List.append_assoc] at h
  obtain ⟨hpre, hrest⟩ := List.append_inj h (by simp)
  have hlen : f.payload.length = g.payload.length := by
    have h1 := (wirePrefix_eq_iff (f.payload.length + 1) (by omega) _ _ _ _).1 rfl
    have h2 := (wirePrefix_eq_iff (g.payload.length + 1) (by omega) _ _ _ _).1 hpre.symm
    omega
  obtain ⟨hty, hpl⟩ := List.cons.inj hrest
  obtain ⟨hp, hxy⟩ := List.append_inj hpl hlen
  obtain ⟨ft, fp⟩ := f
  obtain ⟨gt, gp⟩ := g
  simp only at hty hp
  subst hty hp
  exact ⟨rfl, hxy⟩

/-! ## Sending a frame -/

/-- The payload argument of `opty_send_frame` is one it accepts: short enough, and not NULL with a length. -/
def Buf.Sendable (payload : Buf) : Prop := payload.len ≤ optyMaxFrame - 1 ∧ payload.bytes.length = payload.len

/-- `opty_send_frame` on arguments it accepts writes the bytes of the frame, whole or up to a failure. -/
theorem optySendFrame_sends (fd : Sink Errno) (type : UInt8) (payload : Buf) (h : payload.Sendable) :
    Sends .eintr fd (frameBytes ⟨type, payload.bytes⟩) (optySendFrame fd type payload).1 (optySendFrame fd type payload).2 := by
  obtain ⟨hlen, hnull⟩ := h
  have key : ∀ iov : List (List UInt8), iov ≠ [] → iov.length ≤ 3 → (∀ seg ∈ iov, seg ≠ []) →
      Sends .eintr fd iov.flatten ((optyWritevFull fd iov).1.map fun _ => ()) (optyWritevFull fd iov).2 := by
    intro iov hne h3 hseg
    have h0 : iov.length ≠ 0 := fun h => hne (List.eq_nil_of_length_eq_zero h)
    rw [optyWritevFull, if_neg (by omega), if_neg h0]
    exact (optyWritevFullLoop_sends fd iov 0 hseg (fun h => absurd h hne)).1
  have hpre : ∀ w : UInt32, wirePrefix w ≠ [] := fun w => List.ne_nil_of_length_pos (by simp)
  unfold optySendFrame
  rw [if_neg (by omega)]
  cases payload with
  | null len =>
    have h0 : len = 0 := hnull.symm
    subst h0
    have hk := key [wirePrefix (UInt32.ofNat (0 + 1)), [type]] (by simp) (by simp) (by simp [hpre])
    simpa [frameBytes, Buf.bytes] using hk
  | mem bytes =>
    by_cases h0 : 0 < bytes.length
    · have hne : bytes ≠ [] := List.length_pos_iff.1 h0
      have hk := key [wirePrefix (UInt32.ofNat (bytes.length + 1)), [type], bytes] (by simp) (by simp) (by simp [hpre, hne])
      simpa [frameBytes, Buf.bytes, h0] using hk
    · have hnil : bytes = [] := List.eq_nil_of_length_eq_zero (by omega)
      subst hnil
      have hk := key [wirePrefix (UInt32.ofNat (0 + 1)), [type]] (by simp) (by simp) (by simp [hpre])
      simpa [frameBytes, Buf.bytes] using hk

/-- `opty_send_frame` on arguments it refuses touches the descriptor not at all. -/
theorem optySendFrame_refuses (fd : Sink Errno) (type : UInt8) (payload : Buf) (h : ¬payload.Sendable) :
    ∃ e, optySendFrame fd type payload = (.error e, fd) := by
  unfold optySendFrame
  by_cases hlen : optyMaxFrame - 1 < payload.len
  · exact ⟨_, by rw [if_pos hlen]⟩
  · rw [if_neg hlen]
    cases payload with
    | null len =>
      by_cases h0 : 0 < len
      · exact ⟨_, if_pos h0⟩
      · exact absurd ⟨by omega, by simp only [Buf.bytes, Buf.len, List.length_nil]; omega⟩ h
    | mem bytes => exact absurd ⟨by omega, rfl⟩ h

/-! ## Receiving a frame -/

/-- The longest payload `opty_recv_frame_limited` accepts. -/
def payloadCap (limit : Nat) : Nat := min limit (optyMaxFrame - 1)

theorem payloadCap_lt (limit : Nat) : payloadCap limit < 2 ^ 24 := by
  simp only [payloadCap, optyMaxFrame]
  omega

/-- What is left of the stream when a frame that would be accepted is cut: some bytes of its prefix, or its prefix and less than what
the prefix announces. -/
def Truncated (limit : Nat) (bytes : List UInt8) : Prop :=
  bytes ≠ [] ∧ (bytes.length < 4 ∨
    ∃ n rest, 1 ≤ n ∧ n - 1 ≤ payloadCap limit ∧ bytes = wirePrefix (UInt32.ofNat n) ++ rest ∧ rest.length < n)

/-- What `opty_recv_frame_limited` can do, on any stream: return the frame the stream starts with, if its payload is not too long;
report the end of an empty stream; refuse a length after its four bytes; find the stream cut; or fail because a read or
the allocation did. -/
theorem optyRecvFrameLimited_cases (malloc : Bool) (fd : Source Errno) (limit : Nat) :
    ∃ r fd', optyRecvFrameLimited malloc fd limit = (r, fd') ∧ fd'.sched <:+ fd.sched ∧
      ((∃ f, r = .ok (some f) ∧ fd.bytes = frameBytes f ++ fd'.bytes ∧ f.payload.length ≤ payloadCap limit) ∨
        (r = .ok none ∧ fd.bytes = [] ∧ fd'.bytes = []) ∨
        (∃ n, r = .error .emsgsize ∧ fd.bytes = wirePrefix (UInt32.ofNat n) ++ fd'.bytes ∧ n < 2 ^ 32 ∧
          (n = 0 ∨ payloadCap limit < n - 1)) ∨
        (r = .error .econnreset ∧ Truncated limit fd.bytes ∧ fd'.bytes = []) ∨
        (∃ e, r = .error e ∧ e ≠ .eintr ∧ (¬fd.Benign .eintr ∨ malloc = false))) := by
  have hcap : (if optyMaxFrame - 1 < limit then optyMaxFrame - 1 else limit) = payloadCap limit := by
    simp only [payloadCap]
    split <;> omega
  unfold optyRecvFrameLimited
  simp only [hcap]
  obtain ⟨r1, fd1, got1, h1, hb1, hs1, hc1⟩ := optyReadFull_spec fd 4
  rw [h1]
  rcases hc1 with ⟨rfl, hl⟩ | ⟨rfl, rfl, -, hnil⟩ | ⟨rfl, hpos, hlt, hnil⟩ | ⟨e, rfl, he, hmem, -⟩
  · -- the prefix is there
    obtain ⟨p0, p1, p2, p3, rfl⟩ : ∃ p0 p1 p2 p3, got1 = [p0, p1, p2, p3] := by
      match got1, hl with
      | [p0, p1, p2, p3], _ => exact ⟨p0, p1, p2, p3, rfl⟩
    simp only
    have hn32 : (wireLenOf p0 p1 p2 p3).toNat < 2 ^ 32 := UInt32.toNat_lt _
    have hpre := (wirePrefix_eq_iff _ hn32 p0 p1 p2 p3).2 rfl
    generalize (wireLenOf p0 p1 p2 p3).toNat = n at hn32 hpre
    rw [← hpre] at hb1
    by_cases hbad : n < 1 ∨ optyMaxFrame < n ∨ payloadCap limit < n - 1
    · rw [if_pos hbad]
      refine ⟨_, _, rfl, hs1, Or.inr (Or.inr (Or.inl ⟨n, rfl, hb1, hn32, ?_⟩))⟩
      have hle : payloadCap limit ≤ optyMaxFrame - 1 := Nat.min_le_right _ _
      have hpos : 0 < optyMaxFrame := by decide
      omega
    · rw [if_neg hbad]
      have hn1 : 1 ≤ n := by omega
      have hnc : n - 1 ≤ payloadCap limit := by omega
      have hne : fd.bytes ≠ [] := by
        rw [hb1]
        refine List.ne_nil_of_length_pos ?_
        simp only [List.length_append, length_wirePrefix]
        omega
      obtain ⟨r2, fd2, got2, h2, hb2, hs2, hc2⟩ := optyReadFull_spec fd1 1
      rw [h2]
      rcases hc2 with ⟨rfl, hl2⟩ | ⟨rfl, rfl, -, hnil2⟩ | ⟨rfl, hpos2, hlt2, -⟩ | ⟨e, rfl, he, hmem, -⟩
      · obtain ⟨type, rfl⟩ := List.length_eq_one_iff.1 hl2
        simp only
        by_cases h0 : 0 < n - 1
        · rw [if_pos h0]
          cases malloc with
          | false => exact ⟨_, _, rfl, hs2.trans hs1, Or.inr (Or.inr (Or.inr (Or.inr ⟨_, rfl, by decide, Or.inr rfl⟩)))⟩
          | true =>
            rw [if_pos rfl]
            obtain ⟨r3, fd3, got3, h3, hb3, hs3, hc3⟩ := optyReadFull_spec fd2 (n - 1)
            rw [h3]
            have hall : fd.bytes = wirePrefix (UInt32.ofNat n) ++ ([type] ++ (got3 ++ fd3.bytes)) := by
              rw [hb1, hb2, hb3]
            rcases hc3 with ⟨rfl, hl3⟩ | ⟨rfl, rfl, -, hnil3⟩ | ⟨rfl, hpos3, hlt3, hnil3⟩ | ⟨e, rfl, he, hmem, -⟩
            · simp only
              rw [if_pos hl3]
              refine ⟨_, _, rfl, hs3.trans (hs2.trans hs1), Or.inl ⟨_, rfl, ?_, by rw [hl3]; exact hnc⟩⟩
              rw [hall, frameBytes, hl3, Nat.sub_add_cancel hn1]
              simp
            · simp only
              rw [if_neg (by simp only [List.length_nil]; omega)]
              refine ⟨_, _, rfl, hs3.trans (hs2.trans hs1), Or.inr (Or.inr (Or.inr (Or.inl ⟨rfl, ⟨hne, Or.inr ?_⟩, hnil3⟩)))⟩
              exact ⟨n, _, hn1, hnc, hall, by rw [hnil3]; simp only [List.length_append, List.length_cons, List.length_nil]; omega⟩
            · refine ⟨_, _, rfl, hs3.trans (hs2.trans hs1), Or.inr (Or.inr (Or.inr (Or.inl ⟨rfl, ⟨hne, Or.inr ?_⟩, hnil3⟩)))⟩
              exact ⟨n, _, hn1, hnc, hall, by rw [hnil3]; simp only [List.length_append, List.length_cons, List.length_nil]; omega⟩
            · refine ⟨_, _, rfl, hs3.trans (hs2.trans hs1), Or.inr (Or.inr (Or.inr (Or.inr ⟨_, rfl, by decide, Or.inl ?_⟩)))⟩
              exact fun hbn => he (hbn e ((hs2.trans hs1).subset hmem))
        · rw [if_neg h0]
          refine ⟨_, _, rfl, hs2.trans hs1, Or.inl ⟨_, rfl, ?_, Nat.zero_le _⟩⟩
          rw [hb1, hb2, frameBytes, show n = 1 by omega]
          simp
      · refine ⟨_, _, rfl, hs2.trans hs1, Or.inr (Or.inr (Or.inr (Or.inl ⟨rfl, ⟨hne, Or.inr ?_⟩, hnil2⟩)))⟩
        exact ⟨n, _, hn1, hnc, hb1, by rw [hb2, hnil2]; exact hn1⟩
      · omega
      · refine ⟨_, _, rfl, hs2.trans hs1, Or.inr (Or.inr (Or.inr (Or.inr ⟨_, rfl, by decide, Or.inl ?_⟩)))⟩
        exact fun hbn => he (hbn e (hs1.subset hmem))
  · exact ⟨_, _, rfl, hs1, Or.inr (Or.inl ⟨rfl, by rw [hb1, hnil]; rfl, hnil⟩)⟩
  · refine ⟨_, _, rfl, hs1, Or.inr (Or.inr (Or.inr (Or.inl ⟨rfl, ⟨?_, Or.inl ?_⟩, hnil⟩)))⟩
    · rw [hb1, hnil, List.append_nil]
      exact List.ne_nil_of_length_pos hpos
    · rw [hb1, hnil, List.append_nil]
      exact hlt
  · refine ⟨_, _, rfl, hs1, Or.inr (Or.inr (Or.inr (Or.inr ⟨e, rfl, he, Or.inl ?_⟩)))⟩
    exact fun hbn => he (hbn e hmem)

end ZeroPty
