import ZeroPty.Lemmas.Record

/-!
# The readers of a session record and the decoders of its values agree
-/

namespace ZeroPty

open Memory Text

/-- A line that `opty_read_session_endpoint` refuses although its value fits. -/
def RefusedField (key value : List UInt8) : Prop :=
  (key = ascii "host" ∧ value = []) ∨ (key = ascii "port" ∧ value = []) ∨ (key = ascii "port" ∧ ∃ b ∈ value, isDigit b = false)

namespace RecordAux

open SessionAux

/-! ## The two readers -/

/-- The buffers of the one reader hold what the other one has read. -/
structure SameEndpoint (e : EndpointReading) (r : RecordReading) : Prop where
  host : e.host = r.info.host
  port : e.port = r.info.port
  found : r.info.port ≠ [] → e.foundPort = true

/-- A line that `opty_read_session_info` takes. -/
theorem SameEndpoint.field {malloc : Alloc UInt8} {e : EndpointReading} {r r' : RecordReading} {key value : List UInt8}
    (hsame : SameEndpoint e r) (h : readSessionField malloc r key value = .ok r') :
    (∃ e', readEndpointField 128 16 e key value = .ok e' ∧ SameEndpoint e' r') ∨
      ∃ err, readEndpointField 128 16 e key value = .error err ∧ RefusedField key value := by
  have hhost := readSessionField_field h .host
  have hport := readSessionField_field h .port
  unfold readEndpointField
  by_cases hk : key = ascii "host"
  · rw [if_pos hk]
    obtain ⟨hlen, hval⟩ : value.length < 128 ∧ r'.info.host = value := hhost.1 hk (by decide)
    have hkeep : r'.info.port = r.info.port := hport.2.1 (by rw [hk]; decide)
    by_cases hv : value = []
    · rw [if_pos (Or.inl hv)]
      exact Or.inr ⟨_, rfl, Or.inl ⟨hk, hv⟩⟩
    · rw [if_neg (not_or.2 ⟨hv, Nat.not_le.2 hlen⟩)]
      refine Or.inl ⟨_, rfl, hval.symm, hsame.port.trans hkeep.symm, fun hne => hsame.found ?_⟩
      rwa [← hkeep]
  · rw [if_neg hk]
    have hkeep : r'.info.host = r.info.host := hhost.2.1 hk
    by_cases hk' : key = ascii "port"
    · rw [if_pos hk']
      obtain ⟨hlen, hval⟩ : value.length < 16 ∧ r'.info.port = value := hport.1 hk' (by decide)
      by_cases hv : value = []
      · rw [if_pos (Or.inl hv)]
        exact Or.inr ⟨_, rfl, Or.inr (Or.inl ⟨hk', hv⟩)⟩
      · rw [if_neg (not_or.2 ⟨hv, Nat.not_le.2 hlen⟩)]
        by_cases hd : value.all isDigit = false
        · rw [if_pos hd]
          obtain ⟨b, hb, hnot⟩ := List.all_eq_false.1 hd
          exact Or.inr ⟨_, rfl, Or.inr (Or.inr ⟨hk', b, hb, Bool.eq_false_iff.2 hnot⟩)⟩
        · rw [if_neg hd]
          exact Or.inl ⟨_, rfl, hsame.host.trans hkeep.symm, hval.symm, fun _ => rfl⟩
    · rw [if_neg hk']
      have hkeep' : r'.info.port = r.info.port := hport.2.1 hk'
      refine Or.inl ⟨e, rfl, hsame.host.trans hkeep.symm, hsame.port.trans hkeep'.symm, fun hne => hsame.found ?_⟩
      rwa [← hkeep']

/-- The lines of a record that `opty_read_session_info` takes. -/
theorem SameEndpoint.lines {malloc : Nat → Alloc UInt8} {ls : List (List UInt8)} {n : Nat} {e : EndpointReading} {r r' : RecordReading}
    (hsame : SameEndpoint e r) (h : readSessionLines malloc n r ls = .ok r') :
    (∃ e', readEndpointLines 128 16 e ls = .ok e' ∧ SameEndpoint e' r') ∨
      ∃ err, readEndpointLines 128 16 e ls = .error err ∧
        ∃ kv ∈ ls.filterMap fun line => cut equals (optyChomp line), RefusedField kv.1 kv.2 := by
  induction ls generalizing n e r with
  | nil =>
    cases h
    exact Or.inl ⟨e, rfl, hsame⟩
  | cons line ls ih =>
    rw [readSessionLines, readSessionLine] at h
    rw [readEndpointLines, List.filterMap_cons]
    cases hc : cut equals (optyChomp line) with
    | none =>
      rw [hc] at h
      exact ih hsame h
    | some kv =>
      obtain ⟨key, value⟩ := kv
      rw [hc] at h
      simp only at h ⊢
      split at h
      · cases h
      · rename_i r₁ hr₁
        rcases hsame.field hr₁ with ⟨e₁, he₁, hsame₁⟩ | ⟨err, herr, hrefused⟩
        · rw [he₁]
          rcases ih hsame₁ h with hok | ⟨err, herr, kv, hmem, hrefused⟩
          · exact Or.inl hok
          · exact Or.inr ⟨err, herr, kv, List.mem_cons_of_mem _ hmem, hrefused⟩
        · rw [herr]
          exact Or.inr ⟨err, rfl, _, List.mem_cons_self, hrefused⟩

end RecordAux

open RecordAux SessionAux

/-- On a record that `opty_read_session_info` reads, `opty_read_session_endpoint` finds the same host and port, or it objects to an
empty host, an empty port or a port that is not a number. -/
theorem readers_agree (home : Option CString) (malloc : Nat → Alloc UInt8) (files : Files) (session : CString) (path content : List UInt8)
    (hpath : optySessionPath home session = .ok path) (hfile : files path = some content) (info : SessionInfo)
    (hinfo : optyReadSessionInfo home (.ok ()) malloc files session = .ok info) :
    (∀ host port, optyReadSessionEndpoint home (.ok ()) files session 128 16 = .ok (host, port) →
      host = info.host ∧ port = info.port) ∧
    ∀ e, optyReadSessionEndpoint home (.ok ()) files session 128 16 = .error e →
      (ascii "host", []) ∈ recordFields content ∨ (ascii "port", []) ∈ recordFields content ∨
        ∃ value, (ascii "port", value) ∈ recordFields content ∧ ∃ b ∈ value, isDigit b = false := by
  obtain ⟨r, hr, hfinish⟩ := optyReadSessionInfo_ok hpath hfile hinfo
  obtain ⟨hport, -, rfl⟩ := finishSessionInfo_eq_ok hfinish
  have hinit : SameEndpoint ⟨optyDefaultHost.take 127, [], false⟩ ⟨optySessionInfoInit session, false⟩ :=
    ⟨rfl, rfl, fun h => absurd rfl h⟩
  simp only [optyReadSessionEndpoint, hpath, hfile, bind, Except.bind, Nat.reduceEqDiff, if_false, Nat.reduceSub]
  rcases hinit.lines hr with ⟨e, he, hsame⟩ | ⟨err, herr, kv, hmem, hrefused⟩
  · rw [he]
    simp only [hsame.found hport, if_true]
    refine ⟨fun host port h => ?_, fun e h => by cases h⟩
    cases h
    exact ⟨hsame.host, hsame.port⟩
  · rw [herr]
    refine ⟨fun host port h => (by cases h), fun _ _ => ?_⟩
    obtain ⟨key, value⟩ := kv
    rcases hrefused with ⟨rfl, rfl⟩ | ⟨rfl, rfl⟩ | ⟨rfl, hdigit⟩
    · exact Or.inl hmem
    · exact Or.inr (Or.inl hmem)
    · exact Or.inr (Or.inr ⟨value, hmem, hdigit⟩)

/-- The files with one record, that of the session `dev` of the user `/root`. -/
def devFile (content : List UInt8) : Files :=
  fun path => if path = ascii "/root/.0pty/sessions/dev.session" then some content else none

/-- A record with two ports and a comment is read with the last of them by both. -/
theorem readers_agree_two_ports :
    let content := ascii "# by hand\nport=6077\nhost=10.0.0.7\nport=6078\n"
    ∃ info, optyReadSessionInfo (some ⟨ascii "/root", by decide⟩) (.ok ()) (fun _ => zeroed) (devFile content) ⟨ascii "dev", by decide⟩ =
        .ok info ∧
      optyReadSessionEndpoint (some ⟨ascii "/root", by decide⟩) (.ok ()) (devFile content) ⟨ascii "dev", by decide⟩ 128 16 =
        .ok (info.host, info.port) := by
  intro content
  obtain ⟨info, hinfo⟩ : ∃ info, optyReadSessionInfo (some ⟨ascii "/root", by decide⟩) (.ok ()) (fun _ => zeroed) (devFile content)
      ⟨ascii "dev", by decide⟩ = .ok info := ⟨_, rfl⟩
  have hend : optyReadSessionEndpoint (some ⟨ascii "/root", by decide⟩) (.ok ()) (devFile content) ⟨ascii "dev", by decide⟩ 128 16 =
      .ok (ascii "10.0.0.7", ascii "6078") := by decide +kernel
  have h := (readers_agree (some ⟨ascii "/root", by decide⟩) (fun _ => zeroed) (devFile content) ⟨ascii "dev", by decide⟩
    (ascii "/root/.0pty/sessions/dev.session") content rfl (if_pos rfl) info hinfo).1 _ _ hend
  rw [h.1, h.2] at hend
  exact ⟨info, hinfo, hend⟩

/-! ## The two decoders -/

/-- A backslash that starts an escape, since an even number of them stands right before it, ends the value or comes before a byte that
makes no escape. -/
def BadEscape (v : List UInt8) : Prop :=
  ∃ x k y, v = x ++ List.replicate (2 * k) backslash ++ backslash :: y ∧ x.getLast? ≠ some backslash ∧
    ∀ c, y.head? = some c → c ∉ [110, 114, 116, backslash]

namespace RecordAux

theorem unescapeByte_eq_none_iff (c : UInt8) : unescapeByte c = none ↔ c ∉ [110, 114, 116, backslash] := by
  simp only [List.mem_cons, List.not_mem_nil, or_false, not_or]
  unfold unescapeByte
  constructor
  · intro h
    refine ⟨?_, ?_, ?_, ?_⟩
    all_goals
      rintro rfl
      cases h
  · rintro ⟨h1, h2, h3, h4⟩
    rw [if_neg h1, if_neg h2, if_neg h3, if_neg h4]

/-! ## Bad escapes -/

theorem badEscape_nil : ¬BadEscape [] := by
  rintro ⟨x, k, y, h, -⟩
  have := congrArg List.length h
  simp only [List.length_nil, List.length_append, List.length_cons] at this
  omega

/-- A byte that is no backslash is passed over. -/
theorem badEscape_cons {b : UInt8} (hb : b ≠ backslash) (l : List UInt8) : BadEscape (b :: l) ↔ BadEscape l := by
  constructor
  · rintro ⟨x, k, y, h, hx, hy⟩
    cases x with
    | nil =>
      exfalso
      cases k with
      | zero => exact hb (List.cons.inj h).1
      | succ k => exact hb (List.cons.inj h).1
    | cons a x =>
      refine ⟨x, k, y, (List.cons.inj h).2, fun hlast => hx ?_, hy⟩
      rw [List.getLast?_cons, hlast]
      rfl
  · rintro ⟨x, k, y, rfl, hx, hy⟩
    refine ⟨b :: x, k, y, rfl, fun hlast => ?_, hy⟩
    cases x with
    | nil => exact hb (Option.some.inj hlast)
    | cons a x =>
      rw [List.getLast?_cons_cons] at hlast
      exact hx hlast

/-- An escape is passed over, and what is none is bad. -/
theorem badEscape_escaped (c : UInt8) (l : List UInt8) :
    BadEscape (backslash :: c :: l) ↔ unescapeByte c = none ∨ BadEscape l := by
  constructor
  · rintro ⟨x, k, y, h, hx, hy⟩
    cases x with
    | nil =>
      cases k with
      | zero =>
        obtain rfl : c :: l = y := (List.cons.inj h).2
        exact Or.inl ((unescapeByte_eq_none_iff c).2 (hy c rfl))
      | succ k =>
        -- a run of backslashes that goes on: the first two of it are an escape
        right
        have hl := (List.cons.inj (List.cons.inj h).2).2
        exact ⟨[], k, y, hl, fun h => (by cases h), hy⟩
    | cons a x =>
      cases x with
      | nil =>
        obtain ⟨rfl, -⟩ := List.cons.inj h
        exact absurd rfl hx
      | cons a' x =>
        right
        have hl := (List.cons.inj (List.cons.inj h).2).2
        refine ⟨x, k, y, hl, fun hlast => hx ?_, hy⟩
        rw [List.getLast?_cons_cons, List.getLast?_cons, hlast]
        rfl
  · rintro (hc | ⟨x, k, y, rfl, hx, hy⟩)
    · refine ⟨[], 0, c :: l, rfl, fun h => (by cases h), fun d hd => ?_⟩
      cases hd
      exact (unescapeByte_eq_none_iff c).1 hc
    · by_cases hc : c = backslash ∧ x = []
      · obtain ⟨rfl, rfl⟩ := hc
        exact ⟨[], k + 1, y, rfl, fun h => (by cases h), hy⟩
      · refine ⟨backslash :: c :: x, k, y, rfl, fun hlast => hc ?_, hy⟩
        rw [List.getLast?_cons_cons] at hlast
        cases x with
        | nil => exact ⟨Option.some.inj hlast, rfl⟩
        | cons a x =>
          rw [List.getLast?_cons_cons] at hlast
          exact absurd hlast hx

/-- The loop of the strict decoder: it ends with what the other one makes of the value, or one of its two errors has its cause. -/
theorem decodeGracefulLoop_spec {cap : Nat} (v out : List UInt8) (hout : out.length ≤ cap) :
    (¬BadEscape v ∧ out.length + (decodeBytes v).length ≤ cap ∧ decodeGracefulLoop cap out v = .ok (out ++ decodeBytes v)) ∨
    (BadEscape v ∧ decodeGracefulLoop cap out v = .error .einval) ∨
    (cap < out.length + (decodeBytes v).length ∧ decodeGracefulLoop cap out v = .error .emsgsize) := by
  fun_induction decodeGracefulLoop cap out v with
  | case1 out => exact Or.inl ⟨badEscape_nil, hout, by rw [decodeBytes, List.append_nil]⟩
  | case2 out => exact Or.inr (Or.inl ⟨⟨[], 0, [], rfl, fun h => (by cases h), fun c hc => (by cases hc)⟩, rfl⟩)
  | case3 out b hb hfull =>
    refine Or.inr (Or.inr ⟨?_, rfl⟩)
    rw [hfull, decodeBytes, List.length_singleton]
    exact Nat.lt_succ_self cap
  | case4 out b hb hroom =>
    refine Or.inl ⟨fun h => badEscape_nil ((badEscape_cons hb []).1 h), ?_, rfl⟩
    rw [decodeBytes, List.length_singleton]
    omega
  | case5 out c l hc => exact Or.inr (Or.inl ⟨(badEscape_escaped c l).2 (Or.inl hc), rfl⟩)
  | case6 out c l ch hc hfull =>
    refine Or.inr (Or.inr ⟨?_, rfl⟩)
    rw [hfull, decodeBytes_escaped, hc]
    simp only [List.length_cons]
    omega
  | case7 out c l ch hc hroom ih =>
    have hbad : BadEscape (backslash :: c :: l) ↔ BadEscape l := by
      rw [badEscape_escaped, hc]
      exact ⟨fun h => h.resolve_left fun h => (by cases h), Or.inr⟩
    rw [decodeBytes_escaped, hc, hbad]
    simpa [Nat.add_assoc, Nat.add_comm 1] using ih (by rw [List.length_append, List.length_singleton]; omega)
  | case8 out b c l hb hfull =>
    refine Or.inr (Or.inr ⟨?_, rfl⟩)
    rw [hfull, decodeBytes_cons hb, List.length_cons]
    omega
  | case9 out b c l hb hroom ih =>
    rw [decodeBytes_cons hb, badEscape_cons hb]
    simpa [Nat.add_assoc, Nat.add_comm 1] using ih (by rw [List.length_append, List.length_singleton]; omega)

theorem optyDecodeGracefulInput_spec (v : List UInt8) (cap : Nat) :
    (¬BadEscape v ∧ (decodeBytes v).length ≤ cap ∧ optyDecodeGracefulInput v cap = .ok (decodeBytes v)) ∨
    (BadEscape v ∧ optyDecodeGracefulInput v cap = .error .einval) ∨
    (cap < (decodeBytes v).length ∧ optyDecodeGracefulInput v cap = .error .emsgsize) := by
  have h := decodeGracefulLoop_spec v [] (Nat.zero_le cap)
  rwa [List.length_nil, Nat.zero_add, List.nil_append] at h

theorem mem_escape {c : UInt8} {l : List UInt8} (h : c ∈ l.flatMap escapeByte) : c ≠ newline ∧ c ≠ carriageReturn ∧ c ≠ tab := by
  obtain ⟨b, -, hb⟩ := List.mem_flatMap.1 h
  exact ⟨(mem_escapeByte hb).1, (mem_escapeByte hb).2.1, (mem_escapeByte hb).2.2.1⟩

theorem optyDecodeSessionValue_ok {malloc : Alloc UInt8} {value : List UInt8} (h : malloc (value.length + 1) ≠ none) :
    optyDecodeSessionValue malloc value = .ok (decodeBytes value) := by
  obtain ⟨b, hb⟩ := Option.ne_none_iff_exists'.1 h
  rw [optyDecodeSessionValue, hb]

theorem length_escape_le (l : List UInt8) : (l.flatMap escapeByte).length ≤ 2 * l.length := by
  induction l with
  | nil => exact Nat.le_refl _
  | cons b l ih =>
    have hb : (escapeByte b).length ≤ 2 := by
      unfold escapeByte
      repeat' split
      all_goals exact Nat.le_of_ble_eq_true rfl
    rw [List.flatMap_cons, List.length_append, List.length_cons]
    omega

/-- What is escaped has no bad escape. -/
theorem not_badEscape_escape (l : List UInt8) : ¬BadEscape (l.flatMap escapeByte) := by
  induction l with
  | nil => exact badEscape_nil
  | cons b l ih =>
    rw [List.flatMap_cons]
    unfold escapeByte
    repeat' split
    all_goals
      simp only [List.cons_append, List.nil_append]
    · rwa [badEscape_escaped, or_iff_right (by decide)]
    · rwa [badEscape_escaped, or_iff_right (by decide)]
    · rwa [badEscape_escaped, or_iff_right (by decide)]
    · rwa [badEscape_escaped, or_iff_right (by decide)]
    · rename_i hb
      rwa [badEscape_cons hb]

end RecordAux

/-- Both decoders undo the escaping, the strict one refuses exactly the values with a bad escape and those that do not fit, and takes
the others as the lenient one does; the graceful input of a record always fits. -/
theorem decoders_agree :
    (∀ (x : CString) (malloc : Alloc UInt8), x.bytes.length ≤ (sizeMax - 1) / 2 → malloc (x.bytes.length * 2 + 1) ≠ none →
      ∃ e, optyEscapeSessionValue malloc x = .ok e ∧ newline ∉ e ∧ carriageReturn ∉ e ∧ tab ∉ e ∧ e.length ≤ 2 * x.bytes.length ∧
        (∀ malloc' : Alloc UInt8, malloc' (e.length + 1) ≠ none → optyDecodeSessionValue malloc' e = .ok x.bytes) ∧
        ∀ cap, x.bytes.length ≤ cap → optyDecodeGracefulInput e cap = .ok x.bytes) ∧
    (∀ (v : CString) (cap : Nat),
      ((optyDecodeGracefulInput v.bytes cap = .error .einval ∨ optyDecodeGracefulInput v.bytes cap = .error .emsgsize) ↔
        BadEscape v.bytes ∨ cap < (decodeBytes v.bytes).length) ∧
      (∀ e, optyDecodeGracefulInput v.bytes cap = .error e → e = .einval ∨ e = .emsgsize) ∧
      ∀ out, optyDecodeGracefulInput v.bytes cap = .ok out →
        ∀ malloc : Alloc UInt8, malloc (v.bytes.length + 1) ≠ none → optyDecodeSessionValue malloc v.bytes = .ok out) ∧
    (∀ home fopen malloc files session info, optyReadSessionInfo home fopen malloc files session = .ok info →
      (decodeBytes info.gracefulInput).length ≤ optyMaxGracefulInput ∧
        optyDecodeGracefulInput info.gracefulInput optyMaxGracefulInput ≠ .error .emsgsize) := by
  refine ⟨fun x malloc hlen hm => ?_, fun v cap => ?_, fun home fopen malloc files session info h => ?_⟩
  · refine ⟨x.bytes.flatMap escapeByte, ?_, ?_, ?_, ?_, length_escape_le _, fun malloc' hm' => ?_, fun cap hcap => ?_⟩
    · rw [optyEscapeSessionValue, if_neg (Nat.not_lt.2 hlen)]
      obtain ⟨b, hb⟩ := Option.ne_none_iff_exists'.1 hm
      rw [hb]
    · exact fun hmem => (mem_escape hmem).1 rfl
    · exact fun hmem => (mem_escape hmem).2.1 rfl
    · exact fun hmem => (mem_escape hmem).2.2 rfl
    · rw [optyDecodeSessionValue_ok hm', decodeBytes_escape]
    · rcases optyDecodeGracefulInput_spec (x.bytes.flatMap escapeByte) cap with ⟨-, -, h⟩ | ⟨hbad, -⟩ | ⟨hlong, -⟩
      · rw [h, decodeBytes_escape]
      · exact absurd hbad (not_badEscape_escape _)
      · rw [decodeBytes_escape] at hlong
        omega
  · rcases optyDecodeGracefulInput_spec v.bytes cap with ⟨hgood, hfits, h⟩ | ⟨hbad, h⟩ | ⟨hlong, h⟩
    · rw [h]
      refine ⟨⟨fun h => ?_, fun h => ?_⟩, fun e h => (by cases h), fun out hout malloc hm => ?_⟩
      · rcases h with h | h
        · cases h
        · cases h
      · rcases h with h | h
        · exact absurd h hgood
        · omega
      · cases hout
        exact optyDecodeSessionValue_ok hm
    · rw [h]
      refine ⟨⟨fun _ => Or.inl hbad, fun _ => Or.inl rfl⟩, fun e h => ?_, fun out hout => by cases hout⟩
      cases h
      exact Or.inl rfl
    · rw [h]
      refine ⟨⟨fun _ => Or.inr hlong, fun _ => Or.inr rfl⟩, fun e h => ?_, fun out hout => by cases hout⟩
      cases h
      exact Or.inr rfl
  · have hfits : info.gracefulInput.length < optyMaxGracefulInput + 1 := (infoOk_of_read h).fits .gracefulInput
    have hle := length_decodeBytes_le info.gracefulInput
    have hroom : (decodeBytes info.gracefulInput).length ≤ optyMaxGracefulInput := by omega
    refine ⟨hroom, fun hfull => ?_⟩
    rcases optyDecodeGracefulInput_spec info.gracefulInput optyMaxGracefulInput with ⟨-, -, h⟩ | ⟨-, h⟩ | ⟨hlong, -⟩
    · cases h.symm.trans hfull
    · cases h.symm.trans hfull
    · exact absurd hroom (Nat.not_le.2 hlong)

/-- A tab and a backslash. -/
theorem decoders_agree_tab : ∃ e, optyEscapeSessionValue zeroed ⟨[tab, backslash], by decide⟩ = .ok e ∧
    optyDecodeSessionValue zeroed e = .ok [tab, backslash] ∧ optyDecodeGracefulInput e 2 = .ok [tab, backslash] := by
  obtain ⟨e, he, -, -, -, -, hlenient, hstrict⟩ := decoders_agree.1 ⟨[tab, backslash], by decide⟩ zeroed (by decide)
    (fun h => by cases h)
  exact ⟨e, he, hlenient zeroed (fun h => by cases h), hstrict 2 (Nat.le_refl _)⟩

/-- Two backslashes: the second one ends the value, and it is decoded all the same. -/
theorem escaped_backslash_ends_value :
    (∃ x y, [backslash, backslash] = x ++ backslash :: y ∧ ∀ c, y.head? = some c → c ∉ [110, 114, 116, backslash]) ∧
      optyDecodeGracefulInput [backslash, backslash] 1 = .ok [backslash] ∧
      ¬((optyDecodeGracefulInput [backslash, backslash] 1 = .error .einval ∨
          optyDecodeGracefulInput [backslash, backslash] 1 = .error .emsgsize) ↔
        (∃ x y, [backslash, backslash] = x ++ backslash :: y ∧ ∀ c, y.head? = some c → c ∉ [110, 114, 116, backslash]) ∨
          1 < (decodeBytes [backslash, backslash]).length) := by
  have hloose : ∃ x y, [backslash, backslash] = x ++ backslash :: y ∧ ∀ c, y.head? = some c → c ∉ [110, 114, 116, backslash] :=
    ⟨[backslash], [], rfl, fun c hc => by cases hc⟩
  have hok : optyDecodeGracefulInput [backslash, backslash] 1 = .ok [backslash] := rfl
  refine ⟨hloose, hok, fun h => ?_⟩
  rcases h.2 (Or.inl hloose) with h | h
  · cases hok.symm.trans h
  · cases hok.symm.trans h

end ZeroPty
