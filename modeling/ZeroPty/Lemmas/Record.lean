import ZeroPty.Lemmas.Session
import ZeroPty.Record

/-!
# What a line of a session record does
-/

namespace ZeroPty

open Memory Text

namespace RecordAux

open SessionAux

/-! ## Decoding -/

/-- The first byte of a value that is not escaped. -/
theorem decodeBytes_cons {b : UInt8} (hb : b ≠ backslash) (l : List UInt8) : decodeBytes (b :: l) = b :: decodeBytes l := by
  cases l with
  | nil => rfl
  | cons c l => rw [decodeBytes, if_neg hb]

/-- An escape is decoded as its byte, and what is none is taken as it is. -/
theorem decodeBytes_escaped (c : UInt8) (l : List UInt8) :
    decodeBytes (backslash :: c :: l) =
      match unescapeByte c with
      | some d => d :: decodeBytes l
      | none => backslash :: c :: decodeBytes l := by
  rw [decodeBytes, if_pos rfl, unescapeByte]
  by_cases h1 : c = 110
  · rw [if_pos h1, if_pos h1]
  · by_cases h2 : c = 114
    · rw [if_neg h1, if_pos h2, if_neg h1, if_pos h2]
    · by_cases h3 : c = 116
      · rw [if_neg h1, if_neg h2, if_pos h3, if_neg h1, if_neg h2, if_pos h3]
      · by_cases h4 : c = backslash
        · rw [if_neg h1, if_neg h2, if_neg h3, if_pos h4, if_neg h1, if_neg h2, if_neg h3, if_pos h4]
        · rw [if_neg h1, if_neg h2, if_neg h3, if_neg h4, if_neg h1, if_neg h2, if_neg h3, if_neg h4]

theorem mem_of_mem_decodeBytes {v : List UInt8} (h : (0 : UInt8) ∈ decodeBytes v) : (0 : UInt8) ∈ v := by
  have hesc : (0 : UInt8) ≠ newline ∧ (0 : UInt8) ≠ carriageReturn ∧ (0 : UInt8) ≠ tab ∧ (0 : UInt8) ≠ backslash := by decide
  fun_induction decodeBytes v <;> simp_all [List.mem_cons]
  · rename_i ih
    exact h.imp_right ih
  · rename_i ih
    exact h.imp_right ih

theorem length_decodeBytes_le (v : List UInt8) : (decodeBytes v).length ≤ v.length := by
  fun_induction decodeBytes v <;> simp only [List.length_cons, List.length_nil] at * <;> omega

/-! ## Fields -/

theorem field_put (info : SessionInfo) (f g : SessionField) (value : List UInt8) :
    (info.put f value).field g = if g = f then value else info.field g := by
  cases f <;> cases g <;> rfl

@[simp] theorem put_argc (info : SessionInfo) (f : SessionField) (value : List UInt8) : (info.put f value).argc = info.argc := by
  cases f <;> rfl

@[simp] theorem put_argv (info : SessionInfo) (f : SessionField) (value : List UInt8) : (info.put f value).argv = info.argv := by
  cases f <;> rfl

theorem field_argv (info : SessionInfo) (argv : Nat → Option (List UInt8)) (f : SessionField) :
    ({ info with argv := argv } : SessionInfo).field f = info.field f := by
  cases f <;> rfl

theorem field_argc (info : SessionInfo) (argc : Nat) (f : SessionField) :
    ({ info with argc := argc } : SessionInfo).field f = info.field f := by
  cases f <;> rfl

/-- The keys of the fields are not mixed up. -/
theorem copiedField_eq_some_iff {key : List UInt8} {f : SessionField} :
    copiedField key = some f ↔ key = f.key ∧ f ≠ .command := by
  constructor
  · intro h
    unfold copiedField at h
    repeat' split at h
    all_goals cases h
    all_goals exact ⟨by assumption, by decide⟩
  · rintro ⟨rfl, hf⟩
    cases f with
    | command => exact absurd rfl hf
    | _ => rfl

/-- A line for a field that is copied. -/
theorem readSessionField_copied {key : List UInt8} {f : SessionField} (h : copiedField key = some f) (malloc : Alloc UInt8)
    (r : RecordReading) (value : List UInt8) :
    readSessionField malloc r key value = (optyCopyField f.cap value).map fun v => { r with info := r.info.put f v } := by
  obtain ⟨rfl, hf⟩ := copiedField_eq_some_iff.1 h
  cases f with
  | command => exact absurd rfl hf
  | _ => rfl

/-- The other branches of `opty_read_session_info`. -/
theorem readSessionField_other {key : List UInt8} (h : copiedField key = none) (malloc : Alloc UInt8) (r : RecordReading)
    (value : List UInt8) :
    readSessionField malloc r key value =
      if key = ascii "command" then .ok { r with info := r.info.put .command (value.take 1023) }
      else if key = ascii "argv_encoding" then .ok { r with argvEscaped := r.argvEscaped || value == ascii "escape" }
      else if key = ascii "argc" then
        match strtoul value with
        | some (argc, []) => if optySessionMaxArgc < argc then .error .einval else .ok { r with info := { r.info with argc := argc } }
        | _ => .error .einval
      else readSessionArgv malloc r key value := by
  have hne : ∀ f : SessionField, f ≠ .command → key ≠ f.key := by
    intro f hf hk
    rw [copiedField_eq_some_iff.2 ⟨hk, hf⟩] at h
    cases h
  refine (if_neg (hne .name (by decide))).trans ?_
  refine (if_neg (hne .host (by decide))).trans ?_
  refine (if_neg (hne .port (by decide))).trans ?_
  refine (if_neg (hne .log (by decide))).trans ?_
  refine (if_neg (hne .cwd (by decide))).trans ?_
  refine (if_neg (hne .restartPolicy (by decide))).trans ?_
  refine (if_neg (hne .controlToken (by decide))).trans ?_
  exact if_neg (hne .gracefulInput (by decide))

section

variable {malloc : Alloc UInt8} {r r' : RecordReading} {key value : List UInt8}

theorem optyCopyField_ok_iff {cap : Nat} {v : List UInt8} : optyCopyField cap value = .ok v ↔ value.length < cap ∧ v = value := by
  rw [optyCopyField]
  split
  · rename_i h
    exact ⟨fun h => (by cases h), fun hv => absurd hv.1 (Nat.not_lt.2 h)⟩
  · rename_i h
    exact ⟨fun hv => ⟨Nat.lt_of_not_le h, (Except.ok.inj hv).symm⟩, fun hv => by rw [hv.2]⟩

/-- An entry of `argv` is stored, decoded if the entries are escaped, or the line is passed over. -/
theorem readSessionArgv_ok (h : readSessionArgv malloc r key value = .ok r') :
    (optyParseArgvKey key = .ok none ∧ r' = r) ∨
    ∃ index, optyParseArgvKey key = .ok (some index) ∧ r' = { r with info := { r.info with
      argv := Function.update r.info.argv index (some (if r.argvEscaped then decodeBytes value else value)) } } := by
  unfold readSessionArgv at h
  split at h
  · cases h
  · rename_i hk
    exact Or.inl ⟨hk, (Except.ok.inj h).symm⟩
  · rename_i index hk
    obtain ⟨v, hv, rfl⟩ := map_ok h
    refine Or.inr ⟨index, hk, ?_⟩
    have hval : v = if r.argvEscaped then decodeBytes value else value := by
      cases he : r.argvEscaped with
      | true =>
        rw [he, if_pos rfl, optyDecodeSessionValue] at hv
        split at hv
        · cases hv
        · exact (Except.ok.inj hv).symm
      | false =>
        rw [he, if_neg (by decide), optyStrdup] at hv
        split at hv
        · cases hv
        · exact (Except.ok.inj hv).symm
    rw [hval]

/-- What a line that is taken does to a field. -/
theorem readSessionField_field (h : readSessionField malloc r key value = .ok r') (f : SessionField) :
    (key = f.key → f ≠ .command → value.length < f.cap ∧ r'.info.field f = value) ∧
    (key ≠ f.key → r'.info.field f = r.info.field f) ∧
    (key = f.key → f = .command → r'.info.field f = value.take 1023) := by
  cases hk : copiedField key with
  | some g =>
    rw [readSessionField_copied hk] at h
    obtain ⟨v, hv, rfl⟩ := map_ok h
    obtain ⟨hlen, rfl⟩ := optyCopyField_ok_iff.1 hv
    obtain ⟨hg, hne⟩ := copiedField_eq_some_iff.1 hk
    refine ⟨fun hf hf' => ?_, fun hf => ?_, fun hf hf' => ?_⟩
    · have hsame := copiedField_eq_some_iff.2 ⟨hf, hf'⟩
      rw [hk] at hsame
      cases hsame
      exact ⟨hlen, (field_put r.info f f v).trans (if_pos rfl)⟩
    · exact (field_put r.info g f v).trans (if_neg fun hfg => hf (by rw [hfg]; exact hg))
    · subst hf'
      rw [hf] at hk
      cases hk
  | none =>
    rw [readSessionField_other hk] at h
    have hother : key = f.key → f = .command := by
      intro hf
      by_contra hne
      rw [copiedField_eq_some_iff.2 ⟨hf, hne⟩] at hk
      cases hk
    split at h
    · rename_i hc
      cases h
      refine ⟨fun hf hf' => absurd (hother hf) hf', fun hf => ?_, fun _ hf' => ?_⟩
      · refine (field_put r.info .command f _).trans (if_neg ?_)
        rintro rfl
        exact hf hc
      · exact (field_put r.info .command f _).trans (if_pos hf')
    · rename_i hc
      have hsame : r'.info.field f = r.info.field f := by
        split at h
        · cases h
          rfl
        · split at h
          · split at h
            · split at h
              · cases h
              · cases h
                cases f <;> rfl
            · cases h
          · rcases readSessionArgv_ok h with ⟨-, rfl⟩ | ⟨index, -, rfl⟩
            · rfl
            · exact field_argv _ _ f
      refine ⟨fun hf hf' => absurd (hother hf) hf', fun _ => hsame, fun hf hf' => ?_⟩
      subst hf'
      exact absurd hf hc

end

/-! ## The loop over the lines -/

/-- The key and the value of a line have no NUL. -/
theorem noNul_of_cut {line key value : List UInt8} (h : cut equals (optyChomp line) = some (key, value)) :
    (0 : UInt8) ∉ key ∧ (0 : UInt8) ∉ value := by
  have hline : (0 : UInt8) ∉ optyChomp line := by
    intro h0
    rw [optyChomp] at h0
    have hmem := (List.rdropWhile_prefix _ _).subset h0
    have := List.mem_takeWhile_imp hmem
    simp at this
  rw [eq_of_cut h, List.mem_append, List.mem_cons, not_or, not_or] at hline
  exact ⟨hline.1, hline.2.2⟩

/-- What every line that is taken keeps, the loop keeps. -/
theorem readSessionLines_invariant {P : RecordReading → Prop}
    (hstep : ∀ malloc r key value r', (0 : UInt8) ∉ value → P r → readSessionField malloc r key value = .ok r' → P r')
    {malloc : Nat → Alloc UInt8} {n : Nat} {ls : List (List UInt8)} {r r' : RecordReading} (hr : P r)
    (h : readSessionLines malloc n r ls = .ok r') : P r' := by
  induction ls generalizing n r with
  | nil =>
    cases h
    exact hr
  | cons line ls ih =>
    rw [readSessionLines, readSessionLine] at h
    cases hc : cut equals (optyChomp line) with
    | none =>
      rw [hc] at h
      exact ih hr h
    | some kv =>
      obtain ⟨key, value⟩ := kv
      rw [hc] at h
      simp only at h
      split at h
      · cases h
      · rename_i r₁ hr₁
        exact ih (hstep _ _ _ _ _ (noNul_of_cut hc).2 hr hr₁) h

/-- What holds of a record while it is read. -/
structure InfoOk (info : SessionInfo) : Prop where
  fits : ∀ f, (info.field f).length < f.cap
  noNul : ∀ f, (0 : UInt8) ∉ info.field f
  argc : info.argc ≤ optySessionMaxArgc

theorem infoOk_init (session : CString) : InfoOk (optySessionInfoInit session) where
  fits := fun f => by
    cases f with
    | name => exact Nat.lt_succ_of_le (List.length_take_le _ _)
    | _ => exact Nat.le_of_ble_eq_true rfl
  noNul := fun f => by
    cases f with
    | name => exact fun h => session.noNul (List.mem_of_mem_take h)
    | _ => exact of_decide_eq_true rfl
  argc := Nat.zero_le _

theorem readSessionField_argc_le {malloc : Alloc UInt8} {r r' : RecordReading} {key value : List UInt8}
    (h : readSessionField malloc r key value = .ok r') (hr : r.info.argc ≤ optySessionMaxArgc) :
    r'.info.argc ≤ optySessionMaxArgc := by
  cases hk : copiedField key with
  | some f =>
    rw [readSessionField_copied hk] at h
    obtain ⟨v, -, rfl⟩ := map_ok h
    rw [put_argc]
    exact hr
  | none =>
    rw [readSessionField_other hk] at h
    split at h
    · cases h
      exact hr
    · split at h
      · cases h
        exact hr
      · split at h
        · split at h
          · split at h
            · cases h
            · rename_i hle
              cases h
              exact Nat.not_lt.1 hle
          · cases h
        · rcases readSessionArgv_ok h with ⟨-, rfl⟩ | ⟨index, -, rfl⟩
          · exact hr
          · exact hr

/-- A line keeps it. -/
theorem InfoOk.field {malloc : Alloc UInt8} {r r' : RecordReading} {key value : List UInt8} (hv : (0 : UInt8) ∉ value)
    (hr : InfoOk r.info) (h : readSessionField malloc r key value = .ok r') : InfoOk r'.info := by
  refine ⟨fun f => ?_, fun f => ?_, readSessionField_argc_le h hr.argc⟩
  · obtain ⟨hcopied, hkeep, hcommand⟩ := readSessionField_field h f
    by_cases hk : key = f.key
    · by_cases hf : f = .command
      · rw [hcommand hk hf, hf]
        exact Nat.lt_succ_of_le (List.length_take_le _ _)
      · rw [(hcopied hk hf).2]
        exact (hcopied hk hf).1
    · rw [hkeep hk]
      exact hr.fits f
  · obtain ⟨hcopied, hkeep, hcommand⟩ := readSessionField_field h f
    by_cases hk : key = f.key
    · by_cases hf : f = .command
      · rw [hcommand hk hf]
        exact fun h0 => hv (List.mem_of_mem_take h0)
      · rw [(hcopied hk hf).2]
        exact hv
    · rw [hkeep hk]
      exact hr.noNul f

/-- It holds of every record that is read. -/
theorem infoOk_of_read {home : Option CString} {fopen : Except Errno Unit} {malloc : Nat → Alloc UInt8} {files : Files}
    {session : CString} {info : SessionInfo} (h : optyReadSessionInfo home fopen malloc files session = .ok info) : InfoOk info := by
  obtain ⟨path, content, r, -, -, hr, hinfo⟩ := optyReadSessionInfo_eq_ok h
  have hok : InfoOk r.info := readSessionLines_invariant (P := fun r => InfoOk r.info)
    (fun _ _ _ _ _ hv hr h => hr.field hv h) (infoOk_init session) hr
  obtain ⟨-, -, rfl⟩ := finishSessionInfo_eq_ok hinfo
  refine ⟨fun f => ?_, fun f => ?_, hok.argc⟩
  · rw [field_argv]
    exact hok.fits f
  · rw [field_argv]
    exact hok.noNul f

/-! ## The working directory -/

/-- A line keeps the working directory one line. -/
theorem readSessionLine_oneLine {malloc : Alloc UInt8} {content line : List UInt8} (hl : line ∈ lines newline content)
    {r r' : RecordReading} (h : readSessionLine malloc r line = .ok r') (hr : OneLine r.info.cwd) : OneLine r'.info.cwd := by
  unfold readSessionLine at h
  split at h
  · rw [← Except.ok.inj h]
    exact hr
  · rename_i key value hcut
    obtain ⟨hcopied, hkeep, -⟩ := readSessionField_field h .cwd
    by_cases hk : key = SessionField.cwd.key
    · have hcwd : r'.info.cwd = value := (hcopied hk (by rintro ⟨⟩)).2
      have hline := oneLine_optyChomp hl
      rw [eq_of_cut hcut] at hline
      rw [hcwd]
      exact oneLine_of_suffix hline
    · have hcwd : r'.info.cwd = r.info.cwd := hkeep hk
      rw [hcwd]
      exact hr

theorem readSessionLines_oneLine {malloc : Nat → Alloc UInt8} {content : List UInt8} {ls : List (List UInt8)}
    (hls : ∀ line ∈ ls, line ∈ lines newline content) {n : Nat} {r r' : RecordReading}
    (h : readSessionLines malloc n r ls = .ok r') (hr : OneLine r.info.cwd) : OneLine r'.info.cwd := by
  induction ls generalizing n r with
  | nil =>
    rw [← Except.ok.inj h]
    exact hr
  | cons line ls ih =>
    rw [readSessionLines] at h
    split at h
    · cases h
    · rename_i r₁ hline
      exact ih (fun l hl => hls l (List.mem_cons_of_mem _ hl)) h (readSessionLine_oneLine (hls line List.mem_cons_self) hline hr)

end RecordAux

end ZeroPty
