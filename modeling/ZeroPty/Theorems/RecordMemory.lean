import ZeroPty.Lemmas.RecordMemory

/-!
# Any file can be read as a session record
-/

namespace ZeroPty

open Memory Text

/-- The key `argv` with a numeral for the entry, leading zeros or not. -/
def IsArgvKey (key : List UInt8) (i : Nat) : Prop :=
  ∃ digits, key = ascii "argv" ++ digits ∧ digits ≠ [] ∧ (∀ b ∈ digits, isDigit b = true) ∧ digitsValue digits = i

/-- The line that turns the escapes on. -/
def escapeLine : List UInt8 × List UInt8 := (ascii "argv_encoding", ascii "escape")

/-- The entry `i` as some lines say it: the value of the last line for it, decoded if the escapes were turned on before. -/
def SaysArgv (fields : List (List UInt8 × List UInt8)) (i : Nat) (entry : List UInt8) : Prop :=
  ∃ pre key value post, fields = pre ++ (key, value) :: post ∧ IsArgvKey key i ∧ (∀ kv ∈ post, ¬IsArgvKey kv.1 i) ∧
    entry = if escapeLine ∈ pre then decodeBytes value else value

namespace InMemory

open RecordAux SessionAux

/-! ## The entries of `argv` -/

theorem drop_argv (digits : List UInt8) : (ascii "argv" ++ digits).drop 4 = digits := rfl

/-- A key that is parsed as that of the entry `i` is one, and no other key is. -/
theorem isArgvKey_iff {key : List UInt8} {parsed : Option Nat} (h : ZeroPty.optyParseArgvKey key = .ok parsed) (i : Nat) :
    IsArgvKey key i ↔ parsed = some i := by
  unfold ZeroPty.optyParseArgvKey at h
  by_cases hno : key.take 4 ≠ ascii "argv" ∨ optyIsDecimal (key.drop 4) = false
  · rw [if_pos hno] at h
    cases h
    refine ⟨?_, fun h => by cases h⟩
    rintro ⟨digits, rfl, hne, hdigit, -⟩
    exfalso
    rcases hno with hno | hno
    · exact hno (List.take_left' rfl)
    · rw [drop_argv, optyIsDecimal, Bool.and_eq_false_iff] at hno
      rcases hno with hno | hno
      · rw [Bool.not_eq_false', List.isEmpty_iff] at hno
        exact hne hno
      · rw [List.all_eq_true.2 hdigit] at hno
        cases hno
  · rw [if_neg hno] at h
    rw [not_or, not_not, Bool.not_eq_false] at hno
    obtain ⟨hargv, hdec⟩ := hno
    rw [optyIsDecimal, Bool.and_eq_true, Bool.not_eq_true', List.isEmpty_eq_false_iff, List.all_eq_true] at hdec
    have hkey : key = ascii "argv" ++ key.drop 4 := by rw [← hargv, List.take_append_drop]
    rw [strtoul_digits hdec.1 hdec.2] at h
    by_cases hbig : 2 ^ 64 ≤ digitsValue (key.drop 4)
    · rw [if_pos hbig] at h
      cases h
    · rw [if_neg hbig] at h
      simp only at h
      split at h
      · cases h
      · cases h
        constructor
        · rintro ⟨digits, rfl, -, -, rfl⟩
          rw [drop_argv]
        · intro hi
          exact ⟨_, hkey, hdec.1, hdec.2, Option.some.inj hi⟩

/-- The keys of the other branches are not keys of `argv`. -/
theorem not_isArgvKey {key : List UInt8} (h : key.take 4 ≠ ascii "argv" ∨ optyIsDecimal (key.drop 4) = false) (i : Nat) :
    ¬IsArgvKey key i := by
  have hparsed : ZeroPty.optyParseArgvKey key = .ok none := by rw [ZeroPty.optyParseArgvKey, if_pos h]
  rw [isArgvKey_iff hparsed]
  rintro ⟨⟩

theorem saysArgv_append {fields : List (List UInt8 × List UInt8)} {i : Nat} {entry key value : List UInt8}
    (h : SaysArgv fields i entry) (hkey : ¬IsArgvKey key i) : SaysArgv (fields ++ [(key, value)]) i entry := by
  obtain ⟨pre, k, v, post, rfl, hk, hpost, he⟩ := h
  refine ⟨pre, k, v, post ++ [(key, value)], by simp, hk, fun kv hmem => ?_, he⟩
  rcases List.mem_append.1 hmem with hmem | hmem
  · exact hpost kv hmem
  · rw [List.mem_singleton.1 hmem]
    exact hkey

/-- What the lines so far say is what was read. -/
structure Reads (fields : List (List UInt8 × List UInt8)) (r : RecordReading) : Prop where
  escaped : r.argvEscaped = true ↔ escapeLine ∈ fields
  argv : ∀ i v, r.info.argv i = some v → SaysArgv fields i v

theorem Reads.keep {fields : List (List UInt8 × List UInt8)} {r r' : RecordReading} {key value : List UInt8} (h : Reads fields r)
    (hargv : r'.info.argv = r.info.argv) (hescaped : r'.argvEscaped = (r.argvEscaped || decide ((key, value) = escapeLine)))
    (hkey : ∀ i, ¬IsArgvKey key i) : Reads (fields ++ [(key, value)]) r' := by
  refine ⟨?_, fun i v hv => saysArgv_append (h.argv i v (by rw [← hargv]; exact hv)) (hkey i)⟩
  rw [hescaped, Bool.or_eq_true, decide_eq_true_iff, h.escaped, List.mem_append, List.mem_singleton]
  exact or_congr_right eq_comm

/-- A line that is taken. -/
theorem Reads.field {fields : List (List UInt8 × List UInt8)} {malloc : Alloc UInt8} {r r' : RecordReading} {key value : List UInt8}
    (hr : Reads fields r) (h : readSessionField malloc r key value = .ok r') : Reads (fields ++ [(key, value)]) r' := by
  have hother : key ≠ ascii "argv_encoding" → r.argvEscaped = (r.argvEscaped || decide ((key, value) = escapeLine)) := by
    intro hne
    have hline : (key, value) ≠ escapeLine := fun heq => hne (Prod.mk.inj heq).1
    rw [decide_eq_false hline, Bool.or_false]
  cases hk : copiedField key with
  | some f =>
    rw [readSessionField_copied hk] at h
    obtain ⟨v, -, rfl⟩ := map_ok h
    obtain ⟨rfl, -⟩ := copiedField_eq_some_iff.1 hk
    refine hr.keep (put_argv _ _ _) (hother ?_) fun i => not_isArgvKey ?_ i
    · cases f <;> decide
    · cases f <;> decide
  | none =>
    rw [readSessionField_other hk] at h
    split at h
    · rename_i hkey
      cases h
      exact hr.keep rfl (hother (by rw [hkey]; decide)) fun i => not_isArgvKey (by rw [hkey]; decide) i
    · split at h
      · rename_i hkey
        cases h
        refine hr.keep rfl ?_ fun i => not_isArgvKey (by rw [hkey]; decide) i
        have hline : (value == ascii "escape") = decide ((key, value) = escapeLine) := by
          rw [Bool.eq_iff_iff, beq_iff_eq, decide_eq_true_iff, hkey]
          exact ⟨fun hv => by rw [hv]; rfl, fun heq => (Prod.mk.inj heq).2⟩
        rw [← hline]
      · rename_i hencoding
        split at h
        · rename_i hkey
          split at h
          · split at h
            · cases h
            · cases h
              exact hr.keep rfl (hother hencoding) fun i => not_isArgvKey (by rw [hkey]; decide) i
          · cases h
        · rcases readSessionArgv_ok h with ⟨hparsed, rfl⟩ | ⟨index, hparsed, rfl⟩
          · refine hr.keep rfl (hother hencoding) fun i => ?_
            rw [isArgvKey_iff hparsed]
            rintro ⟨⟩
          · -- the entry is replaced, and this line is the last one for it
            refine ⟨?_, fun i v hv => ?_⟩
            · rw [List.mem_append, List.mem_singleton, ← hr.escaped]
              exact ⟨Or.inl, fun h => h.resolve_right fun heq => hencoding (Prod.mk.inj heq).1.symm⟩
            · by_cases hi : i = index
              · subst hi
                simp only [Function.update_self, Option.some.injEq] at hv
                refine ⟨fields, key, value, [], rfl, (isArgvKey_iff hparsed i).2 rfl, fun kv hmem => (by cases hmem), ?_⟩
                rw [← hv]
                exact if_congr hr.escaped rfl rfl
              · simp only [Function.update_of_ne hi] at hv
                refine saysArgv_append (hr.argv i v hv) fun hkey => hi ?_
                exact (Option.some.inj ((isArgvKey_iff hparsed i).1 hkey)).symm

/-- The loop over the lines. -/
theorem Reads.lines {malloc : Nat → Alloc UInt8} {ls : List (List UInt8)} {n : Nat} {fields : List (List UInt8 × List UInt8)}
    {r r' : RecordReading} (hr : Reads fields r) (h : readSessionLines malloc n r ls = .ok r') :
    Reads (fields ++ ls.filterMap fun line => cut equals (ZeroPty.optyChomp line)) r' := by
  induction ls generalizing n fields r with
  | nil =>
    cases h
    rw [List.filterMap_nil, List.append_nil]
    exact hr
  | cons line ls ih =>
    rw [readSessionLines, readSessionLine] at h
    rw [List.filterMap_cons]
    cases hc : cut equals (ZeroPty.optyChomp line) with
    | none =>
      rw [hc] at h
      exact ih hr h
    | some kv =>
      obtain ⟨key, value⟩ := kv
      rw [hc] at h
      simp only at h ⊢
      split at h
      · cases h
      · rename_i r₁ hr₁
        have := ih (hr.field hr₁) h
        rwa [List.append_assoc, List.singleton_append] at this

/-! ## The walk over `argv` -/

theorem commandCount_spec {argv : List (Option (List UInt8))} {k : Nat} (h : ∀ i < k, ∃ v, argv[i]? = some (some v))
    (hend : argv[k]? = some none) : commandCount argv = some k := by
  induction argv generalizing k with
  | nil => cases hend
  | cons entry argv ih =>
    cases k with
    | zero =>
      rw [List.getElem?_cons_zero] at hend
      cases hend
      rfl
    | succ k =>
      obtain ⟨v, hv⟩ := h 0 (Nat.succ_pos k)
      rw [List.getElem?_cons_zero] at hv
      cases hv
      rw [commandCount, ih (fun i hi => h (i + 1) (Nat.succ_lt_succ hi)) hend, Option.map_some]

end InMemory

open RecordAux SessionAux InMemory

/-- Whatever is in a session file, `opty_read_session_info` reads and writes inside its memory; and when it returns 0 the record has a
port, its strings are terminated, it has as many arguments as it says, which are those of the last lines for them, and
`opty_spawn_server` hands over exactly these. -/
theorem session_reader_safe (home : Option CString) (fopen : Except Errno Unit) (malloc : Nat → Alloc UInt8) (others : Nat → List UInt8)
    (files : Files) (session : CString) (before : InfoCells) :
    ∃ r m, InMemory.optyReadSessionInfo home fopen malloc others files session before = some (r, m) ∧
      (r = .ok () → ∃ path content, optySessionPath home session = .ok path ∧ files path = some content ∧
        (∃ b, (m.field .port).cells[0]? = some b ∧ b ≠ 0) ∧
        (∀ f, ∃ i < f.cap, (m.field f).cells[i]? = some 0) ∧
        m.argc ≤ optySessionMaxArgc ∧ (∀ i < m.argc, ∃ v, m.argv.cells[i]? = some (some v)) ∧ m.argv.cells[m.argc]? = some none ∧
        (∀ serverPath endpointArg, execArgv serverPath endpointArg m.argv.cells =
          some ([some serverPath, some (ascii "-b"), some endpointArg, some (ascii "--")] ++ m.argv.cells.take m.argc ++ [none, none])) ∧
        ∀ i < m.argc, ∃ v, m.argv.cells[i]? = some (some v) ∧ SaysArgv (recordFields content) i v) := by
  obtain ⟨r, m, hrun, hfollows⟩ := optyReadSessionInfo_follows home fopen malloc others files session before
  refine ⟨r, m, hrun, fun hr => ?_⟩
  obtain ⟨info, hinfo, hholds⟩ := hfollows hr
  obtain ⟨path, content, reading, hpath, hfile, hlines, hfinish⟩ := optyReadSessionInfo_eq_ok hinfo
  have hok := infoOk_of_read hinfo
  obtain ⟨hport, hpresent, rfl⟩ := finishSessionInfo_eq_ok hfinish
  have hreads : Reads [] ⟨ZeroPty.optySessionInfoInit session, false⟩ :=
    ⟨⟨fun h => (by cases h), fun h => (by cases h)⟩, fun i v h => by cases h⟩
  have hsays := hreads.lines hlines
  have hargc : m.argc ≤ optySessionMaxArgc := hholds.argc ▸ hok.argc
  have hargv : ∀ i < m.argc, ∃ v, m.argv.cells[i]? = some (some v) ∧ SaysArgv (recordFields content) i v := by
    intro i hi
    have hi' : i < reading.info.argc := by
      rw [hholds.argc] at hi
      exact hi
    obtain ⟨v, hv⟩ := Option.ne_none_iff_exists'.1 (hpresent i hi')
    refine ⟨v, ?_, hsays.argv i v hv⟩
    rw [hholds.argv i (by omega)]
    simp only [Function.update_of_ne (Nat.ne_of_lt hi')]
    rw [hv]
  have hentries : ∀ i < m.argc, ∃ v, m.argv.cells[i]? = some (some v) := fun i hi => by
    obtain ⟨v, hv, -⟩ := hargv i hi
    exact ⟨v, hv⟩
  have hend : m.argv.cells[m.argc]? = some none := by
    rw [hholds.argv m.argc hargc, hholds.argc]
    simp only [Function.update_self]
  refine ⟨path, content, hpath, hfile, ?_, fun f => ?_, hargc, hentries, hend, fun serverPath endpointArg => ?_, hargv⟩
  · obtain ⟨rest, hrest⟩ := hholds.field .port
    obtain ⟨b, l, hbl⟩ := List.exists_cons_of_ne_nil hport
    have hnul := hok.noNul .port
    change (0 : UInt8) ∉ reading.info.port at hnul
    change (m.field .port).cells = reading.info.port ++ 0 :: rest at hrest
    rw [hbl, List.mem_cons, not_or] at hnul
    refine ⟨b, ?_, fun hb => hnul.1 hb.symm⟩
    rw [hrest, hbl]
    rfl
  · obtain ⟨rest, hrest⟩ := hholds.field f
    refine ⟨_, hok.fits f, ?_⟩
    rw [hrest, List.getElem?_append_right (Nat.le_refl _), Nat.sub_self]
    rfl
  · rw [execArgv, commandCount_spec hentries hend, Option.map_some]

end ZeroPty
