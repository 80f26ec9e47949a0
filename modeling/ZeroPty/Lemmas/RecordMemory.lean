import ZeroPty.Lemmas.Record
import ZeroPty.RecordMemory

/-!
# Reading in memory does what reading does

Each function of `InMemory` stays inside its memory and leaves there what the function of the same name returns.
-/

namespace ZeroPty

open Memory Text

namespace InMemory

open RecordAux SessionAux

/-! ## Strings -/

theorem string_append {s : List UInt8} (h : (0 : UInt8) ∉ s) (rest : List UInt8) : string (s ++ 0 :: rest) = some s := by
  have hall : ∀ b ∈ s, (b != 0) = true := by
    intro b hb
    rw [bne_iff_ne]
    rintro rfl
    exact h hb
  rw [string, if_pos (by simp), cString, List.takeWhile_append_of_pos hall, List.takeWhile_cons_of_neg (by decide), List.append_nil]

theorem copy_string {cap : Nat} (dst : Block UInt8 cap) {s : List UInt8} (h : s.length < cap) :
    ∃ b rest, memcpy dst 0 (s ++ [0]) 0 (s.length + 1) = some b ∧ b.cells = s ++ 0 :: rest := by
  have hlen : (s ++ [(0 : UInt8)]).length = s.length + 1 := by rw [List.length_append, List.length_singleton]
  obtain ⟨b, hb, hcells⟩ := memcpy_eq_some dst (s ++ [0]) (d := 0) (s := 0) (k := s.length + 1) (by omega) (by omega)
  refine ⟨b, dst.cells.drop (s.length + 1), hb, ?_⟩
  rw [hcells, splice, List.drop_zero, ← hlen, List.take_length, List.take_zero, List.nil_append, Nat.zero_add, List.append_assoc]
  rfl

theorem snprintf_spec {cap : Nat} (dst : Block UInt8 cap) (src : List UInt8) (h : 0 < cap) :
    ∃ b rest, snprintf dst src = some b ∧ b.cells = src.take (cap - 1) ++ 0 :: rest := by
  refine copy_string dst ?_
  have := List.length_take_le (cap - 1) src
  omega

/-- The end of a string is cut off, byte by byte. -/
theorem chompFrom_spec {n : Nat} (s : List UInt8) (line : Block UInt8 n) (rest : List UInt8) (h : line.cells = s ++ 0 :: rest) :
    ∃ b rest', chompFrom line s.length = some b ∧
      b.cells = (s.rdropWhile fun b => b == newline || b == carriageReturn) ++ 0 :: rest' := by
  induction s using List.reverseRecOn generalizing line rest with
  | nil => exact ⟨line, rest, rfl, h⟩
  | append_singleton s c ih =>
    have hc : line.cells[s.length]? = some c := by
      rw [h, List.append_assoc, List.getElem?_append_right (Nat.le_refl _), Nat.sub_self]
      rfl
    have hlen : s.length < n := by
      rw [← line.length_eq]
      exact (List.getElem?_eq_some_iff.1 hc).1
    rw [List.length_append, List.length_singleton, chompFrom, hc, Option.bind_some]
    by_cases hend : c = newline ∨ c = carriageReturn
    · rw [if_pos hend, List.rdropWhile_concat_pos _ _ _ (by rw [Bool.or_eq_true, beq_iff_eq, beq_iff_eq]; exact hend)]
      obtain ⟨b, hb, hcells⟩ := line.store_eq_some 0 hlen
      rw [hb, Option.bind_some]
      refine ih b (0 :: rest) ?_
      rw [hcells, h, List.append_assoc, List.set_append_right _ _ (Nat.le_refl _), Nat.sub_self]
      rfl
    · rw [if_neg hend, List.rdropWhile_concat_neg _ _ _ (by rw [Bool.or_eq_true, beq_iff_eq, beq_iff_eq]; exact hend)]
      exact ⟨line, rest, rfl, h⟩

/-- `strchr` finds where `cut` cuts. -/
theorem idxOf?_eq_cut (c : UInt8) (s : List UInt8) : s.idxOf? c = (cut c s).map fun p => p.1.length := by
  induction s with
  | nil => rfl
  | cons a s ih =>
    rw [List.idxOf?_cons, cut, ih]
    by_cases h : a = c
    · rw [if_pos h, if_pos (beq_iff_eq.2 h)]
      rfl
    · rw [if_neg h, if_neg (by rw [beq_iff_eq]; exact h), Option.map_map, Option.map_map]
      rfl

theorem takeWhile_noNul (line : List UInt8) : (0 : UInt8) ∉ line.takeWhile (· ≠ 0) := by
  intro h
  have := List.mem_takeWhile_imp h
  simp at this

/-- A line and its terminator: a string ends at the first NUL. -/
theorem exists_terminator (line others : List UInt8) : ∃ rest, line ++ 0 :: others = line.takeWhile (· ≠ 0) ++ 0 :: rest := by
  induction line with
  | nil => exact ⟨others, rfl⟩
  | cons b line ih =>
    by_cases hb : b = 0
    · refine ⟨line ++ 0 :: others, ?_⟩
      rw [List.takeWhile_cons_of_neg (by simp [hb]), hb]
      rfl
    · obtain ⟨rest, hrest⟩ := ih
      refine ⟨rest, ?_⟩
      rw [List.takeWhile_cons_of_pos (by simp [hb]), List.cons_append, hrest]
      rfl

/-- A line in the buffer of `getline`. -/
theorem splitLine_spec {n : Nat} (buf : Block UInt8 n) {line others : List UInt8} (h : buf.cells = line ++ 0 :: others) :
    splitLine buf = some (cut equals (ZeroPty.optyChomp line)) := by
  have hnul := takeWhile_noNul line
  obtain ⟨rest, hrest⟩ := exists_terminator line others
  rw [hrest] at h
  obtain ⟨b, rest', hb, hcells⟩ := chompFrom_spec _ buf rest h
  have hchomp : optyChomp buf = some b := by
    rw [optyChomp, strlen, h, string_append hnul]
    exact hb
  change b.cells = ZeroPty.optyChomp line ++ 0 :: rest' at hcells
  have hnul' : (0 : UInt8) ∉ ZeroPty.optyChomp line := fun h0 => hnul ((List.rdropWhile_prefix _ _).subset h0)
  rw [splitLine, hchomp, Option.bind_some, strchr, hcells, string_append hnul', Option.map_some, Option.bind_some, idxOf?_eq_cut]
  cases hc : cut equals (ZeroPty.optyChomp line) with
  | none => rfl
  | some kv =>
    obtain ⟨key, value⟩ := kv
    rw [eq_of_cut hc, List.mem_append, List.mem_cons, not_or, not_or] at hnul'
    rw [eq_of_cut hc, List.append_assoc, List.cons_append] at hcells
    have hlen : key.length < n := by
      have := b.length_eq
      rw [hcells, List.length_append, List.length_cons] at this
      omega
    obtain ⟨b', hb', hcells'⟩ := b.store_eq_some 0 hlen
    rw [hcells, List.set_append_right _ _ (Nat.le_refl _), Nat.sub_self, List.set_cons_zero] at hcells'
    simp only [Option.map_some, hb', Option.bind_some, hcells', string_append hnul'.1]
    rw [show key.length + 1 = (key ++ [(0 : UInt8)]).length from by rw [List.length_append, List.length_singleton],
      show key ++ 0 :: (value ++ 0 :: rest') = (key ++ [0]) ++ (value ++ 0 :: rest') from by simp, List.drop_left,
      string_append hnul'.2.2]
    rfl

/-! ## Values -/

theorem optyParseArgvKey_eq (key : List UInt8) : optyParseArgvKey key = some (ZeroPty.optyParseArgvKey key) := by
  unfold optyParseArgvKey ZeroPty.optyParseArgvKey
  by_cases h : key.take 4 ≠ ascii "argv"
  · rw [if_pos h, if_pos (Or.inl h)]
  · rw [if_neg h]
    -- the key has four bytes, so that there is a fifth one or the terminator
    have hlen : (key.take 4).length = 4 := by rw [not_not.1 h]; rfl
    have hcell : (key ++ [(0 : UInt8)])[4]? = (key.drop 4 ++ [0])[0]? := by
      rw [← List.take_append_drop 4 key, List.append_assoc, List.getElem?_append_right (Nat.le_of_eq hlen), hlen,
        List.drop_left' hlen]
    by_cases hdec : optyIsDecimal (key.drop 4) = false
    · cases hd : key.drop 4 ++ [(0 : UInt8)] with
      | nil => exact absurd hd (List.append_ne_nil_of_right_ne_nil _ (List.cons_ne_nil _ _))
      | cons c rest =>
        rw [hcell, hd, List.getElem?_cons_zero, Option.map_some, if_pos (Or.inr hdec), if_pos (Or.inr hdec)]
    · cases hd : key.drop 4 with
      | nil =>
        rw [hd] at hdec
        exact absurd rfl hdec
      | cons c rest =>
        have hzero : c ≠ 0 := by
          rintro rfl
          rw [hd] at hdec
          exact hdec rfl
        rw [hd] at hdec
        rw [hcell, hd, List.cons_append, List.getElem?_cons_zero, Option.map_some, if_neg (not_or.2 ⟨hzero, hdec⟩)]
        exact congrArg some (if_neg (not_or.2 ⟨h, hdec⟩)).symm

theorem optyParseArgvKey_lt {key : List UInt8} {index : Nat} (h : ZeroPty.optyParseArgvKey key = .ok (some index)) :
    index < optySessionMaxArgc := by
  unfold ZeroPty.optyParseArgvKey at h
  split at h
  · cases h
  · split at h
    · split at h
      · cases h
      · rename_i hlt
        cases h
        exact Nat.not_le.1 hlt
    · cases h

theorem optyStrdup_eq (malloc : Alloc UInt8) {value : List UInt8} (hv : (0 : UInt8) ∉ value) :
    optyStrdup malloc value = some (ZeroPty.optyStrdup malloc value) := by
  unfold optyStrdup ZeroPty.optyStrdup
  cases malloc (value.length + 1) with
  | none => rfl
  | some copy =>
    obtain ⟨b, rest, hb, hcells⟩ := copy_string copy (Nat.lt_succ_self value.length)
    simp only [hb, Option.bind_some, hcells, string_append hv, Option.map_some]

/-- A cell is written at the end of what was written. -/
theorem take_store {n out : Nat} {b b' : Block UInt8 n} {x : UInt8} (hout : out < n) (h : b'.cells = b.cells.set out x) :
    b'.cells.take (out + 1) = b.cells.take out ++ [x] := by
  rw [h, List.take_add_one, List.take_set_of_le (Nat.le_refl _), List.getElem?_set_self (by rw [b.length_eq]; exact hout)]
  rfl

/-- The loop writes what is decoded. -/
theorem decodeFrom_spec {n : Nat} (v pre : List UInt8) (out : Nat) (decoded : Block UInt8 n) (hroom : out + v.length ≤ n) :
    ∃ b, decodeFrom (pre ++ (v ++ [0])) (pre.length + v.length) pre.length out decoded = some (b, out + (decodeBytes v).length) ∧
      b.cells.take (out + (decodeBytes v).length) = decoded.cells.take out ++ decodeBytes v := by
  induction hk : v.length using Nat.strongRecOn generalizing v pre out decoded with
  | ind k ih =>
    subst hk
    cases v with
    | nil =>
      rw [decodeFrom, if_neg (by simp)]
      exact ⟨decoded, rfl, by simp [decodeBytes]⟩
    | cons ch rest =>
      have hch : (pre ++ (ch :: rest ++ [(0 : UInt8)]))[pre.length]? = some ch := by
        rw [List.getElem?_append_right (Nat.le_refl _), Nat.sub_self]
        rfl
      rw [List.length_cons] at hroom
      rw [decodeFrom, if_pos (by rw [List.length_cons]; omega), hch, Option.bind_some]
      by_cases hesc : ch = backslash ∧ rest ≠ []
      · obtain ⟨rfl, hne⟩ := hesc
        obtain ⟨c, l, rfl⟩ := List.exists_cons_of_ne_nil hne
        have hc : (pre ++ (backslash :: c :: l ++ [(0 : UInt8)]))[pre.length + 1]? = some c := by
          rw [List.getElem?_append_right (Nat.le_add_right _ _), Nat.add_sub_cancel_left]
          rfl
        rw [if_pos ⟨rfl, by simp only [List.length_cons]; omega⟩, hc, Option.bind_some, decodeBytes_escaped]
        rw [List.length_cons] at hroom
        have hlen : pre.length + (backslash :: c :: l).length = (pre ++ [backslash, c]).length + l.length := by
          simp only [List.length_append, List.length_cons, List.length_nil]
          omega
        have hsplit : pre ++ (backslash :: c :: l ++ [(0 : UInt8)]) = (pre ++ [backslash, c]) ++ (l ++ [0]) := by simp
        have hnext : pre.length + 2 = (pre ++ [backslash, c]).length := by simp
        rw [hlen, hsplit, hnext]
        cases unescapeByte c with
        | some d =>
          obtain ⟨b₁, hb₁, hcells₁⟩ := decoded.store_eq_some d (i := out) (by omega)
          obtain ⟨b, hb, hcells⟩ := ih l.length (by simp only [List.length_cons]; omega) l (pre ++ [backslash, c])
            (out + 1) b₁ (by omega) rfl
          simp only [hb₁, Option.bind_some, hb, List.length_cons]
          refine ⟨b, by rw [Nat.add_assoc out, Nat.add_comm 1], ?_⟩
          rw [Nat.add_comm _ 1, ← Nat.add_assoc, hcells, take_store (by omega) hcells₁, List.append_assoc]
          rfl
        | none =>
          obtain ⟨b₁, hb₁, hcells₁⟩ := decoded.store_eq_some backslash (i := out) (by omega)
          obtain ⟨b₂, hb₂, hcells₂⟩ := b₁.store_eq_some c (i := out + 1) (by omega)
          obtain ⟨b, hb, hcells⟩ := ih l.length (by simp only [List.length_cons]; omega) l (pre ++ [backslash, c])
            (out + 2) b₂ (by omega) rfl
          simp only [hb₁, hb₂, Option.bind_some, hb, List.length_cons]
          refine ⟨b, by rw [Nat.add_assoc out, Nat.add_comm 2], ?_⟩
          rw [Nat.add_assoc _ 1 1, Nat.add_comm _ (1 + 1), ← Nat.add_assoc, hcells, take_store (by omega) hcells₂,
            take_store (by omega) hcells₁, List.append_assoc, List.append_assoc]
          rfl
      · have hdec : decodeBytes (ch :: rest) = ch :: decodeBytes rest := by
          by_cases hb : ch = backslash
          · obtain rfl : rest = [] := by_contra fun hne => hesc ⟨hb, hne⟩
            rfl
          · exact decodeBytes_cons hb rest
        have hplain : ¬(ch = backslash ∧ pre.length + 1 < pre.length + (ch :: rest).length) := by
          rintro ⟨hb, hlt⟩
          refine hesc ⟨hb, ?_⟩
          rintro rfl
          simp at hlt
        have hlen : pre.length + (ch :: rest).length = (pre ++ [ch]).length + rest.length := by
          simp only [List.length_append, List.length_cons, List.length_nil]
          omega
        have hsplit : pre ++ (ch :: rest ++ [(0 : UInt8)]) = (pre ++ [ch]) ++ (rest ++ [0]) := by simp
        have hnext : pre.length + 1 = (pre ++ [ch]).length := by simp
        rw [if_neg hplain, hdec, hlen, hsplit, hnext]
        obtain ⟨b₁, hb₁, hcells₁⟩ := decoded.store_eq_some ch (i := out) (by omega)
        obtain ⟨b, hb, hcells⟩ := ih rest.length (Nat.lt_succ_self _) rest (pre ++ [ch]) (out + 1) b₁
          (by omega) rfl
        simp only [hb₁, Option.bind_some, hb, List.length_cons]
        refine ⟨b, by rw [Nat.add_assoc out, Nat.add_comm 1], ?_⟩
        rw [Nat.add_comm _ 1, ← Nat.add_assoc, hcells, take_store (by omega) hcells₁, List.append_assoc]
        rfl

theorem optyDecodeSessionValue_eq (malloc : Alloc UInt8) {value : List UInt8} (hv : (0 : UInt8) ∉ value) :
    optyDecodeSessionValue malloc value = some (ZeroPty.optyDecodeSessionValue malloc value) := by
  unfold optyDecodeSessionValue ZeroPty.optyDecodeSessionValue
  cases malloc (value.length + 1) with
  | none => rfl
  | some decoded =>
    obtain ⟨b, hb, hcells⟩ := decodeFrom_spec value [] 0 decoded (by omega)
    have hle := length_decodeBytes_le value
    rw [List.take_zero, List.nil_append, Nat.zero_add] at hcells
    simp only [List.nil_append, List.length_nil, Nat.zero_add] at hb
    obtain ⟨b', hb', hcells'⟩ := b.store_eq_some 0 (i := (decodeBytes value).length) (by omega)
    have hstring : b'.cells = decodeBytes value ++ 0 :: b.cells.drop ((decodeBytes value).length + 1) := by
      rw [hcells', List.set_eq_take_append_cons_drop, if_pos (by rw [b.length_eq]; omega), hcells]
    simp only [hb, Option.bind_some, hb', hstring, string_append (fun h0 => hv (mem_of_mem_decodeBytes h0)), Option.map_some]

/-! ## The record -/

/-- The memory of the record holds what was read. -/
structure Holds (m : InfoCells) (info : SessionInfo) : Prop where
  field : ∀ f, ∃ rest, (m.field f).cells = info.field f ++ 0 :: rest
  argc : m.argc = info.argc
  argv : ∀ i ≤ optySessionMaxArgc, m.argv.cells[i]? = some (info.argv i)

theorem holds_setField {m : InfoCells} {info : SessionInfo} (h : Holds m info) {f : SessionField} {b : Block UInt8 f.cap}
    {value rest : List UInt8} (hb : b.cells = value ++ 0 :: rest) : Holds (m.setField f b) (info.put f value) := by
  refine ⟨fun g => ?_, h.argc.trans (put_argc _ _ _).symm, ?_⟩
  · rw [field_put]
    by_cases hg : g = f
    · subst hg
      refine ⟨rest, ?_⟩
      simp only [if_pos, InfoCells.setField, Function.update_self]
      exact hb
    · simp only [if_neg hg, InfoCells.setField, Function.update_of_ne hg]
      exact h.field g
  · rw [put_argv]
    exact h.argv

theorem holds_print {m : InfoCells} {info : SessionInfo} (h : Holds m info) (f : SessionField) (src : List UInt8) :
    ∃ m', m.print f src = some m' ∧ Holds m' (info.put f (src.take (f.cap - 1))) := by
  have hcap : 0 < f.cap := by cases f <;> exact Nat.le_of_ble_eq_true rfl
  obtain ⟨b, rest, hb, hcells⟩ := snprintf_spec (m.field f) src hcap
  exact ⟨m.setField f b, by rw [InfoCells.print, hb, Option.map_some], holds_setField h hcells⟩

/-- The entry of `argv` that is written is the one that is changed. -/
theorem holds_store {m : InfoCells} {info : SessionInfo} (h : Holds m info) {i : Nat} (hi : i ≤ optySessionMaxArgc)
    (v : Option (List UInt8)) :
    ∃ argv, m.argv.store i v = some argv ∧
      Holds { m with argv := argv } { info with argv := Function.update info.argv i v } := by
  obtain ⟨argv, hargv, hcells⟩ := m.argv.store_eq_some v (Nat.lt_succ_of_le hi)
  refine ⟨argv, hargv, ?_, h.argc, fun j hj => ?_⟩
  · intro f
    rw [field_argv]
    exact h.field f
  · rw [hcells]
    by_cases hij : j = i
    · subst hij
      simp only [List.getElem?_set_self (show j < m.argv.cells.length by rw [m.argv.length_eq]; omega), Function.update_self]
    · simp only [List.getElem?_set_ne (Ne.symm hij), Function.update_of_ne hij]
      exact h.argv j hj

theorem holds_init (session : CString) : ∃ m, optySessionInfoInit session = some m ∧ Holds m (ZeroPty.optySessionInfoInit session) := by
  -- a record with nothing in it, and the four fields that are printed into it
  let blank : SessionInfo := ⟨[], [], [], [], [], [], [], [], [], 0, fun _ => none⟩
  have hblank : Holds ⟨fun _ => .fill _ 0, 0, .fill _ none⟩ blank := by
    refine ⟨fun f => ⟨List.replicate (f.cap - 1) 0, ?_⟩, rfl, fun i hi => ?_⟩
    · cases f <;> rfl
    · simp only [Block.fill]
      rw [List.getElem?_replicate, if_pos (Nat.lt_succ_of_le hi)]
  obtain ⟨m₁, h₁, hh₁⟩ := holds_print hblank .name session.bytes
  obtain ⟨m₂, h₂, hh₂⟩ := holds_print hh₁ .host optyDefaultHost
  obtain ⟨m₃, h₃, hh₃⟩ := holds_print hh₂ .restartPolicy (ascii "manual")
  obtain ⟨m₄, h₄, hh₄⟩ := holds_print hh₃ .gracefulInput defaultGracefulInput
  exact ⟨m₄, by rw [optySessionInfoInit, h₁, Option.bind_some, h₂, Option.bind_some, h₃, Option.bind_some, h₄], hh₄⟩

theorem freeFrom_isSome {n : Nat} (k : Nat) (argv : Block (Option (List UInt8)) n) (i : Nat) (h : i + k ≤ n) :
    ∃ b, freeFrom argv i k = some b := by
  induction k generalizing argv i with
  | zero => exact ⟨argv, rfl⟩
  | succ k ih =>
    have hi : i < argv.cells.length := by
      rw [argv.length_eq]
      omega
    obtain ⟨b, hb, -⟩ := argv.store_eq_some none (i := i) (by omega)
    rw [freeFrom, List.getElem?_eq_getElem hi, Option.bind_some, hb, Option.bind_some]
    exact ih b (i + 1) (by omega)

/-- A record can be freed while it is read. -/
theorem refuse_eq {α : Type} {m : InfoCells} (h : m.argc ≤ optySessionMaxArgc) (e : Errno) :
    ∃ m', refuse (α := α) m e = some (.error (e, m')) := by
  obtain ⟨b, hb⟩ := freeFrom_isSome m.argc m.argv 0 (by omega)
  refine ⟨{ m with argv := b, argc := 0 }, ?_⟩
  rw [refuse, optySessionInfoFree, hb, Option.map_some, Option.map_some]

/-! ## Lines -/

/-- A reading in memory stays inside it and ends as the reading does. -/
def Follows (x : Option (Except (Errno × InfoCells) ReadCells)) (y : Except Errno RecordReading) : Prop :=
  (∀ e, y = .error e → ∃ m, x = some (.error (e, m))) ∧
  ∀ r, y = .ok r → ∃ m, x = some (.ok ⟨m, r.argvEscaped⟩) ∧ Holds m r.info

theorem Follows.refuse {m : InfoCells} (h : m.argc ≤ optySessionMaxArgc) (e : Errno) :
    Follows (InMemory.refuse m e) (.error e) := by
  refine ⟨fun e' he => ?_, fun r hr => by cases hr⟩
  cases he
  exact refuse_eq h e

theorem Follows.ok {m : InfoCells} {r : RecordReading} (h : Holds m r.info) : Follows (some (.ok ⟨m, r.argvEscaped⟩)) (.ok r) := by
  refine ⟨fun e he => (by cases he), fun r' hr' => ?_⟩
  cases hr'
  exact ⟨m, rfl, h⟩

section

variable {m : InfoCells} {r : RecordReading} {key value : List UInt8}

theorem readArgv_follows (malloc : Alloc UInt8) (hm : Holds m r.info) (hok : r.info.argc ≤ optySessionMaxArgc)
    (hv : (0 : UInt8) ∉ value) : Follows (readArgv malloc ⟨m, r.argvEscaped⟩ key value) (readSessionArgv malloc r key value) := by
  have hfree : m.argc ≤ optySessionMaxArgc := hm.argc ▸ hok
  unfold readArgv readSessionArgv
  rw [optyParseArgvKey_eq, Option.bind_some]
  cases hk : ZeroPty.optyParseArgvKey key with
  | error e => exact .refuse hfree e
  | ok parsed =>
    cases parsed with
    | none => exact .ok hm
    | some index =>
      have hindex := optyParseArgvKey_lt hk
      have hdecoded : (if r.argvEscaped then optyDecodeSessionValue malloc value else optyStrdup malloc value) =
          some (if r.argvEscaped then ZeroPty.optyDecodeSessionValue malloc value else ZeroPty.optyStrdup malloc value) := by
        split
        · exact optyDecodeSessionValue_eq malloc hv
        · exact optyStrdup_eq malloc hv
      simp only [hdecoded, Option.bind_some]
      cases (if r.argvEscaped then ZeroPty.optyDecodeSessionValue malloc value else ZeroPty.optyStrdup malloc value) with
      | error e => exact .refuse hfree e
      | ok v =>
        obtain ⟨argv, hargv, hstored⟩ := holds_store hm (Nat.le_of_lt hindex) (some v)
        simp only [hm.argv index (Nat.le_of_lt hindex), Option.bind_some, hargv, Option.map_some]
        exact .ok hstored

/-- A line with a key and a value. -/
theorem readField_follows (malloc : Alloc UInt8) (hm : Holds m r.info) (hok : r.info.argc ≤ optySessionMaxArgc)
    (hv : (0 : UInt8) ∉ value) : Follows (readField malloc ⟨m, r.argvEscaped⟩ key value) (readSessionField malloc r key value) := by
  have hfree : m.argc ≤ optySessionMaxArgc := hm.argc ▸ hok
  unfold readField
  cases hk : copiedField key with
  | some f =>
    rw [readSessionField_copied hk, ZeroPty.optyCopyField]
    simp only [optyCopyField]
    by_cases hlen : f.cap ≤ value.length
    · rw [if_pos hlen, if_pos hlen]
      simp only [Option.bind_some, Except.map]
      split
      · refine ⟨fun e he => ?_, fun r hr => by cases hr⟩
        cases he
        exact ⟨m, rfl⟩
      · exact .refuse hfree .einval
    · obtain ⟨b, rest, hb, hcells⟩ := copy_string (m.field f) (Nat.lt_of_not_le hlen)
      rw [if_neg hlen, if_neg hlen, hb]
      simp only [Option.map_some, Option.bind_some, Except.map]
      exact Follows.ok (r := { r with info := r.info.put f value }) (holds_setField hm hcells)
  | none =>
    rw [readSessionField_other hk]
    simp only
    by_cases hcommand : key = ascii "command"
    · obtain ⟨m', hm', hprint⟩ := holds_print hm .command value
      rw [if_pos hcommand, if_pos hcommand, hm', Option.map_some]
      exact Follows.ok (r := { r with info := r.info.put .command (value.take 1023) }) hprint
    · rw [if_neg hcommand, if_neg hcommand]
      by_cases hencoding : key = ascii "argv_encoding"
      · rw [if_pos hencoding, if_pos hencoding]
        exact Follows.ok (r := { r with argvEscaped := r.argvEscaped || value == ascii "escape" }) hm
      · rw [if_neg hencoding, if_neg hencoding]
        by_cases hargc : key = ascii "argc"
        · rw [if_pos hargc, if_pos hargc]
          cases strtoul value with
          | none => exact .refuse hfree .einval
          | some p =>
            obtain ⟨argc, rest⟩ := p
            cases rest with
            | cons b rest => exact .refuse hfree .einval
            | nil =>
              by_cases hlarge : optySessionMaxArgc < argc
              · simp only [if_pos hlarge]
                exact .refuse hfree .einval
              · simp only [if_neg hlarge]
                refine Follows.ok (r := { r with info := { r.info with argc := argc } }) ⟨fun f => ?_, rfl, hm.argv⟩
                rw [field_argc]
                exact hm.field f
        · rw [if_neg hargc, if_neg hargc]
          exact readArgv_follows malloc hm hok hv

end

/-- The loop over the lines. -/
theorem readLines_follows (malloc : Nat → Alloc UInt8) (others : Nat → List UInt8) (ls : List (List UInt8)) {n : Nat} {m : InfoCells}
    {r : RecordReading} (hm : Holds m r.info) (hok : InfoOk r.info) :
    Follows (readLines malloc others n ⟨m, r.argvEscaped⟩ ls) (readSessionLines malloc n r ls) := by
  induction ls generalizing n m r with
  | nil => exact .ok hm
  | cons line ls ih =>
    rw [readLines, readSessionLines, readSessionLine, splitLine_spec ⟨line ++ 0 :: others n, rfl⟩ rfl, Option.bind_some]
    cases hc : cut equals (ZeroPty.optyChomp line) with
    | none => exact ih hm hok
    | some kv =>
      obtain ⟨key, value⟩ := kv
      have hv := (noNul_of_cut hc).2
      have hfield : Follows (readField (malloc n) ⟨m, r.argvEscaped⟩ key value) (readSessionField (malloc n) r key value) :=
        readField_follows (malloc n) hm hok.argc hv
      simp only
      cases hr : readSessionField (malloc n) r key value with
      | error e =>
        obtain ⟨m', hm'⟩ := hfield.1 e hr
        rw [hm', Option.bind_some]
        refine ⟨fun e' he => ?_, fun r hr => by cases hr⟩
        cases he
        exact ⟨m', rfl⟩
      | ok r' =>
        obtain ⟨m', hm', hholds⟩ := hfield.2 r' hr
        rw [hm', Option.bind_some]
        exact ih hholds (hok.field hv hr)

theorem presentFrom_spec {m : InfoCells} {info : SessionInfo} (h : Holds m info) (k : Nat) {i : Nat}
    (hi : i + k ≤ optySessionMaxArgc) :
    ∃ present, presentFrom m.argv i k = some present ∧ (present = true ↔ ∀ j, i ≤ j → j < i + k → info.argv j ≠ none) := by
  induction k generalizing i with
  | zero => exact ⟨true, rfl, fun _ j h1 h2 => absurd h1 (by omega), fun _ => rfl⟩
  | succ k ih =>
    rw [presentFrom, h.argv i (by omega), Option.bind_some]
    by_cases hnone : info.argv i = none
    · rw [if_pos hnone]
      exact ⟨false, rfl, fun h => (by cases h), fun h => absurd hnone (h i (Nat.le_refl _) (by omega))⟩
    · rw [if_neg hnone]
      obtain ⟨present, hp, hiff⟩ := ih (i := i + 1) (by omega)
      refine ⟨present, hp, hiff.trans ⟨fun h j h1 h2 => ?_, fun h j h1 h2 => h j (by omega) (by omega)⟩⟩
      by_cases hij : j = i
      · rw [hij]
        exact hnone
      · exact h j (by omega) (by omega)

/-- The checks after the last line. -/
theorem finishInfo_follows {m : InfoCells} {info : SessionInfo} (h : Holds m info) (hok : InfoOk info) :
    (∀ e, finishSessionInfo info = .error e → ∃ m', finishInfo m = some (.error (e, m'))) ∧
    ∀ info', finishSessionInfo info = .ok info' → ∃ m', finishInfo m = some (.ok m') ∧ Holds m' info' := by
  have hfree : m.argc ≤ optySessionMaxArgc := h.argc ▸ hok.argc
  obtain ⟨rest, hrest⟩ := h.field .port
  have hport : (m.field .port).cells[0]? = some ((info.port ++ [0]).headD 0) := by
    rw [hrest]
    change (info.port ++ 0 :: rest)[0]? = _
    cases info.port <;> rfl
  have hnul : (info.port ++ [(0 : UInt8)]).headD 0 = 0 ↔ info.port = [] := by
    have h0 : (0 : UInt8) ∉ info.port := hok.noNul .port
    cases hp : info.port with
    | nil => exact ⟨fun _ => rfl, fun _ => rfl⟩
    | cons b l =>
      rw [hp, List.mem_cons, not_or] at h0
      exact ⟨fun hb => absurd (Eq.symm hb) h0.1, fun h => by cases h⟩
  obtain ⟨present, hp, hiff⟩ := presentFrom_spec h m.argc (i := 0) (by omega)
  rw [finishInfo, finishSessionInfo, hport, Option.bind_some]
  by_cases hempty : info.port = []
  · rw [if_pos (hnul.2 hempty), if_pos hempty]
    refine ⟨fun e he => ?_, fun info' h => by cases h⟩
    cases he
    exact refuse_eq hfree .einval
  · rw [if_neg (fun h => hempty (hnul.1 h)), if_neg hempty, hp, Option.bind_some]
    by_cases hmissing : ∃ i < info.argc, info.argv i = none
    · obtain ⟨i, hi, hnone⟩ := hmissing
      have hfalse : ¬present = true := fun ht => hiff.1 ht i (Nat.zero_le _) (by rw [h.argc]; omega) hnone
      rw [if_neg hfalse, if_pos ⟨i, hi, hnone⟩]
      refine ⟨fun e he => ?_, fun info' h => by cases h⟩
      cases he
      exact refuse_eq hfree .einval
    · have htrue : present = true := hiff.2 fun j _ hj hnone => hmissing ⟨j, by rw [h.argc] at hj; omega, hnone⟩
      rw [if_pos htrue, if_neg hmissing]
      obtain ⟨argv, hargv, hstored⟩ := holds_store h hok.argc none
      refine ⟨fun e he => (by cases he), fun info' hinfo => ?_⟩
      cases hinfo
      refine ⟨{ m with argv := argv }, ?_, hstored⟩
      rw [h.argc, hargv, Option.map_some]

/-- `opty_read_session_info` stays inside its memory, whatever is in the file, and leaves there what it reads. -/
theorem optyReadSessionInfo_follows (home : Option CString) (fopen : Except Errno Unit) (malloc : Nat → Alloc UInt8)
    (others : Nat → List UInt8) (files : Files) (session : CString) (before : InfoCells) :
    ∃ r m, optyReadSessionInfo home fopen malloc others files session before = some (r, m) ∧
      (r = .ok () → ∃ info, ZeroPty.optyReadSessionInfo home fopen malloc files session = .ok info ∧ Holds m info) := by
  unfold optyReadSessionInfo ZeroPty.optyReadSessionInfo
  cases optySessionPath home session with
  | error e => exact ⟨_, _, rfl, fun h => by cases h⟩
  | ok path =>
    simp only [bind, Except.bind]
    cases files path with
    | none => exact ⟨_, _, rfl, fun h => by cases h⟩
    | some content =>
      cases fopen with
      | error e => exact ⟨_, _, rfl, fun h => by cases h⟩
      | ok u =>
        obtain ⟨m₀, hm₀, hholds₀⟩ := holds_init session
        have hlines := readLines_follows malloc others (lines newline content) (n := 0)
          (r := ⟨ZeroPty.optySessionInfoInit session, false⟩) hholds₀ (infoOk_init session)
        simp only [hm₀, Option.bind_some]
        cases hr : readSessionLines malloc 0 ⟨ZeroPty.optySessionInfoInit session, false⟩ (lines newline content) with
        | error e =>
          obtain ⟨m, hm⟩ := hlines.1 e hr
          rw [hm]
          exact ⟨_, m, rfl, fun h => by cases h⟩
        | ok r =>
          obtain ⟨m, hm, hholds⟩ := hlines.2 r hr
          have hok : InfoOk r.info := readSessionLines_invariant (P := fun r => InfoOk r.info)
            (fun _ _ _ _ _ hv hr h => hr.field hv h) (infoOk_init session) hr
          have hfinish := finishInfo_follows hholds hok
          rw [hm]
          simp only [Option.bind_some]
          cases hf : finishSessionInfo r.info with
          | error e =>
            obtain ⟨m', hm'⟩ := hfinish.1 e hf
            rw [hm']
            exact ⟨_, m', rfl, fun h => by cases h⟩
          | ok info =>
            obtain ⟨m', hm', hholds'⟩ := hfinish.2 info hf
            rw [hm']
            exact ⟨_, m', rfl, fun _ => ⟨info, rfl, hholds'⟩⟩

end InMemory

end ZeroPty
