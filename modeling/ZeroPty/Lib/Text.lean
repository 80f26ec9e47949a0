import Mathlib.Algebra.Group.Nat.Defs
import Mathlib.Data.List.TakeWhile

/-!
# Text: lines, fields and numbers

What `getline`, `strchr`, `strtoul` and the conversions of `printf` do to text. Lines and cuts are over any type of character;
numbers are decimal and in ASCII.
-/

namespace Text

variable {α : Type}

section

variable [DecidableEq α]

/-- The lines `getline` reads until the end of the file, each with its terminator; the last one may have none. -/
def lines (nl : α) : List α → List (List α)
  | [] => []
  | a :: l =>
    if a = nl then [a] :: lines nl l
    else
      match lines nl l with
      | [] => [[a]]
      | x :: xs => (a :: x) :: xs

/-- `strchr`: what stands before the first separator and what stands after it. -/
def cut (sep : α) : List α → Option (List α × List α)
  | [] => none
  | a :: l => if a = sep then some ([], l) else (cut sep l).map fun p => (a :: p.1, p.2)

/-! ## Lines -/

@[simp] theorem lines_nil (nl : α) : lines nl [] = [] := rfl

/-- A line and the text after it. -/
theorem lines_line {nl : α} {l : List α} (h : nl ∉ l) (rest : List α) :
    lines nl (l ++ nl :: rest) = (l ++ [nl]) :: lines nl rest := by
  induction l with
  | nil => simp only [List.nil_append, lines, if_true]
  | cons a l ih =>
    rw [List.mem_cons, not_or] at h
    rw [List.cons_append, lines, if_neg (Ne.symm h.1), ih h.2, List.cons_append]

/-- Text that ends with a terminator, and the text after it. -/
theorem lines_append (nl : α) (l rest : List α) : lines nl (l ++ nl :: rest) = lines nl (l ++ [nl]) ++ lines nl rest := by
  induction l with
  | nil => simp only [List.nil_append, lines, if_true, List.cons_append]
  | cons a l ih =>
    rw [List.cons_append, List.cons_append, lines, lines]
    split
    · rw [ih, List.cons_append]
    · rw [ih]
      cases hl : lines nl (l ++ [nl]) with
      | nil =>
        -- a text that is not empty has a line
        exfalso
        cases l with
        | nil => simp [lines] at hl
        | cons b l =>
          rw [List.cons_append, lines] at hl
          split at hl
          · cases hl
          · split at hl <;> cases hl
      | cons x xs => rfl

/-- A line has no terminator but its last character. -/
theorem not_mem_dropLast_of_mem_lines {nl : α} {l x : List α} (h : x ∈ lines nl l) : nl ∉ x.dropLast := by
  induction l generalizing x with
  | nil => cases h
  | cons a l ih =>
    rw [lines] at h
    split at h
    · rcases List.mem_cons.1 h with rfl | h
      · exact List.not_mem_nil
      · exact ih h
    · rename_i ha
      cases hl : lines nl l with
      | nil =>
        rw [hl] at h
        rw [List.mem_singleton.1 h]
        exact List.not_mem_nil
      | cons y ys =>
        rw [hl] at h ih
        rcases List.mem_cons.1 h with rfl | h
        · have hy := ih (x := y) List.mem_cons_self
          cases y with
          | nil => exact List.not_mem_nil
          | cons b y =>
            rw [List.dropLast_cons_cons, List.mem_cons, not_or]
            exact ⟨Ne.symm ha, hy⟩
        · exact ih (List.mem_cons_of_mem _ h)

/-! ## Cuts -/

theorem cut_append {sep : α} {key : List α} (h : sep ∉ key) (value : List α) :
    cut sep (key ++ sep :: value) = some (key, value) := by
  induction key with
  | nil => simp only [List.nil_append, cut, if_true]
  | cons a key ih =>
    rw [List.mem_cons, not_or] at h
    rw [List.cons_append, cut, if_neg (Ne.symm h.1), ih h.2, Option.map_some]

theorem eq_of_cut {sep : α} {l key value : List α} (h : cut sep l = some (key, value)) : l = key ++ sep :: value := by
  induction l generalizing key with
  | nil => cases h
  | cons a l ih =>
    rw [cut] at h
    split at h
    · rename_i ha
      cases h
      rw [ha, List.nil_append]
    · cases hl : cut sep l with
      | none =>
        rw [hl] at h
        cases h
      | some p =>
        obtain ⟨key', value'⟩ := p
        rw [hl] at h
        cases h
        rw [ih hl, List.cons_append]

/-- What stands before the first separator has none. -/
theorem not_mem_of_cut {sep : α} {l key value : List α} (h : cut sep l = some (key, value)) : sep ∉ key := by
  induction l generalizing key with
  | nil => cases h
  | cons a l ih =>
    rw [cut] at h
    split at h
    · cases h
      exact List.not_mem_nil
    · rename_i ha
      obtain ⟨p, hp, heq⟩ := Option.map_eq_some_iff.1 h
      obtain ⟨key', value'⟩ := p
      cases heq
      rw [List.mem_cons, not_or]
      exact ⟨Ne.symm ha, ih hp⟩

theorem cut_eq_none_iff {sep : α} {l : List α} : cut sep l = none ↔ sep ∉ l := by
  induction l with
  | nil => exact ⟨fun _ => List.not_mem_nil, fun _ => rfl⟩
  | cons a l ih =>
    rw [cut, List.mem_cons, not_or]
    split
    · rename_i ha
      exact ⟨by rintro ⟨⟩, fun h => absurd ha.symm h.1⟩
    · rename_i ha
      rw [Option.map_eq_none_iff, ih]
      exact ⟨fun h => ⟨Ne.symm ha, h⟩, fun h => h.2⟩

end

/-! ## Numbers -/

/-- The bytes of ASCII text. -/
def ascii (s : String) : List UInt8 := s.toList.map fun c => UInt8.ofNat c.toNat

/-- `%zu` and `%lu`. -/
def decimal (n : Nat) : List UInt8 := (Nat.toDigits 10 n).map fun c => UInt8.ofNat c.toNat

/-- The bytes `'0'` to `'9'`. -/
def isDigit (b : UInt8) : Bool := 48 ≤ b && b ≤ 57

/-- `isspace` of the C locale. -/
def isSpace (b : UInt8) : Bool := b == 32 || (9 ≤ b && b ≤ 13)

/-- The number some digits stand for. -/
def digitsValue (l : List UInt8) : Nat := l.foldl (fun n b => 10 * n + (b.toNat - 48)) 0

/-- `strtoul` with base 10: the number and the text after it; none when nothing was converted or `errno` was set. -/
def strtoul (s : List UInt8) : Option (Nat × List UInt8) :=
  let s := s.dropWhile isSpace
  let neg := s.head? == some 45
  let s := if s.head? == some 45 || s.head? == some 43 then s.tail else s
  let digits := s.takeWhile isDigit
  let n := digitsValue digits
  if digits = [] ∨ 2 ^ 64 ≤ n then none
  else some (if neg then (2 ^ 64 - n) % 2 ^ 64 else n, s.dropWhile isDigit)

theorem isDigit_of_mem_decimal {n : Nat} {b : UInt8} (h : b ∈ decimal n) : isDigit b = true := by
  obtain ⟨c, hc, rfl⟩ := List.mem_map.1 h
  have hd := Nat.isDigit_of_mem_toDigits (by decide) (by decide) hc
  rw [Char.isDigit, Bool.and_eq_true, decide_eq_true_iff, decide_eq_true_iff] at hd
  have h1 : 48 ≤ c.toNat := hd.1
  have h2 : c.toNat ≤ 57 := hd.2
  have hn : (UInt8.ofNat c.toNat).toNat = c.toNat := by
    rw [UInt8.toNat_ofNat']
    omega
  rw [isDigit, Bool.and_eq_true, decide_eq_true_iff, decide_eq_true_iff, UInt8.le_iff_toNat_le, UInt8.le_iff_toNat_le, hn]
  exact ⟨h1, h2⟩

theorem decimal_ne_nil (n : Nat) : decimal n ≠ [] := by
  rw [decimal, Ne, List.map_eq_nil_iff]
  exact Nat.toDigits_ne_nil

theorem digitsValue_decimal (n : Nat) : digitsValue (decimal n) = n := by
  have h : ∀ (l : List Char) (k : Nat), (∀ c ∈ l, c.toNat < 256) →
      (l.map fun c => UInt8.ofNat c.toNat).foldl (fun n b => 10 * n + (b.toNat - 48)) k = Nat.ofDigitChars 10 l k := by
    intro l
    induction l with
    | nil => exact fun k _ => Nat.ofDigitChars_nil.symm
    | cons c l ih =>
      intro k hl
      have hc : (UInt8.ofNat c.toNat).toNat = c.toNat := by
        have := hl c List.mem_cons_self
        rw [UInt8.toNat_ofNat']
        omega
      rw [List.map_cons, List.foldl_cons, ih _ fun d hd => hl d (List.mem_cons_of_mem _ hd), Nat.ofDigitChars_cons, hc]
      rfl
  rw [digitsValue, decimal, h, Nat.ofDigitChars_toDigits (by decide) (by decide)]
  intro c hc
  have hd := Nat.isDigit_of_mem_toDigits (by decide) (by decide) hc
  rw [Char.isDigit, Bool.and_eq_true, decide_eq_true_iff, decide_eq_true_iff] at hd
  have h2 : c.toNat ≤ 57 := hd.2
  omega

/-- A digit is neither white space nor a sign. -/
theorem not_isSpace_of_isDigit {b : UInt8} (h : isDigit b = true) : isSpace b = false ∧ b ≠ 43 ∧ b ≠ 45 := by
  simp only [isDigit, isSpace, Bool.and_eq_true, Bool.or_eq_false_iff, Bool.and_eq_false_iff, decide_eq_true_iff,
    decide_eq_false_iff_not, beq_eq_false_iff_ne, Ne, UInt8.le_iff_toNat_le, ← UInt8.toNat_inj] at h ⊢
  simp only [UInt8.reduceToNat] at h ⊢
  omega

/-- Digits are read as their number, unless it is too large. -/
theorem strtoul_digits {s : List UInt8} (hne : s ≠ []) (hdigit : ∀ b ∈ s, isDigit b = true) :
    strtoul s = if 2 ^ 64 ≤ digitsValue s then none else some (digitsValue s, []) := by
  have hhead : ∀ b, s.head? = some b → isSpace b = false ∧ b ≠ 43 ∧ b ≠ 45 :=
    fun b hb => not_isSpace_of_isDigit (hdigit b (List.mem_of_head? hb))
  have hspace : s.dropWhile isSpace = s := by
    cases s with
    | nil => rfl
    | cons b l =>
      rw [List.dropWhile_cons_of_neg]
      rw [(hhead b List.head?_cons).1]
      exact Bool.false_ne_true
  have hneg : (s.head? == some 45) = false := beq_eq_false_iff_ne.2 fun hb => (hhead 45 hb).2.2 rfl
  have hpos : (s.head? == some 43) = false := beq_eq_false_iff_ne.2 fun hb => (hhead 43 hb).2.1 rfl
  have htake : s.takeWhile isDigit = s := List.takeWhile_eq_self_iff.2 hdigit
  have hdrop : s.dropWhile isDigit = [] := List.dropWhile_eq_nil_iff.2 hdigit
  simp only [strtoul, hspace, hneg, hpos, Bool.or_self, Bool.false_eq_true, if_false, htake, hdrop, hne, false_or]

/-- What is written as a number is read as that number. -/
theorem strtoul_decimal {n : Nat} (h : n < 2 ^ 64) : strtoul (decimal n) = some (n, []) := by
  rw [strtoul_digits (decimal_ne_nil n) (fun b hb => isDigit_of_mem_decimal hb), digitsValue_decimal, if_neg (by omega)]

end Text
