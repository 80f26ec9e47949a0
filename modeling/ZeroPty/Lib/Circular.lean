import ZeroPty.Lib.Memory

/-!
# Circular storage of the end of an append-only log

A block of `cap` cells keeps position `i` of a log in cell `i % cap`. A run of at most `cap` consecutive positions is written
(`put`) and read (`get`) in at most two parts, one up to the end of the block and one from its start. `Holds` says that the
block holds the log from a position on; `Holds.put` is the step that keeps it, `Holds.get` what reading gives back.
-/

namespace Circular

open Memory

variable {α : Type}

/-- Overwrite the cells of the consecutive positions `pos, pos + 1, ...` by `xs`, in two parts. -/
def put (cells : List α) (pos : Nat) (xs : List α) : List α :=
  let dest := pos % cells.length
  let first := min (cells.length - dest) xs.length
  splice (splice cells dest (xs.take first)) 0 (xs.drop first)

/-- Read the cells of the `n` consecutive positions from `pos` on, in two parts. -/
def get (cells : List α) (pos n : Nat) : List α :=
  let start := pos % cells.length
  let first := min (cells.length - start) n
  (cells.drop start).take first ++ cells.take (n - first)

/-- The cells hold the log from position `base` on. -/
def Holds (cells log : List α) (base : Nat) : Prop :=
  ∀ i, base ≤ i → i < log.length → cells[i % cells.length]? = log[i]?

/-! ## Positions and cells -/

/-- The cell of a position less than one turn ahead: one wrap at most. -/
theorem add_mod_one_turn (pos k cap : Nat) (hk : k < cap) :
    (pos + k) % cap = if pos % cap + k < cap then pos % cap + k else pos % cap + k - cap := by
  have hp : pos % cap < cap := Nat.mod_lt _ (by omega)
  rw [← Nat.mod_add_mod]
  split
  · rename_i h
    exact Nat.mod_eq_of_lt h
  · rename_i h
    rw [Nat.mod_eq_sub_mod (by omega)]
    exact Nat.mod_eq_of_lt (by omega)

/-! ## Writing -/

section Put

variable {cells xs : List α} {pos : Nat}

/-- Both parts of a write of at most one turn are inside the block. -/
theorem put_bounds (pos : Nat) (hcap : 0 < cells.length) (hx : xs.length ≤ cells.length) :
    pos % cells.length + min (cells.length - pos % cells.length) xs.length ≤ cells.length ∧
      xs.length - min (cells.length - pos % cells.length) xs.length ≤ cells.length := by
  have hp : pos % cells.length < cells.length := Nat.mod_lt _ hcap
  omega

@[simp] theorem length_put (hcap : 0 < cells.length) (hx : xs.length ≤ cells.length) :
    (put cells pos xs).length = cells.length := by
  obtain ⟨h1, h2⟩ := put_bounds pos hcap hx
  have hs : (splice cells (pos % cells.length)
      (xs.take (min (cells.length - pos % cells.length) xs.length))).length = cells.length :=
    length_splice _ _ _ (by rw [List.length_take]; omega)
  rw [put, length_splice _ _ _ (by rw [hs, List.length_drop]; omega), hs]

/-- A cell after a write: the two parts do not overlap. -/
theorem getElem?_put (hcap : 0 < cells.length) (hx : xs.length ≤ cells.length) (j : Nat) (hj : j < cells.length) :
    (put cells pos xs)[j]? =
      if pos % cells.length ≤ j ∧ j < pos % cells.length + xs.length then xs[j - pos % cells.length]?
      else if j + cells.length < pos % cells.length + xs.length then xs[j + cells.length - pos % cells.length]?
      else cells[j]? := by
  have hp : pos % cells.length < cells.length := Nat.mod_lt _ hcap
  generalize hd : pos % cells.length = dest at hp
  have hs : (splice cells dest (xs.take (min (cells.length - dest) xs.length))).length = cells.length :=
    length_splice _ _ _ (by rw [List.length_take]; omega)
  simp only [put, hd]
  generalize hf : min (cells.length - dest) xs.length = first at hs
  split
  · -- in the first part, up to the end of the block
    rename_i h
    rw [getElem?_splice_out _ _ _ _ (by rw [hs, List.length_drop]; omega) (Or.inr (by rw [List.length_drop]; omega)),
      getElem?_splice_in _ _ _ _ (by rw [List.length_take]; omega) h.1 (by rw [List.length_take]; omega),
      List.getElem?_take_of_lt (by omega)]
  · rename_i h
    split
    · -- in the second part, from the start of the block
      rw [getElem?_splice_in _ _ _ _ (by rw [hs, List.length_drop]; omega) (by omega) (by rw [List.length_drop]; omega),
        List.getElem?_drop]
      congr 1
      omega
    · rw [getElem?_splice_out _ _ _ _ (by rw [hs, List.length_drop]; omega) (Or.inr (by rw [List.length_drop]; omega)),
        getElem?_splice_out _ _ _ _ (by rw [List.length_take]; omega) (by rw [List.length_take]; omega)]

/-- A position that was written reads back what was written there. -/
theorem getElem?_put_in (hcap : 0 < cells.length) (hx : xs.length ≤ cells.length) {i : Nat} (h1 : pos ≤ i)
    (h2 : i < pos + xs.length) : (put cells pos xs)[i % cells.length]? = xs[i - pos]? := by
  obtain ⟨k, rfl⟩ : ∃ k, i = pos + k := ⟨i - pos, by omega⟩
  have hi : (pos + k) % cells.length < cells.length := Nat.mod_lt _ hcap
  have hp : pos % cells.length < cells.length := Nat.mod_lt _ hcap
  have hm := add_mod_one_turn pos k cells.length (by omega)
  rw [getElem?_put hcap hx _ hi, Nat.add_sub_cancel_left]
  generalize (pos + k) % cells.length = j at hm hi ⊢
  generalize pos % cells.length = dest at hm hp ⊢
  split at hm
  · rw [if_pos ⟨by omega, by omega⟩, hm]
    congr 1
    omega
  · rw [if_neg (by omega), if_pos (by omega), hm]
    congr 1
    omega

/-- A position less than one turn before the end of a write, and before its start, keeps its cell. -/
theorem getElem?_put_out (hcap : 0 < cells.length) (hx : xs.length ≤ cells.length) {i : Nat} (h1 : i < pos)
    (h2 : pos + xs.length ≤ i + cells.length) : (put cells pos xs)[i % cells.length]? = cells[i % cells.length]? := by
  have hi : i % cells.length < cells.length := Nat.mod_lt _ hcap
  rcases Nat.lt_or_ge 0 xs.length with h0 | h0
  · have hm := add_mod_one_turn i (pos - i) cells.length (by omega)
    rw [show i + (pos - i) = pos by omega] at hm
    have hp : pos % cells.length < cells.length := Nat.mod_lt _ hcap
    rw [getElem?_put hcap hx _ hi]
    generalize i % cells.length = j at hm hi ⊢
    generalize pos % cells.length = dest at hm hp ⊢
    rw [if_neg (by split at hm <;> omega), if_neg (by split at hm <;> omega)]
  · have hp : pos % cells.length < cells.length := Nat.mod_lt _ hcap
    rw [getElem?_put hcap hx _ hi, if_neg (by omega), if_neg (by omega)]

end Put

/-! ## Reading -/

section Get

variable {cells : List α} {pos n : Nat}

@[simp] theorem length_get (hcap : 0 < cells.length) (hn : n ≤ cells.length) : (get cells pos n).length = n := by
  have hp : pos % cells.length < cells.length := Nat.mod_lt _ hcap
  simp only [get, List.length_append, List.length_take, List.length_drop]
  omega

/-- Reading gives the cells of the positions read. -/
theorem getElem?_get (hcap : 0 < cells.length) (hn : n ≤ cells.length) {k : Nat} (hk : k < n) :
    (get cells pos n)[k]? = cells[(pos + k) % cells.length]? := by
  have hp : pos % cells.length < cells.length := Nat.mod_lt _ hcap
  rw [add_mod_one_turn pos k cells.length (by omega)]
  simp only [get]
  generalize pos % cells.length = start at hp ⊢
  have hlen : ((cells.drop start).take (min (cells.length - start) n)).length = min (cells.length - start) n := by
    rw [List.length_take, List.length_drop]
    omega
  split
  · rw [List.getElem?_append_left (by omega), List.getElem?_take_of_lt (by omega), List.getElem?_drop]
  · rw [List.getElem?_append_right (by omega), hlen, List.getElem?_take_of_lt (by omega)]
    congr 1
    omega

end Get

/-! ## The two parts as copies between blocks -/

/-- Writing the rest of `src` after `off` by two copies: both are inside their blocks, and together they are `put`. -/
theorem memcpy_put {n : Nat} (cells : Block α n) (hn : 0 < n) (src : List α) (pos off keep first : Nat)
    (hoff : off + keep = src.length) (hk : keep ≤ n) (hf : first = min (n - pos % n) keep) :
    ∃ out, ((memcpy cells (pos % n) src off first).bind fun b =>
        if first < keep then memcpy b 0 src (off + first) (keep - first) else some b) = some out ∧
      out.cells = put cells.cells pos (src.drop off) := by
  have hp : pos % n < n := Nat.mod_lt _ hn
  have hlen : (src.drop off).length = keep := by rw [List.length_drop]; omega
  obtain ⟨b, hb, hbv⟩ := memcpy_eq_some cells src (d := pos % n) (s := off) (k := first) (by omega) (by omega)
  simp only [put, cells.length_eq, hlen, ← hf, hb, Option.bind_some]
  rw [← hbv]
  split
  · obtain ⟨c, hc, hcv⟩ := memcpy_eq_some b src (d := 0) (s := off + first) (k := keep - first) (by omega)
      (by omega)
    refine ⟨c, hc, ?_⟩
    rw [hcv, List.drop_drop, List.take_of_length_le (by rw [List.length_drop]; omega)]
  · refine ⟨b, rfl, ?_⟩
    rw [List.drop_of_length_le (by omega)]
    simp [splice]

/-- Reading a whole block of positions by two copies: both are inside their blocks, and together they are `get`. -/
theorem memcpy_get {n m : Nat} (cells : Block α n) (out : Block α m) (hn : 0 < n) (pos first : Nat) (hm : m ≤ n)
    (hf : first = min (n - pos % n) m) :
    ∃ out', ((memcpy out 0 cells.cells (pos % n) first).bind fun b =>
        if first < m then memcpy b first cells.cells 0 (m - first) else some b) = some out' ∧
      out'.cells = get cells.cells pos m := by
  have hp : pos % n < n := Nat.mod_lt _ hn
  have hcl : cells.cells.length = n := cells.length_eq
  have hol : out.cells.length = m := out.length_eq
  obtain ⟨b, hb, hbv⟩ := memcpy_eq_some out cells.cells (d := 0) (s := pos % n) (k := first) (by omega) (by omega)
  have hfl : ((cells.cells.drop (pos % n)).take first).length = first := by
    rw [List.length_take, List.length_drop]
    omega
  simp only [get, hcl, ← hf, hb, Option.bind_some]
  split
  · obtain ⟨c, hc, hcv⟩ := memcpy_eq_some b cells.cells (d := first) (s := 0) (k := m - first) (by omega) (by omega)
    refine ⟨c, hc, ?_⟩
    have hl : (cells.cells.take (m - first)).length = m - first := by rw [List.length_take]; omega
    rw [hcv, hbv, List.drop_zero]
    simp only [splice, List.take_zero, List.nil_append, Nat.zero_add, hfl, hl]
    have hrest : ((cells.cells.drop (pos % n)).take first ++ out.cells.drop first).drop (first + (m - first)) = [] :=
      List.drop_of_length_le (by rw [List.length_append, List.length_drop]; omega)
    rw [hrest, List.append_nil, List.take_append_of_le_length (by omega), List.take_take, Nat.min_self]
  · refine ⟨b, rfl, ?_⟩
    rw [hbv, splice_all _ _ (by omega), Nat.sub_eq_zero_of_le (by omega)]
    simp

/-! ## What the cells hold -/

/-- A block holds nothing of the log after its end. -/
theorem Holds.nil (cells : List α) (base : Nat) : Holds cells [] base := by
  intro i _ hi
  simp at hi

/-- Holding from a position on is holding from any later one on. -/
theorem Holds.mono {cells log : List α} {base base' : Nat} (h : Holds cells log base) (hb : base ≤ base') :
    Holds cells log base' :=
  fun i hi hl => h i (Nat.le_trans hb hi) hl

/-- Appending `xs` to the log and writing its last cells after the log keeps what is held: all the positions from `base'` on, as
soon as they are at most one turn and the ones before the log's old end were held. -/
theorem Holds.put {cells log : List α} {base : Nat} (h : Holds cells log base) (hcap : 0 < cells.length)
    (xs : List α) (off base' : Nat) (hoff : off ≤ xs.length) (hx : xs.length - off ≤ cells.length) (hb : base ≤ base')
    (hstart : log.length + off ≤ base' ∨ off = 0) (hturn : log.length + xs.length ≤ base' + cells.length) :
    Holds (put cells (log.length + off) (xs.drop off)) (log ++ xs) base' := by
  have hxl : (xs.drop off).length ≤ cells.length := by rw [List.length_drop]; exact hx
  intro i hi hl
  rw [List.length_append] at hl
  rw [length_put hcap hxl]
  by_cases hin : log.length + off ≤ i
  · rw [getElem?_put_in hcap hxl hin (by rw [List.length_drop]; omega), List.getElem?_drop,
      List.getElem?_append_right (by omega)]
    congr 1
    omega
  · have h0 : off = 0 := by omega
    subst h0
    rw [getElem?_put_out hcap hxl (by omega) (by rw [List.length_drop]; omega), h i (by omega) (by omega),
      List.getElem?_append_left (by omega)]

/-- Reading from a held position to the end of the log gives the rest of the log. -/
theorem Holds.get {cells log : List α} {base : Nat} (h : Holds cells log base) (hcap : 0 < cells.length)
    {pos : Nat} (hb : base ≤ pos) (hp : pos ≤ log.length) (hn : log.length - pos ≤ cells.length) :
    get cells pos (log.length - pos) = log.drop pos := by
  apply List.ext_getElem?
  intro k
  by_cases hk : k < log.length - pos
  · rw [getElem?_get hcap hn hk, h (pos + k) (by omega) (by omega), List.getElem?_drop]
  · rw [List.getElem?_eq_none (by rw [length_get hcap hn]; omega), List.getElem?_eq_none (by rw [List.length_drop]; omega)]

end Circular
