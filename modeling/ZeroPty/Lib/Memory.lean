import Mathlib.Algebra.Group.Nat.Defs
import Mathlib.Data.List.Basic

/-!
# Memory: checked copies, allocation and windows of a list

A block of memory is the list of its cells. A copy that would read or write outside its two blocks is not a copy: it is
`none`, so a program whose every copy is `some` touches no cell outside the blocks it was given. What an allocator returns is a
block of the size asked for, with contents of its own choosing, or nothing.
-/

namespace Memory

variable {α : Type}

/-- A block with the cells from `d` on overwritten by `xs`. -/
def splice (dst : List α) (d : Nat) (xs : List α) : List α := dst.take d ++ xs ++ dst.drop (d + xs.length)

theorem length_splice (dst xs : List α) (d : Nat) (h : d + xs.length ≤ dst.length) :
    (splice dst d xs).length = dst.length := by
  simp only [splice, List.length_append, List.length_take, List.length_drop]
  omega

/-- A block of `n` cells. -/
structure Block (α : Type) (n : Nat) where
  cells : List α
  length_eq : cells.length = n

/-- A block with the same value in every cell. -/
def Block.fill (n : Nat) (x : α) : Block α n := ⟨List.replicate n x, List.length_replicate⟩

/-- An object of the heap: not allocated yet, allocated with a value, or freed. -/
inductive Cell (α : Type) where
  | fresh
  | live (a : α)
  | freed
  deriving DecidableEq, Repr

/-- What `malloc` may do: for each size a block of that size, with any contents, or a refusal. -/
def Alloc (α : Type) : Type := (n : Nat) → Option (Block α n)

/-- `memcpy(dst + d, src + s, k)`: `none` when a cell outside one of the two blocks would be touched. -/
def memcpy {n : Nat} (dst : Block α n) (d : Nat) (src : List α) (s k : Nat) : Option (Block α n) :=
  if h : d + k ≤ n ∧ s + k ≤ src.length then
    some ⟨splice dst.cells d ((src.drop s).take k), by
      rw [length_splice _ _ _ (by rw [dst.length_eq, List.length_take, List.length_drop]; omega), dst.length_eq]⟩
  else none

/-- `b[i] = x`: `none` when there is no such cell. -/
def Block.store {n : Nat} (b : Block α n) (i : Nat) (x : α) : Option (Block α n) :=
  if i < n then some ⟨b.cells.set i x, by rw [List.length_set, b.length_eq]⟩ else none

/-- The window `[a, b)` of a list. -/
def window (l : List α) (a b : Nat) : List α := (l.take b).drop a

/-! ## Splices and copies -/

/-- A cell inside the overwritten part of a splice. -/
theorem getElem?_splice_in (dst xs : List α) (d i : Nat) (h : d + xs.length ≤ dst.length) (h1 : d ≤ i)
    (h2 : i < d + xs.length) : (splice dst d xs)[i]? = xs[i - d]? := by
  have hlen : (dst.take d).length = d := by rw [List.length_take]; omega
  rw [splice, List.append_assoc, List.getElem?_append_right (by omega), hlen, List.getElem?_append_left (by omega)]

/-- A cell outside the overwritten part of a splice. -/
theorem getElem?_splice_out (dst xs : List α) (d i : Nat) (h : d + xs.length ≤ dst.length)
    (hi : i < d ∨ d + xs.length ≤ i) : (splice dst d xs)[i]? = dst[i]? := by
  have hlen : (dst.take d).length = d := by rw [List.length_take]; omega
  rw [splice, List.append_assoc]
  rcases hi with hi | hi
  · rw [List.getElem?_append_left (by omega), List.getElem?_take_of_lt hi]
  · rw [List.getElem?_append_right (by omega), hlen, List.getElem?_append_right (by omega), List.getElem?_drop]
    congr 1
    omega

/-- A copy inside both blocks is a splice. -/
theorem memcpy_eq_some {n : Nat} (dst : Block α n) (src : List α) {d s k : Nat} (hd : d + k ≤ n)
    (hs : s + k ≤ src.length) :
    ∃ out, memcpy dst d src s k = some out ∧ out.cells = splice dst.cells d ((src.drop s).take k) := by
  rw [memcpy, dif_pos ⟨hd, hs⟩]
  exact ⟨_, rfl, rfl⟩

/-- A store inside the block. -/
theorem Block.store_eq_some {n : Nat} (b : Block α n) (x : α) {i : Nat} (h : i < n) :
    ∃ out, b.store i x = some out ∧ out.cells = b.cells.set i x := by
  rw [Block.store, if_pos h]
  exact ⟨_, rfl, rfl⟩

/-- A splice over a whole block leaves nothing of it. -/
theorem splice_all (dst xs : List α) (h : dst.length = xs.length) : splice dst 0 xs = xs := by
  simp [splice, ← h]

/-! ## Windows -/

@[simp] theorem length_window (l : List α) (a b : Nat) : (window l a b).length = min b l.length - a := by
  simp [window]

@[simp] theorem window_self (l : List α) (a : Nat) : window l a a = [] := by
  apply List.eq_nil_of_length_eq_zero
  rw [length_window]
  omega

/-- The window up to the end of the list is what is left after its start. -/
theorem window_length (l : List α) (a : Nat) : window l a l.length = l.drop a := by
  simp [window]

/-- A window that ends inside a list is the same window of any list it is extended to. -/
theorem window_append_left (l m : List α) (a b : Nat) (h : b ≤ l.length) : window (l ++ m) a b = window l a b := by
  rw [window, window, List.take_append_of_le_length h]

/-- Two windows that meet make one. -/
theorem window_append_window (l : List α) (a b c : Nat) (h1 : a ≤ b) (h2 : b ≤ c) :
    window l a b ++ window l b c = window l a c := by
  have e : l.take b = (l.take c).take b := by rw [List.take_take, Nat.min_eq_left h2]
  rw [window, window, window, e]
  generalize l.take c = m
  rw [List.drop_take]
  have : m.drop b = (m.drop a).drop (b - a) := by rw [List.drop_drop]; congr 1; omega
  rw [this, List.take_append_drop]

end Memory
