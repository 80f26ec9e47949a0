import Mathlib.Data.Finset.Basic
import Mathlib.Data.Finset.Lattice.Lemmas

/-!
# Programs that open and close

A program over the set of the handles that are open. It is a fault to open a handle that is open, and to close one that is not.
`Leaves held p Q` says that the program, started while the handles `held` are open, has no fault, and that its result and the handles
it leaves are as `Q` says. A `Supply` chooses the handles that are opened, and never chooses one that is open.
-/

namespace Resources

open scoped List

/-- A program over the open handles; none is a fault. -/
abbrev Usage (η : Type) : Type → Type := StateT (Finset η) Option

variable {η : Type} [DecidableEq η] {α β ι κ : Type}

/-- A handle is opened. -/
def acquire (h : η) : Usage η Unit := fun held => if h ∈ held then none else some ((), insert h held)

/-- A handle is closed. -/
def release (h : η) : Usage η Unit := fun held => if h ∈ held then some ((), held.erase h) else none

/-- The handles of a kind, by a number or a name, and the next one that is opened. -/
structure Supply (η ι : Type) where
  handle : ι → η
  pick : Finset η → ι
  fresh : ∀ held, handle (pick held) ∉ held

/-- A new handle is opened. -/
def Supply.take (s : Supply η ι) : Usage η ι := fun held => some (s.pick held, insert (s.handle (s.pick held)) held)

/-- Candidates are tried in order, until one is good. One that can have a handle has it while it is tried, and the good one keeps it. -/
def tryEach (s : Supply η ι) (opens good : κ → Bool) : List κ → Usage η (Option (ι × κ))
  | [] => pure none
  | k :: ks =>
    if opens k then do
      let i ← s.take
      if good k then pure (some (i, k))
      else do
        release (s.handle i)
        tryEach s opens good ks
    else tryEach s opens good ks

/-- The program has no fault, and ends as `Q` says. -/
def Leaves (held : Finset η) (p : Usage η α) (Q : α → Finset η → Prop) : Prop := ∃ a after, p held = some (a, after) ∧ Q a after

/-! ## Rules -/

variable {held : Finset η} {p : Usage η α} {Q R : α → Finset η → Prop}

omit [DecidableEq η] in
theorem Leaves.mono (h : Leaves held p Q) (himp : ∀ a after, Q a after → R a after) : Leaves held p R := by
  obtain ⟨a, after, hp, hq⟩ := h
  exact ⟨a, after, hp, himp a after hq⟩

omit [DecidableEq η] in
@[simp] theorem leaves_pure {a : α} : Leaves held (pure a : Usage η α) Q ↔ Q a held := by
  constructor
  · rintro ⟨b, after, hp, hq⟩
    cases hp
    exact hq
  · exact fun hq => ⟨a, held, rfl, hq⟩

omit [DecidableEq η] in
@[simp] theorem leaves_bind {f : α → Usage η β} {S : β → Finset η → Prop} :
    Leaves held (p >>= f) S ↔ Leaves held p fun a after => Leaves after (f a) S := by
  have hbind : (p >>= f) held = (p held).bind fun r => f r.1 r.2 := rfl
  constructor
  · rintro ⟨b, after, hb, hs⟩
    rw [hbind] at hb
    obtain ⟨⟨a, mid⟩, ha, hf⟩ := Option.bind_eq_some_iff.mp hb
    exact ⟨a, mid, ha, b, after, hf, hs⟩
  · rintro ⟨a, mid, ha, b, after, hf, hs⟩
    exact ⟨b, after, by rw [hbind, ha]; exact hf, hs⟩

@[simp] theorem leaves_acquire {h : η} {S : Unit → Finset η → Prop} :
    Leaves held (acquire h) S ↔ h ∉ held ∧ S () (insert h held) := by
  rw [Leaves, Unique.exists_iff]
  by_cases hh : h ∈ held <;> simp [acquire, hh]

@[simp] theorem leaves_release {h : η} {S : Unit → Finset η → Prop} :
    Leaves held (release h) S ↔ h ∈ held ∧ S () (held.erase h) := by
  rw [Leaves, Unique.exists_iff]
  by_cases hh : h ∈ held <;> simp [release, hh]

/-- A handle that was opened is closed. -/
theorem leaves_release_insert {h : η} (hh : h ∉ held) {S : Unit → Finset η → Prop} (hs : S () held) :
    Leaves (insert h held) (release h) S := by
  rw [leaves_release, Finset.erase_insert hh]
  exact ⟨Finset.mem_insert_self h held, hs⟩

/-- A new handle may be any that is not open. -/
theorem Supply.leaves_take (s : Supply η ι) {S : ι → Finset η → Prop}
    (h : ∀ i, s.handle i ∉ held → S i (insert (s.handle i) held)) : Leaves held s.take S :=
  ⟨s.pick held, _, rfl, h _ (s.fresh held)⟩

/-- What trying candidates comes to: the first good one that could have a handle, with a new handle, and everything else closed. -/
theorem leaves_tryEach (s : Supply η ι) (opens good : κ → Bool) (ks : List κ) :
    Leaves held (tryEach s opens good ks) fun r after =>
      r.map Prod.snd = ks.find? (fun k => opens k && good k) ∧
      (r = none → after = held) ∧
      ∀ i k, r = some (i, k) → s.handle i ∉ held ∧ after = insert (s.handle i) held := by
  induction ks with
  | nil => exact leaves_pure.mpr ⟨rfl, fun _ => rfl, fun _ _ h => by cases h⟩
  | cons k ks ih =>
    rw [tryEach]
    split
    next hopens =>
      rw [leaves_bind]
      refine s.leaves_take fun i hi => ?_
      split
      next hgood =>
        refine leaves_pure.mpr ⟨by simp [hopens, hgood], fun h => ?_, fun j k' h => ?_⟩
        · cases h
        · cases h
          exact ⟨hi, rfl⟩
      next hgood =>
        rw [leaves_bind]
        refine leaves_release_insert hi ?_
        simpa [hopens, hgood] using ih
    next hopens => simpa [hopens] using ih

/-! ## What a program has opened -/

/-- The open handles are those from before, and these. -/
structure Holds (base : Finset η) (hs : List η) (held : Finset η) : Prop where
  nodup : hs.Nodup
  new : ∀ h ∈ hs, h ∉ base
  eq : held = base ∪ hs.toFinset

variable {base : Finset η} {hs : List η}

theorem Holds.nil (base : Finset η) : Holds base [] base := ⟨List.nodup_nil, List.forall_mem_nil _, by simp⟩

theorem Holds.cons (h : Holds base hs held) {x : η} (hx : x ∉ held) : Holds base (x :: hs) (insert x held) := by
  rw [h.eq, Finset.mem_union, List.mem_toFinset, not_or] at hx
  refine ⟨List.nodup_cons.mpr ⟨hx.2, h.nodup⟩, List.forall_mem_cons.mpr ⟨hx.1, h.new⟩, ?_⟩
  rw [h.eq, List.toFinset_cons, Finset.union_insert]

/-- The handle that was opened last is closed. -/
theorem Holds.leaves_release {x : η} (h : Holds base (x :: hs) held) {S : Unit → Finset η → Prop}
    (hs' : ∀ after, Holds base hs after → S () after) : Leaves held (release x) S := by
  obtain ⟨hnodup, hnew, rfl⟩ := h
  have hx : x ∉ base ∪ hs.toFinset := by
    simp [hnew x List.mem_cons_self, (List.nodup_cons.mp hnodup).1]
  rw [List.toFinset_cons, Finset.union_insert]
  exact leaves_release_insert hx (hs' _ ⟨hnodup.of_cons, fun y hy => hnew y (List.mem_cons_of_mem x hy), rfl⟩)

end Resources
