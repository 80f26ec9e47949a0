import Mathlib.Data.List.Nodup
import Mathlib.Logic.Function.Basic
import Mathlib.Logic.Relation
import ZeroPty.Lib.Transition

/-!
# Threads that take locks

A thread is the code it still has to run: it takes a lock, gives one up, or acts. An action changes the data that the threads share
and puts code in its own place, which is how a function is entered and how a branch is taken; it is blocked when it waits for
something outside. A discipline says in which order locks are taken and which locks an action is done under. When all code keeps
to a discipline, it keeps to it in every state (`Obeyed.step`), no lock is given up by a thread that does not have it
(`Obeyed.step_ne_fault`), and no threads wait for each other in a cycle (`Obeyed.no_cycle`).
-/

namespace Locks

open Transition

/-- One thing a thread does. -/
inductive Instr (L A : Type) where
  | lock (l : L)
  | unlock (l : L)
  | act (a : A)
  deriving DecidableEq

/-- The code that each thread has left, who has each lock, and the data. -/
structure State (T L A D : Type) where
  code : T → List (Instr L A)
  holder : L → Option T
  data : D

section

variable {T L A D E : Type} [DecidableEq T] [DecidableEq L]

/-- A thread goes on with this code. -/
def State.goto (s : State T L A D) (t : T) (code : List (Instr L A)) : State T L A D :=
  { s with code := Function.update s.code t code }

/-- One step of a thread. To give up a lock that the thread does not have is undefined. -/
def step (act : A → D → E → Option (D × List (Instr L A))) (s : State T L A D) (x : T × E) : Outcome (State T L A D) :=
  match s.code x.1 with
  | [] => .blocked
  | .lock l :: code =>
    if s.holder l = none then .next { s.goto x.1 code with holder := Function.update s.holder l (some x.1) } else .blocked
  | .unlock l :: code =>
    if s.holder l = some x.1 then .next { s.goto x.1 code with holder := Function.update s.holder l none } else .fault
  | .act a :: code =>
    match act a s.data x.2 with
    | none => .blocked
    | some (data, new) => .next { s.goto x.1 (new ++ code) with data := data }

/-- The thread waits for a lock that the other one has. -/
def Waits (s : State T L A D) (t u : T) : Prop := ∃ l code, s.code t = .lock l :: code ∧ s.holder l = some u

variable {act : A → D → E → Option (D × List (Instr L A))} {s s' : State T L A D} {t : T} {e : E}

/-- What a step does. -/
theorem step_cases (h : step act s (t, e) = .next s') :
    (∃ l code, s.code t = .lock l :: code ∧ s.holder l = none ∧
      s' = { s.goto t code with holder := Function.update s.holder l (some t) }) ∨
    (∃ l code, s.code t = .unlock l :: code ∧ s.holder l = some t ∧
      s' = { s.goto t code with holder := Function.update s.holder l none }) ∨
    ∃ a code data new, s.code t = .act a :: code ∧ act a s.data e = some (data, new) ∧
      s' = { s.goto t (new ++ code) with data := data } := by
  unfold step at h
  split at h
  · cases h
  · rename_i l code hcode
    split at h
    · rename_i hfree
      cases h
      exact .inl ⟨l, code, hcode, hfree, rfl⟩
    · cases h
  · rename_i l code hcode
    split at h
    · rename_i hmine
      cases h
      exact .inr (.inl ⟨l, code, hcode, hmine, rfl⟩)
    · cases h
  · rename_i a code hcode
    split at h
    · cases h
    · rename_i data new hact
      cases h
      exact .inr (.inr ⟨a, code, data, new, hcode, hact, rfl⟩)

/-- A lock that nobody has is taken. -/
theorem step_lock {l : L} {code : List (Instr L A)} (hcode : s.code t = .lock l :: code) (hfree : s.holder l = none) :
    ∃ s', step act s (t, e) = .next s' := by
  unfold step
  rw [hcode]
  exact ⟨_, if_pos hfree⟩

/-- A lock that the thread has is given up. -/
theorem step_unlock {l : L} {code : List (Instr L A)} (hcode : s.code t = .unlock l :: code) (hmine : s.holder l = some t) :
    ∃ s', step act s (t, e) = .next s' := by
  unfold step
  rw [hcode]
  exact ⟨_, if_pos hmine⟩

/-- An action that is not blocked is done. -/
theorem step_act {a : A} {code : List (Instr L A)} (hcode : s.code t = .act a :: code) (hact : act a s.data e ≠ none) :
    ∃ s', step act s (t, e) = .next s' := by
  obtain ⟨⟨data, new⟩, hsome⟩ := Option.ne_none_iff_exists'.1 hact
  refine ⟨{ s.goto t (new ++ code) with data := data }, ?_⟩
  unfold step
  rw [hcode]
  simp only [hsome]

end

/-! ## A discipline -/

/-- Locks are taken in the order of their ranks. Taking a lock with others in hand may be for one purpose only, which then is an
action still to come. An action is done under exactly these locks, and the code in its place ends under those. -/
structure Discipline (L A : Type) where
  rank : L → Nat
  needs : List L → L → Option A
  within : A → List L
  leaves : A → List L

variable {T L A D E : Type} [DecidableEq L]

/-- Code that keeps to the discipline, from the locks in hand to those after it. -/
def Discipline.Leads (δ : Discipline L A) : List L → List (Instr L A) → List L → Prop
  | held, [], held' => held = held'
  | held, .lock l :: code, held' =>
    (∀ k ∈ held, δ.rank k < δ.rank l) ∧ (∀ a ∈ δ.needs held l, .act a ∈ code) ∧ δ.Leads (l :: held) code held'
  | held, .unlock l :: code, held' => l ∈ held ∧ δ.Leads (held.erase l) code held'
  | held, .act a :: code, held' => held = δ.within a ∧ δ.Leads (δ.leaves a) code held'

/-- One piece of code after another. -/
theorem Discipline.Leads.append {δ : Discipline L A} {held mid held' : List L} {code rest : List (Instr L A)}
    (h : δ.Leads held code mid) (hrest : δ.Leads mid rest held') : δ.Leads held (code ++ rest) held' := by
  induction code generalizing held with
  | nil =>
    cases h
    exact hrest
  | cons x code ih =>
    cases x with
    | lock l => exact ⟨h.1, fun a ha => List.mem_append_left _ (h.2.1 a ha), ih h.2.2⟩
    | unlock l => exact ⟨h.1, ih h.2⟩
    | act a => exact ⟨h.1, ih h.2⟩

/-- An action under one lock. -/
theorem Discipline.leads_section {δ : Discipline L A} {l : L} {a : A} (hneeds : δ.needs [] l = none) (hwithin : δ.within a = [l])
    (hleaves : δ.leaves a = [l]) : δ.Leads [] [.lock l, .act a, .unlock l] [] := by
  refine ⟨by simp, by simp [hneeds], hwithin.symm, ?_⟩
  rw [hleaves]
  exact ⟨List.mem_singleton.2 rfl, List.erase_cons_head l []⟩

/-- An action under one lock, which it gives up. -/
theorem Discipline.leads_enter {δ : Discipline L A} {l : L} {a : A} (hneeds : δ.needs [] l = none) (hwithin : δ.within a = [l])
    (hleaves : δ.leaves a = []) : δ.Leads [] [.lock l, .act a] [] := by
  exact ⟨by simp, by simp [hneeds], hwithin.symm, hleaves⟩

/-- Every thread keeps to the discipline, and has the locks that its code says it has. -/
structure Obeys (δ : Discipline L A) (held : T → List L) (s : State T L A D) : Prop where
  nodup : ∀ t, (held t).Nodup
  leads : ∀ t, δ.Leads (held t) (s.code t) []
  holder : ∀ l t, s.holder l = some t ↔ l ∈ held t

/-- The discipline is kept to. -/
def Obeyed (δ : Discipline L A) (s : State T L A D) : Prop := ∃ held, Obeys δ held s

/-- The code that actions put in their place keeps to the discipline. -/
def Discipline.Sound (δ : Discipline L A) (act : A → D → E → Option (D × List (Instr L A))) : Prop :=
  ∀ a data e data' new, act a data e = some (data', new) → δ.Leads (δ.within a) new (δ.leaves a)

variable {δ : Discipline L A} {held : T → List L} {s s' : State T L A D} {t u : T} {e : E}
  {act : A → D → E → Option (D × List (Instr L A))}

/-- A lock has one holder. -/
theorem Obeys.unique (h : Obeys δ held s) {l : L} (ht : l ∈ held t) (hu : l ∈ held u) : t = u := by
  have hs := (h.holder l t).2 ht
  rw [(h.holder l u).2 hu] at hs
  exact (Option.some.inj hs).symm

section

variable [DecidableEq T]

/-- The thread takes a lock that nobody has. -/
theorem Obeys.lock (h : Obeys δ held s) {l : L} {code : List (Instr L A)} (hcode : s.code t = .lock l :: code)
    (hfree : s.holder l = none) :
    Obeys δ (Function.update held t (l :: held t)) { s.goto t code with holder := Function.update s.holder l (some t) } := by
  have hout : ∀ u, l ∉ held u := fun u hu => by
    have := (h.holder l u).2 hu
    rw [hfree] at this
    cases this
  have hleads := h.leads t
  rw [hcode] at hleads
  refine ⟨fun u => ?_, fun u => ?_, fun k u => ?_⟩
  · by_cases hu : u = t
    · subst hu
      rw [Function.update_self]
      exact List.nodup_cons.2 ⟨hout u, h.nodup u⟩
    · rw [Function.update_of_ne hu]
      exact h.nodup u
  · by_cases hu : u = t
    · subst hu
      simp only [State.goto, Function.update_self]
      exact hleads.2.2
    · simp only [State.goto, Function.update_of_ne hu]
      exact h.leads u
  · change Function.update s.holder l (some t) k = some u ↔ _
    by_cases hk : k = l
    · subst hk
      rw [Function.update_self, Option.some_inj]
      by_cases hu : u = t
      · subst hu
        simp
      · simp only [Function.update_of_ne hu]
        exact ⟨fun ht => absurd ht.symm hu, fun hm => absurd hm (hout u)⟩
    · rw [Function.update_of_ne hk, h.holder]
      by_cases hu : u = t
      · subst hu
        simp [hk]
      · rw [Function.update_of_ne hu]

/-- The thread gives up a lock that it has. -/
theorem Obeys.unlock (h : Obeys δ held s) {l : L} {code : List (Instr L A)} (hcode : s.code t = .unlock l :: code) :
    Obeys δ (Function.update held t ((held t).erase l)) { s.goto t code with holder := Function.update s.holder l none } := by
  have hleads := h.leads t
  rw [hcode] at hleads
  refine ⟨fun u => ?_, fun u => ?_, fun k u => ?_⟩
  · by_cases hu : u = t
    · subst hu
      rw [Function.update_self]
      exact (h.nodup u).erase l
    · rw [Function.update_of_ne hu]
      exact h.nodup u
  · by_cases hu : u = t
    · subst hu
      simp only [State.goto, Function.update_self]
      exact hleads.2
    · simp only [State.goto, Function.update_of_ne hu]
      exact h.leads u
  · change Function.update s.holder l none k = some u ↔ _
    by_cases hu : u = t
    · subst hu
      rw [Function.update_self, (h.nodup u).mem_erase_iff]
      by_cases hk : k = l
      · subst hk
        simp
      · simp [h.holder, hk]
    · rw [Function.update_of_ne hu]
      by_cases hk : k = l
      · subst hk
        rw [Function.update_self]
        exact ⟨by rintro ⟨⟩, fun hm => absurd (h.unique hm hleads.1) hu⟩
      · rw [Function.update_of_ne hk, h.holder]

/-- The thread acts. -/
theorem Obeys.done (h : Obeys δ held s) (hsound : δ.Sound act) {a : A} {code new : List (Instr L A)} {data : D}
    (hcode : s.code t = .act a :: code) (hact : act a s.data e = some (data, new)) :
    Obeys δ held { s.goto t (new ++ code) with data := data } := by
  have hleads := h.leads t
  rw [hcode] at hleads
  refine ⟨h.nodup, fun u => ?_, h.holder⟩
  by_cases hu : u = t
  · subst hu
    simp only [State.goto, Function.update_self]
    rw [hleads.1]
    exact (hsound a _ e data new hact).append hleads.2
  · simp only [State.goto, Function.update_of_ne hu]
    exact h.leads u

/-- A step keeps to the discipline. -/
theorem Obeyed.step (h : Obeyed δ s) (hsound : δ.Sound act) (hstep : step act s (t, e) = .next s') : Obeyed δ s' := by
  obtain ⟨held, h⟩ := h
  rcases step_cases hstep with ⟨l, code, hcode, hfree, rfl⟩ | ⟨l, code, hcode, -, rfl⟩ | ⟨a, code, data, new, hcode, hact, rfl⟩
  · exact ⟨_, h.lock hcode hfree⟩
  · exact ⟨_, h.unlock hcode⟩
  · exact ⟨_, h.done hsound hcode hact⟩

/-- No thread gives up a lock that it does not have. -/
theorem Obeyed.step_ne_fault (h : Obeyed δ s) : Locks.step act s (t, e) ≠ .fault := by
  obtain ⟨held, h⟩ := h
  have hleads := h.leads t
  unfold Locks.step
  split
  · rintro ⟨⟩
  · split <;> rintro ⟨⟩
  · rename_i l code hcode
    rw [hcode] at hleads
    rw [if_pos ((h.holder l t).2 hleads.1)]
    rintro ⟨⟩
  · split <;> rintro ⟨⟩

end

/-- The rank of the lock that a thread is at. -/
def wantedRank (δ : Discipline L A) (s : State T L A D) (t : T) : Nat :=
  match s.code t with
  | .lock l :: _ => δ.rank l
  | _ => 0

/-- A thread that waits for one that waits is at a lock of lower rank. -/
theorem Obeyed.wantedRank_lt (h : Obeyed δ s) (htu : Waits s t u) {v : T} (huv : Waits s u v) :
    wantedRank δ s t < wantedRank δ s u := by
  obtain ⟨held, h⟩ := h
  obtain ⟨l, code, hcode, hholder⟩ := htu
  obtain ⟨k, code', hcode', -⟩ := huv
  have hleads := h.leads u
  rw [hcode'] at hleads
  have hlt := hleads.1 l ((h.holder l u).1 hholder)
  simpa only [wantedRank, hcode, hcode'] using hlt

/-- Threads do not wait for each other in a cycle. -/
theorem Obeyed.no_cycle (h : Obeyed δ s) : ¬ Relation.TransGen (Waits s) t t := by
  have hlt : ∀ {u v : T}, Relation.TransGen (Waits s) u v → ∀ {w : T}, Waits s v w → wantedRank δ s u < wantedRank δ s v := by
    intro u v huv
    induction huv with
    | single huv => exact fun hvw => h.wantedRank_lt huv hvw
    | tail _ hvw ih => exact fun hwx => Nat.lt_trans (ih hvw) (h.wantedRank_lt hvw hwx)
  intro hcycle
  -- A cycle has a first step, so its end waits as well.
  obtain ⟨u, htu, -⟩ := Relation.TransGen.head'_iff.1 hcycle
  exact absurd (hlt hcycle htu) (Nat.lt_irrefl _)

/-- A thread with a lock in hand has something left to do. -/
theorem Obeys.code_ne_nil (h : Obeys δ held s) {l : L} (hl : l ∈ held t) : s.code t ≠ [] := by
  intro hnil
  have hleads := h.leads t
  rw [hnil] at hleads
  rw [show held t = [] from hleads] at hl
  cases hl

end Locks
