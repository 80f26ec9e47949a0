import Mathlib.Logic.Basic

/-!
# Systems that take steps

A system is a function from a state and an action to what the action comes to: it cannot be taken now, it runs into undefined
behaviour, or it leads to a state. An execution takes a list of actions in order, so a list of actions is an interleaving of the
threads whose actions they are. What every step keeps, every execution keeps (`invariant`), also when the steps that count are
only those that meet a condition (`invariant_of_meets`).
-/

namespace Transition

/-- What an action comes to. -/
inductive Outcome (σ : Type) where
  | blocked
  | fault
  | next (s : σ)

/-- An action that leads to a state, or to undefined behaviour when there is none. -/
def Outcome.ofOption {σ : Type} : Option σ → Outcome σ
  | none => .fault
  | some s => .next s

@[simp] theorem Outcome.ofOption_some {σ : Type} (s : σ) : Outcome.ofOption (some s) = .next s := rfl

@[simp] theorem Outcome.ofOption_none {σ : Type} : Outcome.ofOption (none : Option σ) = .fault := rfl

theorem ofOption_eq_next {σ : Type} {o : Option σ} {t : σ} (h : Outcome.ofOption o = .next t) : o = some t := by
  cases o with
  | none => nomatch h
  | some s => cases h; rfl

/-- The result of a computation that may run into undefined behaviour. -/
theorem ofOption_map_eq_next {σ α : Type} {o : Option α} {f : α → σ} {t : σ} (h : Outcome.ofOption (o.map f) = .next t) :
    ∃ a, o = some a ∧ f a = t := by
  have := ofOption_eq_next h
  rwa [Option.map_eq_some_iff] at this

/-- What is known of the result of a computation that goes well holds of the result it is known to have. -/
theorem exists_of_eq_some {α β : Type} {o : Option α} {f : β → α} {P : β → Prop} (h : ∃ b, o = some (f b) ∧ P b) {a : α}
    (ha : o = some a) : ∃ b, a = f b ∧ P b := by
  obtain ⟨b, hb, hp⟩ := h
  rw [hb] at ha
  exact ⟨b, (Option.some.inj ha).symm, hp⟩

/-- There is a next state, and it passes a test. -/
def Outcome.passes {σ : Type} (test : σ → Bool) : Outcome σ → Bool
  | .next s => test s
  | _ => false

theorem Outcome.passes_iff {σ : Type} {test : σ → Bool} {o : Outcome σ} :
    o.passes test = true ↔ ∃ s, o = .next s ∧ test s = true := by
  cases o with
  | blocked => exact ⟨nofun, nofun⟩
  | fault => exact ⟨nofun, nofun⟩
  | next s => exact ⟨fun h => ⟨s, rfl, h⟩, fun ⟨_, he, h⟩ => by cases he; exact h⟩

variable {σ α : Type} (step : σ → α → Outcome σ)

/-- The execution of a list of actions. -/
def exec : σ → List α → Outcome σ
  | s, [] => .next s
  | s, a :: as =>
    match step s a with
    | .blocked => .blocked
    | .fault => .fault
    | .next s' => exec s' as

/-- Every action of the execution meets the condition in the state it is taken in. -/
def Meets (ok : σ → α → Prop) : σ → List α → Prop
  | _, [] => True
  | s, a :: as => ok s a ∧ ∀ s', step s a = .next s' → Meets ok s' as

variable {step}

/-- The first step of an execution. -/
theorem exec_cons {s t : σ} {a : α} {as : List α} (h : exec step s (a :: as) = .next t) :
    ∃ s', step s a = .next s' ∧ exec step s' as = .next t := by
  rw [exec] at h
  split at h
  · nomatch h
  · nomatch h
  · rename_i s' hs
    exact ⟨s', hs, h⟩

/-- A condition that the actions meet in every state. -/
theorem Meets.of_forall {ok : σ → α → Prop} {s : σ} {as : List α} (h : ∀ a ∈ as, ∀ s, ok s a) : Meets step ok s as := by
  induction as generalizing s with
  | nil => trivial
  | cons a as ih => exact ⟨h a List.mem_cons_self s, fun s' _ => ih fun b hb => h b (List.mem_cons_of_mem _ hb)⟩

/-- Running the actions, every one passes a test in the state it is taken in. -/
def checks (step : σ → α → Outcome σ) (check : σ → α → Bool) : σ → List α → Bool
  | _, [] => true
  | s, a :: as => check s a && match step s a with
    | .next s' => checks step check s' as
    | _ => true

/-- A test that the actions pass. -/
theorem Meets.of_checks {check : σ → α → Bool} {s : σ} {as : List α} (h : checks step check s as = true) :
    Meets step (fun s a => check s a = true) s as := by
  induction as generalizing s with
  | nil => trivial
  | cons a as ih =>
    rw [checks, Bool.and_eq_true] at h
    refine ⟨h.1, fun s' hs => ih ?_⟩
    rw [hs] at h
    exact h.2

/-- What the steps that meet a condition keep, an execution of such steps keeps. -/
theorem invariant_of_meets {Q : σ → α → Prop} {P : σ → Prop}
    (hstep : ∀ s a s', P s → Q s a → step s a = .next s' → P s') {s t : σ} {as : List α} (hs : P s)
    (hok : Meets step Q s as) (h : exec step s as = .next t) : P t := by
  induction as generalizing s with
  | nil => cases h; exact hs
  | cons a as ih =>
    obtain ⟨s', hs', h⟩ := exec_cons h
    exact ih (hstep s a s' hs hok.1 hs') (hok.2 s' hs') h

/-- What every step keeps, every execution keeps; the steps may be those of actions with a property. -/
theorem invariant {Q : α → Prop} {P : σ → Prop} (hstep : ∀ s a s', P s → Q a → step s a = .next s' → P s') {s t : σ}
    {as : List α} (hs : P s) (hq : ∀ a ∈ as, Q a) (h : exec step s as = .next t) : P t := by
  exact invariant_of_meets (Q := fun _ a => Q a) hstep hs (.of_forall fun a ha _ => hq a ha) h

end Transition
