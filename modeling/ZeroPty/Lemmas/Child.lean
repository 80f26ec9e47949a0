import Mathlib.Data.List.Basic
import ZeroPty.Child

/-!
# What holds of the child and its waiters

`ChildMoves` says once what an action can do. From it follow three invariants: who holds `child_mu`, what was reaped and when, and
how far each request has escalated.
-/

namespace ZeroPty

open Transition

/-! ## One action -/

/-- Where a thread is after it has got `child_mu`. -/
def ChildPc.entered : ChildPc → Option ChildPc
  | .lockPoll sig waited => some (.poll sig waited)
  | .lockSignal sig => some (.signal sig)
  | .lockBlocking => some .blocking
  | _ => none

/-- What one action can do. -/
inductive ChildMoves (s : ChildSys) : ChildAct → ChildSys → Prop where
  | closeTerminal : ChildMoves s .closeTerminal { s with terminal := false }
  | exit {status} (hrun : s.proc = .running) : ChildMoves s (.exit status) { s with proc := .exited status }
  | request {t} (hpc : s.pc (.request t) = .idle) : ChildMoves s (.request t) (s.goto (.request t) (.lockPoll .hup 0))
  | eof (hpc : s.pc .pty = .reading) : ChildMoves s .eof (s.goto .pty .lockBlocking)
  | lock {who r p} (hp : (s.pc who).entered = some p) (hfree : s.holder = none) :
      ChildMoves s (.thread who r) ({ s with holder := some who }.goto who p)
  | again {who r} : ChildMoves s (.thread who r) s
  | pollGone {who r sig waited} (hpc : s.pc who = .poll sig waited) (hr : s.childReaped = true) :
      ChildMoves s (.thread who r) (s.goto who (.unlockPoll sig waited .gone))
  | pollRunning {who r sig waited} (hpc : s.pc who = .poll sig waited) (hr : s.childReaped = false) :
      ChildMoves s (.thread who r) (s.goto who (.unlockPoll sig waited .running))
  | pollWaited {who r sig waited status} (hpc : s.pc who = .poll sig waited) (hr : s.childReaped = false)
      (hexit : s.proc = .exited status) :
      ChildMoves s (.thread who r) ((s.waited who status).goto who (.storePoll sig waited status))
  | pollNoChild {who r sig waited} (hpc : s.pc who = .poll sig waited) (hr : s.childReaped = false) :
      ChildMoves s (.thread who r) ((s.reap who none).goto who (.unlockPoll sig waited .gone))
  | pollFailed {who r sig waited} (hpc : s.pc who = .poll sig waited) (hr : s.childReaped = false) :
      ChildMoves s (.thread who r) (s.goto who (.unlockPoll sig waited .failed))
  | storePoll {who r sig waited status} (hpc : s.pc who = .storePoll sig waited status) :
      ChildMoves s (.thread who r) ((s.reap who (some status)).goto who (.unlockPoll sig waited .gone))
  | ended {who r sig waited p} (hpc : s.pc who = .unlockPoll sig waited p) (hp : p ≠ .running) :
      ChildMoves s (.thread who r) ((s.record who .ended).unlock who .done)
  | expired {who r sig waited} (hpc : s.pc who = .unlockPoll sig waited .running) (hgrace : sig.grace ≤ waited) :
      ChildMoves s (.thread who r) ((s.record who (.expired sig)).unlock who (.lockSignal sig))
  | wait {who r sig waited} (hpc : s.pc who = .unlockPoll sig waited .running) :
      ChildMoves s (.thread who r) (s.unlock who (.lockPoll sig (waited + 50)))
  | skip {who r sig} (hpc : s.pc who = .signal sig) (hr : s.childReaped = true) :
      ChildMoves s (.thread who r) (s.goto who (.unlockSignal sig))
  | kill {who r sig} (hpc : s.pc who = .signal sig) (hr : s.childReaped = false) :
      ChildMoves s (.thread who r) (((s.kill sig).record who (.kill sig)).goto who (.unlockSignal sig))
  | unlockSignal {who r sig} (hpc : s.pc who = .unlockSignal sig) : ChildMoves s (.thread who r) (s.unlock who sig.next)
  | blockEnd {who r} (hpc : s.pc who = .blocking) : ChildMoves s (.thread who r) (s.goto who .unlockBlocking)
  | blockWaited {who r status} (hpc : s.pc who = .blocking) (hr : s.childReaped = false) (hexit : s.proc = .exited status) :
      ChildMoves s (.thread who r) ((s.waited who status).goto who (.storeBlocking status))
  | blockNoChild {who r} (hpc : s.pc who = .blocking) (hr : s.childReaped = false) :
      ChildMoves s (.thread who r) ((s.reap who none).goto who .unlockBlocking)
  | storeBlocking {who r status} (hpc : s.pc who = .storeBlocking status) :
      ChildMoves s (.thread who r) ((s.reap who (some status)).goto who .unlockBlocking)
  | unlockBlocking {who r} (hpc : s.pc who = .unlockBlocking) : ChildMoves s (.thread who r) (s.unlock who .done)

namespace ChildAux

variable {s t : ChildSys} {who : Who} {r : WaitResult}

theorem lock_moves {p : ChildPc} (hp : (s.pc who).entered = some p) (h : s.lock who p = .next t) :
    ChildMoves s (.thread who r) t := by
  unfold ChildSys.lock at h
  split at h
  · cases h
    exact .lock hp ‹_›
  · nomatch h

theorem poll_moves {sig : Signal} {waited : Nat} (hpc : s.pc who = .poll sig waited)
    (h : serverPollChildLocked s who sig waited r = .next t) : ChildMoves s (.thread who r) t := by
  unfold serverPollChildLocked at h
  split at h
  · cases h
    exact .pollGone hpc ‹_›
  · rename_i hr
    rw [Bool.not_eq_true] at hr
    split at h
    · rename_i hallows
      split at h
      · cases h
        exact .pollWaited hpc hr (of_decide_eq_true hallows)
      · cases h
        exact .pollRunning hpc hr
      · cases h
        exact .again
      · cases h
        exact .pollNoChild hpc hr
      · cases h
        exact .pollFailed hpc hr
    · nomatch h

theorem blocking_moves (hpc : s.pc who = .blocking) (h : serverWaitChildBlocking s who r = .next t) :
    ChildMoves s (.thread who r) t := by
  unfold serverWaitChildBlocking at h
  split at h
  · cases h
    exact .blockEnd hpc
  · rename_i hr
    rw [Bool.not_eq_true] at hr
    split at h
    · rename_i hallows
      split at h
      · cases h
        exact .blockWaited hpc hr (of_decide_eq_true hallows)
      · cases h
        exact .again
      · cases h
        exact .blockNoChild hpc hr
      · cases h
        exact .blockEnd hpc
      · cases h
        exact .blockEnd hpc
    · nomatch h

theorem thread_moves (h : childThreadStep s who r = .next t) : ChildMoves s (.thread who r) t := by
  unfold childThreadStep at h
  cases hpc : s.pc who with
  | idle | reading | done =>
    rw [hpc] at h
    nomatch h
  | lockPoll sig waited | lockSignal sig | lockBlocking =>
    rw [hpc] at h
    exact lock_moves (by rw [hpc]; rfl) h
  | poll sig waited =>
    rw [hpc] at h
    exact poll_moves hpc h
  | storePoll sig waited status =>
    rw [hpc] at h
    cases h
    exact .storePoll hpc
  | unlockPoll sig waited p =>
    rw [hpc] at h
    cases h
    cases p with
    | gone | failed => exact .ended hpc nofun
    | running =>
      simp only [serverWaitChildDeadline]
      split
      · exact .expired hpc ‹_›
      · exact .wait hpc
  | signal sig =>
    rw [hpc] at h
    cases h
    unfold serverSignalChild
    split
    · exact .skip hpc ‹_›
    · rename_i hr
      exact .kill hpc (by simpa using hr)
  | unlockSignal sig =>
    rw [hpc] at h
    cases h
    exact .unlockSignal hpc
  | blocking =>
    rw [hpc] at h
    exact blocking_moves hpc h
  | storeBlocking status =>
    rw [hpc] at h
    cases h
    exact .storeBlocking hpc
  | unlockBlocking =>
    rw [hpc] at h
    cases h
    exact .unlockBlocking hpc

end ChildAux

/-- An action does one of these things. -/
theorem childStep_moves {s t : ChildSys} {a : ChildAct} (h : childStep s a = .next t) : ChildMoves s a t := by
  cases a with
  | closeTerminal =>
    cases h
    exact .closeTerminal
  | exit status =>
    simp only [childStep] at h
    split at h
    · cases h
      exact .exit ‹_›
    · nomatch h
  | request t =>
    simp only [childStep] at h
    split at h
    · cases h
      exact .request ‹_›
    · nomatch h
  | eof =>
    simp only [childStep] at h
    split at h
    · rename_i hpc
      cases h
      exact .eof hpc.1
    · nomatch h
  | thread who r => exact ChildAux.thread_moves h

/-! ## Who holds `child_mu` -/

/-- The thread is between a lock and an unlock of `child_mu`. -/
def ChildPc.holds : ChildPc → Bool
  | .poll _ _ | .storePoll _ _ _ | .unlockPoll _ _ _ | .signal _ | .unlockSignal _ | .blocking | .storeBlocking _
  | .unlockBlocking => true
  | _ => false

/-- The holder is the thread that is between a lock and an unlock. -/
def LockInv (s : ChildSys) : Prop := ∀ who, (s.pc who).holds = true ↔ s.holder = some who

theorem holds_of_entered {p q : ChildPc} (h : p.entered = some q) : p.holds = false ∧ q.holds = true := by
  cases p <;> cases h <;> exact ⟨rfl, rfl⟩

theorem Signal.next_holds (sig : Signal) : sig.next.holds = false := by
  cases sig <;> rfl

section Lock

variable {s : ChildSys} {who : Who} {p : ChildPc}

/-- A thread goes on without giving up or taking the mutex. -/
theorem LockInv.goto (h : LockInv s) (hp : p.holds = (s.pc who).holds) : LockInv (s.goto who p) := by
  intro w
  by_cases hw : w = who
  · subst hw
    simp only [ChildSys.goto, Function.update_self]
    rw [hp]
    exact h w
  · simp only [ChildSys.goto, Function.update_of_ne hw]
    exact h w

/-- A thread takes the mutex. -/
theorem LockInv.lock (h : LockInv s) (hfree : s.holder = none) (hp : p.holds = true) :
    LockInv ({ s with holder := some who }.goto who p) := by
  intro w
  by_cases hw : w = who
  · subst hw
    simp only [ChildSys.goto, Function.update_self, hp]
  · simp only [ChildSys.goto, Function.update_of_ne hw]
    rw [h w, hfree]
    exact ⟨nofun, fun he => absurd (Option.some.inj he).symm hw⟩

/-- The holder gives it up. -/
theorem LockInv.unlock (h : LockInv s) (hheld : (s.pc who).holds = true) (hp : p.holds = false) : LockInv (s.unlock who p) := by
  have hholder := (h who).1 hheld
  intro w
  by_cases hw : w = who
  · subst hw
    simp only [ChildSys.unlock, ChildSys.goto, Function.update_self, hp]
    exact ⟨nofun, nofun⟩
  · simp only [ChildSys.unlock, ChildSys.goto, Function.update_of_ne hw]
    rw [h w, hholder]
    exact ⟨fun he => absurd (Option.some.inj he).symm hw, nofun⟩

/-- Two threads do not both hold the mutex. -/
theorem LockInv.unique (h : LockInv s) {w : Who} (hw : (s.pc w).holds = true) (hwho : (s.pc who).holds = true) : w = who :=
  Option.some.inj (((h w).1 hw).symm.trans ((h who).1 hwho))

end Lock

theorem lockInv_moves {s t : ChildSys} {a : ChildAct} (h : LockInv s) (hm : ChildMoves s a t) : LockInv t := by
  cases hm with
  | closeTerminal | exit hrun | again => exact h
  | request hpc | eof hpc => exact h.goto (by rw [hpc]; rfl)
  | lock hp hfree => exact h.lock hfree (holds_of_entered hp).2
  | pollGone hpc hr | pollRunning hpc hr | pollFailed hpc hr | skip hpc hr | blockEnd hpc => exact h.goto (by rw [hpc]; rfl)
  | pollWaited hpc hr hexit | blockWaited hpc hr hexit | pollNoChild hpc hr | storePoll hpc | blockNoChild hpc hr
  | storeBlocking hpc | kill hpc hr =>
    exact LockInv.goto (s := { s with }) h (by rw [hpc]; rfl)
  | ended hpc hp => exact LockInv.unlock (s := s.record _ _) h (by rw [ChildSys.record, hpc]; rfl) rfl
  | expired hpc hgrace => exact LockInv.unlock (s := s.record _ _) h (by rw [ChildSys.record, hpc]; rfl) rfl
  | wait hpc | unlockBlocking hpc => exact h.unlock (by rw [hpc]; rfl) rfl
  | unlockSignal hpc => exact h.unlock (by rw [hpc]; rfl) (Signal.next_holds _)

theorem lockInv_init : LockInv .init := by
  rintro (_ | t) <;> exact ⟨nofun, nofun⟩

/-! ## What was reaped -/

/-- `waitpid` returned the status to the thread, and it has not set `child_reaped` yet. -/
def ChildPc.isStoring : ChildPc → Bool
  | .storePoll _ _ _ | .storeBlocking _ => true
  | _ => false

def ChildEvent.isWaited : ChildEvent → Bool
  | .waited _ => true
  | _ => false

def ChildEvent.isReaped : ChildEvent → Bool
  | .reaped _ => true
  | _ => false

/-- `child_status` is set. -/
def ChildEvent.isStatus : ChildEvent → Bool
  | .reaped (some _) => true
  | _ => false

/-- What holds of `child_reaped`, `child_status` and the calls of `waitpid` and `kill`. -/
structure ReapInv (s : ChildSys) : Prop where
  storing : ∀ who, (s.pc who).isStoring = true → s.proc = .reaped ∧ s.childReaped = false
  reaped : s.proc = .reaped → s.childReaped = true ∨ ∃ who, (s.pc who).isStoring = true
  polled : ∀ who sig waited, s.pc who = .unlockPoll sig waited .running → s.childReaped = false
  waited : s.events.countP (fun e => e.2.isWaited) = if s.proc = .reaped then 1 else 0
  unset : s.childReaped = false → ∀ e ∈ s.events, e.2.isReaped = false
  status : s.events.countP (fun e => e.2.isStatus) ≤ 1

theorem ChildPc.holds_of_isStoring {p : ChildPc} (h : p.isStoring = true) : p.holds = true := by
  cases p <;> first | rfl | cases h

section Reap

variable {s : ChildSys} {who : Who} {p : ChildPc}

theorem isStoring_goto (hp : p.isStoring = (s.pc who).isStoring) (w : Who) :
    ((s.goto who p).pc w).isStoring = (s.pc w).isStoring := by
  by_cases hw : w = who
  · subst hw
    simp only [ChildSys.goto, Function.update_self, hp]
  · simp only [ChildSys.goto, Function.update_of_ne hw]

theorem ne_polled_goto {sig : Signal} {waited : Nat} (hp : ∀ sig waited, p ≠ .unlockPoll sig waited .running) {w : Who}
    (h : (s.goto who p).pc w = .unlockPoll sig waited .running) : s.pc w = .unlockPoll sig waited .running := by
  by_cases hw : w = who
  · subst hw
    simp only [ChildSys.goto, Function.update_self] at h
    exact absurd h (hp sig waited)
  · simpa only [ChildSys.goto, Function.update_of_ne hw] using h

/-- A thread goes on, and reaps nothing. -/
theorem ReapInv.goto (h : ReapInv s) (hp : p.isStoring = (s.pc who).isStoring)
    (hpoll : (∃ sig waited, p = .unlockPoll sig waited .running) → s.childReaped = false) : ReapInv (s.goto who p) where
  storing := fun w hw => h.storing w (by rwa [isStoring_goto hp] at hw)
  reaped := fun hr => (h.reaped hr).imp_right fun ⟨w, hw⟩ => ⟨w, by rwa [isStoring_goto hp]⟩
  polled := by
    intro w sig waited hw
    by_cases hw' : w = who
    · subst hw'
      simp only [ChildSys.goto, Function.update_self] at hw
      exact hpoll ⟨sig, waited, hw⟩
    · simp only [ChildSys.goto, Function.update_of_ne hw'] at hw
      exact h.polled w sig waited hw
  waited := h.waited
  unset := h.unset
  status := h.status

/-- Who holds the mutex does not matter. -/
theorem ReapInv.setHolder (h : ReapInv s) (holder : Option Who) : ReapInv { s with holder := holder } :=
  ⟨h.storing, h.reaped, h.polled, h.waited, h.unset, h.status⟩

/-- A wait of a request ends. -/
theorem ReapInv.record (h : ReapInv s) {e : ChildEvent} (h1 : e.isWaited = false) (h2 : e.isReaped = false) :
    ReapInv (s.record who e) where
  storing := h.storing
  reaped := h.reaped
  polled := h.polled
  waited := by
    simp only [ChildSys.record, List.countP_append, List.countP_singleton, h1]
    exact h.waited
  unset := by
    intro hr e' he'
    rcases List.mem_append.1 he' with he' | he'
    · exact h.unset hr e' he'
    · rw [List.mem_singleton.1 he']
      exact h2
  status := by
    have h2' : e.isStatus = false := by
      cases e <;> first | rfl | cases h2
    simp only [ChildSys.record, List.countP_append, List.countP_singleton, h2']
    exact h.status

/-- Nobody was told the status, and `child_reaped` is not set. -/
theorem ReapInv.unreaped (h : ReapInv s) (hlock : LockInv s) (hheld : (s.pc who).holds = true)
    (hstore : (s.pc who).isStoring = false) (hr : s.childReaped = false) :
    s.proc ≠ .reaped ∧ ∀ a ∈ s.events, a.2.isWaited = false ∧ a.2.isReaped = false := by
  have hproc : s.proc ≠ .reaped := by
    intro hproc
    rcases h.reaped hproc with hr' | ⟨w, hw⟩
    · rw [hr] at hr'
      cases hr'
    · have := hlock.unique (ChildPc.holds_of_isStoring hw) hheld
      rw [this, hstore] at hw
      cases hw
  refine ⟨hproc, fun a ha => ⟨?_, h.unset hr a ha⟩⟩
  have hcount := h.waited
  rw [if_neg hproc, List.countP_eq_zero] at hcount
  simpa using hcount a ha

/-- `kill` is called. -/
theorem ReapInv.kill (h : ReapInv s) (sig : Signal) : ReapInv (s.kill sig) :=
  ⟨h.storing, h.reaped, h.polled, h.waited, h.unset, h.status⟩

/-- `waitpid` returns the status to the thread. -/
theorem ReapInv.tell (h : ReapInv s) {status : Nat}
    (hr : s.childReaped = false) (hexit : s.proc = .exited status) (hp : p.isStoring = true) :
    ReapInv ((s.waited who status).goto who p) where
  storing := fun w _ => ⟨rfl, hr⟩
  reaped := fun _ => Or.inr ⟨who, by simp only [ChildSys.goto, Function.update_self, hp]⟩
  polled := by
    intro w sig waited hw
    refine h.polled w sig waited (ne_polled_goto (s := s.waited who status) ?_ hw)
    rintro sig waited rfl
    cases hp
  waited := by
    have hcount := h.waited
    rw [hexit, if_neg nofun] at hcount
    simp only [ChildSys.goto, ChildSys.waited, ChildSys.record, List.countP_append, hcount]
    rfl
  unset := by
    intro _ e' he'
    rcases List.mem_append.1 he' with he' | he'
    · exact h.unset hr e' he'
    · rw [List.mem_singleton.1 he']
      rfl
  status := by
    simp only [ChildSys.goto, ChildSys.waited, ChildSys.record, List.countP_append, List.countP_singleton]
    exact h.status

/-- `child_reaped` is set by the thread that was told the status, or by one that was told there is no child. -/
theorem ReapInv.reap (h : ReapInv s) (hlock : LockInv s) {status : Option Nat} (hheld : (s.pc who).holds = true)
    (hr : s.childReaped = false) (hp : p.isStoring = false) (hpoll : ∀ sig waited, p ≠ .unlockPoll sig waited .running) :
    ReapInv ((s.reap who status).goto who p) where
  storing := by
    intro w hw
    by_cases hw' : w = who
    · subst hw'
      simp only [ChildSys.goto, Function.update_self, hp] at hw
      cases hw
    · simp only [ChildSys.goto, Function.update_of_ne hw'] at hw
      exact absurd (hlock.unique (ChildPc.holds_of_isStoring hw) hheld) hw'
  reaped := fun _ => Or.inl rfl
  polled := by
    intro w sig waited hw
    have hw' := ne_polled_goto (s := s.reap who status) hpoll hw
    have hwho : w = who := hlock.unique (by rw [show s.pc w = _ from hw']; rfl) hheld
    subst hwho
    simp only [ChildSys.goto, Function.update_self] at hw
    exact absurd hw (hpoll sig waited)
  waited := by
    simp only [ChildSys.goto, ChildSys.reap, ChildSys.record, List.countP_append, List.countP_singleton]
    exact h.waited
  unset := nofun
  status := by
    have hnone : s.events.countP (fun e => e.2.isStatus) = 0 := by
      rw [List.countP_eq_zero]
      intro e he
      have := h.unset hr e he
      cases hev : e.2 with
      | reaped status =>
        rw [hev] at this
        cases this
      | expired sig | kill sig | ended | waited status => exact nofun
    simp only [ChildSys.goto, ChildSys.reap, ChildSys.record, List.countP_append, hnone, Nat.zero_add]
    exact List.countP_le_length

end Reap

theorem Signal.next_plain (sig : Signal) :
    sig.next.isStoring = false ∧ ∀ sig' waited, sig.next ≠ .unlockPoll sig' waited .running := by
  cases sig <;> exact ⟨rfl, nofun⟩

theorem reapInv_moves {s t : ChildSys} {a : ChildAct} (hlock : LockInv s) (h : ReapInv s) (hm : ChildMoves s a t) : ReapInv t := by
  cases hm with
  | closeTerminal => exact ⟨h.storing, h.reaped, h.polled, h.waited, h.unset, h.status⟩
  | exit hrun =>
    have hw := h.waited
    rw [hrun, if_neg nofun] at hw
    refine ⟨fun w hw => ?_, nofun, h.polled, by simpa using hw, h.unset, h.status⟩
    have := (h.storing w hw).1
    rw [hrun] at this
    cases this
  | again => exact h
  | request hpc | eof hpc => exact h.goto (by rw [hpc]; rfl) nofun
  | lock hp hfree =>
    rename_i who r p
    refine (h.setHolder (some who)).goto ?_ ?_
    · cases hpc : s.pc who <;> rw [hpc] at hp <;> cases hp <;> rfl
    · rintro ⟨sig, waited, rfl⟩
      cases hpc : s.pc who <;> rw [hpc] at hp <;> cases hp
  | pollGone hpc hr | skip hpc hr | blockEnd hpc => exact h.goto (by rw [hpc]; rfl) nofun
  | pollFailed hpc hr => exact h.goto (by rw [hpc]; rfl) nofun
  | pollRunning hpc hr => exact h.goto (by rw [hpc]; rfl) fun _ => hr
  | pollWaited hpc hr hexit | blockWaited hpc hr hexit => exact h.tell hr hexit rfl
  | pollNoChild hpc hr | blockNoChild hpc hr => exact h.reap hlock (by rw [hpc]; rfl) hr rfl nofun
  | storePoll hpc | storeBlocking hpc => exact h.reap hlock (by rw [hpc]; rfl) (h.storing _ (by rw [hpc]; rfl)).2 rfl nofun
  | ended hpc hp => exact ((h.record rfl rfl).setHolder none).goto (by rw [ChildSys.record, hpc]; rfl) nofun
  | expired hpc hgrace => exact ((h.record rfl rfl).setHolder none).goto (by rw [ChildSys.record, hpc]; rfl) nofun
  | wait hpc | unlockBlocking hpc => exact (h.setHolder none).goto (by rw [hpc]; rfl) nofun
  | kill hpc hr => exact ((h.kill _).record rfl rfl).goto (by rw [ChildSys.record, ChildSys.kill, hpc]; rfl) nofun
  | unlockSignal hpc =>
    rename_i who r sig
    refine (h.setHolder none).goto (by rw [hpc]; exact sig.next_plain.1) ?_
    rintro ⟨sig', waited, he⟩
    exact absurd he (sig.next_plain.2 sig' waited)

theorem reapInv_init : ReapInv .init := by
  refine ⟨?_, nofun, ?_, rfl, nofun, Nat.zero_le _⟩
  · rintro (_ | t) <;> nofun
  · rintro (_ | t) <;> nofun

/-! ## How far a request has escalated -/

/-- The event is one of the escalation of a request. -/
def ChildEvent.isStage : ChildEvent → Bool
  | .expired _ | .kill _ | .ended => true
  | _ => false

/-- The events of a request's escalation. -/
def escalationOf (events : List (Who × ChildEvent)) (t : Nat) : List ChildEvent :=
  (events.filter fun e => decide (e.1 = .request t) && e.2.isStage).map Prod.snd

/-- The whole escalation: each signal is issued after the wait before it expired. -/
def escalation : List ChildEvent :=
  [.expired .hup, .kill .hup, .expired .term, .kill .term, .expired .kill, .kill .kill]

/-- How much of it comes before the wait for a signal. -/
def Signal.depth : Signal → Nat
  | .hup => 0
  | .term => 2
  | .kill => 4

/-- The events are the escalation up to somewhere. -/
def Partial (l : List ChildEvent) : Prop := ∃ k, l = escalation.take k

/-- What the events of a request are at each of its places; after a signal that was not issued because `child_reaped` was set, the
next wait ends the request. -/
def ChildPc.Trace (reaped : Bool) (l : List ChildEvent) : ChildPc → Prop
  | .idle => l = []
  | .lockPoll sig _ | .poll sig _ => l = escalation.take sig.depth ∨ (reaped = true ∧ Partial l)
  | .storePoll _ _ _ | .unlockPoll _ _ .gone | .unlockPoll _ _ .failed => Partial l
  | .unlockPoll sig _ .running => l = escalation.take sig.depth
  | .lockSignal sig | .signal sig => l = escalation.take (sig.depth + 1)
  | .unlockSignal sig => l = escalation.take (sig.depth + 2) ∨ (reaped = true ∧ Partial l)
  | .reading | .lockBlocking | .blocking | .storeBlocking _ | .unlockBlocking => Partial l
  | .done => Partial l ∨ ∃ l', Partial l' ∧ l = l' ++ [.ended]

theorem escalationOf_concat (events : List (Who × ChildEvent)) (t : Nat) (e : ChildEvent) (he : e.isStage = true) :
    escalationOf (events ++ [(.request t, e)]) t = escalationOf events t ++ [e] := by
  simp [escalationOf, he]

theorem escalationOf_concat_of_ne {events : List (Who × ChildEvent)} {t : Nat} {who : Who} {e : ChildEvent}
    (h : who ≠ .request t ∨ e.isStage = false) : escalationOf (events ++ [(who, e)]) t = escalationOf events t := by
  have : (decide (who = .request t) && e.isStage) = false := by
    rcases h with h | h
    · rw [decide_eq_false h, Bool.false_and]
    · rw [h, Bool.and_false]
  simp [escalationOf, this]

theorem Signal.expired_eq (sig : Signal) :
    escalation.take sig.depth ++ [.expired sig] = escalation.take (sig.depth + 1) := by
  cases sig <;> rfl

theorem Signal.kill_eq (sig : Signal) :
    escalation.take (sig.depth + 1) ++ [.kill sig] = escalation.take (sig.depth + 2) := by
  cases sig <;> rfl

/-- After a signal the request waits for the next one, or blocks. -/
theorem Signal.next_trace {sig : Signal} {reaped : Bool} {l : List ChildEvent} (h : (ChildPc.unlockSignal sig).Trace reaped l) :
    sig.next.Trace reaped l := by
  cases sig with
  | hup | term => exact h
  | kill => exact h.elim (fun h => ⟨_, h⟩) fun h => h.2

/-- That `child_reaped` gets set changes nothing about what was done. -/
theorem ChildPc.Trace.mono {p : ChildPc} {reaped reaped' : Bool} {l : List ChildEvent} (h : p.Trace reaped l)
    (hr : reaped = true → reaped' = true) : p.Trace reaped' l := by
  cases p with
  | lockPoll sig waited | poll sig waited | unlockSignal sig => exact h.imp_right fun h => ⟨hr h.1, h.2⟩
  | unlockPoll sig waited r => cases r <;> exact h
  | _ => exact h

/-- Wherever a request is, its events are the escalation up to somewhere, and perhaps its end. -/
theorem ChildPc.Trace.end {p : ChildPc} {reaped : Bool} {l : List ChildEvent} (h : p.Trace reaped l) :
    ∃ k, l = escalation.take k ∨ l = escalation.take k ++ [.ended] := by
  have hpart : Partial l → ∃ k, l = escalation.take k ∨ l = escalation.take k ++ [.ended] := fun ⟨k, hk⟩ => ⟨k, Or.inl hk⟩
  cases p with
  | idle => exact ⟨0, Or.inl h⟩
  | lockPoll sig waited | poll sig waited | unlockSignal sig => exact h.elim (fun h => ⟨_, Or.inl h⟩) fun h => hpart h.2
  | unlockPoll sig waited r =>
    cases r with
    | gone | failed => exact hpart h
    | running => exact ⟨_, Or.inl h⟩
  | lockSignal sig | signal sig => exact ⟨_, Or.inl h⟩
  | reading | storePoll sig waited status | lockBlocking | blocking | storeBlocking status | unlockBlocking => exact hpart h
  | done =>
    rcases h with h | ⟨l', ⟨k, rfl⟩, rfl⟩
    · exact hpart h
    · exact ⟨k, Or.inr rfl⟩

/-- The request has escalated as far as its place says. -/
def TraceInv (s : ChildSys) : Prop := ∀ t, (s.pc (.request t)).Trace s.childReaped (escalationOf s.events t)

section Trace

variable {s t : ChildSys} {who : Who} {p : ChildPc}

/-- One thread goes on, and what it records is of itself. -/
theorem TraceInv.update (h : TraceInv s) (hpc : t.pc = Function.update s.pc who p)
    (hr : s.childReaped = true → t.childReaped = true)
    (hevents : t.events = s.events ∨ ∃ e, t.events = s.events ++ [(who, e)])
    (hself : ∀ i, who = .request i → p.Trace t.childReaped (escalationOf t.events i)) : TraceInv t := by
  intro i
  by_cases hi : who = .request i
  · rw [hpc, ← hi, Function.update_self]
    exact hself i hi
  · have hsame : escalationOf t.events i = escalationOf s.events i := by
      rcases hevents with he | ⟨e, he⟩
      · rw [he]
      · rw [he, escalationOf_concat_of_ne (Or.inl hi)]
    rw [hpc, Function.update_of_ne (Ne.symm hi), hsame]
    exact (h i).mono hr

/-- A thread goes on and records nothing of the escalation. -/
theorem TraceInv.silent (h : TraceInv s) (hpc : t.pc = Function.update s.pc who p)
    (hr : s.childReaped = true → t.childReaped = true)
    (hevents : t.events = s.events ∨ ∃ e, e.isStage = false ∧ t.events = s.events ++ [(who, e)])
    (hself : ∀ l, (s.pc who).Trace s.childReaped l → p.Trace t.childReaped l) : TraceInv t := by
  refine h.update hpc hr (hevents.imp_right fun ⟨e, _, he⟩ => ⟨e, he⟩) fun i hi => ?_
  have hsame : escalationOf t.events i = escalationOf s.events i := by
    rcases hevents with he | ⟨e, hst, he⟩
    · rw [he]
    · rw [he, escalationOf_concat_of_ne (Or.inr hst)]
  rw [hsame]
  refine hself _ ?_
  rw [hi]
  exact h i

/-- A thread goes on and records a stage of its escalation. -/
theorem TraceInv.stage (h : TraceInv s) (hpc : t.pc = Function.update s.pc who p)
    (hr : s.childReaped = true → t.childReaped = true) {e : ChildEvent} (hst : e.isStage = true)
    (hevents : t.events = s.events ++ [(who, e)])
    (hself : ∀ l, (s.pc who).Trace s.childReaped l → p.Trace t.childReaped (l ++ [e])) : TraceInv t := by
  refine h.update hpc hr (Or.inr ⟨e, hevents⟩) ?_
  rintro i rfl
  rw [hevents, escalationOf_concat s.events i e hst]
  exact hself _ (h i)

end Trace

theorem traceInv_moves {s t : ChildSys} {a : ChildAct} (h : TraceInv s) (hm : ChildMoves s a t) : TraceInv t := by
  cases hm with
  | closeTerminal | exit hrun | again => exact h
  | request hpc =>
    refine h.silent rfl id (Or.inl rfl) fun l hl => Or.inl ?_
    rw [hpc] at hl
    exact hl
  | eof hpc =>
    refine h.update rfl id (Or.inl rfl) ?_
    rintro i ⟨⟩
  | lock hp hfree =>
    rename_i who r p
    refine h.silent rfl id (Or.inl rfl) fun l hl => ?_
    cases hpc : s.pc who <;> rw [hpc] at hp hl <;> cases hp <;> exact hl
  | pollGone hpc hr =>
    refine h.silent rfl id (Or.inl rfl) fun l hl => ?_
    rw [hpc] at hl
    exact hl.elim (fun h => ⟨_, h⟩) fun h => h.2
  | pollFailed hpc hr =>
    refine h.silent rfl id (Or.inl rfl) fun l hl => ?_
    rw [hpc] at hl
    exact hl.elim (fun h => ⟨_, h⟩) fun h => h.2
  | pollRunning hpc hr =>
    refine h.silent rfl id (Or.inl rfl) fun l hl => ?_
    rw [hpc] at hl
    refine hl.resolve_right fun h => ?_
    rw [hr] at h
    cases h.1
  | pollWaited hpc hr hexit =>
    refine h.silent rfl id (Or.inr ⟨_, rfl, rfl⟩) fun l hl => ?_
    rw [hpc] at hl
    exact hl.elim (fun h => ⟨_, h⟩) fun h => h.2
  | pollNoChild hpc hr =>
    refine h.silent rfl (fun _ => rfl) (Or.inr ⟨_, rfl, rfl⟩) fun l hl => ?_
    rw [hpc] at hl
    exact hl.elim (fun h => ⟨_, h⟩) fun h => h.2
  | storePoll hpc =>
    refine h.silent rfl (fun _ => rfl) (Or.inr ⟨_, rfl, rfl⟩) fun l hl => ?_
    rw [hpc] at hl
    exact hl
  | ended hpc hp =>
    rename_i who r sig waited p
    refine h.stage rfl id rfl rfl fun l hl => Or.inr ⟨l, ?_, rfl⟩
    rw [hpc] at hl
    cases p with
    | gone | failed => exact hl
    | running => exact absurd rfl hp
  | expired hpc hgrace =>
    rename_i who r sig waited
    refine h.stage rfl id rfl rfl fun l hl => ?_
    rw [hpc] at hl
    cases hl
    exact sig.expired_eq
  | wait hpc =>
    refine h.silent rfl id (Or.inl rfl) fun l hl => Or.inl ?_
    rw [hpc] at hl
    exact hl
  | skip hpc hr =>
    refine h.silent rfl id (Or.inl rfl) fun l hl => Or.inr ⟨hr, ?_⟩
    rw [hpc] at hl
    exact ⟨_, hl⟩
  | kill hpc hr =>
    rename_i who r sig
    refine h.stage rfl id rfl rfl fun l hl => Or.inl ?_
    rw [hpc] at hl
    cases hl
    exact sig.kill_eq
  | unlockSignal hpc =>
    refine h.silent rfl id (Or.inl rfl) fun l hl => Signal.next_trace ?_
    rw [hpc] at hl
    exact hl
  | blockEnd hpc =>
    refine h.silent rfl id (Or.inl rfl) fun l hl => ?_
    rw [hpc] at hl
    exact hl
  | blockWaited hpc hr hexit =>
    refine h.silent rfl id (Or.inr ⟨_, rfl, rfl⟩) fun l hl => ?_
    rw [hpc] at hl
    exact hl
  | blockNoChild hpc hr =>
    refine h.silent rfl (fun _ => rfl) (Or.inr ⟨_, rfl, rfl⟩) fun l hl => ?_
    rw [hpc] at hl
    exact hl
  | storeBlocking hpc =>
    refine h.silent rfl (fun _ => rfl) (Or.inr ⟨_, rfl, rfl⟩) fun l hl => ?_
    rw [hpc] at hl
    exact hl
  | unlockBlocking hpc =>
    refine h.silent rfl id (Or.inl rfl) fun l hl => Or.inl ?_
    rw [hpc] at hl
    exact hl

theorem traceInv_init : TraceInv .init := fun _ => rfl

/-! ## Who blocks -/

/-- A request that is past its SIGKILL, or at it. -/
def ChildPc.isLate : ChildPc → Bool
  | .unlockSignal .kill | .lockBlocking | .blocking => true
  | _ => false

/-- The child is not to be waited for in vain: it has exited, was killed, or `child_reaped` is set. -/
def ChildSys.Ending (s : ChildSys) : Prop := s.proc ≠ .running ∨ s.killed = true ∨ s.childReaped = true

/-- A thread that blocks does so for a child that is ending. -/
structure BlockInv (s : ChildSys) : Prop where
  request : ∀ t, (s.pc (.request t)).isLate = true → s.Ending
  pty : s.pc .pty = .blocking → s.Ending

theorem ending_moves {s t : ChildSys} {a : ChildAct} (h : s.Ending) (hm : ChildMoves s a t) : t.Ending := by
  cases hm with
  | exit hrun => exact Or.inl nofun
  | pollWaited hpc hr hexit | blockWaited hpc hr hexit => exact Or.inl nofun
  | pollNoChild hpc hr | storePoll hpc | blockNoChild hpc hr | storeBlocking hpc => exact Or.inr (Or.inr rfl)
  | kill hpc hr => exact h.imp_right (Or.imp_left fun hk => by simp [ChildSys.goto, ChildSys.record, ChildSys.kill, hk])
  | _ => exact h

/-- The PTY thread blocks only for a child that has exited or was killed. -/
def PtyWaitsLate (s : ChildSys) : ChildAct → Prop
  | .thread .pty _ => s.pc .pty = .lockBlocking → s.proc ≠ .running ∨ s.killed = true
  | _ => True

/-- One thread goes on. -/
theorem BlockInv.update {s t : ChildSys} {who : Who} {p : ChildPc} (h : BlockInv s) (hmono : s.Ending → t.Ending)
    (hpc : t.pc = Function.update s.pc who p)
    (hlate : p.isLate = true →
      ((s.pc who).isLate = true ∧ (who = .pty → s.pc who = .blocking)) ∨ t.Ending ∨ p ≠ .blocking ∧ who = .pty) :
    BlockInv t := by
  have hnew : ∀ w, who = w → p.isLate = true → (w = .pty → p = .blocking) → t.Ending := by
    rintro w rfl hp hpty
    rcases hlate hp with ⟨hs, hs'⟩ | he | ⟨hne, hwho⟩
    · cases who with
      | pty => exact hmono (h.pty (hs' rfl))
      | request i => exact hmono (h.request i hs)
    · exact he
    · exact absurd (hpty hwho) hne
  refine ⟨fun i hi => ?_, fun hb => ?_⟩
  · by_cases hw : who = .request i
    · rw [hpc, ← hw, Function.update_self] at hi
      exact hnew _ hw hi nofun
    · rw [hpc, Function.update_of_ne (Ne.symm hw)] at hi
      exact hmono (h.request i hi)
  · by_cases hw : who = .pty
    · rw [hpc, ← hw, Function.update_self] at hb
      exact hnew _ hw (by rw [hb]; rfl) fun _ => hb
    · rw [hpc, Function.update_of_ne (Ne.symm hw)] at hb
      exact hmono (h.pty hb)

theorem blockInv_moves {s t : ChildSys} {a : ChildAct} (h : BlockInv s) (hok : PtyWaitsLate s a) (hm : ChildMoves s a t) :
    BlockInv t := by
  have hmono : s.Ending → t.Ending := fun he => ending_moves he hm
  cases hm with
  | closeTerminal | again => exact ⟨h.request, h.pty⟩
  | exit hrun => exact ⟨fun i hi => hmono (h.request i hi), fun hb => hmono (h.pty hb)⟩
  | eof hpc => exact h.update hmono rfl fun _ => Or.inr (Or.inr ⟨nofun, rfl⟩)
  | lock hp hfree =>
    rename_i who r p
    refine h.update hmono rfl fun hl => ?_
    cases hpc : s.pc who with
    | lockBlocking =>
      cases who with
      | pty => exact Or.inr (Or.inl ((hok hpc).imp_right Or.inl))
      | request i => exact Or.inl ⟨rfl, nofun⟩
    | lockPoll sig waited | lockSignal sig =>
      rw [hpc] at hp
      cases hp
      cases hl
    | _ =>
      rw [hpc] at hp
      cases hp
  | skip hpc hr => exact h.update hmono rfl fun _ => Or.inr (Or.inl (Or.inr (Or.inr hr)))
  | kill hpc hr =>
    rename_i who r sig
    refine h.update hmono rfl fun hl => Or.inr (Or.inl (Or.inr (Or.inl ?_)))
    cases sig with
    | hup | term => cases hl
    | kill => simp [ChildSys.goto, ChildSys.record, ChildSys.kill]
  | unlockSignal hpc =>
    rename_i who r sig
    refine h.update hmono rfl fun hl => ?_
    cases sig with
    | hup | term => cases hl
    | kill =>
      cases who with
      | pty => exact Or.inr (Or.inr ⟨nofun, rfl⟩)
      | request i => exact Or.inl ⟨by rw [hpc]; rfl, nofun⟩
  | request hpc | pollGone hpc hr | pollRunning hpc hr | pollWaited hpc hr hexit | pollNoChild hpc hr | pollFailed hpc hr
  | storePoll hpc | ended hpc hp | expired hpc hgrace | wait hpc | blockEnd hpc | blockWaited hpc hr hexit
  | blockNoChild hpc hr | storeBlocking hpc | unlockBlocking hpc =>
    exact h.update hmono rfl nofun

theorem blockInv_init : BlockInv .init := ⟨fun _ => nofun, nofun⟩

end ZeroPty
