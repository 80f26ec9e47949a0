import ZeroPty.Signals
import Mathlib.Tactic.Common

/-!
# A signal before a call that blocks

The flag of a signal that comes between its test and the call is seen after the call only (`signal_left_waiting`). No other signal is
left waiting, but for those that another thread of the server takes while `main` is blocked.
-/

namespace ZeroPty

open Transition

/-- No handler runs between the test of `g_shutdown_requested` and `accept`, as long as the listener is open, and none runs in another
thread while `main` is blocked. -/
def AcceptAct.Timely (s : AcceptLoop) : AcceptAct → Prop
  | .signal inMain => (s.pc = .call → s.listening = false) ∧ (s.pc = .accept → inMain = true)
  | _ => True

/-- No handler runs between the test of its flag and `poll`. -/
def SessionAct.Timely (s : SessionLoop) : SessionAct → Prop
  | .terminate => s.pc ≠ .testWinch ∧ s.pc ≠ .clearWinch ∧ s.pc ≠ .call
  | .sigwinch => s.pc ≠ .call
  | .go _ => True

namespace SignalsAux

/-! ## The server -/

/-- A shutdown that is requested is not behind `accept`. -/
def AcceptSeen (s : AcceptLoop) : Prop := s.shutdownRequested = true → s.pc ≠ .accept ∧ (s.pc = .call → s.listening = false)

theorem AcceptSeen.main {s s' : AcceptLoop} {accept : AcceptResult} (h : AcceptSeen s) (hstep : acceptLoopMain s accept = .next s') :
    AcceptSeen s' := by
  obtain ⟨pc, requested, listening⟩ := s
  unfold acceptLoopMain at hstep
  cases pc with
  | top =>
    cases hstep
    cases requested with
    | true => exact fun _ => ⟨by rintro ⟨⟩, by rintro ⟨⟩⟩
    | false => rintro ⟨⟩
  | clear => cases hstep; rintro ⟨⟩
  | request => cases hstep; exact fun _ => ⟨by rintro ⟨⟩, fun _ => rfl⟩
  | call =>
    cases hstep
    intro hr
    -- a flag that is set here came with the listener closed
    obtain rfl : listening = false := (h hr).2 rfl
    exact ⟨by rintro ⟨⟩, by rintro ⟨⟩⟩
  | accept =>
    have hclear : requested ≠ true := fun hr => (h hr).1 rfl
    simp only at hstep
    split at hstep
    · cases hstep
      exact fun hr => absurd hr hclear
    · cases hstep
  | interrupted =>
    cases hstep
    cases requested with
    | true => exact fun _ => ⟨by rintro ⟨⟩, by rintro ⟨⟩⟩
    | false => rintro ⟨⟩
  | clearAgain => cases hstep; rintro ⟨⟩
  | requestAgain => cases hstep; exact fun _ => ⟨by rintro ⟨⟩, by rintro ⟨⟩⟩
  | add => cases hstep; exact fun _ => ⟨by rintro ⟨⟩, by rintro ⟨⟩⟩
  | sleep => cases hstep; exact fun _ => ⟨by rintro ⟨⟩, by rintro ⟨⟩⟩
  | requestFailed => cases hstep; exact fun _ => ⟨by rintro ⟨⟩, by rintro ⟨⟩⟩
  | left => cases hstep

theorem AcceptSeen.step {s s' : AcceptLoop} {a : AcceptAct} (h : AcceptSeen s) (ha : a.Timely s) (hstep : acceptLoopStep s a = .next s') :
    AcceptSeen s' := by
  cases a with
  | main accept => exact h.main hstep
  | signal inMain =>
    cases hstep
    obtain ⟨hcall, haccept⟩ := ha
    intro _
    by_cases hpc : s.pc = .accept
    · simp only [hpc, haccept hpc, and_self, if_true]
      exact ⟨by rintro ⟨⟩, by rintro ⟨⟩⟩
    · simp only [hpc, false_and, if_false]
      exact ⟨hpc, hcall⟩
  | closeListener =>
    cases hstep
    intro hr
    by_cases hpc : s.pc = .accept
    · exact absurd hpc (h hr).1
    · simp only [hpc, if_false]
      exact ⟨hpc, fun _ => trivial⟩

/-! ## The client -/

/-- A signal is not behind the test of its flag. -/
def SessionSeen (s : SessionLoop) : Prop :=
  (s.terminatePending = true → s.pc ≠ .testWinch ∧ s.pc ≠ .clearWinch ∧ s.pc ≠ .call ∧ s.pc ≠ .poll) ∧
  (s.sigwinchPending = true → s.pc ≠ .call ∧ s.pc ≠ .poll)

/-- The places between the first of the tests and `poll`. -/
def beforePoll : PollPc → Bool
  | .testWinch | .clearWinch | .call | .poll => true
  | _ => false

/-- At the other places nothing is behind a test. -/
theorem sessionSeen_of_far {s : SessionLoop} (h : beforePoll s.pc = false) : SessionSeen s := by
  have hne : ∀ pc, beforePoll pc = true → s.pc ≠ pc := by
    rintro pc hpc rfl
    rw [h] at hpc
    cases hpc
  exact ⟨fun _ => ⟨hne _ rfl, hne _ rfl, hne _ rfl, hne _ rfl⟩, fun _ => ⟨hne _ rfl, hne _ rfl⟩⟩

theorem sendAgain_far (s : SessionLoop) (e : Errno) {pc : PollPc} (h : beforePoll pc = false) : beforePoll (s.sendAgain e pc) = false := by
  unfold SessionLoop.sendAgain
  split
  · rfl
  · split
    · rfl
    · exact h

theorem pollReturn_far {poll : PollReturn} {pc : PollPc} (h : poll.pc? = some pc) : beforePoll pc = false := by
  cases poll with
  | ready sock stdin => cases h; rfl
  | failed => cases h; rfl
  | nothing => cases h

theorem SessionSeen.go {s s' : SessionLoop} {env : SessionEnv} (h : SessionSeen s) (hstep : runSessionGo s env = .next s') :
    SessionSeen s' := by
  obtain ⟨pc, terminate, winch, welcome, sent, pending⟩ := s
  unfold runSessionGo at hstep
  cases pc with
  | testTerminate =>
    cases hstep
    cases terminate with
    | true => exact sessionSeen_of_far rfl
    | false => exact ⟨by rintro ⟨⟩, fun _ => ⟨by rintro ⟨⟩, by rintro ⟨⟩⟩⟩
  | testWinch =>
    have hclear : terminate ≠ true := fun ht => (h.1 ht).1 rfl
    cases hstep
    cases winch with
    | true => exact ⟨fun ht => absurd ht hclear, fun _ => ⟨by rintro ⟨⟩, by rintro ⟨⟩⟩⟩
    | false => exact ⟨fun ht => absurd ht hclear, by rintro ⟨⟩⟩
  | clearWinch =>
    have hclear : terminate ≠ true := fun ht => (h.1 ht).2.1 rfl
    cases hstep
    exact ⟨fun ht => absurd ht hclear, by rintro ⟨⟩⟩
  | call =>
    have hclear : terminate ≠ true := fun ht => (h.1 ht).2.2.1 rfl
    have hclear' : winch ≠ true := fun hw => (h.2 hw).1 rfl
    cases hstep
    exact ⟨fun ht => absurd ht hclear, fun hw => absurd hw hclear'⟩
  | poll =>
    simp only at hstep
    split at hstep
    · rename_i pc hpc
      cases hstep
      exact sessionSeen_of_far (pollReturn_far hpc)
    · cases hstep
  | intro =>
    simp only at hstep
    split at hstep
    · cases hstep; exact sessionSeen_of_far rfl
    · cases hstep; exact sessionSeen_of_far rfl
  | introFailed e => cases hstep; exact sessionSeen_of_far (sendAgain_far _ e rfl)
  | receive sock stdin =>
    cases sock with
    | false => cases hstep; exact sessionSeen_of_far rfl
    | true =>
      simp only [if_true] at hstep
      split at hstep
      · cases hstep; exact sessionSeen_of_far rfl
      · cases hstep; exact sessionSeen_of_far rfl
      · cases hstep
        refine sessionSeen_of_far ?_
        split
        · rfl
        · split
          · rfl
          · rfl
  | receiveFailed e =>
    cases hstep
    refine sessionSeen_of_far ?_
    split
    · rfl
    · split
      · rfl
      · rfl
  | processFailed =>
    cases hstep
    refine sessionSeen_of_far ?_
    split
    · rfl
    · rfl
  | resize stdin =>
    simp only at hstep
    split at hstep
    · split at hstep
      · cases hstep; exact sessionSeen_of_far rfl
      · cases hstep; exact sessionSeen_of_far rfl
    · cases hstep; exact sessionSeen_of_far rfl
  | resizeFailed e stdin => cases hstep; exact sessionSeen_of_far (sendAgain_far _ e rfl)
  | input stdin =>
    cases stdin with
    | false => cases hstep; exact sessionSeen_of_far rfl
    | true =>
      simp only [if_true] at hstep
      split at hstep
      · cases hstep; exact sessionSeen_of_far rfl
      · cases hstep; exact sessionSeen_of_far rfl
      · cases hstep; exact sessionSeen_of_far rfl
  | send =>
    simp only at hstep
    split at hstep
    · cases hstep; exact sessionSeen_of_far rfl
    · cases hstep; exact sessionSeen_of_far rfl
  | sendFailed e => cases hstep; exact sessionSeen_of_far (sendAgain_far _ e rfl)
  | returned rc => cases hstep

theorem interrupt_ne_poll (pc : PollPc) : pc.interrupt ≠ .poll := by
  unfold PollPc.interrupt
  split
  · rintro ⟨⟩
  · assumption

/-- A handler leaves every place but `poll` as it is. -/
theorem interrupt_eq {pc pc' : PollPc} (h : pc.interrupt = pc') (hne : pc' ≠ .testTerminate) : pc = pc' := by
  unfold PollPc.interrupt at h
  split at h
  · exact absurd h.symm hne
  · exact h

theorem SessionSeen.step {s s' : SessionLoop} {a : SessionAct} (h : SessionSeen s) (ha : a.Timely s)
    (hstep : runSessionStep s a = .next s') : SessionSeen s' := by
  have hpoll := interrupt_ne_poll s.pc
  cases a with
  | go env => exact h.go hstep
  | terminate =>
    cases hstep
    obtain ⟨h1, h2, h3⟩ := ha
    refine ⟨fun _ => ⟨fun hpc => h1 ?_, fun hpc => h2 ?_, fun hpc => h3 ?_, hpoll⟩, fun hw => ⟨fun hpc => (h.2 hw).1 ?_, hpoll⟩⟩
    · exact interrupt_eq hpc (by rintro ⟨⟩)
    · exact interrupt_eq hpc (by rintro ⟨⟩)
    · exact interrupt_eq hpc (by rintro ⟨⟩)
    · exact interrupt_eq hpc (by rintro ⟨⟩)
  | sigwinch =>
    cases hstep
    refine ⟨fun ht => ⟨fun hpc => (h.1 ht).1 ?_, fun hpc => (h.1 ht).2.1 ?_, fun hpc => (h.1 ht).2.2.1 ?_, hpoll⟩,
      fun _ => ⟨fun hpc => ha ?_, hpoll⟩⟩
    · exact interrupt_eq hpc (by rintro ⟨⟩)
    · exact interrupt_eq hpc (by rintro ⟨⟩)
    · exact interrupt_eq hpc (by rintro ⟨⟩)
    · exact interrupt_eq hpc (by rintro ⟨⟩)

end SignalsAux

open SignalsAux

/-- In a run without a signal between the test of its flag and the call that blocks, and without one that another thread of the server
takes while `main` is blocked, no signal is left waiting: neither behind `accept` nor behind `poll`, from whatever flags the loops
begin with. -/
theorem timely_signal_not_left_waiting (requested listening : Bool) (acts : List AcceptAct) (t : AcceptLoop)
    (terminate sigwinch : Bool) (sessionActs : List SessionAct) (u : SessionLoop) :
    (Meets acceptLoopStep (fun s a => a.Timely s) ⟨.top, requested, listening⟩ acts →
      exec acceptLoopStep ⟨.top, requested, listening⟩ acts = .next t → ¬(t.pc = .accept ∧ t.shutdownRequested = true)) ∧
    (Meets runSessionStep (fun s a => a.Timely s) ⟨.intro, terminate, sigwinch, false, false, false⟩ sessionActs →
      exec runSessionStep ⟨.intro, terminate, sigwinch, false, false, false⟩ sessionActs = .next u →
        ¬(u.pc = .poll ∧ (u.terminatePending = true ∨ u.sigwinchPending = true))) := by
  refine ⟨fun hok hrun => ?_, fun hok hrun => ?_⟩
  · have hinit : AcceptSeen ⟨.top, requested, listening⟩ := fun _ => ⟨by rintro ⟨⟩, by rintro ⟨⟩⟩
    have hseen := invariant_of_meets (P := AcceptSeen) (fun s a s' hs ha hstep => hs.step ha hstep) hinit hok hrun
    rintro ⟨hpc, hr⟩
    exact (hseen hr).1 hpc
  · have hinit : SessionSeen ⟨.intro, terminate, sigwinch, false, false, false⟩ := sessionSeen_of_far rfl
    have hseen := invariant_of_meets (P := SessionSeen) (fun s a s' hs ha hstep => hs.step ha hstep) hinit hok hrun
    rintro ⟨hpc, ht | hw⟩
    · exact (hseen.1 ht).2.2.2 hpc
    · exact (hseen.2 hw).2 hpc

/-- A terminal and a connection with nothing to say. -/
def quietSession : SessionEnv := ⟨.ok (), .nothing, .closed, .interrupted⟩

/-- A session that has nothing to do is blocked in `poll`, and is told to terminate there. -/
def quietRun : List SessionAct := [.go quietSession, .go quietSession, .go quietSession, .go quietSession, .terminate]

/-- A signal that comes while the process is blocked: the call has ended, of `main` and of `run_session`. -/
theorem timely_signal_wakes :
    (∃ t, exec acceptLoopStep ⟨.top, false, true⟩ [.main .nothing, .main .nothing, .signal true] = .next t ∧
      t.shutdownRequested = true ∧ t.pc ≠ .accept) ∧
    ∃ u, exec runSessionStep ⟨.intro, false, false, false, false, false⟩ quietRun = .next u ∧
      u.terminatePending = true ∧ u.pc ≠ .poll := by
  have hok : Meets acceptLoopStep (fun s a => a.Timely s) ⟨.top, false, true⟩ [.main .nothing, .main .nothing, .signal true] := by
    refine ⟨trivial, fun _ h => ?_⟩
    cases h
    refine ⟨trivial, fun _ h => ?_⟩
    cases h
    exact ⟨⟨by rintro ⟨⟩, fun _ => rfl⟩, fun _ _ => trivial⟩
  have hquiet : Meets runSessionStep (fun s a => a.Timely s) ⟨.intro, false, false, false, false, false⟩ quietRun := by
    refine ⟨trivial, fun _ h => ?_⟩
    cases h
    refine ⟨trivial, fun _ h => ?_⟩
    cases h
    refine ⟨trivial, fun _ h => ?_⟩
    cases h
    refine ⟨trivial, fun _ h => ?_⟩
    cases h
    -- the session is in `poll` now
    exact ⟨⟨by rintro ⟨⟩, by rintro ⟨⟩, by rintro ⟨⟩⟩, fun _ _ => trivial⟩
  obtain ⟨hmain, hsession⟩ := timely_signal_not_left_waiting false true _ ⟨.interrupted, true, true⟩ false false quietRun
    ⟨.testTerminate, true, false, false, false, false⟩
  exact ⟨⟨_, rfl, rfl, fun hpc => hmain hok rfl ⟨hpc, rfl⟩⟩, ⟨_, rfl, rfl, fun hpc => hsession hquiet rfl ⟨hpc, Or.inl rfl⟩⟩⟩

/-- A signal between the test and the call: `main` is blocked in `accept` with a shutdown requested, and `run_session` in `poll` with a
termination or a new size of the terminal pending. -/
theorem signal_left_waiting :
    (∃ acts t, exec acceptLoopStep ⟨.top, false, true⟩ acts = .next t ∧ t.pc = .accept ∧ t.shutdownRequested = true) ∧
    (∃ acts t, exec runSessionStep ⟨.intro, false, false, false, false, false⟩ acts = .next t ∧ t.pc = .poll ∧
      t.terminatePending = true) ∧
    ∃ acts t, exec runSessionStep ⟨.intro, false, false, false, false, false⟩ acts = .next t ∧ t.pc = .poll ∧
      t.sigwinchPending = true :=
  ⟨⟨[.main .nothing, .signal true, .main .nothing], _, rfl, rfl, rfl⟩,
    ⟨[.go quietSession, .go quietSession, .go quietSession, .terminate, .go quietSession], _, rfl, rfl, rfl⟩,
    ⟨[.go quietSession, .go quietSession, .go quietSession, .sigwinch, .go quietSession], _, rfl, rfl, rfl⟩⟩

end ZeroPty
