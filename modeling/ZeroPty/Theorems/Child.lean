import ZeroPty.Lemmas.Child

/-!
# Signalling, reaping and waiting for the child
-/

namespace ZeroPty

open Transition

/-! ## Signals -/

/-- What holds of the mutex, of what was reaped and of every escalation. -/
def ChildInv (s : ChildSys) : Prop := LockInv s ∧ ReapInv s ∧ TraceInv s

theorem childInv_exec {acts : List ChildAct} {s : ChildSys} (h : exec childStep .init acts = .next s) : ChildInv s := by
  refine invariant (Q := fun _ => True) ?_ ⟨lockInv_init, reapInv_init, traceInv_init⟩ (fun _ _ => trivial) h
  rintro s a s' ⟨hlock, hreap, htrace⟩ - hstep
  have hm := childStep_moves hstep
  exact ⟨lockInv_moves hlock hm, reapInv_moves hlock hreap hm, traceInv_moves htrace hm⟩

/-- Only `server_signal_child` issues a signal, and only with `child_reaped` at 0. -/
theorem kill_of_moves {s t : ChildSys} {a : ChildAct} (hm : ChildMoves s a t) {who : Who} {sig : Signal}
    (hkill : t.events = s.events ++ [(who, .kill sig)]) : s.pc who = .signal sig ∧ s.childReaped = false := by
  cases hm with
  | kill hpc hr =>
    simp only [ChildSys.goto, ChildSys.record, ChildSys.kill, List.append_cancel_left_eq, List.cons.injEq, Prod.mk.injEq,
      ChildEvent.kill.injEq] at hkill
    obtain ⟨⟨rfl, rfl⟩, -⟩ := hkill
    exact ⟨hpc, hr⟩
  | closeTerminal | exit hrun | request hpc | eof hpc | lock hp hfree | again | pollGone hpc hr | pollRunning hpc hr
  | pollFailed hpc hr | wait hpc | skip hpc hr | unlockSignal hpc | blockEnd hpc | unlockBlocking hpc =>
    exact absurd (congrArg List.length hkill) (by simp [ChildSys.goto, ChildSys.unlock])
  | pollWaited hpc hr hexit | pollNoChild hpc hr | storePoll hpc | ended hpc hp | expired hpc hgrace
  | blockWaited hpc hr hexit | blockNoChild hpc hr | storeBlocking hpc =>
    have := List.append_cancel_left hkill
    cases this

/-- In every state of every interleaving of shutdown requests, the PTY thread and the child: a signal is issued only with
`child_reaped` at 0 and before `waitpid` has returned the status to anyone; `waitpid` returns the status once at most, and
`child_status` is set once at most; and each request has issued its signals in the order of the escalation, each after the wait
before it expired, and nothing after a wait that found the child gone or failed. -/
theorem child_signalled_in_order (acts : List ChildAct) (s : ChildSys) (h : exec childStep .init acts = .next s) :
    (∀ a s' who sig, childStep s a = .next s' → s'.events = s.events ++ [(who, .kill sig)] →
      s.childReaped = false ∧ ∀ e ∈ s.events, e.2.isWaited = false ∧ e.2.isReaped = false) ∧
    s.events.countP (fun e => e.2.isWaited) ≤ 1 ∧ s.events.countP (fun e => e.2.isStatus) ≤ 1 ∧
    ∀ t, ∃ k, escalationOf s.events t = escalation.take k ∨ escalationOf s.events t = escalation.take k ++ [.ended] := by
  obtain ⟨hlock, hreap, htrace⟩ := childInv_exec h
  refine ⟨fun a s' who sig hstep hkill => ?_, ?_, hreap.status, fun t => ?_⟩
  · obtain ⟨hpc, hr⟩ := kill_of_moves (childStep_moves hstep) hkill
    exact ⟨hr, (hreap.unreaped hlock (by rw [hpc]; rfl) (by rw [hpc]; rfl) hr).2⟩
  · rw [hreap.waited]
    split <;> omega
  · exact (htrace t).end

/-- A request whose first wait expires, and whose child exits on the SIGHUP. -/
def hangupRun : List ChildAct :=
  [.request 0] ++ (List.replicate 41 [.thread (.request 0) .notYet, .thread (.request 0) .notYet, .thread (.request 0) .notYet]).flatten ++
    List.replicate 3 (.thread (.request 0) .notYet) ++ [.exit 0] ++ List.replicate 4 (.thread (.request 0) (.status 0))

theorem child_signalled_in_order_hangup :
    ∃ s, exec childStep .init hangupRun = .next s ∧
      s.events = [(.request 0, .expired .hup), (.request 0, .kill .hup), (.request 0, .waited 0), (.request 0, .reaped (some 0)),
        (.request 0, .ended)] ∧
      ∃ k, escalationOf s.events 0 = escalation.take k ∨ escalationOf s.events 0 = escalation.take k ++ [.ended] := by
  have hrun : (exec childStep .init hangupRun).passes (fun s => s.events ==
      [(.request 0, .expired .hup), (.request 0, .kill .hup), (.request 0, .waited 0), (.request 0, .reaped (some 0)),
        (.request 0, .ended)]) = true := by
    decide +kernel
  obtain ⟨s, hs, htest⟩ := Outcome.passes_iff.1 hrun
  exact ⟨s, hs, beq_iff_eq.1 htest, (child_signalled_in_order hangupRun s hs).2.2.2 0⟩

/-! ## Waiting -/

/-- The thread waits for `child_mu` in `server_wait_child_deadline` or `server_signal_child`. -/
def ChildPc.isWaiting : ChildPc → Bool
  | .lockPoll _ _ | .lockSignal _ => true
  | _ => false

/-- A request waits for `child_mu` while its holder is blocked in `waitpid`, and the child runs and was not sent SIGKILL. -/
def CutOff (s : ChildSys) : Prop :=
  ∃ t who, (s.pc (.request t)).isWaiting = true ∧ s.holder = some who ∧ s.pc who = .blocking ∧ s.childReaped = false ∧
    s.proc = .running ∧ s.killed = false

/-- The escalation of a stop request is not cut off, in any state of a run in which the PTY thread takes `child_mu` for its final wait
only when the child has exited or was sent SIGKILL. -/
theorem stop_can_escalate (acts : List ChildAct) (hacts : Meets childStep PtyWaitsLate .init acts) (s : ChildSys)
    (h : exec childStep .init acts = .next s) : ¬CutOff s := by
  have hinv : BlockInv s := by
    refine invariant_of_meets ?_ blockInv_init hacts h
    intro s a s' hs hok hstep
    exact blockInv_moves hs hok (childStep_moves hstep)
  rintro ⟨t, who, -, -, hpc, hreaped, hrun, hkilled⟩
  have hending : s.Ending := by
    cases who with
    | pty => exact hinv.pty hpc
    | request i => exact hinv.request i (by rw [hpc]; rfl)
  rcases hending with he | he | he
  · exact he hrun
  · rw [hkilled] at he
    cases he
  · rw [hreaped] at he
    cases he

/-- The child exits, and then the PTY thread waits for it, next to a request. -/
theorem stop_can_escalate_after_exit :
    ∃ s, exec childStep .init [.request 0, .exit 0, .closeTerminal, .eof, .thread .pty .interrupted] = .next s ∧
      s.holder = some .pty ∧ ¬CutOff s := by
  have hmeets : Meets childStep PtyWaitsLate .init [.request 0, .exit 0, .closeTerminal, .eof, .thread .pty .interrupted] := by
    refine ⟨trivial, ?_⟩
    rintro _ ⟨⟩
    refine ⟨trivial, ?_⟩
    rintro _ ⟨⟩
    refine ⟨trivial, ?_⟩
    rintro _ ⟨⟩
    refine ⟨trivial, ?_⟩
    rintro _ ⟨⟩
    exact ⟨fun _ => Or.inl nofun, fun _ _ => trivial⟩
  exact ⟨_, rfl, rfl, stop_can_escalate _ hmeets _ rfl⟩

/-- A child that closes its terminal and goes on running cuts it off: the PTY thread keeps `child_mu` until the child exits. -/
theorem stop_cut_off :
    ∃ s, exec childStep .init [.closeTerminal, .eof, .thread .pty .interrupted, .request 0] = .next s ∧ CutOff s :=
  ⟨_, rfl, 0, .pty, rfl, rfl, rfl, rfl, rfl, rfl⟩

end ZeroPty
