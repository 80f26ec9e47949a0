import ZeroPty.Lifecycle
import ZeroPty.Theorems.Sockets
import Mathlib.Data.List.Infix

/-!
# The life of a client

What a client has told the servers and how long it has paused after any attempts, when and with what status it ends, and that it leaves
no descriptor and no raw terminal.
-/

namespace ZeroPty

open Resources SocketsAux

/-! ## Attempts -/

/-- There is a connection in this attempt. -/
def Attempt.connects (a : Attempt) : Bool := !a.terminate && accepted a.found

/-- After this attempt the client goes on, if it is to retry. -/
def Attempt.goesOn (a : Attempt) : Bool := !a.terminate && (!a.connects || decide (0 < a.sessionRc))

/-- The status when the client ends with this attempt. -/
def Attempt.status (a : Attempt) : Nat := if a.terminate || (a.connects && a.sessionRc == 0) then 0 else 1

/-- What the sessions of some attempts left in `last_seq`. -/
def sessionSeqs (attempts : List Attempt) : List UInt64 := (attempts.filter Attempt.connects).map Attempt.lastSeq

/-- The failures in a row: the attempts since the last connection, which failed in the end too. -/
def failuresInRow (attempts : List Attempt) : Nat :=
  (attempts.reverse.takeWhile fun a => !a.connects).length + if attempts.any Attempt.connects then 1 else 0

/-- The pause after some attempts: a second, doubled for each further failure in a row, and eight at most. -/
def pauseAfter (attempts : List Attempt) : Nat := min (2 ^ (failuresInRow attempts - 1)) 8

/-- What the client has said in some attempts: the first session began with HELLO, and each later one told the server where the one
before it had come to. -/
structure Introduced (attempts : List Attempt) (s : ClientRun) : Prop where
  connectedOnce : s.connectedOnce = attempts.any Attempt.connects
  lastSeq : s.lastSeq = (sessionSeqs attempts).getLastD 0
  intros : s.intros = (none :: (sessionSeqs attempts).map some).take (sessionSeqs attempts).length

/-- The client after attempts that it went on after, with a pause after each. -/
structure Attempted (attempts : List Attempt) (s : ClientRun) : Prop extends Introduced attempts s where
  failures : s.retryFailures = UInt32.ofNat (failuresInRow attempts)
  delays : attempts.length < 2 ^ 32 → s.delays = attempts.inits.tail.map pauseAfter

namespace LifecycleAux

/-! ### Pauses -/

theorem retryDelayLoop_eq (failures k : Nat) (hk : k ≤ 3) : retryDelayLoop failures (2 ^ k) = min (2 ^ (k + (failures - 1))) 8 := by
  induction failures generalizing k with
  | zero =>
    have : 2 ^ k ≤ 2 ^ 3 := Nat.pow_le_pow_right (by omega) hk
    rw [retryDelayLoop, Nat.zero_sub, Nat.add_zero]
    omega
  | succ failures ih =>
    rw [retryDelayLoop]
    split
    next h =>
      have hlt : k < 3 := (Nat.pow_lt_pow_iff_right (a := 2) (by omega)).mp h.2
      rw [← Nat.pow_succ, ih (k + 1) (by omega)]
      congr 2
      omega
    next h =>
      have hle : 2 ^ k ≤ 2 ^ 3 := Nat.pow_le_pow_right (by omega) hk
      rw [not_and_or] at h
      rcases h with h | h
      · have : failures = 0 := by omega
        subst this
        simp only [Nat.zero_add, Nat.sub_self, Nat.add_zero]
        omega
      · have h8 : 2 ^ k = 8 := by
          have : optyRetryMaxDelaySec = 8 := rfl
          omega
        have hgrow : 2 ^ k ≤ 2 ^ (k + (failures + 1 - 1)) := Nat.pow_le_pow_right (by omega) (by omega)
        omega

/-- A pause is as long as the failures in a row say. -/
theorem sleepRetryInterval_eq (failures : UInt32) : sleepRetryInterval failures = min (2 ^ (failures.toNat - 1)) 8 := by
  have h := retryDelayLoop_eq failures.toNat 0 (by omega)
  rw [Nat.pow_zero, Nat.zero_add] at h
  rw [sleepRetryInterval, h, optyRetryMaxDelaySec, Nat.min_assoc, Nat.min_self]

/-! ### One more attempt -/

variable {attempts : List Attempt} {a : Attempt} {s : ClientRun}

theorem failuresInRow_concat (attempts : List Attempt) (a : Attempt) :
    failuresInRow (attempts ++ [a]) = if a.connects then 1 else failuresInRow attempts + 1 := by
  rw [failuresInRow, List.reverse_concat, List.any_append]
  cases h : a.connects with
  | true => simp [h]
  | false =>
    simp only [List.takeWhile_cons, h, failuresInRow]
    simp [h]
    omega

theorem failuresInRow_le (attempts : List Attempt) : failuresInRow attempts ≤ attempts.length := by
  induction attempts using List.reverseRecOn with
  | nil => exact Nat.zero_le _
  | append_singleton attempts a ih =>
    rw [failuresInRow_concat, List.length_append, List.length_singleton]
    split <;> omega

theorem inits_tail_concat (attempts : List Attempt) (a : Attempt) :
    (attempts ++ [a]).inits.tail = attempts.inits.tail ++ [attempts ++ [a]] := by
  rw [List.inits_append, List.tail_append_of_ne_nil (by cases attempts <;> simp)]
  rfl

theorem sessionSeqs_concat (attempts : List Attempt) (a : Attempt) :
    sessionSeqs (attempts ++ [a]) = if a.connects then sessionSeqs attempts ++ [a.lastSeq] else sessionSeqs attempts := by
  rw [sessionSeqs, List.filter_append, List.map_append]
  cases h : a.connects <;> simp [h, sessionSeqs]

/-- The pause after one more failure. -/
theorem pause_delays (hfail : s.retryFailures = UInt32.ofNat (failuresInRow (attempts ++ [a]) - 1))
    (hdelays : attempts.length < 2 ^ 32 → s.delays = attempts.inits.tail.map pauseAfter) (hlen : (attempts ++ [a]).length < 2 ^ 32) :
    s.pause.delays = (attempts ++ [a]).inits.tail.map pauseAfter := by
  have hle := failuresInRow_le (attempts ++ [a])
  have hpos : 0 < failuresInRow (attempts ++ [a]) := by
    rw [failuresInRow_concat]
    split <;> omega
  have hnat : (s.retryFailures + 1).toNat = failuresInRow (attempts ++ [a]) := by
    rw [hfail, UInt32.toNat_add, UInt32.toNat_ofNat_of_lt']
    · change (_ + 1) % 2 ^ 32 = _
      omega
    · change _ < 2 ^ 32
      omega
  rw [inits_tail_concat, List.map_append, ← hdelays (by rw [List.length_append] at hlen; omega)]
  rw [ClientRun.pause, sleepRetryInterval_eq, hnat]
  rfl

theorem attempted_start : Attempted [] .start := ⟨⟨rfl, rfl, rfl⟩, rfl, fun _ => rfl⟩

/-- An attempt without a connection. -/
theorem introduced_refused (h : Introduced attempts s) (ha : a.connects = false) : Introduced (attempts ++ [a]) s := by
  have hseqs : sessionSeqs (attempts ++ [a]) = sessionSeqs attempts := by simp [sessionSeqs_concat, ha]
  constructor
  · simp [h.connectedOnce, ha]
  · rw [hseqs, h.lastSeq]
  · rw [hseqs, h.intros]

/-- The intro of a session. -/
theorem introduced_session (h : Introduced attempts s) (ha : a.connects = true) : Introduced (attempts ++ [a]) (s.session a) := by
  have hseqs : sessionSeqs (attempts ++ [a]) = sessionSeqs attempts ++ [a.lastSeq] := by simp [sessionSeqs_concat, ha]
  have honce : attempts.any Attempt.connects = !(sessionSeqs attempts).isEmpty := by
    rw [sessionSeqs, List.isEmpty_map, Bool.eq_iff_iff]
    simp
  constructor
  · simp [ClientRun.session, ha]
  · simp [hseqs, ClientRun.session]
  · have hall : (none :: (sessionSeqs (attempts ++ [a])).map some).take (sessionSeqs (attempts ++ [a])).length
        = none :: (sessionSeqs attempts).map some := by
      rw [hseqs]
      simp
    rw [hall]
    change s.intros ++ [if s.connectedOnce then some s.lastSeq else none] = _
    rw [h.intros, h.connectedOnce, honce, h.lastSeq]
    -- the last of the sequence numbers before is the one that is sent now
    cases hs : sessionSeqs attempts using List.reverseRecOn with
    | nil => rfl
    | append_singleton seqs seq => simp

theorem attempted_refused (h : Attempted attempts s) (ha : a.connects = false) : Attempted (attempts ++ [a]) s.pause := by
  have hrow : failuresInRow (attempts ++ [a]) = failuresInRow attempts + 1 := by simp [failuresInRow_concat, ha]
  have hintro := introduced_refused h.toIntroduced ha
  refine ⟨⟨hintro.connectedOnce, hintro.lastSeq, hintro.intros⟩, ?_, pause_delays (by rw [hrow]; exact h.failures) h.delays⟩
  rw [hrow, ClientRun.pause, h.failures]
  exact (UInt32.ofNat_add _ 1).symm

theorem attempted_session (h : Attempted attempts s) (ha : a.connects = true) : Attempted (attempts ++ [a]) (s.session a).pause := by
  have hrow : failuresInRow (attempts ++ [a]) = 1 := by simp [failuresInRow_concat, ha]
  have hintro := introduced_session h.toIntroduced ha
  refine ⟨⟨hintro.connectedOnce, hintro.lastSeq, hintro.intros⟩, ?_, pause_delays (by rw [hrow]; rfl) h.delays⟩
  rw [hrow]
  rfl

/-! ### The loop -/

variable {held : Finset Handle} {retry : Bool}

/-- What one pass comes to: the client goes on after a pause, or ends with the status of the attempt. -/
def PassSpec (retry : Bool) (s : ClientRun) (a : Attempt) (r : Option Nat × ClientRun) : Prop :=
  (r.1 = none ∧ retry = true ∧ a.goesOn = true ∧ r.2 = if a.connects then (s.session a).pause else s.pause) ∨
  (r.1 = some a.status ∧ (retry = true → a.goesOn = false) ∧ r.2 = if a.connects then s.session a else s)

theorem clientPass_leaves (hfree : .addrinfo ∉ held) :
    Leaves held (clientPass retry s a) fun r after => after = held ∧ PassSpec retry s a r := by
  rw [clientPass]
  split
  next hterm =>
    refine leaves_pure.mpr ⟨rfl, .inr ⟨?_, fun _ => ?_, ?_⟩⟩ <;> simp [Attempt.status, Attempt.goesOn, Attempt.connects, hterm]
  next hterm =>
    rw [leaves_bind]
    refine (firstAddress_leaves Address.connect hfree).mono ?_
    rintro r after ⟨hfind, hkeeps⟩
    cases r with
    | none =>
      have hrefused : a.connects = false := by
        have hnone := List.find?_eq_none.mp hfind.symm
        rw [Attempt.connects, accepted, Bool.and_eq_false_iff, List.any_eq_false]
        exact .inr hnone
      rw [keeps_none.mp hkeeps]
      cases retry with
      | true => exact leaves_pure.mpr ⟨rfl, .inl ⟨rfl, rfl, by simp [Attempt.goesOn, hterm, hrefused], by simp [hrefused]⟩⟩
      | false => exact leaves_pure.mpr ⟨rfl, .inr ⟨by simp [Attempt.status, hterm, hrefused], by simp, by simp [hrefused]⟩⟩
    | some r =>
      have hfound := hfind.symm
      have hconnects : a.connects = true := by
        have hr : (r.2.socket && r.2.connect) = true := List.find?_some (p := fun a : Address => a.socket && a.connect) hfound
        rw [Attempt.connects, accepted, Bool.and_eq_true, List.any_eq_true]
        exact ⟨by simp [hterm], r.2, List.mem_of_find?_eq_some hfound, hr⟩
      obtain ⟨hnew, hafter⟩ := keeps_some.mp hkeeps
      rw [hafter]
      change Leaves _ (release (Handle.fd r.1) >>= _) _
      rw [leaves_bind]
      refine leaves_release_insert hnew ?_
      split
      next hrc =>
        refine leaves_pure.mpr ⟨rfl, .inr ⟨?_, fun _ => ?_, ?_⟩⟩ <;> simp [Attempt.status, Attempt.goesOn, hconnects, hrc]
      next hrc =>
        split
        next hpos =>
          cases retry with
          | true =>
            refine leaves_pure.mpr ⟨rfl, .inl ⟨rfl, rfl, ?_, ?_⟩⟩ <;> simp [Attempt.goesOn, hterm, hconnects, hpos]
          | false =>
            refine leaves_pure.mpr ⟨rfl, .inr ⟨?_, by simp, ?_⟩⟩ <;> simp [Attempt.status, hterm, hconnects, hrc]
        next hneg =>
          refine leaves_pure.mpr ⟨rfl, .inr ⟨?_, fun _ => ?_, ?_⟩⟩ <;>
            simp [Attempt.status, Attempt.goesOn, hterm, hconnects, hrc, hneg]

/-- What the client has come to after some attempts. -/
def LoopSpec (retry : Bool) (attempts : List Attempt) (r : Option Nat × ClientRun) : Prop :=
  (r.1 = none → (∀ a ∈ attempts, a.goesOn = true) ∧ (retry = true ∨ attempts = []) ∧ Attempted attempts r.2) ∧
  ∀ status, r.1 = some status → ∃ before a rest, attempts = before ++ a :: rest ∧ (∀ b ∈ before, b.goesOn = true) ∧
    (retry = true ∨ before = []) ∧ (retry = true → a.goesOn = false) ∧ status = a.status ∧ Introduced (before ++ [a]) r.2 ∧
    (before.length < 2 ^ 32 → r.2.delays = before.inits.tail.map pauseAfter)

theorem clientLoop_leaves (hfree : .addrinfo ∉ held) (before rest : List Attempt) (hs : Attempted before s)
    (hbefore : ∀ a ∈ before, a.goesOn = true) (hretry : retry = true ∨ before = []) :
    Leaves held (clientLoop retry s rest) fun r after => after = held ∧ LoopSpec retry (before ++ rest) r := by
  induction rest generalizing before s with
  | nil =>
    rw [List.append_nil]
    refine leaves_pure.mpr ⟨rfl, fun _ => ⟨hbefore, hretry, hs⟩, fun _ h => ?_⟩
    cases h
  | cons a rest ih =>
    rw [clientLoop, leaves_bind]
    refine (clientPass_leaves hfree).mono ?_
    rintro ⟨status, s'⟩ after ⟨rfl, hpass⟩
    rcases hpass with ⟨rfl, hr, hon, hs'⟩ | ⟨rfl, hend, hs'⟩
    · rw [if_pos rfl, List.append_cons]
      refine ih (before ++ [a]) ?_ ?_ (.inl hr)
      · cases hc : a.connects with
        | true =>
          simp only [hc, if_true] at hs'
          exact hs' ▸ attempted_session hs hc
        | false =>
          simp only [hc, Bool.false_eq_true, if_false] at hs'
          exact hs' ▸ attempted_refused hs hc
      · intro b hb
        rw [List.mem_append, List.mem_singleton] at hb
        exact hb.elim (hbefore b) fun h => h ▸ hon
    · rw [if_neg (by simp)]
      refine leaves_pure.mpr ⟨rfl, fun h => ?_, fun _ h => ?_⟩
      · cases h
      · cases h
        refine ⟨before, a, rest, rfl, hbefore, hretry, hend, rfl, ?_⟩
        cases hc : a.connects with
        | true =>
          simp only [hc, if_true] at hs'
          exact hs' ▸ ⟨introduced_session hs.toIntroduced hc, hs.delays⟩
        | false =>
          simp only [hc, Bool.false_eq_true, if_false] at hs'
          exact hs' ▸ ⟨introduced_refused hs.toIntroduced hc, hs.delays⟩

end LifecycleAux

open LifecycleAux

/-- The loop of the client, after any attempts. It opens nothing that it does not close. While it is in progress every attempt was one
to go on after, each session but the first resumed where the one before it ended, and the pauses grew from one second to eight with the
failures in a row. It ends with the first attempt that it does not go on after, or with the first one when it is not to retry, and the
status is 0 when it was told to terminate or the session ended well, and 1 otherwise. What is said of the pauses is so for fewer than
`2 ^ 32` attempts: the failures are counted in an `unsigned int`. -/
theorem client_loop_explained (held : Finset Handle) (retry : Bool) (attempts : List Attempt) (hfree : .addrinfo ∉ held) :
    Leaves held (clientLoop retry .start attempts) fun r after =>
      after = held ∧
      (r.1 = none → (∀ a ∈ attempts, a.goesOn = true) ∧ (retry = true ∨ attempts = []) ∧ Attempted attempts r.2) ∧
      ∀ status, r.1 = some status → ∃ before a rest, attempts = before ++ a :: rest ∧ (∀ b ∈ before, b.goesOn = true) ∧
        (retry = true ∨ before = []) ∧ (retry = true → a.goesOn = false) ∧ status = a.status ∧ Introduced (before ++ [a]) r.2 ∧
        (before.length < 2 ^ 32 → r.2.delays = before.inits.tail.map pauseAfter) := by
  exact clientLoop_leaves hfree [] attempts attempted_start (List.forall_mem_nil _) (.inr rfl)

/-- A client that is refused twice, has a session that breaks off, and is refused once more. -/
def brokenOff : List Attempt :=
  [⟨false, none, 0, 0⟩, ⟨false, some [], 0, 0⟩, ⟨false, some localhost, 1, 700⟩, ⟨false, none, 0, 0⟩]

/-- It goes on, with one session behind it. -/
theorem client_loop_explained_brokenOff :
    Leaves stdio (clientLoop true .start brokenOff) fun r after =>
      after = stdio ∧ r.1 = none ∧ r.2.intros = [none] ∧ r.2.lastSeq = 700 ∧ r.2.delays = [1, 2, 1, 2] := by
  have hon : ∀ a ∈ brokenOff, a.goesOn = true := by decide
  have h := client_loop_explained stdio true brokenOff (by decide)
  refine h.mono ?_
  rintro r after ⟨hafter, hnone, hsome⟩
  cases hr : r.1 with
  | none =>
    obtain ⟨-, -, hs⟩ := hnone hr
    exact ⟨hafter, rfl, hs.intros, hs.lastSeq, hs.delays (by decide)⟩
  | some status =>
    obtain ⟨before, a, rest, heq, -, -, hend, -⟩ := hsome status hr
    have ha : a ∈ brokenOff := by simp [heq]
    exact absurd (hon a ha) (by simp [hend rfl])

/-! ## The whole client -/

namespace LifecycleAux

variable {base held : Finset Handle} {w : EndpointWorld} {retry : Bool} {attempts : List Attempt}

/-- What `run_client_endpoint` leaves: nothing when it returns, and the log and the raw terminal while it runs. -/
def EndpointSpec (base : Finset Handle) (w : EndpointWorld) (r : EndpointRun) (after : Finset Handle) : Prop :=
  (∀ status, r.status = some status →
    after = base ∧ (w.terminal.setSaved = true → (r.terminal.exit w.terminal).raw = false)) ∧
  (r.status = none → r.terminal.raw = w.terminal.isatty ∧
    if w.log = none then after = base else ∃ fd, .fd fd ∉ base ∧ after = insert (.fd fd) base)

/-- A terminal that is raw is restored, before the client returns or at exit. -/
theorem enableRawMode_some {t : Terminal} (ht : enableRawMode w.terminal .start = some t) :
    t.raw = w.terminal.isatty ∧ (w.terminal.setSaved = true → (t.exit w.terminal).raw = false ∧
      ((restoreTerminal w.terminal t).exit w.terminal).raw = false) := by
  rw [enableRawMode] at ht
  split at ht
  next h =>
    cases ht
    simp [Terminal.start, Terminal.exit, restoreTerminal, h]
  next h =>
    split at ht
    next => cases ht
    next =>
      split at ht
      next => cases ht
      next =>
        cases ht
        simp_all [Terminal.exit, restoreTerminal]

/-- A return before the loop. -/
theorem endpointSpec_early {t : Terminal} {run : ClientRun} {status : Nat}
    (ht : w.terminal.setSaved = true → (t.exit w.terminal).raw = false) : EndpointSpec base w ⟨some status, t, run⟩ base :=
  ⟨fun _ _ => ⟨rfl, ht⟩, fun h => by cases h⟩

theorem openScrollbackLog_leaves (opens fchmod : Bool) :
    Leaves base (openScrollbackLog opens fchmod) fun r after =>
      (r = none → after = base) ∧ ∀ fd, r = some fd → .fd fd ∉ base ∧ after = insert (.fd fd) base := by
  rw [openScrollbackLog]
  split
  next =>
    rw [leaves_bind]
    refine take_fd fun fd hfd => ?_
    split
    next =>
      refine leaves_pure.mpr ⟨fun h => ?_, fun fd' h => ?_⟩
      · cases h
      · cases h
        exact ⟨hfd, rfl⟩
    next =>
      rw [leaves_bind]
      refine leaves_release_insert hfd (leaves_pure.mpr ⟨fun _ => rfl, fun _ h => ?_⟩)
      cases h
  next =>
    refine leaves_pure.mpr ⟨fun _ => rfl, fun _ h => ?_⟩
    cases h

/-- The loop and what is done after it. -/
theorem clientEnd_leaves {t : Terminal} {log : Option Nat} (hfree : .addrinfo ∉ held)
    (ht : enableRawMode w.terminal .start = some t) (hlog : log = none ↔ w.log = none)
    (hheld : (log = none → held = base) ∧ ∀ fd, log = some fd → .fd fd ∉ base ∧ held = insert (.fd fd) base) :
    Leaves held (clientEnd w retry t log attempts) (EndpointSpec base w) := by
  obtain ⟨hraw, hexit⟩ := enableRawMode_some ht
  rw [clientEnd, leaves_bind]
  refine (clientLoop_leaves hfree [] attempts attempted_start (List.forall_mem_nil _) (.inr rfl)).mono ?_
  rintro ⟨status, run⟩ after ⟨rfl, -⟩
  cases status with
  | none =>
    refine leaves_pure.mpr ⟨fun _ h => ?_, fun _ => ⟨hraw, ?_⟩⟩
    · cases h
    · cases log with
      | none => rw [if_pos (hlog.mp rfl), hheld.1 rfl]
      | some fd =>
        rw [if_neg fun h => by cases hlog.mpr h]
        exact ⟨fd, hheld.2 fd rfl⟩
  | some status =>
    have hend : EndpointSpec base w ⟨some status, restoreTerminal w.terminal t, run⟩ base :=
      endpointSpec_early fun h => (hexit h).2
    cases log with
    | none =>
      rw [hheld.1 rfl]
      exact leaves_pure.mpr hend
    | some fd =>
      obtain ⟨hfd, hafter⟩ := hheld.2 fd rfl
      rw [hafter]
      change Leaves _ (release (Handle.fd fd) >>= _) _
      rw [leaves_bind]
      exact leaves_release_insert hfd (leaves_pure.mpr hend)

end LifecycleAux

/-- However `run_client_endpoint` returns, its descriptors are closed, each once, and the terminal is not raw after the process exits,
if it can be set at all. While it runs, the terminal is raw if there is one, and the log is the only descriptor between two attempts. -/
theorem client_restores_terminal (base : Finset Handle) (w : EndpointWorld) (retry : Bool) (attempts : List Attempt)
    (hfree : .addrinfo ∉ base) :
    Leaves base (runClientEndpoint w retry attempts) fun r after =>
      (∀ status, r.status = some status →
        after = base ∧ (w.terminal.setSaved = true → (r.terminal.exit w.terminal).raw = false)) ∧
      (r.status = none → r.terminal.raw = w.terminal.isatty ∧
        if w.log = none then after = base else ∃ fd, .fd fd ∉ base ∧ after = insert (.fd fd) base) := by
  have hstart : w.terminal.setSaved = true → (Terminal.start.exit w.terminal).raw = false := fun _ => rfl
  change Leaves base _ (EndpointSpec base w)
  rw [runClientEndpoint]
  split
  next => exact leaves_pure.mpr (endpointSpec_early hstart)
  next =>
    split
    next => exact leaves_pure.mpr (endpointSpec_early hstart)
    next =>
      split
      next => exact leaves_pure.mpr (endpointSpec_early hstart)
      next t ht =>
        split
        next hlog => exact clientEnd_leaves hfree ht (by simp [hlog]) ⟨fun _ => rfl, fun _ h => by cases h⟩
        next opens fchmod hlog =>
          rw [leaves_bind]
          refine (openScrollbackLog_leaves opens fchmod).mono ?_
          rintro r after hr
          cases r with
          | none =>
            rw [hr.1 rfl]
            exact leaves_pure.mpr (endpointSpec_early fun h => ((enableRawMode_some ht).2 h).1)
          | some fd =>
            have hafter : Handle.addrinfo ∉ after := by
              rw [(hr.2 fd rfl).2]
              simp [hfree]
            exact clientEnd_leaves hafter ht (by simp [hlog]) hr

/-- A client with a terminal and a log. -/
def loggingClient : EndpointWorld := ⟨none, true, ⟨true, true, true, true⟩, some (true, true)⟩

theorem client_restores_terminal_logging :
    Leaves stdio (runClientEndpoint loggingClient true brokenOff) fun r after =>
      (r.status ≠ none → after = stdio ∧ (r.terminal.exit loggingClient.terminal).raw = false) ∧
      (r.status = none → r.terminal.raw = true) := by
  have h := client_restores_terminal stdio loggingClient true brokenOff (by decide)
  refine h.mono ?_
  rintro r after ⟨hreturned, hrunning⟩
  refine ⟨fun hr => ?_, fun hr => (hrunning hr).1⟩
  obtain ⟨status, hstatus⟩ := Option.ne_none_iff_exists'.mp hr
  obtain ⟨hafter, hraw⟩ := hreturned status hstatus
  exact ⟨hafter, hraw rfl⟩

end ZeroPty
