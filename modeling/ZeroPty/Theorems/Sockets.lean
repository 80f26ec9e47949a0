import ZeroPty.Sockets

/-!
# Sockets

What the loops over addresses leave open, what they find, and how long the probes wait.
-/

namespace ZeroPty

open Resources

/-! ## The first good address -/

/-- The handles after a loop: those before it, and the socket that it returns. -/
def Keeps (held : Finset Handle) (r : Option (Nat × Address)) (after : Finset Handle) : Prop :=
  (r = none → after = held) ∧ ∀ fd a, r = some (fd, a) → .fd fd ∉ held ∧ after = insert (.fd fd) held

namespace SocketsAux

variable {held : Finset Handle} {found : Option (List Address)}

theorem keeps_none {after : Finset Handle} : Keeps held none after ↔ after = held :=
  ⟨fun h => h.1 rfl, fun h => ⟨fun _ => h, fun _ _ h => by cases h⟩⟩

theorem keeps_some {fd : Nat} {a : Address} {after : Finset Handle} :
    Keeps held (some (fd, a)) after ↔ .fd fd ∉ held ∧ after = insert (.fd fd) held := by
  constructor
  · exact fun h => h.2 fd a rfl
  · refine fun h => ⟨fun h' => ?_, fun fd' a' h' => ?_⟩
    · cases h'
    · cases h'
      exact h

/-- A new descriptor. -/
theorem take_fd {S : Nat → Finset Handle → Prop} (h : ∀ fd, .fd fd ∉ held → S fd (insert (.fd fd) held)) :
    Leaves held descriptors.take S :=
  descriptors.leaves_take h

/-- What is freed after the loops. -/
theorem erase_addrinfo (hfree : .addrinfo ∉ held) (fd : Nat) :
    (insert (Handle.fd fd) (insert .addrinfo held)).erase .addrinfo = insert (.fd fd) held := by
  have hne : Handle.fd fd ≠ .addrinfo := fun h => by cases h
  rw [Finset.erase_insert_of_ne hne, Finset.erase_insert hfree]

theorem firstAddress_leaves (good : Address → Bool) (hfree : .addrinfo ∉ held) :
    Leaves held (firstAddress good found) fun r after =>
      r.map Prod.snd = (found.getD []).find? (fun a => a.socket && good a) ∧ Keeps held r after := by
  cases found with
  | none => exact leaves_pure.mpr ⟨rfl, keeps_none.mpr rfl⟩
  | some addrs =>
    rw [firstAddress, leaves_bind, leaves_acquire]
    refine ⟨hfree, ?_⟩
    rw [leaves_bind]
    refine (leaves_tryEach descriptors Address.socket good addrs).mono ?_
    rintro r after ⟨hfind, hnone, hsome⟩
    rw [leaves_bind, leaves_release, leaves_pure]
    cases r with
    | none =>
      rw [hnone rfl]
      exact ⟨Finset.mem_insert_self _ _, hfind, keeps_none.mpr (Finset.erase_insert hfree)⟩
    | some r =>
      obtain ⟨hnew, hafter⟩ := hsome r.1 r.2 rfl
      have hfd : Handle.fd r.1 ∉ held := fun h => hnew (Finset.mem_insert_of_mem h)
      rw [hafter]
      exact ⟨by simp, hfind, keeps_some.mpr ⟨hfd, erase_addrinfo hfree r.1⟩⟩

theorem optyEndpointAccepts_leaves (hfree : .addrinfo ∉ held) :
    Leaves held (optyEndpointAccepts found) fun accepts after =>
      accepts = (found.getD []).any (fun a => a.socket && a.connect) ∧ after = held := by
  rw [optyEndpointAccepts, leaves_bind]
  refine (firstAddress_leaves Address.connect hfree).mono ?_
  rintro r after ⟨hfind, hkeeps⟩
  cases r with
  | none =>
    refine leaves_pure.mpr ⟨?_, keeps_none.mp hkeeps⟩
    rw [eq_comm, List.any_eq_false]
    exact List.find?_eq_none.mp hfind.symm
  | some r =>
    obtain ⟨hfd, hafter⟩ := keeps_some.mp hkeeps
    rw [hafter, leaves_bind]
    refine leaves_release_insert hfd (leaves_pure.mpr ⟨?_, rfl⟩)
    rw [eq_comm, List.any_eq_true]
    have hfound := hfind.symm
    exact ⟨r.2, List.mem_of_find?_eq_some hfound, List.find?_some (p := fun a : Address => a.socket && a.connect) hfound⟩

theorem bindableLoop_leaves (addrs : List Address) :
    Leaves held (bindableLoop addrs) fun bindable after =>
      bindable = addrs.any (fun a => a.socket && a.bind) ∧ after = held := by
  induction addrs with
  | nil => exact leaves_pure.mpr ⟨rfl, rfl⟩
  | cons a addrs ih =>
    rw [bindableLoop]
    split
    next hsocket =>
      rw [leaves_bind]
      refine take_fd fun fd hfd => ?_
      rw [leaves_bind]
      refine leaves_release_insert hfd ?_
      split
      next hbind => exact leaves_pure.mpr ⟨by simp [hsocket, hbind], rfl⟩
      next hbind => simpa [hsocket, hbind] using ih
    next hsocket => simpa [hsocket] using ih

theorem optyEndpointBindable_leaves (hfree : .addrinfo ∉ held) :
    Leaves held (optyEndpointBindable found) fun bindable after =>
      bindable = (found.getD []).any (fun a => a.socket && a.bind) ∧ after = held := by
  cases found with
  | none => exact leaves_pure.mpr ⟨rfl, rfl⟩
  | some addrs =>
    rw [optyEndpointBindable, leaves_bind, leaves_acquire]
    refine ⟨hfree, ?_⟩
    rw [leaves_bind]
    refine (bindableLoop_leaves addrs).mono ?_
    rintro bindable after ⟨hbindable, rfl⟩
    rw [leaves_bind]
    exact leaves_release_insert hfree (leaves_pure.mpr ⟨hbindable, rfl⟩)

end SocketsAux

open SocketsAux

/-- The loops over addresses have no fault: each socket is closed once, except the one that is returned, and the list is freed. What
they return is the socket of the first address that can be used, and whether there is one. -/
theorem address_loops_close (held : Finset Handle) (found : Option (List Address)) (hfree : .addrinfo ∉ held) :
    Leaves held (connectEndpoint found) (fun r after =>
      r.map Prod.snd = (found.getD []).find? (fun a => a.socket && a.connect) ∧ Keeps held r after) ∧
    Leaves held (serverCreateListener found) (fun r after =>
      r.map Prod.snd = (found.getD []).find? (fun a => a.socket && a.listens) ∧ Keeps held r after) ∧
    Leaves held (optyEndpointAccepts found) (fun accepts after =>
      (accepts = true ↔ ∃ a ∈ found.getD [], a.socket = true ∧ a.connect = true) ∧ after = held) ∧
    Leaves held (optyEndpointBindable found) (fun bindable after =>
      (bindable = true ↔ ∃ a ∈ found.getD [], a.socket = true ∧ a.bind = true) ∧ after = held) := by
  refine ⟨firstAddress_leaves _ hfree, firstAddress_leaves _ hfree, ?_, ?_⟩
  · refine (optyEndpointAccepts_leaves hfree).mono ?_
    rintro accepts after ⟨rfl, hafter⟩
    exact ⟨by simp, hafter⟩
  · refine (optyEndpointBindable_leaves hfree).mono ?_
    rintro bindable after ⟨rfl, hafter⟩
    exact ⟨by simp, hafter⟩

/-- The addresses of a host name: nobody listens at the first, and the second takes connections. -/
def localhost : List Address :=
  [⟨true, true, true, true, true, false, true, .failed⟩, ⟨false, true, true, true, true, true, true, .inProgress 1 (.ready true true)⟩]

/-- The descriptors that a process is started with. -/
def stdio : Finset Handle := {.fd 0, .fd 1, .fd 2}

/-- The second address is connected to, and its socket is the only one left. -/
theorem address_loops_close_localhost :
    Leaves stdio (connectEndpoint (some localhost)) fun r after =>
      r.map Prod.snd = some ⟨false, true, true, true, true, true, true, .inProgress 1 (.ready true true)⟩ ∧
      Keeps stdio r after :=
  (address_loops_close stdio (some localhost) (by decide)).1

/-! ## Probes -/

/-- A probe finds a server at this address, if it has the time. -/
def Address.answers (a : Address) : Bool :=
  a.socket && a.nonblocking &&
  match a.start with
  | .connected => true
  | .inProgress _ last => last.connects
  | .failed => false

/-- The wait ends at the deadline, and is not longer than the timeout. -/
def Wait.Ends (timeoutMs deadline : Int) (w : Wait) : Prop :=
  0 < w.ms ∧ w.ms ≤ timeoutMs ∧ ∃ now, w.now = some now ∧ now + w.ms = deadline

namespace SocketsAux

variable {held : Finset Handle} {clock : Nat → Int} {timeoutMs deadline : Int}

theorem until_ends {now : Int} (hmax : timeoutMs ≤ intMax) (hstart : deadline ≤ now + timeoutMs) (hnow : now < deadline) :
    Wait.Ends timeoutMs deadline (.until deadline now) := by
  have hint : toInt (deadline - now) = deadline - now := by
    rw [intMax] at hmax
    rw [toInt, Int.bmod_eq_of_le] <;> omega
  rw [Wait.until, hint]
  exact ⟨by simp only; omega, by simp only; omega, now, rfl, by simp only; omega⟩

/-- The loop around `poll` when there is a deadline. Without an interruption until then, its last `poll` is what counts. -/
theorem pollUntil_ends (hmono : ∀ m n, m ≤ n → clock m ≤ clock n) (hmax : timeoutMs ≤ intMax) (hstart : deadline ≤ clock 0 + timeoutMs)
    (hdeadline : 0 ≤ deadline) (last : PollEnd) (n t : Nat) (w : Wait) (hw : Wait.Ends timeoutMs deadline w) :
    (∀ v ∈ (pollUntil clock deadline last n t w).waits, Wait.Ends timeoutMs deadline v) ∧
    ((pollUntil clock deadline last n t w).last = last ∨
      (pollUntil clock deadline last n t w).last = .timeout ∧ ∃ m, deadline ≤ clock m) := by
  induction n generalizing t w with
  | zero =>
    refine ⟨fun v hv => ?_, .inl rfl⟩
    rw [pollUntil, List.mem_singleton] at hv
    exact hv ▸ hw
  | succ n ih =>
    rw [pollUntil, if_pos hdeadline]
    split
    next hlate =>
      refine ⟨fun v hv => ?_, .inr ⟨rfl, t, hlate⟩⟩
      rw [List.mem_singleton] at hv
      exact hv ▸ hw
    next hearly =>
      have hle : clock 0 ≤ clock t := hmono 0 t (Nat.zero_le t)
      obtain ⟨hwaits, hlast⟩ := ih (t + 1) (.until deadline (clock t)) (until_ends hmax (by omega) (by omega))
      refine ⟨fun v hv => ?_, hlast⟩
      cases List.mem_cons.mp hv with
      | inl h => exact h ▸ hw
      | inr h => exact hwaits v h

/-- What the loop of a probe keeps: the handles are as before, the waits end at the deadline, and an address is found if there is one
and the deadline is not reached. -/
def ProbeSpec (held : Finset Handle) (clock : Nat → Int) (timeoutMs deadline : Int) (addrs : List Address) (r : Bool × List Wait)
    (after : Finset Handle) : Prop :=
  after = held ∧ (∀ w ∈ r.2, Wait.Ends timeoutMs deadline w) ∧ (r.1 = true → ∃ a ∈ addrs, a.answers = true) ∧
  ((∀ n, clock n < deadline) → r.1 = false → ∀ a ∈ addrs, a.answers = false)

theorem ProbeSpec.found {a : Address} {addrs : List Address} {waits : List Wait} (ha : a.answers = true)
    (hwaits : ∀ w ∈ waits, Wait.Ends timeoutMs deadline w) :
    ProbeSpec held clock timeoutMs deadline (a :: addrs) (true, waits) held :=
  ⟨rfl, hwaits, fun _ => ⟨a, List.mem_cons_self, ha⟩, fun _ h => by cases h⟩

/-- An address that does not answer is passed over. -/
theorem ProbeSpec.cons {a : Address} {addrs : List Address} {r : Bool × List Wait} {after : Finset Handle}
    (h : ProbeSpec held clock timeoutMs deadline addrs r after) (waits : List Wait) (ha : (∀ n, clock n < deadline) → a.answers = false)
    (hwaits : ∀ w ∈ waits, Wait.Ends timeoutMs deadline w) :
    ProbeSpec held clock timeoutMs deadline (a :: addrs) (r.1, waits ++ r.2) after := by
  obtain ⟨hafter, hends, hfound, hnone⟩ := h
  refine ⟨hafter, fun w hw => ?_, fun hr => ?_, fun hclock hr b hb => ?_⟩
  · exact (List.mem_append.mp hw).elim (hwaits w) (hends w)
  · obtain ⟨b, hb, hanswers⟩ := hfound hr
    exact ⟨b, List.mem_cons_of_mem a hb, hanswers⟩
  · cases List.mem_cons.mp hb with
    | inl h => exact h ▸ ha hclock
    | inr h => exact hnone hclock hr b h

theorem probeLoop_leaves (hmono : ∀ m n, m ≤ n → clock m ≤ clock n) (hmax : timeoutMs ≤ intMax) (hstart : deadline ≤ clock 0 + timeoutMs)
    (hdeadline : 0 ≤ deadline) (addrs : List Address) (t : Nat) :
    Leaves held (probeLoop clock timeoutMs deadline t addrs) (ProbeSpec held clock timeoutMs deadline addrs) := by
  induction addrs generalizing t with
  | nil =>
    refine leaves_pure.mpr ⟨rfl, List.forall_mem_nil _, fun h => ?_, fun _ _ => List.forall_mem_nil _⟩
    cases h
  | cons a addrs ih =>
    have hskip (ha : a.answers = false) (t : Nat) : Leaves held (probeLoop clock timeoutMs deadline t addrs)
        (ProbeSpec held clock timeoutMs deadline (a :: addrs)) :=
      (ih t).mono fun r after h => h.cons [] (fun _ => ha) (List.forall_mem_nil _)
    rw [probeLoop]
    split
    next hsocket =>
      rw [leaves_bind]
      refine take_fd fun fd hfd => ?_
      split
      next hnonblocking =>
        split
        next hstart =>
          rw [leaves_bind]
          refine leaves_release_insert hfd (leaves_pure.mpr (.found ?_ (List.forall_mem_nil _)))
          simp [Address.answers, hsocket, hnonblocking, hstart]
        next hstart =>
          rw [leaves_bind]
          exact leaves_release_insert hfd (hskip (by simp [Address.answers, hstart]) t)
        next interrupts last hprogress =>
          split
          next hlate =>
            rw [leaves_bind]
            refine leaves_release_insert hfd (leaves_pure.mpr ⟨rfl, List.forall_mem_nil _, fun h => ?_, fun hclock => ?_⟩)
            · cases h
            · exact absurd hlate.2 (not_le.mpr (hclock t))
          next hearly =>
            have hle : clock 0 ≤ clock t := hmono 0 t (Nat.zero_le t)
            obtain ⟨hwaits, hlast⟩ := pollUntil_ends hmono hmax hstart hdeadline last interrupts (t + 1)
              (.until deadline (clock t)) (until_ends hmax (by omega) (by omega))
            rw [leaves_bind]
            refine leaves_release_insert hfd ?_
            split
            next hconnects =>
              refine leaves_pure.mpr (.found ?_ hwaits)
              -- a poll that ended at the deadline finds nothing
              cases hlast with
              | inl h =>
                rw [h] at hconnects
                simp [Address.answers, hsocket, hnonblocking, hprogress, hconnects]
              | inr h =>
                rw [h.1] at hconnects
                cases hconnects
            next hconnects =>
              rw [leaves_bind]
              refine (ih _).mono fun r after h => leaves_pure.mpr (h.cons _ (fun hclock => ?_) hwaits)
              cases hlast with
              | inl hlast =>
                rw [hlast] at hconnects
                simp [Address.answers, hprogress, hconnects]
              | inr hlast =>
                obtain ⟨-, m, hm⟩ := hlast
                exact absurd hm (not_le.mpr (hclock m))
      next hnonblocking =>
        rw [leaves_bind]
        exact leaves_release_insert hfd (hskip (by simp [Address.answers, hnonblocking]) t)
    next hsocket => exact hskip (by simp [Address.answers, hsocket]) t

end SocketsAux

/-- A probe leaves the handles as they were, never waits beyond its deadline, however often it is interrupted, and finds a server if
and only if an address answers, unless the deadline is reached before. -/
theorem probe_keeps_deadline (held : Finset Handle) (clock : Nat → Int) (timeoutMs : Int) (found : Option (List Address))
    (hfree : .addrinfo ∉ held) (hclock : ∀ n, 0 ≤ clock n) (hmono : ∀ m n, m ≤ n → clock m ≤ clock n) (hpos : 0 ≤ timeoutMs)
    (hmax : timeoutMs ≤ intMax) :
    Leaves held (optyEndpointAcceptsTimeout clock timeoutMs found) fun r after =>
      after = held ∧ (∀ w ∈ r.2, w.Ends timeoutMs (clock 0 + timeoutMs)) ∧
      (r.1 = true → ∃ a ∈ found.getD [], a.answers = true) ∧
      ((∀ n, clock n < clock 0 + timeoutMs) → r.1 = false → ∀ a ∈ found.getD [], a.answers = false) := by
  cases found with
  | none =>
    refine leaves_pure.mpr ⟨rfl, List.forall_mem_nil _, fun h => ?_, fun _ _ => List.forall_mem_nil _⟩
    cases h
  | some addrs =>
    have hdeadline : probeDeadline clock timeoutMs = clock 0 + timeoutMs := if_pos ⟨hpos, hclock 0⟩
    rw [optyEndpointAcceptsTimeout, hdeadline, leaves_bind, leaves_acquire]
    refine ⟨hfree, ?_⟩
    rw [leaves_bind]
    have hnonneg : 0 ≤ clock 0 + timeoutMs := Int.add_nonneg (hclock 0) hpos
    refine (probeLoop_leaves hmono hmax le_rfl hnonneg addrs _).mono ?_
    rintro r after ⟨rfl, hrest⟩
    rw [leaves_bind]
    exact leaves_release_insert hfree (leaves_pure.mpr ⟨rfl, hrest⟩)

/-- A clock that goes on by ten milliseconds from reading to reading, and a probe that is interrupted once. -/
theorem probe_keeps_deadline_localhost :
    Leaves stdio (optyEndpointAcceptsTimeout (fun n => 5000 + 10 * (n : Int)) 250 (some localhost)) fun r after =>
      after = stdio ∧ ∀ w ∈ r.2, w.Ends 250 5250 := by
  have hmono : ∀ m n : Nat, m ≤ n → 5000 + 10 * (m : Int) ≤ 5000 + 10 * (n : Int) := fun m n hmn => by omega
  refine (probe_keeps_deadline stdio _ 250 (some localhost) (by decide) (fun n => by omega) hmono (by decide)
    (by decide)).mono ?_
  rintro r after ⟨hafter, hwaits, -⟩
  exact ⟨hafter, hwaits⟩

/-! ## The wait for a server -/

/-- An address takes a connection. -/
def accepted (found : Option (List Address)) : Bool := (found.getD []).any fun a => a.socket && a.connect

/-- In the round `i` nobody takes a connection, and the server has not ended. -/
def WaitsOn (found : Nat → Option (List Address)) (waitpid : Nat → WaitNow) (i : Nat) : Prop :=
  accepted (found i) = false ∧ (waitpid i = .running ∨ waitpid i = .interrupted)

/-- The rounds before the round `i` all go on. -/
def Reached (found : Nat → Option (List Address)) (waitpid : Nat → WaitNow) (first i : Nat) : Prop :=
  first ≤ i ∧ ∀ j, first ≤ j → j < i → WaitsOn found waitpid j

/-- What a report means, with the rounds from `first` on and before `stop`, and the handles after it: the server was waited for when it
ended, and only then. -/
def ServerWait.Means (found : Nat → Option (List Address)) (waitpid : Nat → WaitNow) (held : Finset Handle) (first stop : Nat)
    (after : Finset Handle) : ServerWait → Prop
  | .ready => after = held ∧ ∃ i < stop, Reached found waitpid first i ∧ accepted (found i) = true
  | .exited => after = held.erase .child ∧
      ∃ i < stop, Reached found waitpid first i ∧ accepted (found i) = false ∧ waitpid i = .exited
  | .waitFailed => after = held ∧
      ∃ i < stop, Reached found waitpid first i ∧ accepted (found i) = false ∧ waitpid i = .failed
  | .timedOut => after = held ∧ Reached found waitpid first stop

namespace SocketsAux

variable {held : Finset Handle} {found : Nat → Option (List Address)} {waitpid : Nat → WaitNow}

theorem reached_refl (i : Nat) : Reached found waitpid i i := ⟨le_rfl, fun _ h h' => absurd h' (not_lt.mpr h)⟩

theorem reached_step {first i : Nat} (hi : WaitsOn found waitpid first) (h : Reached found waitpid (first + 1) i) :
    Reached found waitpid first i := by
  refine ⟨by have := h.1; omega, fun j hj hji => ?_⟩
  rcases Nat.eq_or_lt_of_le hj with rfl | hlt
  · exact hi
  · exact h.2 j hlt hji

/-- A round that goes on. -/
theorem means_step {first stop : Nat} {after : Finset Handle} {r : ServerWait} (hi : WaitsOn found waitpid first)
    (h : r.Means found waitpid held (first + 1) stop after) : r.Means found waitpid held first stop after := by
  cases r with
  | ready =>
    obtain ⟨hafter, i, hstop, hreached, h⟩ := h
    exact ⟨hafter, i, hstop, reached_step hi hreached, h⟩
  | exited =>
    obtain ⟨hafter, i, hstop, hreached, h⟩ := h
    exact ⟨hafter, i, hstop, reached_step hi hreached, h⟩
  | waitFailed =>
    obtain ⟨hafter, i, hstop, hreached, h⟩ := h
    exact ⟨hafter, i, hstop, reached_step hi hreached, h⟩
  | timedOut => exact ⟨h.1, reached_step hi h.2⟩

theorem waitRounds_means (hfree : .addrinfo ∉ held) (hchild : .child ∈ held) (n first : Nat) :
    Leaves held (waitRounds found waitpid n first) fun r after => r.Means found waitpid held first (first + n) after := by
  induction n generalizing first with
  | zero => exact leaves_pure.mpr ⟨rfl, reached_refl first⟩
  | succ n ih =>
    have hnext (hi : WaitsOn found waitpid first) : Leaves held (waitRounds found waitpid n (first + 1))
        fun r after => r.Means found waitpid held first (first + (n + 1)) after := by
      refine (ih (first + 1)).mono fun r after h => means_step hi ?_
      rwa [Nat.add_right_comm, Nat.add_assoc] at h
    rw [waitRounds, leaves_bind]
    refine (optyEndpointAccepts_leaves hfree).mono ?_
    rintro accepts after ⟨haccepts, rfl⟩
    cases accepts with
    | true => exact leaves_pure.mpr ⟨rfl, first, by omega, reached_refl first, haccepts.symm⟩
    | false =>
      rw [if_neg Bool.false_ne_true]
      cases hwait : waitpid first with
      | running => exact hnext ⟨haccepts.symm, .inl hwait⟩
      | interrupted => exact hnext ⟨haccepts.symm, .inr hwait⟩
      | failed => exact leaves_pure.mpr ⟨rfl, first, by omega, reached_refl first, haccepts.symm, hwait⟩
      | exited =>
        simp only [leaves_bind, leaves_release, leaves_pure]
        exact ⟨hchild, rfl, first, by omega, reached_refl first, haccepts.symm, hwait⟩

end SocketsAux

/-- The wait for a server that was started tells what happened: it is ready when a connection was taken in one of the 60 rounds while
it ran, it ended before that and was waited for, it could not be waited for, or nobody took a connection in any round. No descriptor
is left. -/
theorem wait_for_server_tells (held : Finset Handle) (found : Nat → Option (List Address)) (waitpid : Nat → WaitNow)
    (hfree : .addrinfo ∉ held) (hchild : .child ∈ held) :
    Leaves held (optyWaitForServer found waitpid) fun r after => r.Means found waitpid held 0 60 after := by
  have h : Leaves held (waitRounds found waitpid 60 0) fun r after => r.Means found waitpid held 0 (0 + 60) after :=
    waitRounds_means hfree hchild 60 0
  rwa [Nat.zero_add] at h

/-- A server that takes connections from the third round on is ready. -/
theorem wait_for_server_tells_third :
    Leaves {.fd 2, .child} (optyWaitForServer (fun i => if i < 2 then some [] else some localhost) fun _ => .running) fun r after =>
      r = .ready ∧ after = {.fd 2, .child} := by
  refine (wait_for_server_tells _ _ _ (by decide) (by decide)).mono fun r after h => ?_
  cases r with
  | ready => exact ⟨rfl, h.1⟩
  | exited =>
    obtain ⟨-, i, -, -, -, hwait⟩ := h
    cases hwait
  | waitFailed =>
    obtain ⟨-, i, -, -, -, hwait⟩ := h
    cases hwait
  | timedOut =>
    -- the third round did not go on
    obtain ⟨hno, -⟩ := h.2.2 2 (by decide) (by decide)
    cases hno

end ZeroPty
