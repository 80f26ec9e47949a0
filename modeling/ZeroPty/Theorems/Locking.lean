import ZeroPty.Locking

/-!
# A stalled client never wedges the client list
-/

namespace ZeroPty

open Transition Locks

/-- The action sends to a socket or receives from one. -/
def LockOp.onSocket : LockOp → Bool
  | .recvFirst _ | .sendWelcome _ | .sendReplay _ | .sendError _ | .recvFrame _ | .sendStdout _ _ => true
  | _ => false

namespace LockingAux

/-- The order of the locks. -/
def Mutex.rank : Mutex → Nat
  | .clientsMu | .fdsMu | .ptyMu | .childMu => 0
  | .writeMu _ => 1
  | .ringMu => 2

/-- Under `clients_mu` a `write_mu` is taken for an attach only. -/
def needs (held : List Mutex) : Mutex → Option LockOp
  | .writeMu i => if .clientsMu ∈ held then some (.window i) else none
  | _ => none

/-- The locks that an action is done under. -/
def within : LockOp → List Mutex
  | .top | .accept | .create _ | .join | .start _ | .recvFirst _ | .recvFrame _ | .read | .broadcast _ _ | .leave => []
  | .link _ | .shutdownClients | .markDead _ | .snapshot _ | .releaseSnapshot => [.clientsMu]
  | .terminal _ => [.ptyMu]
  | .pollChild _ | .kill _ | .waitChild => [.childMu]
  | .closeListener => [.fdsMu]
  | .window i => [.ringMu, .writeMu i, .clientsMu]
  | .attach i _ _ => [.writeMu i, .clientsMu]
  | .sendWelcome i | .sendReplay i | .sendError i | .sendStdout i _ => [.writeMu i]
  | .append _ => [.ringMu]

/-- The locks that the code of an action ends under. -/
def leaves : LockOp → List Mutex
  | .link _ | .shutdownClients | .markDead _ | .releaseSnapshot => [.clientsMu]
  | .kill _ | .waitChild => [.childMu]
  | .closeListener => [.fdsMu]
  | .sendError i => [.writeMu i]
  | _ => []

/-- The discipline of the server: `clients_mu`, then a `write_mu`, then `ring.mu`. -/
def discipline : Discipline Mutex LockOp := ⟨Mutex.rank, needs, within, leaves⟩

/-! ## The functions keep to the discipline -/

theorem closeListener_leads : discipline.Leads [] serverCloseListenerCode [] := Discipline.leads_section rfl rfl rfl

theorem shutdownClients_leads : discipline.Leads [] serverShutdownClientsCode [] := Discipline.leads_section rfl rfl rfl

theorem waitChildDeadline_leads (sig : Signal) : discipline.Leads [] (serverWaitChildDeadlineCode sig) [] :=
  Discipline.leads_enter rfl rfl rfl

theorem waitChildBlocking_leads : discipline.Leads [] serverWaitChildBlockingCode [] := Discipline.leads_section rfl rfl rfl

theorem escalate_leads (sig : Signal) : discipline.Leads [] sig.escalate [] := by
  have hsignal : discipline.Leads [] (serverSignalChildCode sig) [] := Discipline.leads_section rfl rfl rfl
  refine hsignal.append ?_
  cases sig with
  | hup => exact waitChildDeadline_leads .term
  | term => exact waitChildDeadline_leads .kill
  | kill => exact waitChildBlocking_leads

theorem terminal_leads (u : TerminalUse) : discipline.Leads [] (terminalCode u) [] := Discipline.leads_enter rfl rfl rfl

theorem requestShutdown_leads (input : List UInt8) : discipline.Leads [] (serverRequestShutdownCode input) [] := by
  have hinput : discipline.Leads [] (if 0 < input.length then terminalCode .request else []) [] := by
    split
    · exact terminal_leads _
    · rfl
  exact ((hinput.append (waitChildDeadline_leads .hup)).append closeListener_leads).append shutdownClients_leads

theorem sendError_leads (i : Nat) : discipline.Leads [] (serverSendErrorCode i) [] := Discipline.leads_section rfl rfl rfl

theorem unlockWrite_leads (i : Nat) : discipline.Leads [.writeMu i] [.unlock (.writeMu i)] [] := by
  simp [Discipline.Leads]

theorem finishClient_leads (i : Nat) : discipline.Leads [] (serverFinishClientCode i) [] := Discipline.leads_section rfl rfl rfl

/-- The attach takes its three locks in order. -/
theorem sendWelcomeAndReplay_leads (i : Nat) : discipline.Leads [] (serverSendWelcomeAndReplayCode i) [] := by
  simp [serverSendWelcomeAndReplayCode, Discipline.Leads, discipline, Mutex.rank, needs, within, leaves]

theorem broadcast_leads (endSeq : UInt64) (snap : List Nat) : discipline.Leads [] (serverBroadcastCode endSeq snap) [] := by
  cases snap with
  | nil =>
    have hrelease : discipline.Leads [] [.lock .clientsMu, .act .releaseSnapshot, .unlock .clientsMu] [] :=
      Discipline.leads_section rfl rfl rfl
    exact hrelease.append ⟨rfl, rfl⟩
  | cons i snap =>
    have hsend : discipline.Leads [] [.lock (.writeMu i), .act (.sendStdout i endSeq)] [] := Discipline.leads_enter rfl rfl rfl
    exact hsend.append ⟨rfl, rfl⟩

theorem addClient_leads (i : Nat) : discipline.Leads [] (serverAddClientCode i) [] := by
  have hlink : discipline.Leads [] [.lock .clientsMu, .act (.link i), .unlock .clientsMu] [] := Discipline.leads_section rfl rfl rfl
  exact hlink.append ⟨rfl, rfl⟩

theorem acceptFailed_leads (flag : Bool) (err : AcceptErrno) : discipline.Leads [] (acceptFailedCode flag err) [] := by
  cases err with
  | eintr =>
    cases flag with
    | true => exact (requestShutdown_leads []).append ⟨rfl, rfl⟩
    | false => exact ⟨rfl, rfl⟩
  | ebadf => rfl
  | einval => rfl
  | emfile => exact ⟨rfl, rfl⟩
  | enfile => exact ⟨rfl, rfl⟩
  | enomem => exact ⟨rfl, rfl⟩
  | enobufs => exact ⟨rfl, rfl⟩
  | econnaborted => exact requestShutdown_leads []
  | eproto => exact requestShutdown_leads []
  | other _ => exact requestShutdown_leads []

theorem terminalNext_leads (u : TerminalUse) (ok : Bool) : discipline.Leads [] (u.next ok) [] := by
  cases u with
  | request => rfl
  | intro i =>
    cases ok with
    | true => exact sendWelcomeAndReplay_leads i
    | false => exact sendError_leads i
  | loop i =>
    cases ok with
    | true => exact ⟨rfl, rfl⟩
    | false => rfl

theorem firstMove_leads (i : Nat) (m : FirstMove) : discipline.Leads [] (m.code i) [] := by
  cases m with
  | finish => rfl
  | sendError _ => exact sendError_leads i
  | shutdown input => exact requestShutdown_leads input
  | intro _ => exact terminal_leads _

theorem loopMove_leads (i : Nat) (m : LoopMove) : discipline.Leads [] (m.code i) [] := by
  cases m with
  | leave => rfl
  | again => exact ⟨rfl, rfl⟩
  | write payload =>
    simp only [LoopMove.code]
    split
    · exact ⟨rfl, rfl⟩
    · exact terminal_leads _
  | resize _ _ => exact terminal_leads _

theorem ptyRead_leads (r : PtyRead) : discipline.Leads [] (ptyReadCode r) [] := by
  cases r with
  | got chunk =>
    simp only [ptyReadCode]
    split
    · rfl
    · exact Discipline.leads_enter rfl rfl rfl
  | interrupted => exact ⟨rfl, rfl⟩
  | ended => rfl

/-- What a system call that may block comes to. -/
theorem syscall_run {α : Type} {c : Syscall} {failed completed r : α} (h : c.run failed completed = some r) :
    r = failed ∨ r = completed := by
  cases c with
  | stalls => cases h
  | fails => exact .inl (Option.some.inj h).symm
  | completes => exact .inr (Option.some.inj h).symm

/-- What `main` goes on with keeps to the discipline. -/
theorem accepted_leads {d d' : LockData} {e : LockEnv} {new : LockCode} (h : acceptedCode d e = some (d', new)) :
    discipline.Leads [] new [] := by
  unfold acceptedCode at h
  split at h
  · cases h
    exact acceptFailed_leads _ _
  · split at h
    · split at h
      · cases h
        exact addClient_leads _
      · cases h
        exact ⟨rfl, rfl⟩
    · cases h

/-- Every action keeps to the discipline. -/
theorem discipline_sound (cfg : Config) : discipline.Sound (lockAct cfg) := by
  intro a d e d' new h
  cases a with
  | top =>
    cases h
    split
    · exact (requestShutdown_leads []).append ⟨rfl, rfl⟩
    · exact ⟨rfl, rfl⟩
  | accept =>
    simp only [lockAct] at h
    split at h
    · cases h
    · exact accepted_leads h
  | link i => cases h; rfl
  | create i =>
    simp only [lockAct] at h
    split at h
    · cases h
      exact ⟨rfl, rfl⟩
    · cases h
      exact (finishClient_leads i).append ⟨rfl, rfl⟩
  | join =>
    simp only [lockAct] at h
    split at h
    · cases h
      rfl
    · cases h
  | terminal u =>
    rcases syscall_run h with h | h
    · cases h
      exact ⟨List.mem_singleton.2 rfl, terminalNext_leads u false⟩
    · cases h
      exact ⟨List.mem_singleton.2 rfl, terminalNext_leads u true⟩
  | pollChild sig =>
    cases h
    refine ⟨List.mem_singleton.2 rfl, ?_⟩
    cases e.child with
    | gone => rfl
    | failed => rfl
    | running =>
      simp only
      split
      · exact escalate_leads sig
      · exact waitChildDeadline_leads sig
  | kill _ => cases h; rfl
  | waitChild => rcases syscall_run h with h | h <;> cases h <;> rfl
  | closeListener => cases h; rfl
  | shutdownClients => cases h; rfl
  | start i =>
    simp only [lockAct] at h
    split at h
    · cases h
      rfl
    · cases h
  | recvFirst i =>
    simp only [lockAct] at h
    split at h
    · cases h
    · obtain ⟨m, -, hm⟩ := Option.map_eq_some_iff.1 h
      cases hm
      exact firstMove_leads i m
  | window i =>
    cases h
    exact ⟨List.mem_cons_self, rfl, rfl⟩
  | attach i replayNext ok =>
    cases ok with
    | true =>
      cases h
      simp [Discipline.Leads, discipline, within, leaves]
    | false =>
      cases h
      have hundo : discipline.Leads [.writeMu i, .clientsMu] [.unlock (.writeMu i), .unlock .clientsMu] [] := by
        simp [Discipline.Leads]
      exact hundo.append (sendError_leads i)
  | sendWelcome i =>
    rcases syscall_run h with h | h
    · cases h
      exact (unlockWrite_leads i).append (sendError_leads i)
    · cases h
      exact ⟨rfl, rfl⟩
  | sendReplay i =>
    rcases syscall_run h with h | h
    · cases h
      exact (unlockWrite_leads i).append (sendError_leads i)
    · cases h
      simp [Discipline.Leads, discipline, within, leaves]
  | sendError i => rcases syscall_run h with h | h <;> cases h <;> rfl
  | recvFrame i =>
    simp only [lockAct] at h
    split at h
    · cases h
    · obtain ⟨m, -, hm⟩ := Option.map_eq_some_iff.1 h
      cases hm
      exact loopMove_leads i m
  | markDead i => cases h; rfl
  | read =>
    simp only [lockAct] at h
    split at h
    · cases h
    · cases h
      exact ptyRead_leads e.read
  | append n =>
    cases h
    exact ⟨List.mem_singleton.2 rfl, Discipline.leads_enter rfl rfl rfl⟩
  | snapshot endSeq =>
    cases h
    refine ⟨List.mem_singleton.2 rfl, ?_⟩
    split
    · exact ⟨rfl, rfl⟩
    · exact ⟨rfl, rfl⟩
  | broadcast endSeq snap =>
    cases h
    exact broadcast_leads endSeq snap
  | sendStdout i endSeq =>
    simp only [lockAct] at h
    split at h
    · rcases syscall_run h with h | h
      · cases h
        exact (unlockWrite_leads i).append (finishClient_leads i)
      · cases h
        exact unlockWrite_leads i
    · cases h
      exact unlockWrite_leads i
  | releaseSnapshot => cases h; rfl
  | leave => cases h; rfl

/-- Under `clients_mu` and under `ring.mu` no action is blocked. -/
theorem lockAct_ne_none {cfg : Config} {a : LockOp} {l : Mutex} (hl : l = .clientsMu ∨ l = .ringMu) (ha : l ∈ within a)
    (d : LockData) (e : LockEnv) : lockAct cfg a d e ≠ none := by
  cases a with
  | top | accept | create _ | join | start _ | recvFirst _ | recvFrame _ | read | broadcast _ _ | leave => cases ha
  | link _ | shutdownClients | markDead _ | snapshot _ | releaseSnapshot | window _ | append _ => rintro ⟨⟩
  | attach i replayNext ok => cases ok <;> rintro ⟨⟩
  | terminal _ | pollChild _ | kill _ | waitChild | closeListener | sendWelcome _ | sendReplay _ | sendError _ | sendStdout _ _ =>
    rcases hl with rfl | rfl <;> simp [within] at ha

/-! ## Who takes a `write_mu` -/

/-- The thread of a client that is not attached yet has one of these still to come. -/
def introducing : Instr Mutex LockOp → Bool
  | .act (.recvFirst _) | .act (.terminal (.intro _)) | .act (.window _) | .act (.attach _ _ _) => true
  | _ => false

/-- What a thread may have to do: the `write_mu` of a client is for its own thread, and for the PTY thread after the attach. -/
def Allowed (d : LockData) (t : ServerThread) : Instr Mutex LockOp → Prop
  | .lock (.writeMu i) => t = .client i ∨ t = .pty ∧ d.authenticated i = true
  | .act (.recvFirst i) | .act (.terminal (.intro i)) | .act (.window i) | .act (.attach i _ _) | .act (.sendWelcome i)
  | .act (.sendReplay i) => t = .client i
  | .act .read | .act (.append _) | .act (.snapshot _) => t = .pty
  | .act (.broadcast _ snap) => t = .pty ∧ ∀ i ∈ snap, d.authenticated i = true
  | _ => True

/-- What every thread may have to do. -/
def neutral : Instr Mutex LockOp → Bool
  | .lock (.writeMu _) | .act (.recvFirst _) | .act (.terminal (.intro _)) | .act (.window _) | .act (.attach _ _ _)
  | .act (.sendWelcome _) | .act (.sendReplay _) | .act .read | .act (.append _) | .act (.snapshot _)
  | .act (.broadcast _ _) => false
  | _ => true

theorem allowed_of_neutral {x : Instr Mutex LockOp} (h : neutral x = true) (d : LockData) (t : ServerThread) : Allowed d t x := by
  unfold neutral at h
  unfold Allowed
  split at h <;> simp_all

theorem introducing_of_neutral {x : Instr Mutex LockOp} (h : neutral x = true) : introducing x = false := by
  unfold neutral at h
  unfold introducing
  split at h <;> simp_all

/-- An attach only allows more. -/
theorem Allowed.mono {d d' : LockData} (hmono : ∀ i, d.authenticated i = true → d'.authenticated i = true) {t : ServerThread}
    {x : Instr Mutex LockOp} (h : Allowed d t x) : Allowed d' t x := by
  unfold Allowed at h ⊢
  split at h
  · exact h.imp_right fun hp => ⟨hp.1, hmono _ hp.2⟩
  all_goals first | exact h | exact ⟨h.1, fun i hi => hmono i (h.2 i hi)⟩

/-- What an action does about clients that are not attached yet. -/
structure Effect (a : LockOp) (d d' : LockData) (new : LockCode) : Prop where
  allowed : ∀ t, Allowed d t (.act a) → ∀ x ∈ new, Allowed d' t x
  count : new.countP introducing ≤ if introducing (.act a) then 1 else 0
  attached : d'.authenticated = d.authenticated ∨
    ∃ i replayNext ok, a = .attach i replayNext ok ∧ d'.authenticated = Function.update d.authenticated i true ∧
      new.countP introducing = 0

theorem countP_neutral {code : LockCode} (h : code.all neutral = true) : code.countP introducing = 0 := by
  rw [List.countP_eq_zero]
  intro x hx
  rw [introducing_of_neutral (List.all_eq_true.1 h x hx)]
  exact Bool.false_ne_true

theorem Effect.of_neutral {a : LockOp} {d d' : LockData} {new : LockCode} (hd : d'.authenticated = d.authenticated)
    (h : new.all neutral = true) : Effect a d d' new where
  allowed := fun t _ x hx => allowed_of_neutral (List.all_eq_true.1 h x hx) d' t
  count := by
    rw [countP_neutral h]
    exact Nat.zero_le _
  attached := .inl hd

/-- An action that is one thread's own. -/
theorem Effect.of_thread {a : LockOp} {d d' : LockData} {new : LockCode} (t : ServerThread)
    (hown : ∀ u, Allowed d u (.act a) → u = t) (hd : d'.authenticated = d.authenticated) (h : ∀ x ∈ new, Allowed d' t x)
    (hcount : new.countP introducing ≤ if introducing (.act a) then 1 else 0) : Effect a d d' new where
  allowed := fun u hu x hx => by
    rw [hown u hu]
    exact h x hx
  count := hcount
  attached := .inl hd

theorem requestShutdown_neutral (input : List UInt8) : (serverRequestShutdownCode input).all neutral = true := by
  unfold serverRequestShutdownCode
  split <;> rfl

theorem acceptFailed_neutral (flag : Bool) (err : AcceptErrno) : (acceptFailedCode flag err).all neutral = true := by
  cases err <;> first | rfl | (cases flag <;> rfl)

/-- The error of `server_send_error` to a client is its own thread's. -/
theorem sendError_allowed (d : LockData) (i : Nat) : ∀ x ∈ serverSendErrorCode i, Allowed d (.client i) x := by
  simp [serverSendErrorCode, Allowed]

theorem accept_effect {d d' : LockData} {e : LockEnv} {new : LockCode} (h : acceptedCode d e = some (d', new)) :
    Effect .accept d d' new := by
  unfold acceptedCode at h
  split at h
  · cases h
    exact .of_neutral rfl (acceptFailed_neutral _ _)
  · split at h
    · split at h <;> cases h <;> exact .of_neutral rfl rfl
    · cases h

theorem terminal_effect (u : TerminalUse) (ok : Bool) (d : LockData) :
    Effect (.terminal u) d d (.unlock .ptyMu :: u.next ok) := by
  cases u with
  | request => exact .of_neutral rfl rfl
  | intro i =>
    refine .of_thread (.client i) (fun u hu => hu) rfl ?_ ?_
    · cases ok with
      | true => simp [TerminalUse.next, serverSendWelcomeAndReplayCode, Allowed]
      | false => exact List.forall_mem_cons.2 ⟨trivial, sendError_allowed d i⟩
    · cases ok with
      | true => exact Nat.le_refl _
      | false => exact Nat.zero_le _
  | loop i => cases ok <;> exact .of_neutral rfl rfl

theorem recvFirst_effect (i : Nat) (m : FirstMove) (d : LockData) : Effect (.recvFirst i) d d (m.code i) := by
  cases m with
  | finish => exact .of_neutral rfl rfl
  | sendError _ => exact .of_thread (.client i) (fun u hu => hu) rfl (sendError_allowed d i) (Nat.zero_le _)
  | shutdown input => exact .of_neutral rfl (requestShutdown_neutral input)
  | intro _ =>
    refine .of_thread (.client i) (fun u hu => hu) rfl ?_ (Nat.le_refl _)
    simp [FirstMove.code, terminalCode, Allowed]

theorem recvFrame_effect (i : Nat) (m : LoopMove) (d : LockData) : Effect (.recvFrame i) d d (m.code i) := by
  refine .of_neutral rfl ?_
  cases m with
  | leave => rfl
  | again => rfl
  | write payload =>
    simp only [LoopMove.code]
    split <;> rfl
  | resize _ _ => rfl

theorem read_effect (r : PtyRead) (d : LockData) : Effect .read d d (ptyReadCode r) := by
  refine .of_thread .pty (fun u hu => hu) rfl ?_ ?_
  · cases r with
    | got chunk =>
      simp only [ptyReadCode]
      split <;> simp [Allowed]
    | interrupted => simp [ptyReadCode, Allowed]
    | ended => simp [ptyReadCode]
  · cases r with
    | got chunk =>
      simp only [ptyReadCode]
      split <;> exact Nat.le_refl _
    | interrupted => exact Nat.le_refl _
    | ended => exact Nat.le_refl _

theorem broadcast_effect (endSeq : UInt64) (snap : List Nat) (d : LockData) :
    Effect (.broadcast endSeq snap) d d (serverBroadcastCode endSeq snap) where
  allowed := by
    rintro u ⟨rfl, hsnap⟩
    cases snap with
    | nil => simp [serverBroadcastCode, Allowed]
    | cons i snap =>
      have hsend : d.authenticated i = true := hsnap i List.mem_cons_self
      have hrest : ∀ j ∈ snap, d.authenticated j = true := fun j hj => hsnap j (List.mem_cons_of_mem i hj)
      simpa [serverBroadcastCode, Allowed] using ⟨hsend, hrest⟩
  count := by cases snap <;> exact Nat.le_refl _
  attached := .inl rfl

/-- Only clients that are attached are in a snapshot. -/
theorem snapshot_authenticated (d : LockData) (memory : Bool) : ∀ i ∈ d.snapshot memory, d.authenticated i = true := by
  intro i hi
  unfold LockData.snapshot at hi
  split at hi
  · have hlive := (List.mem_filter.1 hi).2
    rw [Bool.and_eq_true] at hlive
    exact hlive.1
  · cases hi

theorem snapshot_effect (endSeq : UInt64) (memory : Bool) (d : LockData) :
    Effect (.snapshot endSeq) d d (.unlock .clientsMu ::
      if (d.snapshot memory).isEmpty then [.act .read] else [.act (.broadcast endSeq (d.snapshot memory))]) := by
  refine .of_thread .pty (fun u hu => hu) rfl ?_ ?_
  · split
    · simp [Allowed]
    · simpa [Allowed] using snapshot_authenticated d memory
  · split <;> exact Nat.le_refl _

/-- What every action does about clients that are not attached yet. -/
theorem lockAct_effect {cfg : Config} {a : LockOp} {d d' : LockData} {e : LockEnv} {new : LockCode}
    (h : lockAct cfg a d e = some (d', new)) : Effect a d d' new := by
  cases a with
  | top =>
    cases h
    split
    · refine .of_neutral rfl ?_
      rw [List.all_append, requestShutdown_neutral]
      rfl
    · exact .of_neutral rfl rfl
  | accept =>
    simp only [lockAct] at h
    split at h
    · cases h
    · exact accept_effect h
  | create i =>
    simp only [lockAct] at h
    split at h <;> cases h <;> exact .of_neutral rfl rfl
  | join =>
    simp only [lockAct] at h
    split at h
    · cases h
      exact .of_neutral rfl rfl
    · cases h
  | terminal u => rcases syscall_run h with h | h <;> cases h <;> exact terminal_effect u _ d
  | pollChild sig =>
    cases h
    refine .of_neutral rfl ?_
    cases e.child with
    | gone => rfl
    | failed => rfl
    | running =>
      simp only
      split
      · cases sig <;> rfl
      · rfl
  | waitChild => rcases syscall_run h with h | h <;> cases h <;> exact .of_neutral rfl rfl
  | start i =>
    simp only [lockAct] at h
    split at h
    · cases h
      exact .of_neutral rfl rfl
    · cases h
  | recvFirst i =>
    simp only [lockAct] at h
    split at h
    · cases h
    · obtain ⟨m, -, hm⟩ := Option.map_eq_some_iff.1 h
      cases hm
      exact recvFirst_effect i m d
  | window i =>
    cases h
    exact .of_thread (.client i) (fun u hu => hu) rfl (by simp [Allowed]) (Nat.le_refl _)
  | attach i replayNext ok =>
    cases ok with
    | true =>
      cases h
      exact ⟨fun u hu => by simpa [Allowed] using hu, Nat.zero_le _, .inr ⟨i, replayNext, true, rfl, rfl, rfl⟩⟩
    | false =>
      cases h
      refine .of_thread (.client i) (fun u hu => hu) rfl ?_ (Nat.zero_le _)
      exact List.forall_mem_cons.2 ⟨trivial, List.forall_mem_cons.2 ⟨trivial, sendError_allowed d i⟩⟩
  | sendWelcome i =>
    rcases syscall_run h with h | h <;> cases h
    · exact .of_thread (.client i) (fun u hu => hu) rfl (List.forall_mem_cons.2 ⟨trivial, sendError_allowed d i⟩) (Nat.zero_le _)
    · exact .of_thread (.client i) (fun u hu => hu) rfl (by simp [Allowed]) (Nat.zero_le _)
  | sendReplay i =>
    rcases syscall_run h with h | h <;> cases h
    · exact .of_thread (.client i) (fun u hu => hu) rfl (List.forall_mem_cons.2 ⟨trivial, sendError_allowed d i⟩) (Nat.zero_le _)
    · exact .of_neutral rfl rfl
  | sendError i => rcases syscall_run h with h | h <;> cases h <;> exact .of_neutral rfl rfl
  | recvFrame i =>
    simp only [lockAct] at h
    split at h
    · cases h
    · obtain ⟨m, -, hm⟩ := Option.map_eq_some_iff.1 h
      cases hm
      exact recvFrame_effect i m d
  | read =>
    simp only [lockAct] at h
    split at h
    · cases h
    · cases h
      exact read_effect e.read d
  | append n =>
    cases h
    exact .of_thread .pty (fun u hu => hu) rfl (by simp [Allowed]) (Nat.le_refl _)
  | snapshot endSeq =>
    cases h
    exact snapshot_effect endSeq e.memory d
  | broadcast endSeq snap =>
    cases h
    exact broadcast_effect endSeq snap d
  | sendStdout i endSeq =>
    simp only [lockAct] at h
    split at h
    · rcases syscall_run h with h | h <;> cases h <;> exact .of_neutral rfl rfl
    · cases h
      exact .of_neutral rfl rfl
  | link _ | kill _ | closeListener | shutdownClients | markDead _ | releaseSnapshot | leave =>
    cases h
    exact .of_neutral rfl rfl

/-! ## The invariant -/

/-- What holds in every state: the discipline; the code and the `write_mu` of a thread are its own; and a client whose thread has
its attach still to come is not attached, so it is in no snapshot. -/
structure LockInv (s : LockState) : Prop where
  obeyed : Obeyed discipline s
  allowed : ∀ t, ∀ x ∈ s.code t, Allowed s.data t x
  writers : ∀ i t, s.holder (.writeMu i) = some t → Allowed s.data t (.lock (.writeMu i))
  once : ∀ t, (s.code t).countP introducing ≤ 1
  fresh : ∀ i, ∀ x ∈ s.code (.client i), introducing x = true → s.data.authenticated i = false

theorem obeyed_init : Obeyed discipline LockState.init := by
  refine ⟨fun _ => [], fun t => List.nodup_nil, fun t => ?_, fun l t => ⟨by rintro ⟨⟩, by rintro ⟨⟩⟩⟩
  cases t with
  | main => exact ⟨rfl, rfl, rfl⟩
  | pty =>
    have hread : discipline.Leads [] [.act .read] [] := ⟨rfl, rfl⟩
    exact (((hread.append closeListener_leads).append shutdownClients_leads).append waitChildBlocking_leads).append ⟨rfl, rfl⟩
  | client i =>
    have hfirst : discipline.Leads [] [.act (.start i), .act (.recvFirst i)] [] := ⟨rfl, rfl, rfl⟩
    exact hfirst.append (finishClient_leads i)

theorem lockInv_init : LockInv LockState.init where
  obeyed := obeyed_init
  allowed := by
    intro t
    cases t with
    | main => simp [LockState.init, ServerThread.code, Allowed]
    | pty => simp [LockState.init, ServerThread.code, serverCloseListenerCode, serverShutdownClientsCode,
        serverWaitChildBlockingCode, Allowed]
    | client i => simp [LockState.init, ServerThread.code, serverFinishClientCode, Allowed]
  writers := by rintro i t ⟨⟩
  once := by
    intro t
    cases t with
    | main => exact Nat.zero_le _
    | pty => exact Nat.zero_le _
    | client i => exact Nat.le_refl _
  fresh := fun i x hx hi => rfl

/-- A thread goes on past a lock operation; a `write_mu` that is taken is its own. -/
theorem LockInv.goOn {s : LockState} (h : LockInv s) {t : ServerThread} {x : Instr Mutex LockOp} {code : LockCode}
    (hcode : s.code t = x :: code) {holder : Mutex → Option ServerThread}
    (hobeyed : Obeyed discipline { s.goto t code with holder := holder })
    (hholder : ∀ i u, holder (.writeMu i) = some u → Allowed s.data u (.lock (.writeMu i))) :
    LockInv { s.goto t code with holder := holder } := by
  -- Every thread has at most what it had before.
  have hsub : ∀ u, (Function.update s.code t code u).Sublist (s.code u) := by
    intro u
    by_cases hu : u = t
    · subst hu
      rw [Function.update_self, hcode]
      exact List.sublist_cons_self x code
    · rw [Function.update_of_ne hu]
  exact ⟨hobeyed, fun u y hy => h.allowed u y ((hsub u).subset hy), hholder,
    fun u => Nat.le_trans (hsub u).countP_le (h.once u), fun i y hy hi => h.fresh i y ((hsub _).subset hy) hi⟩

/-- A thread acts. -/
theorem LockInv.act {s : LockState} (h : LockInv s) {t : ServerThread} {a : LockOp} {code new : LockCode} {data : LockData}
    (hcode : s.code t = .act a :: code) (hobeyed : Obeyed discipline { s.goto t (new ++ code) with data := data })
    (heff : Effect a s.data data new) : LockInv { s.goto t (new ++ code) with data := data } := by
  have hmine : Allowed s.data t (.act a) := h.allowed t _ (by rw [hcode]; exact List.mem_cons_self)
  have honce := h.once t
  rw [hcode, List.countP_cons] at honce
  have hcount := heff.count
  have hmono : ∀ i, s.data.authenticated i = true → data.authenticated i = true := by
    intro i hi
    rcases heff.attached with hsame | ⟨j, -, -, -, hset, -⟩
    · rw [hsame]
      exact hi
    · rw [hset]
      by_cases hij : i = j
      · rw [hij, Function.update_self]
      · rw [Function.update_of_ne hij]
        exact hi
  refine ⟨hobeyed, fun u x hx => ?_, fun i u hu => (h.writers i u hu).mono hmono, fun u => ?_, fun i x hx hi => ?_⟩
  · simp only [State.goto] at hx
    by_cases hu : u = t
    · subst hu
      rw [Function.update_self] at hx
      rcases List.mem_append.1 hx with hx | hx
      · exact heff.allowed u hmine x hx
      · exact (h.allowed u x (by rw [hcode]; exact List.mem_cons_of_mem _ hx)).mono hmono
    · rw [Function.update_of_ne hu] at hx
      exact (h.allowed u x hx).mono hmono
  · simp only [State.goto]
    by_cases hu : u = t
    · subst hu
      rw [Function.update_self, List.countP_append]
      omega
    · rw [Function.update_of_ne hu]
      exact h.once u
  · simp only [State.goto] at hx
    have hold : s.data.authenticated i = false := by
      by_cases hit : ServerThread.client i = t
      · subst hit
        rw [Function.update_self] at hx
        rcases List.mem_append.1 hx with hx | hx
        · -- New code has an attach to come only where the action had one.
          have hpos : 0 < new.countP introducing := List.countP_pos_iff.2 ⟨x, hx, hi⟩
          refine h.fresh i (.act a) (by rw [hcode]; exact List.mem_cons_self) ?_
          by_contra hno
          rw [if_neg hno] at hcount
          omega
        · exact h.fresh i x (by rw [hcode]; exact List.mem_cons_of_mem _ hx) hi
      · rw [Function.update_of_ne hit] at hx
        exact h.fresh i x hx hi
    rcases heff.attached with hsame | ⟨j, replayNext, ok, rfl, hset, hnone⟩
    · rw [hsame]
      exact hold
    · -- The client that attached has no attach left.
      rw [hset]
      by_cases hij : i = j
      · subst hij
        have ht : t = .client i := hmine
        subst ht
        rw [Function.update_self] at hx
        have hpos : 0 < (new ++ code).countP introducing := List.countP_pos_iff.2 ⟨x, hx, hi⟩
        rw [List.countP_append] at hpos
        have hone : introducing (.act (.attach i replayNext ok)) = true := rfl
        rw [if_pos hone] at honce
        omega
      · rw [Function.update_of_ne hij]
        exact hold

theorem LockInv.step {cfg : Config} {s s' : LockState} (h : LockInv s) {t : ServerThread} {e : LockEnv}
    (hstep : lockStep cfg s (t, e) = .next s') : LockInv s' := by
  have hobeyed := h.obeyed.step (discipline_sound cfg) hstep
  rcases step_cases hstep with ⟨l, code, hcode, -, rfl⟩ | ⟨l, code, hcode, -, rfl⟩ | ⟨a, code, data, new, hcode, hact, rfl⟩
  · refine h.goOn hcode hobeyed fun i u hu => ?_
    by_cases hl : Mutex.writeMu i = l
    · subst hl
      rw [Function.update_self, Option.some_inj] at hu
      subst hu
      exact h.allowed t _ (by rw [hcode]; exact List.mem_cons_self)
    · rw [Function.update_of_ne hl] at hu
      exact h.writers i u hu
  · refine h.goOn hcode hobeyed fun i u hu => ?_
    by_cases hl : Mutex.writeMu i = l
    · subst hl
      rw [Function.update_self] at hu
      cases hu
    · rw [Function.update_of_ne hl] at hu
      exact h.writers i u hu
  · exact h.act hcode hobeyed (lockAct_effect hact)

theorem lockInv_exec {cfg : Config} {run : List (ServerThread × LockEnv)} {s : LockState}
    (hrun : exec (lockStep cfg) LockState.init run = .next s) : LockInv s := by
  refine invariant (Q := fun _ => True) (fun s x s' hs _ hstep => ?_) lockInv_init (fun _ _ => trivial) hrun
  obtain ⟨t, e⟩ := x
  exact hs.step hstep

/-! ## The holder of `clients_mu` -/

variable {cfg : Config} {s : LockState} {t : ServerThread} {code : LockCode}

/-- The `write_mu` that is taken under `clients_mu` is free: its client is not attached. -/
theorem LockInv.write_free (h : LockInv s) (ht : s.holder .clientsMu = some t) {i : Nat}
    (hcode : s.code t = .lock (.writeMu i) :: code) : s.holder (.writeMu i) = none := by
  obtain ⟨held, hheld⟩ := h.obeyed
  have hleads := hheld.leads t
  rw [hcode] at hleads
  have hclients : Mutex.clientsMu ∈ held t := (hheld.holder _ _).1 ht
  have hwindow : Instr.act (.window i) ∈ s.code t := by
    rw [hcode]
    exact List.mem_cons_of_mem _ (hleads.2.1 (.window i) (if_pos hclients))
  have hmine : t = .client i := h.allowed t _ hwindow
  subst hmine
  have hfresh := h.fresh i _ hwindow rfl
  cases hu : s.holder (.writeMu i) with
  | none => rfl
  | some u =>
    rcases h.writers i u hu with rfl | ⟨-, hauth⟩
    · have hlt := hleads.1 _ ((hheld.holder _ _).1 hu)
      exact absurd hlt (Nat.lt_irrefl _)
    · rw [hfresh] at hauth
      cases hauth

/-- With `clients_mu` or `ring.mu` in hand, a thread that is not at a lock goes on whatever the environment does. -/
theorem LockInv.enabled (h : LockInv s) {l : Mutex} (hl : l = .clientsMu ∨ l = .ringMu) (ht : s.holder l = some t)
    (hnot : ∀ k code, s.code t ≠ .lock k :: code) (e : LockEnv) : ∃ s', lockStep cfg s (t, e) = .next s' := by
  obtain ⟨held, hheld⟩ := h.obeyed
  have hmem : l ∈ held t := (hheld.holder _ _).1 ht
  have hleads := hheld.leads t
  cases hc : s.code t with
  | nil => exact absurd hc (hheld.code_ne_nil hmem)
  | cons x code =>
    rw [hc] at hleads
    cases x with
    | lock k => exact absurd hc (hnot k code)
    | unlock k => exact step_unlock hc ((hheld.holder _ _).2 hleads.1)
    | act a =>
      rw [hleads.1] at hmem
      exact step_act hc (lockAct_ne_none hl hmem _ e)

/-- A thread that has `ring.mu` is at no lock. -/
theorem LockInv.ring_last (h : LockInv s) (ht : s.holder .ringMu = some t) : ∀ k code, s.code t ≠ .lock k :: code := by
  intro k code hcode
  obtain ⟨held, hheld⟩ := h.obeyed
  have hleads := hheld.leads t
  rw [hcode] at hleads
  have hlt : Mutex.rank .ringMu < Mutex.rank k := hleads.1 _ ((hheld.holder _ _).1 ht)
  cases k <;> simp [Mutex.rank] at hlt

/-- The holder of `clients_mu` goes on, or waits for a thread that has `ring.mu` and goes on. -/
theorem LockInv.progress (h : LockInv s) (ht : s.holder .clientsMu = some t) :
    (∀ e, ∃ s', lockStep cfg s (t, e) = .next s') ∨
    ∃ u, s.holder .ringMu = some u ∧ (∃ code, s.code t = .lock .ringMu :: code) ∧ ∀ e, ∃ s', lockStep cfg s (u, e) = .next s' := by
  by_cases hnot : ∀ k code, s.code t ≠ .lock k :: code
  · exact .inl fun e => h.enabled (.inl rfl) ht hnot e
  · push Not at hnot
    obtain ⟨k, code, hcode⟩ := hnot
    have hlt : Mutex.rank .clientsMu < Mutex.rank k := by
      obtain ⟨held, hheld⟩ := h.obeyed
      have hleads := hheld.leads t
      rw [hcode] at hleads
      exact hleads.1 _ ((hheld.holder _ _).1 ht)
    cases k with
    | writeMu i => exact .inl fun e => step_lock hcode (h.write_free ht hcode)
    | ringMu =>
      cases hu : s.holder .ringMu with
      | none => exact .inl fun e => step_lock hcode hu
      | some u => exact .inr ⟨u, rfl, ⟨code, hcode⟩, fun e => h.enabled (.inr rfl) hu (h.ring_last hu) e⟩
    | clientsMu | fdsMu | ptyMu | childMu => simp [Mutex.rank] at hlt

/-- No send and no receive is done under `clients_mu`. -/
theorem LockInv.not_onSocket (h : LockInv s) (ht : s.holder .clientsMu = some t) {a : LockOp}
    (hcode : s.code t = .act a :: code) : a.onSocket = false := by
  obtain ⟨held, hheld⟩ := h.obeyed
  have hleads := hheld.leads t
  rw [hcode] at hleads
  have hmem : Mutex.clientsMu ∈ within a := by
    have := (hheld.holder _ _).1 ht
    rwa [hleads.1] at this
  cases a <;> simp [within] at hmem <;> rfl

end LockingAux

open LockingAux

/-- In every state that any interleaving of `main`, the PTY thread and the client threads reaches, whichever system calls stall: the
holder of `clients_mu` is in no send or receive of a socket; a `write_mu` that it is about to take, which it does in
`server_send_welcome_and_replay`, is free; no threads wait for each other in a cycle; and the holder's next step can be taken
whatever the environment does, or it waits for `ring.mu` only, whose holder's next step can. -/
theorem client_list_never_wedged {cfg : Config} {run : List (ServerThread × LockEnv)} {s : LockState}
    (hrun : exec (lockStep cfg) LockState.init run = .next s) :
    (∀ t a code, s.holder .clientsMu = some t → s.code t = .act a :: code → a.onSocket = false) ∧
    (∀ t i code, s.holder .clientsMu = some t → s.code t = .lock (.writeMu i) :: code → s.holder (.writeMu i) = none) ∧
    (∀ t, ¬ Relation.TransGen (Waits s) t t) ∧
    ∀ t, s.holder .clientsMu = some t →
      (∀ e, ∃ s', lockStep cfg s (t, e) = .next s') ∨
      ∃ u, s.holder .ringMu = some u ∧ (∃ code, s.code t = .lock .ringMu :: code) ∧
        ∀ e, ∃ s', lockStep cfg s (u, e) = .next s' := by
  have h := lockInv_exec hrun
  exact ⟨fun t a code ht hcode => h.not_onSocket ht hcode, fun t i code ht hcode => h.write_free ht hcode,
    fun t => h.obeyed.no_cycle, fun t ht => h.progress ht⟩

/-- An environment in which every call completes; a HELLO is received, and a byte is read from the terminal. -/
def calmEnv : LockEnv :=
  { syscall := .completes, memory := true, shutdownRequested := false, accept := .ok (),
    received := .ok (some (Msg.hello 80 24 []).frame), read := .got [104], child := .running, expired := false }

/-- Client 0 attaches, the PTY thread is sending to it, and client 1 is in its attach, in front of `ring.mu`. -/
def stalledSendRun : List (ServerThread × LockEnv) :=
  List.replicate 6 (.main, calmEnv) ++ List.replicate 15 (.client 0, calmEnv) ++ List.replicate 6 (.main, calmEnv) ++
    List.replicate 9 (.pty, calmEnv) ++ List.replicate 7 (.client 1, calmEnv)

theorem client_list_never_wedged_stalled : ∃ s, exec (lockStep ⟨none, none⟩) LockState.init stalledSendRun = .next s ∧
    s.holder (.writeMu 0) = some .pty ∧ s.code .pty = .act (.sendStdout 0 1) :: (s.code .pty).tail ∧
    s.holder .clientsMu = some (.client 1) ∧ s.code (.client 1) = .lock .ringMu :: (s.code (.client 1)).tail ∧
    ∀ e, ∃ s', lockStep ⟨none, none⟩ s (.client 1, e) = .next s' := by
  have hrun : (exec (lockStep ⟨none, none⟩) LockState.init stalledSendRun).passes (fun s =>
      s.holder (.writeMu 0) == some .pty && s.code .pty == .act (.sendStdout 0 1) :: (s.code .pty).tail &&
        s.holder .clientsMu == some (.client 1) && s.code (.client 1) == .lock .ringMu :: (s.code (.client 1)).tail &&
        s.holder .ringMu == none) = true := by
    decide +kernel
  obtain ⟨s, hs, htest⟩ := Outcome.passes_iff.1 hrun
  simp only [Bool.and_eq_true, beq_iff_eq] at htest
  obtain ⟨⟨⟨⟨hwrite, hsend⟩, hclients⟩, hcode⟩, hring⟩ := htest
  refine ⟨s, hs, hwrite, hsend, hclients, hcode, ?_⟩
  rcases (client_list_never_wedged hs).2.2.2 _ hclients with h | ⟨u, hu, -⟩
  · exact h
  · rw [hring] at hu
    cases hu

end ZeroPty
