import ZeroPty.Threads

/-!
# What an action can do

`Moves` lists what one action of the server can do, one case for each, and `step_moves` says that the list is complete. Every
invariant of the server is an induction over executions with these cases.
-/

namespace ZeroPty

open Stream Memory Transition

/-- The connection `main` is adding, inside `server_add_client`. -/
def MainPc.adding : MainPc → Option Nat
  | .create i => some i
  | .drop i => some i
  | _ => none

/-- The PTY thread has neither a chunk nor a snapshot. -/
def PtyPc.isIdle : PtyPc → Bool
  | .read | .closeListener | .shutdownClients | .awaitChild | .done => true
  | _ => false

/-- `main` is in its loop, and not in `server_request_shutdown`. -/
def MainPc.isServing : MainPc → Bool
  | .accept | .create _ | .drop _ => true
  | _ => false

/-- The PTY thread is in its loop. -/
def PtyPc.isServing : PtyPc → Bool
  | .read | .append _ | .snapshot _ _ | .send _ _ _ _ | .markDead _ _ _ _ _ => true
  | _ => false

/-- `main` enters `server_request_shutdown`, or leaves its loop. -/
def Act.isStop : Act → Bool
  | .signal _ | .leave => true
  | _ => false

/-- What one action can do. -/
inductive Moves (s : Sys) : Act → Sys → Prop where
  | acceptFailed {input sched} : Moves s (.accept input sched false) s
  | accept {input sched} (hm : s.main = .accept) :
      Moves s (.accept input sched true)
        { s.setConn s.count
            ⟨.live .new, .starting, input, { sched := sched }, input.bytes, none⟩ with
          clients := s.count :: s.clients, count := s.count + 1, main := .create s.count }
  | created {i} (hm : s.main = .create i) :
      Moves s (.create true) { s.setConn i { s.conn i with pc := .recvFirst } with main := .accept }
  | createFailed {i} (hm : s.main = .create i) : Moves s (.create false) { s with main := .drop i }
  | dropped {i s₁} (hm : s.main = .drop i) (h : serverReleaseDead 1 s i = some s₁) :
      Moves s .drop { s₁.setConn i { s₁.conn i with pc := .done } with main := .accept }
  | mainQuiet {a m l} (hm : s.main.adding = none) (hm' : m.adding = none) (ha : a.isStop = true ∨ s.main.isServing = false) :
      Moves s a { s with main := m, listening := l }
  | mainShut {m s₁} (hm : s.main.adding = none) (hm' : m.adding = none) (h : serverShutdownClients s = some s₁)
      (ha : s.main.isServing = false) : Moves s .main { s₁ with main := m }
  | recvFirst {i env cl move} (hpc : (s.conn i).pc = .recvFirst) (hcl : (s.conn i).cell = .live cl)
      (hmove : firstMove s.cfg (optyRecvFrameLimited env.alloc (s.conn i).input optyMaxUnauthPayload).1 = some move) :
      Moves s (.client i env)
        { s.setConn i { s.conn i with
            pc := move.pc, input := (optyRecvFrameLimited env.alloc (s.conn i).input optyMaxUnauthPayload).2 } with
          requests := s.requests ++ move.requests i }
  | sendError {i env cl text} (hpc : (s.conn i).pc = .sendError text) (hcl : (s.conn i).cell = .live cl)
      (hlock : cl.writeLocked = false) :
      Moves s (.client i env)
        (s.setConn i { s.conn i with pc := .finish, sock := (optySendError (s.conn i).sock (some text.cString)).2 })
  | resizeIntro {i env intro} (hpc : (s.conn i).pc = .resizeIntro intro) :
      Moves s (.client i env)
        ((s.setConn i { s.conn i with pc := .attach intro.requestedSeq }).resized i intro.cols intro.rows)
  | resizeIntroFailed {i env intro} (hpc : (s.conn i).pc = .resizeIntro intro) :
      Moves s (.client i env) (s.setConn i { s.conn i with pc := .sendError .badIntro })
  | attach {i env requestedSeq cl cl' snap} (hpc : (s.conn i).pc = .attach requestedSeq) (hcl : (s.conn i).cell = .live cl)
      (hlock : cl.writeLocked = false) (h : serverAttach env.malloc s.ring cl requestedSeq = some (some (cl', snap))) :
      Moves s (.client i env)
        (s.setConn i { s.conn i with cell := .live cl', pc := .sendWelcome snap, attached := some snap })
  | attachFailed {i env requestedSeq cl} (hpc : (s.conn i).pc = .attach requestedSeq) (hcl : (s.conn i).cell = .live cl)
      (h : serverAttach env.malloc s.ring cl requestedSeq = some none) :
      Moves s (.client i env) (s.setConn i { s.conn i with pc := .sendError .badIntro })
  | welcome {i env snap cl sock} (hpc : (s.conn i).pc = .sendWelcome snap) (hcl : (s.conn i).cell = .live cl)
      (h : optySendWelcome (s.conn i).sock snap.baseSeq snap.nextSeq = (.ok (), sock)) :
      Moves s (.client i env) (s.setConn i { s.conn i with pc := .sendReplay snap, sock := sock })
  | welcomeFailed {i env snap cl e sock} (hpc : (s.conn i).pc = .sendWelcome snap) (hcl : (s.conn i).cell = .live cl)
      (h : optySendWelcome (s.conn i).sock snap.baseSeq snap.nextSeq = (.error e, sock)) :
      Moves s (.client i env)
        (s.setConn i { s.conn i with
          cell := .live { cl with writeLocked := false }, pc := .sendError .badIntro, sock := sock })
  | replay {i env snap cl sock} (hpc : (s.conn i).pc = .sendReplay snap) (hcl : (s.conn i).cell = .live cl)
      (h : optySendReplay env.alloc (s.conn i).sock snap.fromSeq snap.data = (.ok (), sock)) :
      Moves s (.client i env)
        (s.setConn i { s.conn i with cell := .live { cl with writeLocked := false }, pc := .recvLoop, sock := sock })
  | replayFailed {i env snap cl e sock} (hpc : (s.conn i).pc = .sendReplay snap) (hcl : (s.conn i).cell = .live cl)
      (h : optySendReplay env.alloc (s.conn i).sock snap.fromSeq snap.data = (.error e, sock)) :
      Moves s (.client i env)
        (s.setConn i { s.conn i with
          cell := .live { cl with writeLocked := false }, pc := .sendError .badIntro, sock := sock })
  | recvLoop {i env cl move} (hpc : (s.conn i).pc = .recvLoop) (hcl : (s.conn i).cell = .live cl)
      (hmove : loopMove (optyRecvFrame env.alloc (s.conn i).input).1 = some move) :
      Moves s (.client i env)
        (s.setConn i { s.conn i with pc := move.pc, input := (optyRecvFrame env.alloc (s.conn i).input).2 })
  | writePty {i env payload pc'} (hpc : (s.conn i).pc = .writePty payload) (hpc' : pc' = .recvLoop ∨ pc' = .finish) :
      Moves s (.client i env)
        ((s.setConn i { s.conn i with pc := pc' }).wrote i (serverWritePty s.master payload).2)
  | resizeLoop {i env cols rows} (hpc : (s.conn i).pc = .resizeLoop cols rows) :
      Moves s (.client i env) ((s.setConn i { s.conn i with pc := .recvLoop }).resized i cols rows)
  | resizeLoopFailed {i env cols rows} (hpc : (s.conn i).pc = .resizeLoop cols rows) :
      Moves s (.client i env) (s.setConn i { s.conn i with pc := .finish })
  | shutdownInput {i env input} (hpc : (s.conn i).pc = .shutdownInput input) :
      Moves s (.client i env)
        ((s.setConn i { s.conn i with pc := .shutdown .awaitChild }).wrote i (serverWritePty s.master input).2)
  | shutdownStage {i env stage stage' l} (hpc : (s.conn i).pc = .shutdown stage) :
      Moves s (.client i env) ({ s with listening := l }.setConn i { s.conn i with pc := .shutdown stage' })
  | shutdownShut {i env stage s₁} (hpc : (s.conn i).pc = .shutdown stage) (h : serverShutdownClients s = some s₁) :
      Moves s (.client i env) (s₁.setConn i { s₁.conn i with pc := .finish })
  | finished {i env s₁} (hpc : (s.conn i).pc = .finish) (h : serverReleaseDead 1 s i = some s₁) :
      Moves s (.client i env) (s₁.setConn i { s₁.conn i with pc := .done })
  | ptyQuiet {a p l} (hp : s.pty.isIdle = true) (hp' : p.isIdle = true)
      (ha : a = .ptyRead .ended ∨ (p = s.pty ∧ l = s.listening) ∨ s.pty.isServing = false) :
      Moves s a { s with pty := p, listening := l }
  | ptyGot {chunk} (hp : s.pty = .read) (h0 : 0 < chunk.length) (hlen : chunk.length ≤ 4096) :
      Moves s (.ptyRead (.got chunk)) { s with pty := .append chunk }
  | ptyAppend {alloc chunk r} (hp : s.pty = .append chunk) (h : optyRingAppend s.ring (.mem chunk) = some r) :
      Moves s (.pty alloc) { s with ring := r.1, log := s.log ++ chunk, pty := .snapshot r.2 chunk }
  | ptyNoSnapshot {alloc seq chunk s₁} (hp : s.pty = .snapshot seq chunk) (h : serverSnapshotClients s alloc = some (s₁, [])) :
      Moves s (.pty alloc) { s₁ with pty := .read }
  | ptySnapshot {alloc seq chunk s₁ snap} (hp : s.pty = .snapshot seq chunk) (hne : snap ≠ [])
      (h : serverSnapshotClients s alloc = some (s₁, snap)) :
      Moves s (.pty alloc) { s₁ with pty := .send seq chunk snap snap }
  | ptyReleased {alloc seq chunk snap s₁} (hp : s.pty = .send seq chunk snap []) (h : serverReleaseSnapshot s snap = some s₁) :
      Moves s (.pty alloc) { s₁ with pty := .read }
  | ptySent {alloc seq chunk snap i todo cl cl' sock} (hp : s.pty = .send seq chunk snap (i :: todo))
      (hcl : (s.conn i).cell = .live cl) (hlock : cl.writeLocked = false)
      (h : serverSendStdout alloc seq chunk cl (s.conn i).sock = (.ok (), cl', sock)) :
      Moves s (.pty alloc)
        { s.setConn i { s.conn i with cell := .live cl', sock := sock } with pty := .send seq chunk snap todo }
  | ptySendFailed {alloc seq chunk snap i todo cl cl' e sock} (hp : s.pty = .send seq chunk snap (i :: todo))
      (hcl : (s.conn i).cell = .live cl) (hlock : cl.writeLocked = false)
      (h : serverSendStdout alloc seq chunk cl (s.conn i).sock = (.error e, cl', sock)) :
      Moves s (.pty alloc)
        { s.setConn i { s.conn i with cell := .live cl', sock := sock } with pty := .markDead seq chunk snap i todo }
  | ptyMarkedDead {alloc seq chunk snap i todo s₁} (hp : s.pty = .markDead seq chunk snap i todo)
      (h : serverReleaseDead 0 s i = some s₁) :
      Moves s (.pty alloc) { s₁ with pty := .send seq chunk snap todo }
  | ptyShut {alloc s₁} (hp : s.pty = .shutdownClients) (h : serverShutdownClients s = some s₁) :
      Moves s (.pty alloc) { s₁ with pty := .awaitChild }

namespace ThreadsAux

theorem withClient_eq_next {s t : Sys} {i : Nat} {k : Client → Outcome Sys} (h : s.withClient i k = .next t) :
    ∃ cl, (s.conn i).cell = .live cl ∧ k cl = .next t := by
  unfold Sys.withClient at h
  split at h
  · rename_i cl hc
    exact ⟨cl, hc, h⟩
  · nomatch h

end ThreadsAux

open ThreadsAux

/-- What `main` can do. -/
theorem mainStep_moves {s t : Sys} {a : Act} (h : mainStep s a = .next t) : Moves s a t := by
  cases a with
  | accept input sched calloc =>
    simp only [mainStep] at h
    split at h
    · rename_i hg
      cases calloc with
      | false => cases h; exact .acceptFailed
      | true => cases h; exact .accept hg.1
    · nomatch h
  | create ok =>
    simp only [mainStep] at h
    split at h
    · rename_i i hm
      cases ok with
      | false => cases h; exact .createFailed hm
      | true => cases h; exact .created hm
    · nomatch h
  | drop =>
    simp only [mainStep] at h
    split at h
    · rename_i i hm
      obtain ⟨s₁, h1, rfl⟩ := ofOption_map_eq_next h
      exact .dropped hm h1
    · nomatch h
  | signal fatal =>
    simp only [mainStep] at h
    split at h
    · rename_i hm
      cases h
      exact .mainQuiet (by rw [hm]; rfl) rfl (Or.inl rfl)
    · nomatch h
  | main =>
    simp only [mainStep] at h
    split at h
    · rename_i stage fatal hm
      have hadd : s.main.adding = none := by rw [hm]; rfl
      obtain ⟨r, hr, rfl⟩ := ofOption_map_eq_next h
      cases stage with
      | awaitChild => cases hr; exact .mainQuiet hadd rfl (Or.inr (by rw [hm]; rfl))
      | closeListener => cases hr; exact .mainQuiet hadd rfl (Or.inr (by rw [hm]; rfl))
      | shutdownClients =>
        simp only [shutdownStep, Option.map_eq_some_iff] at hr
        obtain ⟨s₁, h1, rfl⟩ := hr
        refine .mainShut hadd ?_ h1 (by rw [hm]; rfl)
        cases fatal <;> rfl
    · nomatch h
  | leave =>
    simp only [mainStep] at h
    split at h
    · rename_i hm
      cases h
      exact .mainQuiet (by rw [hm.1]; rfl) rfl (Or.inl rfl)
    · nomatch h
  | client i env => nomatch h
  | ptyRead r => nomatch h
  | pty alloc => nomatch h

/-- What a client thread can do. -/
theorem clientStep_moves {s t : Sys} {i : Nat} {env : Env} (h : clientStep s i env = .next t) : Moves s (.client i env) t := by
  unfold clientStep at h
  simp only at h
  split at h
  · nomatch h
  · rename_i hpc
    obtain ⟨cl, hcl, h⟩ := withClient_eq_next h
    obtain ⟨move, hmove, rfl⟩ := ofOption_map_eq_next h
    exact .recvFirst hpc hcl hmove
  · rename_i text hpc
    obtain ⟨cl, hcl, h⟩ := withClient_eq_next h
    split at h
    · nomatch h
    · rename_i hl
      cases h
      exact .sendError hpc hcl (by simpa using hl)
  · rename_i intro hpc
    split at h
    · cases h; exact .resizeIntro hpc
    · cases h; exact .resizeIntroFailed hpc
  · rename_i requestedSeq hpc
    obtain ⟨cl, hcl, h⟩ := withClient_eq_next h
    split at h
    · nomatch h
    · rename_i hl
      obtain ⟨r, hr, rfl⟩ := ofOption_map_eq_next h
      match r with
      | none => exact .attachFailed hpc hcl hr
      | some (cl', snap) => exact .attach hpc hcl (by simpa using hl) hr
  · rename_i snap hpc
    obtain ⟨cl, hcl, h⟩ := withClient_eq_next h
    split at h
    · rename_i sock hs
      cases h
      exact .welcome hpc hcl hs
    · rename_i e sock hs
      cases h
      exact .welcomeFailed hpc hcl hs
  · rename_i snap hpc
    obtain ⟨cl, hcl, h⟩ := withClient_eq_next h
    split at h
    · rename_i sock hs
      cases h
      exact .replay hpc hcl hs
    · rename_i e sock hs
      cases h
      exact .replayFailed hpc hcl hs
  · rename_i hpc
    obtain ⟨cl, hcl, h⟩ := withClient_eq_next h
    obtain ⟨move, hmove, rfl⟩ := ofOption_map_eq_next h
    exact .recvLoop hpc hcl hmove
  · rename_i payload hpc
    split at h
    · rename_i master hw
      cases h
      have hm : Moves s (.client i env) _ := .writePty hpc (Or.inl rfl)
      rwa [hw] at hm
    · rename_i e master hw
      cases h
      have hm : Moves s (.client i env) _ := .writePty hpc (Or.inr rfl)
      rwa [hw] at hm
  · rename_i cols rows hpc
    split at h
    · cases h; exact .resizeLoop hpc
    · cases h; exact .resizeLoopFailed hpc
  · rename_i input hpc
    cases h
    exact .shutdownInput hpc
  · rename_i stage hpc
    obtain ⟨r, hr, rfl⟩ := ofOption_map_eq_next h
    cases stage with
    | awaitChild => cases hr; exact .shutdownStage hpc
    | closeListener => cases hr; exact .shutdownStage hpc
    | shutdownClients =>
      simp only [shutdownStep, Option.map_eq_some_iff] at hr
      obtain ⟨s₁, h1, rfl⟩ := hr
      exact .shutdownShut hpc h1
  · rename_i hpc
    obtain ⟨s₁, h1, rfl⟩ := ofOption_map_eq_next h
    exact .finished hpc h1
  · nomatch h

/-- What the PTY thread can do. -/
theorem ptyStep_moves {s t : Sys} {a : Act} (h : ptyStep s a = .next t) : Moves s a t := by
  cases a with
  | ptyRead r =>
    simp only [ptyStep] at h
    split at h
    · rename_i hp
      have hidle : s.pty.isIdle = true := by rw [hp]; rfl
      cases r with
      | got chunk =>
        simp only at h
        split at h
        · rename_i hlen
          cases h
          exact .ptyGot hp hlen.1 hlen.2
        · nomatch h
      | interrupted => cases h; exact .ptyQuiet (p := s.pty) hidle hidle (Or.inr (Or.inl ⟨rfl, rfl⟩))
      | ended => cases h; exact .ptyQuiet hidle rfl (Or.inl rfl)
    · nomatch h
  | pty alloc =>
    simp only [ptyStep] at h
    split at h
    · rename_i chunk hp
      obtain ⟨r, hr, rfl⟩ := ofOption_map_eq_next h
      exact .ptyAppend hp hr
    · rename_i seq chunk hp
      obtain ⟨⟨s₁, snap⟩, hr, rfl⟩ := ofOption_map_eq_next h
      cases snap with
      | nil => exact .ptyNoSnapshot hp hr
      | cons j snap => exact .ptySnapshot hp nofun hr
    · rename_i seq chunk snap hp
      obtain ⟨s₁, h1, rfl⟩ := ofOption_map_eq_next h
      exact .ptyReleased hp h1
    · rename_i seq chunk snap i todo hp
      obtain ⟨cl, hcl, h⟩ := withClient_eq_next h
      split at h
      · nomatch h
      · rename_i hl
        have hlock : cl.writeLocked = false := by simpa using hl
        split at h
        · rename_i cl' sock hs
          cases h
          exact .ptySent hp hcl hlock hs
        · rename_i e cl' sock hs
          cases h
          exact .ptySendFailed hp hcl hlock hs
    · rename_i seq chunk snap i todo hp
      obtain ⟨s₁, h1, rfl⟩ := ofOption_map_eq_next h
      exact .ptyMarkedDead hp h1
    · rename_i hp
      cases h
      exact .ptyQuiet (by rw [hp]; rfl) rfl (Or.inr (Or.inr (by rw [hp]; rfl)))
    · rename_i hp
      obtain ⟨s₁, h1, rfl⟩ := ofOption_map_eq_next h
      exact .ptyShut hp h1
    · rename_i hp
      cases h
      exact .ptyQuiet (by rw [hp]; rfl) rfl (Or.inr (Or.inr (by rw [hp]; rfl)))
    · nomatch h
    · nomatch h
  | accept input sched calloc => nomatch h
  | create ok => nomatch h
  | drop => nomatch h
  | signal fatal => nomatch h
  | main => nomatch h
  | leave => nomatch h
  | client i env => nomatch h

/-- What an action can do. -/
theorem step_moves {s t : Sys} {a : Act} (h : step s a = .next t) : Moves s a t := by
  cases a with
  | client i env => exact clientStep_moves h
  | ptyRead r => exact ptyStep_moves h
  | pty alloc => exact ptyStep_moves h
  | accept input sched calloc => exact mainStep_moves h
  | create ok => exact mainStep_moves h
  | drop => exact mainStep_moves h
  | signal fatal => exact mainStep_moves h
  | main => exact mainStep_moves h
  | leave => exact mainStep_moves h

end ZeroPty
