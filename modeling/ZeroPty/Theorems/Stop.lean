import ZeroPty.Theorems.Launch
import ZeroPty.Theorems.Record

/-!
# What a stop does, and what it tells

`run_named_stop` asks the server of a session to shut down and waits for it to be gone. What it tells its caller is what happened, and
the server that `run_named_start` started listens to it.
-/

namespace ZeroPty

open Memory Text Getopt Stream

/-- The polls after which the wait for an answer goes on. -/
def StopPoll.goesOn : StopPoll → Bool
  | .interrupted | .timeout | .other => true
  | _ => false

/-- The bytes of a request to shut down. -/
def stopRequest (token input : List UInt8) : List UInt8 := frameBytes (Msg.controlShutdown token input).frame

/-- An answer is there before the seven seconds are over. -/
def StopWorld.Answered (w : StopWorld) : Prop :=
  ∃ before after, w.polls = before ++ .input :: after ∧ (∀ p ∈ before, p.goesOn = true) ∧ 100 * before.count .timeout < optyStopWaitMs

/-- A session that can be asked to stop: it has a record with a control token and an input that can be decoded, and the server answers
and can be connected to. -/
structure StopWorld.Asks (w : StopWorld) (session : CString) (token input : List UInt8) (sock : Sink Errno) : Prop where
  record : ∃ info, optyReadSessionInfo w.home w.fopen w.malloc w.files session = .ok info ∧ info.controlToken = token ∧
    optyDecodeGracefulInput info.gracefulInput optyMaxGracefulInput = .ok input
  token : token ≠ []
  alive : w.accepts 0 = true
  connected : w.connect = .ok sock

/-- There is one request, and one connection. -/
theorem StopWorld.Asks.unique {w : StopWorld} {session : CString} {token token' input input' : List UInt8} {sock sock' : Sink Errno}
    (h : w.Asks session token input sock) (h' : w.Asks session token' input' sock') : token = token' ∧ input = input' ∧ sock = sock' := by
  obtain ⟨info, hinfo, rfl, hinput⟩ := h.record
  obtain ⟨info', hinfo', rfl, hinput'⟩ := h'.record
  cases hinfo.symm.trans hinfo'
  cases hinput.symm.trans hinput'
  cases h.connected.symm.trans h'.connected
  exact ⟨rfl, rfl, rfl⟩

/-- All of the request is sent. -/
def StopWorld.Requested (w : StopWorld) (session : CString) : Prop :=
  ∃ token input sock sock', w.Asks session token input sock ∧ (runNamedStop w session).2 = some sock' ∧
    sock'.written = sock.written ++ stopRequest token input

namespace StopAux

open RecordAux SessionAux

/-! ## The waits -/

/-- A probe that finds nobody is the first one that does. -/
theorem optyWaitEndpointDead_some {accepts : Nat → Bool} {timeoutMs n waited k : Nat}
    (h : optyWaitEndpointDead accepts timeoutMs n waited = some k) :
    n ≤ k ∧ waited + 100 * (k - n) ≤ timeoutMs ∧ accepts k = false ∧ ∀ m, n ≤ m → m < k → accepts m = true := by
  fun_induction optyWaitEndpointDead accepts timeoutMs n waited with
  | case1 n waited hle hdead =>
    cases h
    exact ⟨Nat.le_refl _, by omega, hdead, fun m h1 h2 => by omega⟩
  | case2 n waited hle halive ih =>
    obtain ⟨hk, htime, hdead, hbefore⟩ := ih h
    refine ⟨by omega, by omega, hdead, fun m h1 h2 => ?_⟩
    by_cases hm : m = n
    · rw [hm]
      exact (Bool.not_eq_false _).mp halive
    · exact hbefore m (by omega) h2
  | case3 n waited hle => cases h

/-- Without one, every probe found somebody. -/
theorem optyWaitEndpointDead_none {accepts : Nat → Bool} {timeoutMs n waited : Nat}
    (h : optyWaitEndpointDead accepts timeoutMs n waited = none) :
    ∀ m, n ≤ m → waited + 100 * (m - n) ≤ timeoutMs → accepts m = true := by
  fun_induction optyWaitEndpointDead accepts timeoutMs n waited with
  | case1 n waited hle hdead => cases h
  | case2 n waited hle halive ih =>
    intro m h1 h2
    by_cases hm : m = n
    · rw [hm]
      exact (Bool.not_eq_false _).mp halive
    · exact ih h m (by omega) (by omega)
  | case3 n waited hle =>
    intro m h1 h2
    omega

/-- What the wait for an answer ends with, if not with the end of the wait: a failure, or a refusal in the words of the server. -/
theorem stopWait_some {alloc : Bool} {answer : Source Errno} {polls : List StopPoll} {waited : Nat} {report : StopReport}
    (h : stopWait alloc answer waited polls = some report) :
    report = .failed ∨ ∃ text fd, report = .refused text ∧ optyRecvFrame alloc answer = (.ok (some ⟨msgError, text⟩), fd) := by
  induction polls generalizing waited with
  | nil => cases h
  | cons poll polls ih =>
    rw [stopWait.eq_def] at h
    simp only at h
    split at h
    · cases h
    · cases poll with
      | interrupted => exact ih h
      | other => exact ih h
      | timeout => exact ih h
      | hangup => cases h
      | failed =>
        cases h
        exact Or.inl rfl
      | input =>
        simp only at h
        split at h
        · rename_i frame fd hrecv
          split at h
          · rename_i htype
            cases h
            obtain ⟨type, payload⟩ := frame
            cases (show type = msgError from htype)
            exact Or.inr ⟨payload, fd, rfl, hrecv⟩
          · cases h
        · cases h
        · cases h
          exact Or.inl rfl

/-- When the wait just ends, an answer that was there in time was none that refuses the request. -/
theorem stopWait_none {alloc : Bool} {answer : Source Errno} {before after : List StopPoll} {waited : Nat}
    (h : stopWait alloc answer waited (before ++ .input :: after) = none) (hbefore : ∀ p ∈ before, p.goesOn = true)
    (htime : waited + 100 * before.count .timeout < optyStopWaitMs) :
    (∃ fd, optyRecvFrame alloc answer = (.ok none, fd)) ∨
      ∃ f fd, optyRecvFrame alloc answer = (.ok (some f), fd) ∧ f.type ≠ msgError := by
  induction before generalizing waited with
  | nil =>
    rw [List.nil_append, stopWait.eq_def] at h
    simp only [List.count_nil, Nat.mul_zero, Nat.add_zero, ← Nat.not_le] at htime
    simp only [htime, if_false] at h
    split at h
    · rename_i frame fd hrecv
      split at h
      · cases h
      · rename_i htype
        exact Or.inr ⟨frame, fd, hrecv, htype⟩
    · rename_i fd hrecv
      exact Or.inl ⟨fd, hrecv⟩
    · cases h
  | cons poll before ih =>
    have hnow : ¬optyStopWaitMs ≤ waited := by omega
    rw [List.cons_append, stopWait.eq_def] at h
    simp only [hnow, if_false] at h
    have hgo := hbefore poll List.mem_cons_self
    have hbefore' : ∀ p ∈ before, p.goesOn = true := fun p hp => hbefore p (List.mem_cons_of_mem _ hp)
    rw [List.count_cons] at htime
    cases poll with
    | interrupted => exact ih h hbefore' (by simpa using htime)
    | other => exact ih h hbefore' (by simpa using htime)
    | timeout => exact ih h hbefore' (by simp at htime; omega)
    | hangup => cases hgo
    | failed => cases hgo
    | input => cases hgo

/-! ## The request -/

/-- What a read of a record can be asked with. -/
theorem request_sends {home : Option CString} {fopen : Except Errno Unit} {malloc : Nat → Alloc UInt8} {files : Files} {session : CString}
    {info : SessionInfo} {input : List UInt8} (hread : optyReadSessionInfo home fopen malloc files session = .ok info)
    (hinput : optyDecodeGracefulInput info.gracefulInput optyMaxGracefulInput = .ok input) (sock : Sink Errno) :
    Sends .eintr sock (stopRequest info.controlToken input)
      (optySendControlShutdown sock (some (.ofBytes info.controlToken)) (.mem input)).1
      (optySendControlShutdown sock (some (.ofBytes info.controlToken)) (.mem input)).2 := by
  have hok := infoOk_of_read hread
  have htoken : tokenBytes (some (.ofBytes info.controlToken)) = info.controlToken := LaunchAux.ofBytes_eq (hok.noNul .controlToken)
  have hlen : (tokenBytes (some (.ofBytes info.controlToken))).length ≤ optyMaxToken := by
    rw [htoken]
    exact Nat.le_of_lt_succ (hok.fits .controlToken)
  have hfits : input.length ≤ optyMaxGracefulInput := by
    rcases optyDecodeGracefulInput_spec info.gracefulInput optyMaxGracefulInput with ⟨-, hfits, h⟩ | ⟨-, h⟩ | ⟨-, h⟩
    · cases hinput.symm.trans h
      exact hfits
    · cases hinput.symm.trans h
    · cases hinput.symm.trans h
  have hsends := optySendControlShutdown_sends (some (.ofBytes info.controlToken)) (.mem input) hlen rfl hfits sock
  rw [htoken] at hsends
  exact hsends

/-- What is told once the request was sent, or was not. -/
def afterSend (w : StopWorld) : Except Errno Unit → StopReport
  | .error e => stopSendFailed w e
  | .ok () => stopAfterRequest w

/-- A request that could not be sent is told, or ends the client. -/
theorem stopSendFailed_eq (w : StopWorld) (e : Errno) :
    (stopSendFailed w e = .killed ∧ e = .epipe ∧ w.ignoresSigpipe = false) ∨
      stopSendFailed w e = .notSent ∧ ¬(e = .epipe ∧ w.ignoresSigpipe = false) := by
  unfold stopSendFailed
  split
  · rename_i h
    exact Or.inl ⟨rfl, h⟩
  · rename_i h
    exact Or.inr ⟨rfl, h⟩

/-- What a stop comes to: no connection, and a report that says why; or a request over one. -/
theorem runNamedStop_cases (w : StopWorld) (session : CString) :
    ((runNamedStop w session).2 = none ∧ (runNamedStop w session).1 ∈
        [.invalidName, .noSession, .noControlToken, .alreadyDead, .badGracefulInput, .notConnected] ∧
      ((runNamedStop w session).1 = .alreadyDead → w.accepts 0 = false) ∧ ∀ token input sock, ¬w.Asks session token input sock) ∨
    ∃ token input sock sock' r, w.Asks session token input sock ∧
      optySendControlShutdown sock (some (.ofBytes token)) (.mem input) = (r, sock') ∧
      Sends .eintr sock (stopRequest token input) r sock' ∧ runNamedStop w session = (afterSend w r, some sock') := by
  cases hread : optyReadSessionInfo w.home w.fopen w.malloc w.files session with
  | error e =>
    left
    have hno : ∀ token input sock, ¬w.Asks session token input sock := by
      intro token input sock hasks
      obtain ⟨info, hinfo, -⟩ := hasks.record
      cases hread.symm.trans hinfo
    simp only [runNamedStop, hread]
    split
    · exact ⟨rfl, by simp, fun h => (by cases h), hno⟩
    · exact ⟨rfl, by simp, fun h => (by cases h), hno⟩
  | ok info =>
    obtain ⟨path, content, r, hpath, -⟩ := optyReadSessionInfo_eq_ok hread
    have hname := optySessionPath_name hpath
    simp only [runNamedStop, hname, hread, reduceCtorEq, if_false]
    have hrecord : ∀ token input sock, w.Asks session token input sock → info.controlToken = token ∧ w.accepts 0 = true ∧
        token ≠ [] ∧ optyDecodeGracefulInput info.gracefulInput optyMaxGracefulInput = .ok input ∧ w.connect = .ok sock := by
      rintro token input sock ⟨⟨info', hinfo, htoken, hinput⟩, hne, halive, hconn⟩
      cases hread.symm.trans hinfo
      exact ⟨htoken, halive, hne, hinput, hconn⟩
    split
    · rename_i htoken
      refine Or.inl ⟨rfl, by simp, fun h => (by cases h), fun token input sock hasks => ?_⟩
      obtain ⟨h1, -, h2, -⟩ := hrecord token input sock hasks
      exact h2 (h1 ▸ htoken)
    · rename_i htoken
      split
      · rename_i hdead
        refine Or.inl ⟨rfl, by simp, fun _ => hdead, fun token input sock hasks => ?_⟩
        obtain ⟨-, h1, -⟩ := hrecord token input sock hasks
        cases hdead.symm.trans h1
      · rename_i halive
        cases hinput : optyDecodeGracefulInput info.gracefulInput optyMaxGracefulInput with
        | error e =>
          refine Or.inl ⟨rfl, by simp, fun h => (by cases h), fun token input sock hasks => ?_⟩
          obtain ⟨-, -, -, h1, -⟩ := hrecord token input sock hasks
          cases hinput.symm.trans h1
        | ok input =>
          cases hconn : w.connect with
          | error e =>
            refine Or.inl ⟨rfl, by simp, fun h => (by cases h), fun token input sock hasks => ?_⟩
            obtain ⟨-, -, -, -, h1⟩ := hrecord token input sock hasks
            cases hconn.symm.trans h1
          | ok sock =>
            right
            have hsends := request_sends hread hinput sock
            cases hsent : optySendControlShutdown sock (some (.ofBytes info.controlToken)) (.mem input) with
            | mk r sock' =>
              rw [hsent] at hsends
              refine ⟨info.controlToken, input, sock, sock', r,
                ⟨⟨info, hread, rfl, hinput⟩, htoken, (Bool.not_eq_false _).mp halive, hconn⟩, hsent, hsends, ?_⟩
              simp only [hsent]
              cases r with
              | error e => rfl
              | ok u => rfl

/-- The wait for an answer just ends when nothing but the end of the connection is found. -/
theorem stopWait_quiet {alloc : Bool} {answer : Source Errno} {polls : List StopPoll} {waited : Nat}
    (h : ∀ p ∈ polls, p.goesOn = true ∨ p = .hangup) : stopWait alloc answer waited polls = none := by
  induction polls generalizing waited with
  | nil => rfl
  | cons poll polls ih =>
    have hrest : ∀ p ∈ polls, p.goesOn = true ∨ p = .hangup := fun p hp => h p (List.mem_cons_of_mem _ hp)
    have hpoll := h poll List.mem_cons_self
    rw [stopWait.eq_def]
    simp only
    split
    · rfl
    · cases poll with
      | interrupted => exact ih hrest
      | other => exact ih hrest
      | timeout => exact ih hrest
      | hangup => rfl
      | failed => rcases hpoll with h | h <;> cases h
      | input => rcases hpoll with h | h <;> cases h

/-- What is told after the request was sent. -/
theorem stopAfterRequest_cases (w : StopWorld) :
    (stopWait w.alloc w.answer 0 w.polls = some (stopAfterRequest w)) ∨
    stopWait w.alloc w.answer 0 w.polls = none ∧
      ((stopAfterRequest w = .stopped ∧ ∃ n, 1 ≤ n ∧ n ≤ 71 ∧ w.accepts n = false ∧ ∀ m, 1 ≤ m → m < n → w.accepts m = true) ∨
        stopAfterRequest w = .stillListening ∧ ∀ m, 1 ≤ m → m ≤ 71 → w.accepts m = true) := by
  unfold stopAfterRequest
  cases hwait : stopWait w.alloc w.answer 0 w.polls with
  | some report => exact Or.inl rfl
  | none =>
    right
    refine ⟨rfl, ?_⟩
    have hms : optyStopWaitMs = 7000 := rfl
    cases hdead : optyWaitEndpointDead w.accepts optyStopWaitMs 1 0 with
    | some n =>
      obtain ⟨h1, htime, hn, hbefore⟩ := optyWaitEndpointDead_some hdead
      exact Or.inl ⟨rfl, n, h1, by omega, hn, hbefore⟩
    | none => exact Or.inr ⟨rfl, fun m h1 h2 => optyWaitEndpointDead_none hdead m h1 (by omega)⟩

/-- The client gets to tell something then. -/
theorem stopAfterRequest_ne_killed (w : StopWorld) : stopAfterRequest w ≠ .killed := by
  intro h
  rcases stopAfterRequest_cases w with hwait | ⟨-, ⟨h', -⟩ | ⟨h', -⟩⟩
  · rcases stopWait_some hwait with h' | ⟨text, fd, h', -⟩
    · cases h.symm.trans h'
    · cases h.symm.trans h'
  · cases h.symm.trans h'
  · cases h.symm.trans h'

/-- It is a request that could not be sent that kills the client. -/
theorem runNamedStop_killed_iff (w : StopWorld) (session : CString) :
    (runNamedStop w session).1 = .killed ↔ w.ignoresSigpipe = false ∧ ∃ token input sock, w.Asks session token input sock ∧
      (optySendControlShutdown sock (some (.ofBytes token)) (.mem input)).1 = .error .epipe := by
  rcases runNamedStop_cases w session with ⟨-, hmem, -, hno⟩ | ⟨token, input, sock, sock', r, hasks, hsend, -, heq⟩
  · have hne : (runNamedStop w session).1 ≠ .killed := fun h => absurd (h ▸ hmem) (by decide)
    exact ⟨fun h => absurd h hne, fun ⟨_, token, input, sock, hasks, _⟩ => absurd hasks (hno token input sock)⟩
  · rw [heq]
    refine ⟨fun h => ?_, fun ⟨hsig, token₁, input₁, sock₁, hasks₁, hepipe⟩ => ?_⟩
    · have hr : afterSend w r = .killed := h
      cases r with
      | error e =>
        rcases stopSendFailed_eq w e with ⟨-, rfl, hsig⟩ | ⟨hn, -⟩
        · exact ⟨hsig, token, input, sock, hasks, by rw [hsend]⟩
        · cases hn.symm.trans hr
      | ok u => exact absurd hr (stopAfterRequest_ne_killed w)
    · obtain ⟨rfl, rfl, rfl⟩ := hasks.unique hasks₁
      rw [hsend] at hepipe
      cases hepipe
      rcases stopSendFailed_eq w .epipe with ⟨hk, -⟩ | ⟨-, hn⟩
      · exact hk
      · exact absurd ⟨rfl, hsig⟩ hn

end StopAux

open StopAux

/-- What a stop tells is what happened, whatever the server and the network do. Nothing is sent unless the session can be asked, and
then nothing but the request of its own record, or a first part of it. It is killed, and tells nothing, exactly when the request of a
session that can be asked fails with EPIPE and SIGPIPE was not ignored when it was started. The session is told to be dead already
when nobody answered, and without a connection. It is told to be stopped when all of the request was sent, no answer that came in time
refused it, and a probe after that found nobody; it is told to listen still when the request was sent and every probe of seven seconds
found somebody; and what the server refused with is shown in its own words. A session that can be asked and goes away quietly within
that time is told to be stopped. -/
theorem stop_tells_what_happened (w : StopWorld) (session : CString) :
    (∀ sock', (runNamedStop w session).2 = some sock' → ∃ token input sock k, w.Asks session token input sock ∧
      sock'.written = sock.written ++ (stopRequest token input).take k) ∧
    ((runNamedStop w session).1 = .killed ↔ w.ignoresSigpipe = false ∧ ∃ token input sock, w.Asks session token input sock ∧
      (optySendControlShutdown sock (some (.ofBytes token)) (.mem input)).1 = .error .epipe) ∧
    ((runNamedStop w session).1 = .alreadyDead → w.accepts 0 = false ∧ (runNamedStop w session).2 = none) ∧
    ((runNamedStop w session).1 = .stopped → w.Requested session ∧
      (w.Answered → (∃ fd, optyRecvFrame w.alloc w.answer = (.ok none, fd)) ∨
        ∃ f fd, optyRecvFrame w.alloc w.answer = (.ok (some f), fd) ∧ f.type ≠ msgError) ∧
      ∃ n, 1 ≤ n ∧ n ≤ 71 ∧ w.accepts n = false ∧ ∀ m, 1 ≤ m → m < n → w.accepts m = true) ∧
    ((runNamedStop w session).1 = .stillListening → w.Requested session ∧
      ∀ m, 1 ≤ m → m ≤ 71 → w.accepts m = true) ∧
    (∀ text, (runNamedStop w session).1 = .refused text → w.Requested session ∧
      ∃ fd, optyRecvFrame w.alloc w.answer = (.ok (some ⟨msgError, text⟩), fd)) ∧
    (∀ token input sock, w.Asks session token input sock → sock.Benign .eintr → (∀ p ∈ w.polls, p.goesOn = true ∨ p = .hangup) →
      (∃ n, 1 ≤ n ∧ n ≤ 71 ∧ w.accepts n = false) → (runNamedStop w session).1 = .stopped) := by
  have hkilled := runNamedStop_killed_iff w session
  rcases runNamedStop_cases w session with ⟨hnone, hmem, hdead, hno⟩ | ⟨token, input, sock, sock', r, hasks, -, hsends, heq⟩
  · -- the reports without a connection are none of those that follow a request
    have hother : ∀ report, report ∉ [StopReport.invalidName, .noSession, .noControlToken, .alreadyDead, .badGracefulInput,
        .notConnected] → (runNamedStop w session).1 ≠ report := fun report hreport h => hreport (h ▸ hmem)
    refine ⟨fun sock' h => ?_, hkilled, fun h => ⟨hdead h, hnone⟩, fun h => ?_, fun h => ?_, fun text h => ?_,
      fun token input sock h => ?_⟩
    · cases hnone.symm.trans h
    · exact absurd h (hother _ (by decide))
    · exact absurd h (hother _ (by decide))
    · exact absurd h (hother _ (by simp))
    · exact absurd h (hno token input sock)
  · obtain ⟨k, hk⟩ := hsends.exists_take
    have hsent : afterSend w r ≠ .notSent → afterSend w r ≠ .killed →
        w.Requested session ∧ afterSend w r = stopAfterRequest w := by
      intro h h'
      cases r with
      | error e =>
        rcases stopSendFailed_eq w e with ⟨hk, -⟩ | ⟨hn, -⟩
        · exact absurd hk h'
        · exact absurd hn h
      | ok u => exact ⟨⟨token, input, sock, sock', hasks, by rw [heq], hsends.written_of_ok⟩, rfl⟩
    -- after the request there is one of the reports of the wait, or one of the two of the probes
    have hreport : ∀ report, afterSend w r = report → report ≠ .notSent → report ≠ .killed → report ≠ .failed →
        (∀ text, report ≠ .refused text) → w.Requested session ∧ stopWait w.alloc w.answer 0 w.polls = none ∧
      ((report = .stopped ∧ ∃ n, 1 ≤ n ∧ n ≤ 71 ∧ w.accepts n = false ∧ ∀ m, 1 ≤ m → m < n → w.accepts m = true) ∨
        report = .stillListening ∧ ∀ m, 1 ≤ m → m ≤ 71 → w.accepts m = true) := by
      rintro report rfl hnot hnotKilled hfailed hrefused
      obtain ⟨hreq, hafter⟩ := hsent hnot hnotKilled
      rw [hafter] at hfailed hrefused ⊢
      refine ⟨hreq, ?_⟩
      rcases stopAfterRequest_cases w with hwait | hwait
      · rcases stopWait_some hwait with h | ⟨text, fd, h, -⟩
        · exact absurd h hfailed
        · exact absurd h (hrefused text)
      · exact hwait
    rw [heq] at hkilled ⊢
    refine ⟨fun sock₁ h => ?_, hkilled, fun h => ?_, fun h => ?_, fun h => ?_, fun text h => ?_,
      fun token₁ input₁ sock₁ hasks₁ hb hquiet hgone => ?_⟩
    · cases h
      exact ⟨token, input, sock, k, hasks, hk⟩
    · obtain ⟨-, -, h' | h'⟩ := hreport _ h (by simp) (by simp) (by simp) (by simp)
      · cases h'.1
      · cases h'.1
    · obtain ⟨hreq, hwait, ⟨-, hgone⟩ | ⟨h', -⟩⟩ := hreport _ h (by simp) (by simp) (by simp) (by simp)
      · refine ⟨hreq, ?_, hgone⟩
        rintro ⟨before, after, hpolls, hbefore, htime⟩
        rw [hpolls] at hwait
        exact stopWait_none hwait hbefore (by omega)
      · cases h'
    · obtain ⟨hreq, -, ⟨h', -⟩ | ⟨-, hall⟩⟩ := hreport _ h (by simp) (by simp) (by simp) (by simp)
      · cases h'
      · exact ⟨hreq, hall⟩
    · have hr : afterSend w r = .refused text := h
      obtain ⟨hreq, hafter⟩ := hsent (by rw [hr]; simp) (by rw [hr]; simp)
      refine ⟨hreq, ?_⟩
      rcases stopAfterRequest_cases w with hwait | ⟨-, ⟨h', -⟩ | ⟨h', -⟩⟩
      · rw [← hafter, hr] at hwait
        rcases stopWait_some hwait with h' | ⟨text', fd, h', hrecv⟩
        · cases h'
        · cases h'
          exact ⟨fd, hrecv⟩
      · cases hr.symm.trans (hafter.trans h')
      · cases hr.symm.trans (hafter.trans h')
    · obtain ⟨-, -, rfl⟩ := hasks.unique hasks₁
      obtain ⟨rfl, -⟩ := hsends.of_benign hb
      obtain ⟨n, h1, h71, hn⟩ := hgone
      have hwait : stopWait w.alloc w.answer 0 w.polls = none := stopWait_quiet hquiet
      rcases stopAfterRequest_cases w with h | ⟨-, ⟨h, -⟩ | ⟨-, hall⟩⟩
      · cases hwait.symm.trans h
      · exact h
      · cases hn.symm.trans (hall n h1 h71)

namespace StopAux

open LaunchAux

/-- A server shuts down on the request of its own token, however it is received. -/
theorem firstMove_stopRequest {cfg : Config} {secret : Secret} (hcfg : cfg.controlToken = some secret) (hne : secret.text.bytes ≠ [])
    {input : List UInt8} (hinput : input.length ≤ optyMaxGracefulInput) {fd : Source Errno} {rest : List UInt8}
    (hfd : fd.Benign .eintr) (hbytes : fd.bytes = stopRequest secret.text.bytes input ++ rest) :
    firstMove cfg (optyRecvFrameLimited true fd optyMaxUnauthPayload).1 = some (.shutdown input) := by
  have hlimit : (Msg.controlShutdown secret.text.bytes input).frame.payload.length ≤ min optyMaxUnauthPayload (optyMaxFrame - 1) := by
    have hlen := secret.fits
    simp only [Msg.frame, tokenField, List.length_cons, List.length_append, length_optyPutU16, optyMaxUnauthPayload, optyMaxFrame,
      optyMaxToken, optyMaxGracefulInput] at hlen hinput ⊢
    omega
  obtain ⟨fd', hrecv, -⟩ := FramingAux.recv_whole hfd hbytes hlimit
  obtain ⟨move, hmove, -, hstop⟩ := firstMove_spec cfg (.ok (some (Msg.controlShutdown secret.text.bytes input).frame))
  rw [hrecv, hmove, (hstop input).2 ⟨_, rfl, secret, secret.text.bytes, hcfg, hne, secret.fits, ⟨0, by simp⟩, hinput, rfl⟩]

/-- And only on a request of that token. -/
theorem request_of_shutdown {cfg : Config} {secret : Secret} (hcfg : cfg.controlToken = some secret)
    {received : Except Errno (Option Frame)} {input : List UInt8} (h : firstMove cfg received = some (.shutdown input)) :
    ∃ n, received = .ok (some (Msg.controlShutdown (secret.text.bytes ++ List.replicate n 0) input).frame) := by
  obtain ⟨move, hmove, -, hstop⟩ := firstMove_spec cfg received
  cases hmove.symm.trans h
  obtain ⟨f, hf, t, token, ht, -, -, ⟨n, hn⟩, -, hframe⟩ := (hstop input).1 rfl
  cases hcfg.symm.trans ht
  exact ⟨n, by rw [hf, hframe, hn]⟩

end StopAux

open LaunchAux

/-- A stop is what the started server listens to. Whatever command a session was started with, as long as the home directory and the
working directory of the start are one line each, the record that the start left lets `run_named_stop` ask its server to shut down,
when that is alive, can be connected to and takes the request, and the record can be opened and read into memory. The server, with the
options and the environment it was started with, shuts down on that request, in whatever pieces it arrives and whatever comes after it,
and types `/exit` into the terminal before; and it shuts down on no first frame but a request with that token (and NULs behind it). -/
theorem stop_reaches_started_server (w : StartWorld) (argv0 : List UInt8) (session : CString) (argv : List CString)
    (endpoint : EndpointText) (server : Launch) (files : Files)
    (h : runNamedStart w argv0 session argv = some (.launches endpoint server, files))
    (hhome : ∀ p, w.save.home = some p → newline ∉ p.bytes) (hcwd : OneLine (getcwd w.save.workingDir)) (env : ServerEnv)
    (hctl : env.controlToken = server.controlToken) (hhost : ∀ n, env.mallocHost n ≠ none) (hport : ∀ n, env.mallocPort n ≠ none)
    (v : StopWorld) (hvhome : v.home = w.save.home) (hvfiles : v.files = files) (hfopen : v.fopen = .ok ())
    (hm : ∀ n size, v.malloc n size ≠ none) (halive : v.accepts 0 = true) (sock : Sink Errno) (hconnect : v.connect = .ok sock) :
    ∃ setup token, serverMain env server.argv.tail = .ok setup ∧ v.Asks session token (ascii "/exit\n") sock ∧
      (sock.Benign .eintr → ∃ sock', (runNamedStop v session).2 = some sock' ∧
        sock'.written = sock.written ++ stopRequest token (ascii "/exit\n")) ∧
      (∀ fd rest, fd.Benign .eintr → fd.bytes = stopRequest token (ascii "/exit\n") ++ rest →
        firstMove setup.cfg (optyRecvFrameLimited true fd optyMaxUnauthPayload).1 = some (.shutdown (ascii "/exit\n"))) ∧
      ∀ received input, firstMove setup.cfg received = some (.shutdown input) →
        ∃ n, received = .ok (some (Msg.controlShutdown (token ++ List.replicate n 0) input).frame) := by
  obtain ⟨port, log, random, -, -, -, -, rfl, -, -, hspawn, hread⟩ := read_started h hhome hcwd hm
  rw [argvCells_eq] at hspawn
  obtain ⟨path, -, -, hserver⟩ := optySpawnServer_ok hspawn
  obtain ⟨secret, htext, hmain⟩ := serverMain_started hserver hctl hhost hport
  have hne : secret.text.bytes ≠ [] := by
    rw [htext]
    exact token_ne_nil random
  have hasks : v.Asks session secret.text.bytes (ascii "/exit\n") sock := by
    rw [← hvhome, ← hfopen, ← hvfiles] at hread
    refine ⟨⟨_, hread, ?_, ?_⟩, hne, halive, hconnect⟩
    · rw [htext]
      rfl
    · rfl
  refine ⟨_, secret.text.bytes, hmain, hasks, fun hb => ?_, fun fd rest hfd hbytes => ?_, fun received input hmove => ?_⟩
  · rcases runNamedStop_cases v session with ⟨-, -, -, hno⟩ | ⟨token, input, sock₁, sock', r, hasks₁, -, hsends, heq⟩
    · exact absurd hasks (hno _ _ _)
    · obtain ⟨rfl, rfl, rfl⟩ := hasks.unique hasks₁
      obtain ⟨-, hwritten, -⟩ := hsends.of_benign hb
      exact ⟨sock', by rw [heq], hwritten⟩
  · exact firstMove_stopRequest rfl hne (by decide) hfd hbytes
  · exact request_of_shutdown rfl hmove

/-- The session `dev` of these files, whose server answers and takes every byte. -/
def stoppingWorld (files : Files) : StopWorld where
  home := workingWorld.home
  files := files
  fopen := .ok ()
  malloc := fun _ n => some (.fill n 0)
  accepts := fun n => n = 0
  connect := .ok ⟨[], [], false⟩
  ignoresSigpipe := false
  polls := [.hangup]
  answer := ⟨[], []⟩
  alloc := true

/-- The session that is started in the example of a start, and stopped. -/
theorem stop_reaches_started_server_dev : ∃ endpoint server files setup sock',
    runNamedStart startingWorld (ascii "0pty") (.ofBytes (ascii "dev"))
      [.ofBytes (ascii "sh"), .ofBytes (ascii "-c"), .ofBytes (ascii "--")] = some (.launches endpoint server, files) ∧
    serverMain ⟨false, server.controlToken, none, fun n => some (.fill n 0), fun n => some (.fill n 0)⟩ server.argv.tail = .ok setup ∧
    (runNamedStop (stoppingWorld files) (.ofBytes (ascii "dev"))).2 = some sock' ∧
    firstMove setup.cfg (optyRecvFrameLimited true ⟨sock'.written, []⟩ optyMaxUnauthPayload).1 = some (.shutdown (ascii "/exit\n")) := by
  obtain ⟨endpoint, server, files, h⟩ := startingWorld_launches (ascii "0pty")
  obtain ⟨setup, token, hmain, -, hsend, hshut, -⟩ := stop_reaches_started_server startingWorld _ _ _ endpoint server files h
    (fun p hp => by cases hp; decide) (by decide)
    ⟨false, server.controlToken, none, fun n => some (.fill n 0), fun n => some (.fill n 0)⟩ rfl (fun _ => Option.some_ne_none _)
    (fun _ => Option.some_ne_none _) (stoppingWorld files) rfl rfl rfl (fun _ _ => Option.some_ne_none _) rfl _ rfl
  obtain ⟨sock', hsock, hwritten⟩ := hsend ⟨rfl, by simp⟩
  refine ⟨endpoint, server, files, setup, sock', h, hmain, hsock, ?_⟩
  exact hshut ⟨sock'.written, []⟩ [] (by simp [Source.Benign]) (by rw [hwritten, List.append_nil]; rfl)

end ZeroPty
