import ZeroPty.Lemmas.Messages
import ZeroPty.Retry

/-!
# A frame is written once, or the connection is given up
-/

namespace ZeroPty

open Stream Transition

/-- A loop sent one copy of the frame, whole or up to a failure, and called its sender once. -/
def SentOnce (f : Frame) (sock : Sink Errno) (result : Option (Option Int × Sink Errno × Nat)) : Prop :=
  ∃ rc sock' k, result = some (rc, sock', 1) ∧ sock'.written = sock.written ++ (frameBytes f).take k ∧
    (rc = none ↔ (frameBytes f).length ≤ k)

namespace RetryAux

/-! ## Between two writes -/

/-- What holds of the machine that writes `iov` on a descriptor with `before` on it. -/
def WritevInv (iov : List (List UInt8)) (before : List UInt8) : WritevState → Prop
  | .running cur total fd => (∀ seg ∈ cur, seg ≠ []) ∧ total ≤ iov.flatten.length ∧ cur.flatten = iov.flatten.drop total ∧
      fd.written = before ++ iov.flatten.take total
  | .returned (.ok n) fd => n = iov.flatten.length ∧ fd.written = before ++ iov.flatten
  | .returned (.error e) fd => e ≠ .eintr ∧ ∃ k < iov.flatten.length, fd.written = before ++ iov.flatten.take k

variable {iov : List (List UInt8)} {before : List UInt8}

/-- One pass through the loop keeps to the bytes of the segments. -/
theorem WritevInv.step {s s' : WritevState} (h : WritevInv iov before s) (hstep : writevStep s () = .next s') : WritevInv iov before s' := by
  cases s with
  | returned r fd => cases hstep
  | running cur total fd =>
    obtain ⟨hcur, hle, hflat, hwritten⟩ := h
    simp only [writevStep] at hstep
    split at hstep
    · rename_i hnil
      cases hstep
      rw [hnil, List.flatten_nil] at hflat
      have hlen := List.drop_eq_nil_iff.1 hflat.symm
      refine ⟨Nat.le_antisymm hle hlen, ?_⟩
      rw [hwritten, List.take_of_length_le hlen]
    · rename_i hne
      have hbytes := flatten_ne_nil hcur hne
      have hlt : total < iov.flatten.length := by
        rw [hflat] at hbytes
        exact Nat.lt_of_not_le fun hle => hbytes (List.drop_of_length_le hle)
      split at hstep
      · rename_i n fd' hw
        -- What the write took is the next part of the bytes.
        rcases fd.write_cases .epipe cur.flatten hbytes with ⟨-, hw'⟩ | ⟨-, e, f, rest, -, hw'⟩ | ⟨-, f, rest, -, hw'⟩ |
          ⟨-, m, sched, hpos, hm, -, -, hw'⟩
        · rw [hw] at hw'; cases hw'
        · rw [hw] at hw'; cases hw'
        · rw [hw] at hw'
          cases hw'
          cases hstep
          exact ⟨by decide, total, hlt, hwritten⟩
        · rw [hw] at hw'
          cases hw'
          rw [if_pos hpos] at hstep
          cases hstep
          have hm' : n ≤ iov.flatten.length - total := by
            rw [hflat, List.length_drop] at hm
            exact hm
          refine ⟨iovAdvance_ne_nil cur n hcur, by omega, ?_, ?_⟩
          · rw [flatten_iovAdvance, hflat, List.drop_drop]
          · simp only
            rw [hwritten, hflat, List.append_assoc, List.take_add]
      · rename_i e fd' hw
        have hsame : fd'.written = fd.written := by
          rcases fd.write_cases .epipe cur.flatten hbytes with ⟨-, hw'⟩ | ⟨-, e, f, rest, -, hw'⟩ | ⟨-, f, rest, -, hw'⟩ |
            ⟨-, m, sched, -, -, -, -, hw'⟩
          · rw [hw] at hw'; cases hw'; rfl
          · rw [hw] at hw'; cases hw'; rfl
          · rw [hw] at hw'; cases hw'
          · rw [hw] at hw'; cases hw'
        split at hstep
        · cases hstep
          exact ⟨hcur, hle, hflat, hsame.trans hwritten⟩
        · rename_i he
          cases hstep
          exact ⟨he, total, hlt, hsame.trans hwritten⟩

/-- The machine ends with what the function returns. -/
theorem writev_returns (fd : Sink Errno) (cur : List (List UInt8)) (total : Nat) :
    ∃ calls, exec writevStep (.running cur total fd) calls =
      .next (.returned (optyWritevFullLoop fd cur total).1 (optyWritevFullLoop fd cur total).2) := by
  fun_induction optyWritevFullLoop fd cur total with
  | case1 fd total => exact ⟨[()], rfl⟩
  | case2 fd cur total hne n fd' hw hn ih =>
    obtain ⟨calls, hcalls⟩ := ih
    refine ⟨() :: calls, ?_⟩
    simp only [exec, writevStep, if_neg hne, hw, if_pos hn]
    exact hcalls
  | case3 fd cur total hne n fd' hw hn =>
    refine ⟨[()], ?_⟩
    simp only [exec, writevStep, if_neg hne, hw, if_neg hn]
  | case4 fd cur total hne fd' hw ih =>
    obtain ⟨calls, hcalls⟩ := ih
    refine ⟨() :: calls, ?_⟩
    simp only [exec, writevStep, if_neg hne, hw, if_true]
    exact hcalls
  | case5 fd cur total hne e fd' hw he =>
    refine ⟨[()], ?_⟩
    simp only [exec, writevStep, if_neg hne, hw, if_neg he]

/-- The bytes on the descriptor are a first part of the bytes of the segments. -/
theorem WritevInv.exists_take {s : WritevState} (h : WritevInv iov before s) :
    ∃ k ≤ iov.flatten.length, s.fd.written = before ++ iov.flatten.take k ∧
      ∀ cur total fd, s = .running cur total fd → total = k ∧ cur.flatten = iov.flatten.drop k := by
  cases s with
  | running cur total fd =>
    refine ⟨total, h.2.1, h.2.2.2, ?_⟩
    intro cur' total' fd' heq
    cases heq
    exact ⟨rfl, h.2.2.1⟩
  | returned r fd =>
    cases r with
    | ok n => exact ⟨iov.flatten.length, Nat.le_refl _, by rw [List.take_length]; exact h.2, fun _ _ _ heq => by cases heq⟩
    | error e =>
      obtain ⟨-, k, hk, hw⟩ := h
      exact ⟨k, Nat.le_of_lt hk, hw, fun _ _ _ heq => by cases heq⟩

/-- The total length is returned exactly when all the bytes were written. -/
theorem WritevInv.ok_iff {r : Except Errno Nat} {fd : Sink Errno} (h : WritevInv iov before (.returned r fd)) :
    r = .ok iov.flatten.length ↔ fd.written = before ++ iov.flatten := by
  cases r with
  | ok n =>
    obtain ⟨rfl, hw⟩ := h
    exact ⟨fun _ => hw, fun _ => rfl⟩
  | error e =>
    obtain ⟨-, k, hk, hw⟩ := h
    refine ⟨fun h => (by cases h), fun hall => ?_⟩
    have hlen := congrArg List.length (List.append_cancel_left (hw.symm.trans hall))
    rw [List.length_take] at hlen
    omega

/-! ## Between two tries -/

/-- What a call of a sender does: it sends the frame, or it refuses its arguments with an error that is not EINTR. -/
def Tried (f : Frame) (sock : Sink Errno) (r : Except Errno Unit × Sink Errno) : Prop :=
  Sends .eintr sock (frameBytes f) r.1 r.2 ∨ ∃ e, e ≠ .eintr ∧ r = (.error e, sock)

theorem optySendFrame_tried (fd : Sink Errno) (type : UInt8) (payload : Buf) :
    Tried ⟨type, payload.bytes⟩ fd (optySendFrame fd type payload) := by
  by_cases h : payload.Sendable
  · exact Or.inl (optySendFrame_sends fd type payload h)
  · right
    unfold optySendFrame
    by_cases hlen : optyMaxFrame - 1 < payload.len
    · exact ⟨.emsgsize, by decide, if_pos hlen⟩
    · rw [if_neg hlen]
      cases payload with
      | null len =>
        by_cases h0 : 0 < len
        · exact ⟨.einval, by decide, if_pos h0⟩
        · exact absurd ⟨by omega, by simp only [Buf.bytes, Buf.len, List.length_nil]; omega⟩ h
      | mem bytes => exact absurd ⟨by omega, rfl⟩ h

/-- The intro is sent whole or up to a failure, or its token is refused. -/
theorem sendIntro_tried (sock : Sink Errno) (reconnect : Bool) (lastSeq : UInt64) (cols rows : UInt16) (token : Option CString) :
    Tried (if reconnect then Msg.reconnect lastSeq cols rows (tokenBytes token) else Msg.hello cols rows (tokenBytes token)).frame sock
      (sendIntro sock reconnect lastSeq cols rows token) := by
  by_cases ht : (tokenBytes token).length ≤ optyMaxToken
  · left
    cases reconnect with
    | false => exact optySendHello_sends cols rows token ht sock
    | true => exact optySendReconnect_sends cols rows lastSeq token ht sock
  · right
    refine ⟨.emsgsize, by decide, ?_⟩
    have hrefused := (optyTokenPayload_spec token).2 (Nat.lt_of_not_le ht)
    cases reconnect with
    | false => simp only [sendIntro, optySendHello, optySendTokenizedIntro, hrefused, Bool.false_eq_true, if_false]
    | true => simp only [sendIntro, optySendReconnect, optySendTokenizedIntro, hrefused, if_true]

theorem Tried.ne_eintr {f : Frame} {sock sock' : Sink Errno} {e : Errno} (h : Tried f sock (.error e, sock')) : e ≠ .eintr := by
  rcases h with h | ⟨e', he', h⟩
  · cases h with
    | part _ _ k he hk hw hs hbad hbroken hgood => exact he
  · cases h
    exact he'

/-- What is on the socket after a call. -/
theorem Tried.written {f : Frame} {sock : Sink Errno} {r : Except Errno Unit × Sink Errno} (h : Tried f sock r) :
    ∃ k, r.2.written = sock.written ++ (frameBytes f).take k ∧ (r.1 = .ok () ↔ (frameBytes f).length ≤ k) := by
  rcases h with h | ⟨e, -, rfl⟩
  · obtain ⟨res, sock'⟩ := r
    cases h with
    | whole _ hb hw hs hb' =>
      refine ⟨(frameBytes f).length, ?_, fun _ => Nat.le_refl _, fun _ => rfl⟩
      rw [List.take_length]
      exact hw
    | part _ e k he hk hw hs hbad hbroken hgood =>
      exact ⟨k, hw, fun h => (by cases h), fun hle => absurd hle (Nat.not_le_of_lt hk)⟩
  · have hpos := List.length_pos_iff.2 (frameBytes_ne_nil f)
    exact ⟨0, by simp, fun h => (by cases h), fun hle => absurd hle (Nat.not_le_of_lt hpos)⟩

/-- A loop that gives up after every error but EINTR calls its sender once. -/
theorem retryLoop_once {send : Nat → Sink Errno → Except Errno Unit × Sink Errno} {failed : Errno → Bool → Option Int}
    {terminate : Nat → Bool} {sock : Sink Errno} {f : Frame} (fuel : Nat) (hsend : Tried f sock (send 0 sock))
    (hfailed : ∀ e t, e ≠ .eintr → ∃ rc, failed e t = some rc) :
    SentOnce f sock (retryLoop send failed terminate (fuel + 1) 0 sock) := by
  obtain ⟨k, hw, hok⟩ := hsend.written
  rw [retryLoop]
  split
  · rename_i sock' heq
    rw [heq] at hw hok
    exact ⟨none, sock', k, rfl, hw, fun _ => hok.1 rfl, fun _ => rfl⟩
  · rename_i e sock' heq
    rw [heq] at hw hok hsend
    obtain ⟨rc, hrc⟩ := hfailed e (terminate 0) hsend.ne_eintr
    simp only [hrc]
    exact ⟨some rc, sock', k, rfl, hw, fun h => (by cases h), fun hle => by cases hok.2 hle⟩

theorem ackFailed_of_ne_eintr (e : Errno) (t : Bool) (he : e ≠ .eintr) : ∃ rc, ackFailed e t = some rc :=
  ⟨1, if_pos (Or.inl he)⟩

theorem sessionFailed_of_ne_eintr (e : Errno) (t : Bool) (he : e ≠ .eintr) : ∃ rc, sessionFailed e t = some rc := by
  cases t with
  | false => exact ⟨1, by rw [sessionFailed, if_neg (by decide), if_pos he]⟩
  | true => exact ⟨0, if_pos rfl⟩

end RetryAux

open RetryAux

/-- `opty_writev_full` puts one segment after another on the descriptor, whatever the writes do, and says the total length exactly
when it put all of them there; no failure of `opty_send_frame` is an EINTR, so the loops that send again after one never send twice. -/
theorem frame_written_once :
    (∀ (iov : List (List UInt8)) (fd : Sink Errno), 1 ≤ iov.length → iov.length ≤ 3 → (∀ seg ∈ iov, seg ≠ []) →
      (∀ calls s, exec writevStep (.running iov 0 fd) calls = .next s →
        ∃ k ≤ iov.flatten.length, s.fd.written = fd.written ++ iov.flatten.take k ∧
          ∀ cur total fd', s = .running cur total fd' → total = k ∧ cur.flatten = iov.flatten.drop k) ∧
      (∃ calls, exec writevStep (.running iov 0 fd) calls = .next (.returned (optyWritevFull fd iov).1 (optyWritevFull fd iov).2)) ∧
      (∀ n, (optyWritevFull fd iov).1 = .ok n → n = iov.flatten.length) ∧
      ((optyWritevFull fd iov).1 = .ok iov.flatten.length ↔ (optyWritevFull fd iov).2.written = fd.written ++ iov.flatten)) ∧
    (∀ (fd fd' : Sink Errno) type payload e, optySendFrame fd type payload = (.error e, fd') → e ≠ .eintr) ∧
    (∀ (terminate : Nat → Bool) fuel (sock : Sink Errno),
      (∀ lastSeq, SentOnce (Msg.ack lastSeq).frame sock (sendAckLoop terminate (fuel + 1) sock lastSeq)) ∧
      (∀ reconnect lastSeq size token, SentOnce (if reconnect then Msg.reconnect lastSeq (size 0).1 (size 0).2 (tokenBytes token)
          else Msg.hello (size 0).1 (size 0).2 (tokenBytes token)).frame sock
        (sendIntroLoop terminate (fuel + 1) sock reconnect lastSeq size token)) ∧
      (∀ size, SentOnce (Msg.resize (size 0).1 (size 0).2).frame sock (sendResizeLoop terminate (fuel + 1) sock size)) ∧
      ∀ data, SentOnce ⟨msgStdin, data⟩ sock (sendStdinLoop terminate (fuel + 1) sock data)) := by
  refine ⟨fun iov fd h1 h3 hseg => ?_, fun fd fd' type payload e h => ?_, fun terminate fuel sock => ⟨?_, ?_, ?_, ?_⟩⟩
  · have hloop : optyWritevFull fd iov = optyWritevFullLoop fd iov 0 := by
      rw [optyWritevFull, if_neg (by omega), if_neg (by omega)]
    have hinit : WritevInv iov fd.written (.running iov 0 fd) := ⟨hseg, Nat.zero_le _, rfl, by simp⟩
    have hrun : ∀ calls s, exec writevStep (.running iov 0 fd) calls = .next s → WritevInv iov fd.written s :=
      fun calls s h => invariant (Q := fun _ => True) (fun s _ s' hs _ hstep => hs.step hstep) hinit (fun _ _ => trivial) h
    obtain ⟨calls, hcalls⟩ := writev_returns fd iov 0
    rw [hloop]
    have hdone := hrun calls _ hcalls
    refine ⟨fun calls s h => (hrun calls s h).exists_take, ⟨calls, hcalls⟩, ?_, ?_⟩
    · intro n hn
      rw [hn] at hdone
      exact hdone.1
    · exact hdone.ok_iff
  · have htried := optySendFrame_tried fd type payload
    rw [h] at htried
    exact htried.ne_eintr
  · exact fun lastSeq => retryLoop_once fuel (Or.inl (optySendAck_sends lastSeq sock)) ackFailed_of_ne_eintr
  · exact fun reconnect lastSeq size token =>
      retryLoop_once fuel (sendIntro_tried sock reconnect lastSeq _ _ token) sessionFailed_of_ne_eintr
  · exact fun size => retryLoop_once fuel (Or.inl (optySendResize_sends _ _ sock)) sessionFailed_of_ne_eintr
  · exact fun data => retryLoop_once fuel (optySendFrame_tried sock msgStdin (.mem data)) sessionFailed_of_ne_eintr

/-- Two segments and a write of two bytes, an interruption and a write of the rest. -/
theorem frame_written_once_interrupted :
    (optyWritevFull { sched := [.accept 2, .refuse (some .eintr) false] } [[1, 2, 3], [4]]).2.written = [1, 2, 3, 4] ∧
      (optyWritevFull { sched := [.accept 2, .refuse (some .eintr) false] } [[1, 2, 3], [4]]).1 = .ok 4 := by
  have h := frame_written_once.1 [[1, 2, 3], [4]] { sched := [.accept 2, .refuse (some .eintr) false] } (by decide) (by decide)
    (by decide)
  have hok : (optyWritevFull { sched := [.accept 2, .refuse (some .eintr) false] } [[1, 2, 3], [4]]).1 = .ok 4 := by
    decide +kernel
  exact ⟨h.2.2.2.1 hok, hok⟩

end ZeroPty
