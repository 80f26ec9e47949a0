import ZeroPty.Lemmas.Authentication
import ZeroPty.Theorems.Delivery

/-!
# No effect and no output without authentication
-/

namespace ZeroPty

open Stream Memory Transition

/-- No effect and no output without authentication, in every state of every interleaving, whatever bytes the peers send. What the
terminal received is recorded with the connection it came from. Each such connection has an authorised HELLO or RECONNECT as
its first frame, or else an authorised CONTROL_SHUTDOWN, and then it is a first part of its graceful input. A connection whose
first frame is not an authorised HELLO or RECONNECT was sent a first part of one ERROR frame, and nothing else. A thread enters
`server_request_shutdown` only when the first frame is an authorised CONTROL_SHUTDOWN, so never when it is attached. A wire token
in the buffer of a parser equals a configured one exactly when it is that one followed by NULs. -/
theorem no_effect_without_authentication (cfg : Config) (malloc : Alloc UInt8) (capacity : UInt64) (ring : Ring)
    (hinit : optyRingInit malloc (.ok ()) capacity = .ok ring) (master : Sink Errno) (acts : List Act) (s : Sys)
    (hs : exec step (Sys.init cfg ring master) acts = .next s) :
    s.master.written = master.written ++ effectBytes s.effects ∧
    (∀ i e, (i, e) ∈ s.effects → (∃ f rest intro, (s.conn i).wire = frameBytes f ++ rest ∧ Authorised cfg f intro) ∨
      ∃ f rest input k, (s.conn i).wire = frameBytes f ++ rest ∧ ControlAuthorised cfg f input ∧ e = .bytes (input.take k)) ∧
    (∀ i, (¬∃ f rest intro, (s.conn i).wire = frameBytes f ++ rest ∧ Authorised cfg f intro) →
      ∃ (t : ErrorText) (k : Nat), (s.conn i).sock.written = (frameBytes t.frame).take k) ∧
    (∀ i ∈ s.requests, (∃ f rest input, (s.conn i).wire = frameBytes f ++ rest ∧ ControlAuthorised cfg f input) ∧
      ¬∃ f rest intro, (s.conn i).wire = frameBytes f ++ rest ∧ Authorised cfg f intro) ∧
    ∀ (t : Secret) (token : List UInt8) (tok : TokenBuf), token.length ≤ optyMaxToken →
      tok.cells = tokenBuffer token (Block.fill (optyMaxToken + 1) 0).cells →
      (serverTokensEqual (some t.buf) (some tok) = true ↔ ∃ k, token = t.text.bytes ++ List.replicate k 0) := by
  have hring := (represents_init hinit).2.bounded
  have h := authSys_exec hring hs
  refine ⟨?_, fun i e he => ?_, fun i hn =>
    ((h.conns i).silent (by_contra fun ha => hn ((h.conns i).attached ha))).1, fun i hi => ?_, fun t token tok ht htok =>
    tokens_match_iff t token ht tok htok⟩
  · refine (invariant (Q := fun _ => True)
      (P := fun s => RefInv s ∧ s.master.written = master.written ++ effectBytes s.effects)
      (fun _ _ _ hp _ hstep => ⟨refInv_moves hp.1 (step_moves hstep), master_moves hp.1 hp.2 (step_moves hstep)⟩)
      ⟨refInv_init hring, ?_⟩ (fun _ _ => trivial) hs).2
    simp [Sys.init, effectBytes]
  · rcases (h.effects i e he).2 with hatt | ⟨input, k, ⟨f, rest, hw, hauth⟩, rfl⟩
    · exact Or.inl hatt
    · exact Or.inr ⟨f, rest, input, k, hw, hauth, rfl⟩
  · obtain ⟨input, hstop⟩ := (h.requests i hi).2
    obtain ⟨f, rest, hw, hauth⟩ := hstop
    exact ⟨⟨f, rest, input, hw, hauth⟩, Stoppable.not_attachable ⟨f, rest, hw, hauth⟩⟩

/-- A server whose attach token is `k`. -/
def keyed : Config where
  token := some { text := ⟨[107], by decide⟩, fits := by decide, buf := _, stored := Option.some_get (by decide) |>.symm }
  controlToken := none

/-- A peer says HELLO with the token `x`, and is told that this is the wrong one, while the terminal says `hi`. -/
def wrongTokenRun : List Act :=
  [.accept ⟨frameBytes (Msg.hello 80 24 [120]).frame, []⟩ [] true, .create true, .ptyRead (.got [104, 105]), .pty true,
    .client 0 .ok, .pty true, .client 0 .ok]

namespace AuthenticationAux

/-- A first frame that is this HELLO is not authorised to do anything. -/
theorem not_authorised_of_wrong_token {wire : List UInt8} (hw : wire = frameBytes (Msg.hello 80 24 [120]).frame) :
    (¬∃ f rest intro, wire = frameBytes f ++ rest ∧ Authorised keyed f intro) ∧
      ¬∃ f rest input, wire = frameBytes f ++ rest ∧ ControlAuthorised keyed f input := by
  have hshort : (Msg.hello 80 24 [120]).frame.payload.length < 2 ^ 32 - 1 := by decide
  constructor
  · rintro ⟨f, rest, intro, hwire, hauth⟩
    rw [hw, ← List.append_nil (frameBytes _)] at hwire
    obtain ⟨rfl, -⟩ := frameBytes_append_inj hshort hauth.short hwire
    obtain ⟨-, -, token, -, hadmits, hframe⟩ := hauth
    obtain ⟨k, rfl⟩ := hadmits _ rfl (by decide)
    rcases hframe with ⟨hframe, -⟩ | hframe
    · -- the token is what comes after the version, the size and a length
      have htoken : [120] = [107] ++ List.replicate k (0 : UInt8) := congrArg (fun f => f.payload.drop 6) hframe
      cases htoken
    · exact absurd (congrArg Frame.type hframe) (show msgHello ≠ msgReconnect by decide)
  · rintro ⟨f, rest, input, hwire, t, token, hc, -⟩
    cases hc

end AuthenticationAux

open AuthenticationAux

/-- The peer was sent nothing but that ERROR, and caused nothing. -/
theorem no_effect_without_authentication_wrong_token :
    ∃ ring s, optyRingInit zeroAlloc (.ok ()) 5 = .ok ring ∧ exec step (Sys.init keyed ring {}) wrongTokenRun = .next s ∧
      s.log = [104, 105] ∧ (s.conn 0).sock.written ≠ [] ∧
      (∃ (t : ErrorText) (k : Nat), (s.conn 0).sock.written = (frameBytes t.frame).take k) ∧
      (∀ e, (0, e) ∉ s.effects) ∧ 0 ∉ s.requests := by
  obtain ⟨ring, hring⟩ := optyRingInit_ok zeroAlloc 5 (by decide) rfl
  have hrun : (exec step (Sys.init keyed ring {}) wrongTokenRun).passes (fun s =>
      s.log == [104, 105] && (s.conn 0).sock.written != [] &&
        (s.conn 0).wire == frameBytes (Msg.hello 80 24 [120]).frame) = true := by
    cases hring
    decide +kernel
  obtain ⟨s, hs, htest⟩ := Outcome.passes_iff.1 hrun
  simp only [Bool.and_eq_true, beq_iff_eq, bne_iff_ne] at htest
  obtain ⟨⟨hlog, hsent⟩, hwire⟩ := htest
  obtain ⟨hno, hstop⟩ := not_authorised_of_wrong_token hwire
  obtain ⟨-, heffects, hsilent, hrequests, -⟩ :=
    no_effect_without_authentication keyed zeroAlloc 5 ring hring {} wrongTokenRun s hs
  refine ⟨ring, s, hring, hs, hlog, hsent, hsilent 0 hno, fun e he => ?_, fun h => hstop (hrequests 0 h).1⟩
  rcases heffects 0 e he with h | ⟨f, rest, input, k, hw, hauth, -⟩
  · exact hno h
  · exact hstop ⟨f, rest, input, hw, hauth⟩

end ZeroPty
