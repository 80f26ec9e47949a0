import ZeroPty.Lemmas.Resume
import ZeroPty.Lemmas.Typing
import ZeroPty.Theorems.Resume

/-!
# What is typed arrives at the terminal

A run of the server and a client of it, with a record beside it of what the client wrote to each of its connections and of what it asked
for over it. What the terminal receives because of a connection is what was asked for, from the first on, once and in order.
-/

namespace ZeroPty

open Stream Memory Transition

/-! ## The record -/

/-- A size that the server accepts. -/
def sizeEffect (cols rows : UInt16) : List PtyEffect := if cols = 0 ∨ rows = 0 then [] else [.winsize cols rows]

/-- A run, and what the client wrote to and asked for over its connections. -/
structure Typist where
  world : World
  sent : Nat → List UInt8
  asked : Nat → List PtyEffect

/-- Before the run. -/
def Typist.init (w : World) : Typist := ⟨w, fun _ => [], fun _ => []⟩

/-- What is on the socket after a frame of the server was processed. -/
def ackWritten (c : ClientState) (sock : Sink Errno) (sawWelcome : Bool) : Except Errno (Option Frame) → List UInt8
  | .ok (some frame) => ((processServerFrame sock c sawWelcome frame).map fun r => r.2.1.written).getD sock.written
  | _ => sock.written

/-- The connection that an action of the client writes to, what is on it then, and what was asked for. -/
def clientWrites (w : World) (a : WorldAct) : Option (Nat × List UInt8 × List PtyEffect) :=
  match w.pc with
  | .connecting =>
    match a with
    | .connect cols rows _ _ clientSched _ => some (w.server.count,
        (sendIntro { sched := clientSched } w.client.connectedOnce w.client.lastSeq cols rows w.args.token).2.written,
        sizeEffect cols rows)
    | _ => none
  | .session i _ sock sawWelcome =>
    match a with
    | .recv stream alloc _ => some (i, ackWritten w.client sock sawWelcome (optyRecvFrame alloc stream).1, [])
    | .resize cols rows _ => some (i, (optySendResize sock cols rows).2.written, sizeEffect cols rows)
    | .stdin data _ => if data.length = 0 then none else some (i, (optySendStdin sock (.mem data)).2.written, [.bytes data])
    | _ => none
  | .exited _ => none

/-- The record after an action that led to `w`. -/
def Typist.note (t : Typist) (w : World) : Option (Nat × List UInt8 × List PtyEffect) → Typist
  | none => { t with world := w }
  | some (i, sent, es) => ⟨w, Function.update t.sent i sent, Function.update t.asked i (t.asked i ++ es)⟩

/-- One action, with the record. -/
def typistStep (t : Typist) (a : WorldAct) : Outcome Typist :=
  match worldStep t.world a with
  | .blocked => .blocked
  | .fault => .fault
  | .next w => .next (t.note w (clientWrites t.world a))

/-! ## What the client says -/

/-- The frame that a client with this token sends first, with this size. -/
def IntroSize (token : List UInt8) (f : Frame) (cols rows : UInt16) : Prop :=
  token.length ≤ optyMaxToken ∧ ∃ seq, f = (Msg.hello cols rows token).frame ∨ f = (Msg.reconnect seq cols rows token).frame

/-- A frame that a client sends after the first one; `ok` says which sizes there are. -/
def FollowUp (ok : UInt16 → UInt16 → Prop) (g : Frame) : Prop :=
  (∃ data, data.length ≤ optyMaxFrame - 1 ∧ g = ⟨msgStdin, data⟩) ∨ (∃ seq, g = (Msg.ack seq).frame) ∨
    ∃ cols rows, ok cols rows ∧ g = (Msg.resize cols rows).frame

/-- The frames that a client with this token sends, the first of them with this size. -/
structure Speech (ok : UInt16 → UInt16 → Prop) (token : List UInt8) (f : Frame) (gs : List Frame) (cols rows : UInt16) : Prop where
  first : IntroSize token f cols rows
  size : ok cols rows
  rest : ∀ g ∈ gs, FollowUp ok g

/-- The client has sent frames that ask for this, and nothing else. -/
def Speaking (ok : UInt16 → UInt16 → Prop) (token : List UInt8) (sent : List UInt8) (asked : List PtyEffect) : Prop :=
  ∃ f gs cols rows, Speech ok token f gs cols rows ∧ sent = wireBytes (f :: gs) ∧ asked = sizeEffect cols rows ++ gs.flatMap frameEffects

/-- The client has sent frames that ask for a first part of this, the last of them up to some byte. -/
def Spoke (ok : UInt16 → UInt16 → Prop) (token : List UInt8) (sent : List UInt8) (asked : List PtyEffect) : Prop :=
  ∃ f gs cols rows, Speech ok token f gs cols rows ∧ sent <+: wireBytes (f :: gs) ∧
    sizeEffect cols rows ++ gs.flatMap frameEffects <+: asked

variable {ok : UInt16 → UInt16 → Prop} {token : List UInt8}

theorem Speaking.spoke {sent : List UInt8} {asked : List PtyEffect} (h : Speaking ok token sent asked) : Spoke ok token sent asked := by
  obtain ⟨f, gs, cols, rows, hsp, rfl, rfl⟩ := h
  exact ⟨f, gs, cols, rows, hsp, List.prefix_refl _, List.prefix_refl _⟩

namespace TypingAux

/-- The first frame is short, for a peer that is not yet known too. -/
theorem introSize_length {f : Frame} {cols rows : UInt16} (h : IntroSize token f cols rows) : f.payload.length ≤ 14 + optyMaxToken := by
  obtain ⟨hfits, seq, rfl | rfl⟩ := h
  · simp only [Msg.frame, tokenField, List.length_cons, List.length_append, length_optyPutU16]
    omega
  · simp only [Msg.frame, tokenField, List.length_cons, List.length_append, length_optyPutU16, length_optyPutU64]
    omega

theorem followUp_length {g : Frame} (h : FollowUp ok g) : g.payload.length ≤ optyMaxFrame - 1 := by
  rcases h with ⟨data, hdata, rfl⟩ | ⟨seq, rfl⟩ | ⟨cols, rows, -, rfl⟩
  · exact hdata
  · exact show 8 ≤ optyMaxFrame - 1 by decide
  · exact show 4 ≤ optyMaxFrame - 1 by decide

theorem loopMove_ack (seq : UInt64) : loopMove (.ok (some (Msg.ack seq).frame)) = some .again := by
  obtain ⟨r, hr, hiff⟩ := optyParseAck_spec (Msg.ack seq).frame
  have hr' : optyParseAck (Msg.ack seq).frame = some (.ok seq) := by rw [hr, (hiff seq).2 rfl]
  have h1 : ¬(Msg.ack seq).frame.type = msgStdin := by rw [show (Msg.ack seq).frame.type = msgAck from rfl]; decide
  have h2 : ¬(Msg.ack seq).frame.type = msgResize := by rw [show (Msg.ack seq).frame.type = msgAck from rfl]; decide
  have h3 : (Msg.ack seq).frame.type = msgAck := rfl
  rw [loopMove, if_neg h1, if_neg h2, if_pos h3, hr']
  rfl

theorem loopMove_resize (cols rows : UInt16) :
    loopMove (.ok (some (Msg.resize cols rows).frame)) = some (if cols = 0 ∨ rows = 0 then .leave else .resize cols rows) := by
  obtain ⟨r, hr, hiff⟩ := optyParseResize_spec (Msg.resize cols rows).frame
  have hr' : optyParseResize (Msg.resize cols rows).frame = some (.ok (cols, rows)) := by rw [hr, (hiff cols rows).2 rfl]
  have h1 : ¬(Msg.resize cols rows).frame.type = msgStdin := by
    rw [show (Msg.resize cols rows).frame.type = msgResize from rfl]
    decide
  have h2 : (Msg.resize cols rows).frame.type = msgResize := rfl
  rw [loopMove, if_neg h1, if_pos h2, hr']
  rfl

theorem frameEffects_stdin (data : List UInt8) : frameEffects ⟨msgStdin, data⟩ = [.bytes data] := rfl

theorem frameEffects_ack (seq : UInt64) : frameEffects (Msg.ack seq).frame = [] := by
  rw [frameEffects, loopMove_ack]

theorem frameEffects_resize (cols rows : UInt16) : frameEffects (Msg.resize cols rows).frame = sizeEffect cols rows := by
  rw [frameEffects, loopMove_resize, sizeEffect]
  by_cases h0 : cols = 0 ∨ rows = 0
  · rw [if_pos h0, if_pos h0]
  · rw [if_neg h0, if_neg h0]

end TypingAux

open TypingAux

theorem Speech.short {f : Frame} {gs : List Frame} {cols rows : UInt16} (h : Speech ok token f gs cols rows) : ∀ g ∈ f :: gs, g.Short := by
  have hmax : 14 + optyMaxToken < 2 ^ 32 - 1 ∧ optyMaxFrame - 1 < 2 ^ 32 - 1 := by decide
  intro g hg
  rcases List.mem_cons.1 hg with rfl | hg
  · exact Nat.lt_of_le_of_lt (introSize_length h.first) hmax.1
  · exact Nat.lt_of_le_of_lt (followUp_length (h.rest g hg)) hmax.2

theorem Speech.concat {f g : Frame} {gs : List Frame} {cols rows : UInt16} (h : Speech ok token f gs cols rows) (hg : FollowUp ok g) :
    Speech ok token f (gs ++ [g]) cols rows where
  first := h.first
  size := h.size
  rest := List.forall_mem_append.2 ⟨h.rest, List.forall_mem_singleton.2 hg⟩

/-- One more frame, whole or up to a failure. -/
theorem Speaking.send {sock sock' : Sink Errno} {asked es : List PtyEffect} (h : Speaking ok token sock.written asked) {g : Frame}
    {r : Except Errno Unit} (hs : Sends .eintr sock (frameBytes g) r sock') (hg : FollowUp ok g) (hes : frameEffects g = es) :
    Spoke ok token sock'.written (asked ++ es) ∧ (r = .ok () → Speaking ok token sock'.written (asked ++ es)) := by
  obtain ⟨f, gs, cols, rows, hsp, hsent, rfl⟩ := h
  have hflat : sizeEffect cols rows ++ gs.flatMap frameEffects ++ es = sizeEffect cols rows ++ (gs ++ [g]).flatMap frameEffects := by
    rw [List.flatMap_append, List.flatMap_cons, List.flatMap_nil, List.append_nil, hes, List.append_assoc]
  have hwire : wireBytes (f :: (gs ++ [g])) = wireBytes (f :: gs) ++ frameBytes g := by
    rw [← List.cons_append, wireBytes_concat]
  refine ⟨⟨f, gs ++ [g], cols, rows, hsp.concat hg, ?_, ?_⟩, ?_⟩
  · obtain ⟨k, hk⟩ := hs.exists_take
    rw [hk, hsent, hwire]
    exact (List.prefix_append_right_inj _).2 (List.take_prefix _ _)
  · exact ⟨[], by rw [List.append_nil, hflat]⟩
  · rintro rfl
    exact ⟨f, gs ++ [g], cols, rows, hsp.concat hg, by rw [hs.written_of_ok, hsent, hwire], hflat⟩

/-- A frame that is refused. -/
theorem Spoke.more {sent : List UInt8} {asked es : List PtyEffect} (h : Spoke ok token sent asked) : Spoke ok token sent (asked ++ es) := by
  obtain ⟨f, gs, cols, rows, hsp, hsent, hasked⟩ := h
  exact ⟨f, gs, cols, rows, hsp, hsent, hasked.trans (List.prefix_append _ _)⟩

namespace TypingAux

/-- The first frame. -/
theorem speaks_intro (args : ClientArgs) (once : Bool) (lastSeq : UInt64) {cols rows : UInt16} (hsize : ok cols rows)
    (sched : List (WriteEvent Errno)) :
    Spoke ok (tokenBytes args.token) (sendIntro { sched := sched } once lastSeq cols rows args.token).2.written (sizeEffect cols rows) ∧
      ((sendIntro { sched := sched } once lastSeq cols rows args.token).1 = .ok () →
        Speaking ok (tokenBytes args.token) (sendIntro { sched := sched } once lastSeq cols rows args.token).2.written
          (sizeEffect cols rows)) := by
  have hlen := args.fits
  obtain ⟨f, hf, hs⟩ : ∃ f, IntroSize (tokenBytes args.token) f cols rows ∧ Sends .eintr { sched := sched } (frameBytes f)
      (sendIntro { sched := sched } once lastSeq cols rows args.token).1
      (sendIntro { sched := sched } once lastSeq cols rows args.token).2 := by
    cases once with
    | false => exact ⟨_, ⟨hlen, 0, Or.inl rfl⟩, optySendHello_sends cols rows args.token hlen _⟩
    | true => exact ⟨_, ⟨hlen, lastSeq, Or.inr rfl⟩, optySendReconnect_sends cols rows lastSeq args.token hlen _⟩
  have hsp : Speech ok (tokenBytes args.token) f [] cols rows := ⟨hf, hsize, fun _ h => (by cases h)⟩
  have hwire : wireBytes [f] = frameBytes f := by rw [wireBytes_cons, wireBytes_nil, List.append_nil]
  refine ⟨⟨f, [], cols, rows, hsp, ?_, ?_⟩, fun hok => ⟨f, [], cols, rows, hsp, ?_, ?_⟩⟩
  · obtain ⟨k, hk⟩ := hs.exists_take
    rw [hk, hwire]
    exact List.take_prefix _ _
  · exact ⟨[], by rw [List.flatMap_nil, List.append_nil, List.append_nil]⟩
  · rw [hok] at hs
    rw [hs.written_of_ok, hwire]
    rfl
  · rw [List.flatMap_nil, List.append_nil]

/-- What is on the socket after a frame of the server: an acknowledgement more, at most. -/
theorem processServerFrame_sock {sock : Sink Errno} {c : ClientState} {saw : Bool} {frame : Frame}
    {r : Int × Sink Errno × ClientState × Bool} (h : processServerFrame sock c saw frame = some r) :
    r.2.1 = sock ∨ ∃ seq res, Sends .eintr sock (frameBytes (Msg.ack seq).frame) res r.2.1 ∧ (r.1 = 0 → res = .ok ()) := by
  unfold processServerFrame at h
  split at h
  · obtain ⟨parsed, -, rfl⟩ := Option.map_eq_some_iff.1 h
    left
    cases parsed <;> rfl
  · split at h
    · obtain ⟨parsed, -, rfl⟩ := Option.map_eq_some_iff.1 h
      cases parsed with
      | error e => exact Or.inl rfl
      | ok p =>
        obtain ⟨seq, data⟩ := p
        simp only
        split
        · exact Or.inl rfl
        · split
          · exact Or.inl rfl
          · split
            · rename_i sock1 hack
              exact Or.inr ⟨_, .ok (), (optySendAck_sends _).of_eq hack, fun _ => rfl⟩
            · rename_i e sock1 hack
              exact Or.inr ⟨_, .error e, (optySendAck_sends _).of_eq hack, fun h0 => by cases h0⟩
    · split at h
      · cases h
        exact Or.inl rfl
      · cases h
        exact Or.inl rfl

end TypingAux

/-- What was typed, whether it is sent, sent in part, or refused because it is too long. -/
theorem Speaking.stdin {sock : Sink Errno} {asked : List PtyEffect} (h : Speaking ok token sock.written asked) (data : List UInt8) :
    Spoke ok token (optySendStdin sock (.mem data)).2.written (asked ++ [.bytes data]) ∧
      ((optySendStdin sock (.mem data)).1 = .ok () →
        Speaking ok token (optySendStdin sock (.mem data)).2.written (asked ++ [.bytes data])) := by
  by_cases hlen : data.length ≤ optyMaxFrame - 1
  · exact h.send (optySendFrame_mem sock ⟨msgStdin, data⟩ hlen) (Or.inl ⟨data, hlen, rfl⟩) (frameEffects_stdin data)
  · obtain ⟨e, he⟩ := optySendFrame_refuses sock msgStdin (.mem data) fun hfit => hlen hfit.1
    rw [optySendStdin, he]
    exact ⟨h.spoke.more, fun hok => by cases hok⟩

/-! ## The run -/

/-- The sizes that the client sends. -/
def WorldAct.Sized (ok : UInt16 → UInt16 → Prop) : WorldAct → Prop
  | .connect cols rows _ _ _ _ => ok cols rows
  | .resize cols rows _ => ok cols rows
  | _ => True

/-- What holds of the record of a client with this token. -/
structure TypistInv (ok : UInt16 → UInt16 → Prop) (token : List UInt8) (t : Typist) : Prop where
  token_eq : tokenBytes t.world.args.token = token
  spoke : ∀ j, t.sent j = [] ∨ Spoke ok token (t.sent j) (t.asked j)
  speaking : ∀ i pos sock saw, t.world.pc = .session i pos sock saw →
    i < t.world.server.count ∧ t.sent i = sock.written ∧ Speaking ok token sock.written (t.asked i)
  fresh : ∀ j, t.world.server.count ≤ j → t.asked j = []

/-- Nothing was written. -/
theorem TypistInv.quiet {t : Typist} (h : TypistInv ok token t) {w : World} (hargs : w.args = t.world.args)
    (hcount : t.world.server.count ≤ w.server.count)
    (hpc : ∀ i pos sock saw, w.pc = .session i pos sock saw → ∃ pos', t.world.pc = .session i pos' sock saw) :
    TypistInv ok token { t with world := w } where
  token_eq := by
    rw [hargs]
    exact h.token_eq
  spoke := h.spoke
  speaking := by
    intro i pos sock saw hw
    obtain ⟨pos', hpc'⟩ := hpc i pos sock saw hw
    obtain ⟨hlt, hsent, hspeak⟩ := h.speaking i pos' sock saw hpc'
    exact ⟨Nat.lt_of_lt_of_le hlt hcount, hsent, hspeak⟩
  fresh := fun j hj => h.fresh j (Nat.le_trans hcount hj)

/-- Something was written to a connection; the session goes on over it, or is over. -/
theorem TypistInv.wrote {t : Typist} (h : TypistInv ok token t) {w : World} {i : Nat} {sent : List UInt8} {es : List PtyEffect}
    (hargs : w.args = t.world.args) (hcount : t.world.server.count ≤ w.server.count) (hi : i < w.server.count)
    (hspoke : Spoke ok token sent (t.asked i ++ es))
    (hpc : ∀ j pos sock saw, w.pc = .session j pos sock saw →
      j = i ∧ sock.written = sent ∧ Speaking ok token sent (t.asked i ++ es)) :
    TypistInv ok token ⟨w, Function.update t.sent i sent, Function.update t.asked i (t.asked i ++ es)⟩ where
  token_eq := by
    show tokenBytes w.args.token = token
    rw [hargs]
    exact h.token_eq
  spoke := by
    intro j
    by_cases hj : j = i
    · subst hj
      simp only [Function.update_self]
      exact Or.inr hspoke
    · simp only [Function.update_of_ne hj]
      exact h.spoke j
  speaking := by
    intro j pos sock saw hw
    obtain ⟨rfl, hsock, hspeak⟩ := hpc j pos sock saw hw
    simp only [Function.update_self]
    exact ⟨hi, hsock.symm, hsock ▸ hspeak⟩
  fresh := by
    intro j hj
    have hne : j ≠ i := fun hji => absurd hi (Nat.not_lt.2 (hji ▸ hj))
    simp only [Function.update_of_ne hne]
    exact h.fresh j (Nat.le_trans hcount hj)

namespace TypingAux

/-- After a session is over, there is none. -/
theorem endSession_pc (w : World) (rc : Int) (i pos : Nat) (sock : Sink Errno) (saw : Bool) :
    (w.endSession rc).pc ≠ .session i pos sock saw := by
  unfold World.endSession
  simp only
  split
  · rintro ⟨⟩
  · split <;> rintro ⟨⟩

/-- After a send there is a session when it succeeded. -/
theorem afterSend_pc {w : World} {i pos : Nat} {saw pending : Bool} {r : Except Errno Unit × Sink Errno} {j pos' : Nat}
    {sock : Sink Errno} {saw' : Bool} (h : (w.afterSend i pos saw pending r).pc = .session j pos' sock saw') :
    r.1 = .ok () ∧ j = i ∧ sock = r.2 := by
  obtain ⟨res, sock'⟩ := r
  cases res with
  | error e => exact absurd h (endSession_pc _ _ _ _ _ _)
  | ok u =>
    cases h
    exact ⟨rfl, rfl, rfl⟩

theorem afterSend_server (w : World) (i pos : Nat) (saw pending : Bool) (r : Except Errno Unit × Sink Errno) :
    (w.afterSend i pos saw pending r).server = w.server := by
  obtain ⟨res, sock'⟩ := r
  cases res with
  | error e => rfl
  | ok u => rfl

theorem afterSend_args (w : World) (i pos : Nat) (saw pending : Bool) (r : Except Errno Unit × Sink Errno) :
    (w.afterSend i pos saw pending r).args = w.args := by
  obtain ⟨res, sock'⟩ := r
  cases res with
  | error e => rfl
  | ok u => rfl

end TypingAux

/-- A send of the session. -/
theorem TypistInv.sends {t : Typist} (h : TypistInv ok token t) {w : World} {i pos : Nat} {saw pending : Bool}
    {r : Except Errno Unit × Sink Errno} {es : List PtyEffect} (hargs : w.args = t.world.args)
    (hcount : t.world.server.count ≤ w.server.count) (hi : i < w.server.count) (hspoke : Spoke ok token r.2.written (t.asked i ++ es))
    (hgo : r.1 = .ok () → Speaking ok token r.2.written (t.asked i ++ es)) :
    TypistInv ok token
      ⟨w.afterSend i pos saw pending r, Function.update t.sent i r.2.written, Function.update t.asked i (t.asked i ++ es)⟩ := by
  refine h.wrote ?_ ?_ ?_ hspoke fun j pos' sock' saw' hj => ?_
  · rw [afterSend_args]
    exact hargs
  · rw [afterSend_server]
    exact hcount
  · rw [afterSend_server]
    exact hi
  · obtain ⟨hok, rfl, rfl⟩ := afterSend_pc hj
    exact ⟨rfl, rfl, hgo hok⟩

/-- Every action keeps what holds of the record. -/
theorem typistInv_step {t t' : Typist} {a : WorldAct} (href : RefInv t.world.server) (h : TypistInv ok token t) (ha : a.Sized ok)
    (hstep : typistStep t a = .next t') : TypistInv ok token t' := by
  have hcount : ∀ {b s}, step t.world.server b = .next s → t.world.server.count ≤ s.count := fun hs =>
    (outputs_of_moves href (step_moves hs)).2
  unfold typistStep at hstep
  split at hstep
  · cases hstep
  · cases hstep
  · rename_i w hw
    cases hstep
    cases a with
    | server b =>
      simp only [worldStep] at hw
      split at hw
      · cases hw
      · cases hw
      · rename_i s hs
        cases hw
        have hnone : clientWrites t.world (.server b) = none := by
          unfold clientWrites
          split <;> rfl
        rw [hnone]
        exact h.quiet rfl (hcount hs) fun i pos sock saw hpc => ⟨pos, hpc⟩
    | connect cols rows input sched clientSched pending =>
      simp only [worldStep] at hw
      split at hw
      · rename_i hpc
        split at hw
        · split at hw
          · cases hw
          · cases hw
          · rename_i s hs
            cases hw
            obtain ⟨-, hnew⟩ := step_accept hs
            obtain ⟨hspoke, hspeak⟩ := speaks_intro t.world.args t.world.client.connectedOnce t.world.client.lastSeq ha clientSched
            rw [h.token_eq] at hspoke hspeak
            have hasked : t.asked t.world.server.count = [] := h.fresh _ (Nat.le_refl _)
            simp only [clientWrites, hpc, Typist.note]
            refine h.sends (w := { t.world with server := s }) rfl (hcount hs) ?_ ?_ ?_
            · show t.world.server.count < s.count
              omega
            · rw [hasked]
              exact hspoke
            · rw [hasked]
              exact hspeak
        · cases hw
      · cases hw
    | refused =>
      simp only [worldStep] at hw
      split at hw
      · rename_i hpc
        cases hw
        simp only [clientWrites, hpc, Typist.note]
        refine h.quiet ?_ ?_ fun i pos sock saw hs => ?_
        · split <;> rfl
        · split <;> exact Nat.le_refl _
        · split at hs
          · cases hpc.symm.trans hs
          · cases hs
      · cases hw
    | recv stream alloc pending =>
      simp only [worldStep] at hw
      split at hw
      · rename_i i pos sock saw hpc
        obtain ⟨hlt, hsent, hspeak⟩ := h.speaking i pos sock saw hpc
        split at hw
        · have hover : ∀ rc, ackWritten t.world.client sock saw (optyRecvFrame alloc stream).1 = sock.written →
              TypistInv ok token (t.note (t.world.endSession rc) (clientWrites t.world (.recv stream alloc pending))) := by
            intro rc hack
            simp only [clientWrites, hpc, Typist.note, hack]
            refine h.wrote rfl (Nat.le_refl _) hlt ?_ fun j pos' sock' saw' hj => absurd hj (endSession_pc _ _ _ _ _ _)
            rw [List.append_nil]
            exact hspeak.spoke
          split at hw
          · rename_i rest hrecv
            cases hw
            exact hover 0 (by rw [hrecv]; rfl)
          · rename_i e rest hrecv
            cases hw
            exact hover (failedRc pending 1) (by rw [hrecv]; rfl)
          · rename_i frame rest hrecv
            obtain ⟨r, hr, rfl⟩ := ofOption_map_eq_next hw
            have hack : ackWritten t.world.client sock saw (optyRecvFrame alloc stream).1 = r.2.1.written := by
              rw [hrecv, ackWritten, hr]
              rfl
            simp only [clientWrites, hpc, Typist.note, hack]
            -- the acknowledgement asks for nothing
            have hkeep : Spoke ok token r.2.1.written (t.asked i ++ []) ∧ (r.1 = 0 → Speaking ok token r.2.1.written (t.asked i ++ [])) := by
              rcases processServerFrame_sock hr with hsame | ⟨seq, res, hsends, hres⟩
              · rw [hsame, List.append_nil]
                exact ⟨hspeak.spoke, fun _ => hspeak⟩
              · obtain ⟨hspoke, hgo⟩ := hspeak.send hsends (Or.inr (Or.inl ⟨seq, rfl⟩)) (frameEffects_ack seq)
                exact ⟨hspoke, fun h0 => hgo (hres h0)⟩
            refine h.wrote ?_ ?_ ?_ hkeep.1 fun j pos' sock' saw' hj => ?_
            · split <;> rfl
            · split <;> exact Nat.le_refl _
            · split <;> exact hlt
            · split at hj
              · rename_i h0
                cases hj
                exact ⟨rfl, rfl, hkeep.2 h0⟩
              · exact absurd hj (endSession_pc _ _ _ _ _ _)
        · cases hw
      · cases hw
    | resize cols rows pending =>
      simp only [worldStep] at hw
      split at hw
      · rename_i i pos sock hpc
        cases hw
        obtain ⟨hlt, hsent, hspeak⟩ := h.speaking i pos sock true hpc
        have hsends := optySendResize_sends cols rows sock
        obtain ⟨hspoke, hgo⟩ := hspeak.send hsends (Or.inr (Or.inr ⟨cols, rows, ha, rfl⟩)) (frameEffects_resize cols rows)
        simp only [clientWrites, hpc, Typist.note]
        exact h.sends rfl (Nat.le_refl _) hlt hspoke hgo
      · cases hw
    | stdin data pending =>
      simp only [worldStep] at hw
      split at hw
      · rename_i i pos sock saw hpc
        obtain ⟨hlt, hsent, hspeak⟩ := h.speaking i pos sock saw hpc
        split at hw
        · rename_i h0
          cases hw
          simp only [clientWrites, hpc, h0, if_true, Typist.note]
          exact h.quiet rfl (Nat.le_refl _) fun j pos' sock' saw' hj => absurd hj (endSession_pc _ _ _ _ _ _)
        · rename_i h0
          cases hw
          obtain ⟨hspoke, hgo⟩ := hspeak.stdin data
          simp only [clientWrites, hpc, h0, if_false, Typist.note]
          exact h.sends rfl (Nat.le_refl _) hlt hspoke hgo
      · cases hw
    | terminate =>
      have hnone : clientWrites t.world .terminate = none := by
        unfold clientWrites
        split <;> rfl
      rw [hnone]
      simp only [worldStep] at hw
      split at hw
      · cases hw
        exact h.quiet rfl (Nat.le_refl _) fun i pos sock saw hs => by cases hs
      · cases hw
        exact h.quiet rfl (Nat.le_refl _) fun j pos' sock' saw' hj => absurd hj (endSession_pc _ _ _ _ _ _)
      · cases hw
    | pollFailed =>
      have hnone : clientWrites t.world .pollFailed = none := by
        unfold clientWrites
        split <;> rfl
      rw [hnone]
      simp only [worldStep] at hw
      split at hw
      · cases hw
        exact h.quiet rfl (Nat.le_refl _) fun j pos' sock' saw' hj => absurd hj (endSession_pc _ _ _ _ _ _)
      · cases hw

namespace TypingAux

/-- What an action does to the server is an action of the server, or nothing. -/
theorem worldStep_server {w w' : World} {a : WorldAct} (h : worldStep w a = .next w') :
    w'.server = w.server ∨ ∃ b, step w.server b = .next w'.server := by
  cases a with
  | server b =>
    simp only [worldStep] at h
    split at h
    · cases h
    · cases h
    · rename_i s hs
      cases h
      exact Or.inr ⟨b, hs⟩
  | connect cols rows input sched clientSched pending =>
    simp only [worldStep] at h
    split at h
    · split at h
      · split at h
        · cases h
        · cases h
        · rename_i s hs
          cases h
          refine Or.inr ⟨.accept input sched true, ?_⟩
          rw [afterSend_server]
          exact hs
      · cases h
    · cases h
  | refused =>
    left
    simp only [worldStep] at h
    split at h
    · cases h
      split <;> rfl
    · cases h
  | recv stream alloc pending =>
    left
    simp only [worldStep] at h
    split at h
    · split at h
      · split at h
        · cases h
          rfl
        · cases h
          rfl
        · obtain ⟨r, -, rfl⟩ := ofOption_map_eq_next h
          split <;> rfl
      · cases h
    · cases h
  | resize cols rows pending =>
    left
    simp only [worldStep] at h
    split at h
    · cases h
      exact afterSend_server _ _ _ _ _ _
    · cases h
  | stdin data pending =>
    left
    simp only [worldStep] at h
    split at h
    · split at h
      · cases h
        rfl
      · cases h
        exact afterSend_server _ _ _ _ _ _
    · cases h
  | terminate =>
    left
    simp only [worldStep] at h
    split at h
    · cases h
      rfl
    · cases h
      rfl
    · cases h
  | pollFailed =>
    left
    simp only [worldStep] at h
    split at h
    · cases h
      rfl
    · cases h

/-- An intro that is accepted is accepted with its own size. -/
theorem size_eq {cfg : Config} {f : Frame} {cols rows : UInt16} (hf : IntroSize token f cols rows) {intro : Intro}
    (h : Authorised cfg f intro) : sizeEffect cols rows = [.winsize intro.cols intro.rows] := by
  obtain ⟨hcols, hrows, token', ht, -, hg⟩ := h
  obtain ⟨ht', seq, hf⟩ := hf
  -- both describe what the parser returns for the frame
  obtain ⟨r, -, hiff⟩ := optyParseClientIntro_spec f (Nat.lt_succ_self optyMaxToken) (.fill (optyMaxToken + 1) 0)
  have h1 := (hiff ⟨intro.requestedSeq, intro.cols, intro.rows, ⟨_, length_tokenBuffer token' _ (Nat.lt_succ_of_le ht)⟩⟩).2
    ⟨token', ht, rfl, hg⟩
  have hsame : intro.cols = cols ∧ intro.rows = rows := by
    rcases hf with hf | hf
    · have h2 := (hiff ⟨0, cols, rows, ⟨_, length_tokenBuffer token _ (Nat.lt_succ_of_le ht')⟩⟩).2 ⟨token, ht', rfl, Or.inl ⟨hf, rfl⟩⟩
      have h12 := h1.symm.trans h2
      injection h12 with h12
      injection h12 with _ hc hr _
      exact ⟨hc, hr⟩
    · have h2 := (hiff ⟨seq, cols, rows, ⟨_, length_tokenBuffer token _ (Nat.lt_succ_of_le ht')⟩⟩).2 ⟨token, ht', rfl, Or.inr hf⟩
      have h12 := h1.symm.trans h2
      injection h12 with h12
      injection h12 with _ hc hr _
      exact ⟨hc, hr⟩
  rw [sizeEffect, ← hsame.1, ← hsame.2, if_neg (not_or.2 ⟨hcols, hrows⟩)]

/-- What the frames of a client do is what it asked for, unless the server does not admit it. -/
theorem peerEffects_intro {cfg : Config} {f : Frame} {cols rows : UInt16} (hf : IntroSize token f cols rows) (gs : List Frame) :
    peerEffects cfg (f :: gs) <+: sizeEffect cols rows ++ gs.flatMap frameEffects ∧
      (Admits cfg (f :: gs) → peerEffects cfg (f :: gs) = sizeEffect cols rows ++ gs.flatMap frameEffects) := by
  obtain ⟨move, hmove, hintro, hstop⟩ := firstMove_spec cfg (.ok (some f))
  have heq : ∀ intro, move = .intro intro → peerEffects cfg (f :: gs) = sizeEffect cols rows ++ gs.flatMap frameEffects := by
    intro intro hi
    obtain ⟨g, hg, hauth⟩ := (hintro intro).1 hi
    cases hg
    simp only [peerEffects, hmove, hi, size_eq hf hauth]
    rfl
  refine ⟨?_, ?_⟩
  · cases move with
    | finish =>
      simp only [peerEffects, hmove]
      exact List.nil_prefix
    | sendError text =>
      simp only [peerEffects, hmove]
      exact List.nil_prefix
    | shutdown input =>
      obtain ⟨g, hg, t, token', -, -, -, -, -, hframe⟩ := (hstop input).1 rfl
      cases hg
      obtain ⟨-, seq, h | h⟩ := hf
      · exact absurd (congrArg Frame.type (hframe.symm.trans h)) (show msgControlShutdown ≠ msgHello by decide)
      · exact absurd (congrArg Frame.type (hframe.symm.trans h)) (show msgControlShutdown ≠ msgReconnect by decide)
    | intro intro => exact ⟨[], by rw [heq intro rfl, List.append_nil]⟩
  · rintro ⟨f₀, gs₀, intro, hcons, hfirst⟩
    cases hcons
    cases hmove.symm.trans hfirst
    exact heq intro rfl

/-- What holds of a run and its record. -/
def RunInv (ok : UInt16 → UInt16 → Prop) (token : List UInt8) (cfg : Config) (t : Typist) : Prop :=
  RefInv t.world.server ∧ AuthSys cfg t.world.server ∧ FedSys cfg t.world.server ∧ TypistInv ok token t

theorem runInv_step {cfg : Config} {t t' : Typist} {a : WorldAct} (h : RunInv ok token cfg t) (ha : a.Sized ok)
    (hstep : typistStep t a = .next t') : RunInv ok token cfg t' := by
  obtain ⟨href, hauth, hfed, hinv⟩ := h
  have hinv' := typistInv_step href hinv ha hstep
  obtain ⟨w, hw, hserver⟩ : ∃ w, worldStep t.world a = .next w ∧ t'.world = w := by
    unfold typistStep at hstep
    split at hstep
    · cases hstep
    · cases hstep
    · rename_i w hw
      cases hstep
      refine ⟨w, hw, ?_⟩
      cases clientWrites t.world a <;> rfl
  subst hserver
  rcases worldStep_server hw with hsame | ⟨b, hb⟩
  · refine ⟨?_, ?_, ?_, hinv'⟩
    · rw [hsame]
      exact href
    · rw [hsame]
      exact hauth
    · rw [hsame]
      exact hfed
  · exact ⟨refInv_moves href (step_moves hb), authSys_moves href hauth (step_moves hb), fedSys_step href hauth hfed hb, hinv'⟩

theorem runInv_init (cfg : Config) {ring : Ring} (hring : ring.Bounded) (master : Sink Errno) (args : ClientArgs) (out err : Sink Errno)
    (scrollback : Option (Sink Errno)) :
    RunInv ok (tokenBytes args.token) cfg (.init (World.init (Sys.init cfg ring master) args out err scrollback)) :=
  ⟨refInv_init hring, authSys_init cfg ring master, fedSys_init ring master, rfl, fun _ => Or.inl rfl, fun _ _ _ _ h => (by cases h),
    fun _ _ => rfl⟩

/-- The record of a run. -/
theorem runInv_of_exec {cfg : Config} {malloc : Alloc UInt8} {capacity : UInt64} {ring : Ring}
    (hinit : optyRingInit malloc (.ok ()) capacity = .ok ring) {master : Sink Errno} {args : ClientArgs} {out err : Sink Errno}
    {scrollback : Option (Sink Errno)} {acts : List WorldAct} {t : Typist} (hacts : ∀ a ∈ acts, a.Sized ok)
    (ht : exec typistStep (.init (World.init (Sys.init cfg ring master) args out err scrollback)) acts = .next t) :
    RunInv ok (tokenBytes args.token) cfg t :=
  invariant (Q := WorldAct.Sized ok) (fun _ _ _ h ha hstep => runInv_step h ha hstep)
    (runInv_init cfg (represents_init hinit).2.bounded master args out err scrollback) hacts ht

theorem wireBytes_inj {fs gs : List Frame} (hf : ∀ f ∈ fs, f.Short) (hg : ∀ g ∈ gs, g.Short) (h : wireBytes fs = wireBytes gs) :
    fs = gs := by
  have hfg : fs <+: gs := wireBytes_prefix hf hg (h ▸ List.prefix_refl _)
  have hgf : gs <+: fs := wireBytes_prefix hg hf (h ▸ List.prefix_refl _)
  exact hfg.eq_of_length_le hgf.length_le

end TypingAux

/-- The terminal receives what the frames of each peer ask for, in every state of every interleaving, whatever bytes the peers send. What
came from a connection follows the frames at the start of its bytes, and nothing else: the size in an accepted intro, and then the bytes
of each STDIN and the size of each RESIZE; or the graceful input of an accepted CONTROL_SHUTDOWN. It is theirs once and in order, up to
some point; and all of it, for the frames that were read, while the thread waits for the next one. -/
theorem terminal_follows_frames (cfg : Config) (malloc : Alloc UInt8) (capacity : UInt64) (ring : Ring)
    (hinit : optyRingInit malloc (.ok ()) capacity = .ok ring) (master : Sink Errno) (acts : List Act) (s : Sys)
    (hs : exec step (Sys.init cfg ring master) acts = .next s) (i : Nat) :
    ∃ fs rest, (s.conn i).wire = wireBytes fs ++ rest ∧ CutOf (effectsOf s i) (peerEffects cfg fs) ∧
      ((s.conn i).pc = .recvLoop → (s.conn i).wire = wireBytes fs ++ (s.conn i).input.bytes ∧
        effectsOf s i = peerEffects cfg fs) := by
  have hring := (represents_init hinit).2.bounded
  obtain ⟨-, -, hfed⟩ := invariant (Q := fun _ => True) (P := fun s => RefInv s ∧ AuthSys cfg s ∧ FedSys cfg s)
    (fun _ _ _ hp _ hstep => ⟨refInv_moves hp.1 (step_moves hstep), authSys_moves hp.1 hp.2.1 (step_moves hstep),
      fedSys_step hp.1 hp.2.1 hp.2.2 hstep⟩)
    ⟨refInv_init hring, authSys_init cfg ring master, fedSys_init ring master⟩ (fun _ _ => trivial) hs
  obtain ⟨fs, hfs⟩ := hfed i
  obtain ⟨rest, hrest⟩ := hfs.wire
  refine ⟨fs, rest, hrest, hfs.cut, fun hpc => ⟨hfs.unread (by rw [hpc]; rfl), ?_⟩⟩
  have hexact := hfs.exact (by rw [hpc]; rfl)
  rw [hpc] at hexact
  exact (List.append_nil _).symm.trans hexact

/-- A peer that attaches, sends `a`, resizes the terminal and sends `b`: the `b` was not read yet. -/
theorem terminal_follows_frames_resize : ∃ ring s, optyRingInit zeroAlloc (.ok ()) 5 = .ok ring ∧
    exec step (Sys.init ⟨none, none⟩ ring {})
      ([.accept ⟨wireBytes [(Msg.hello 80 24 []).frame, ⟨msgStdin, [97]⟩, (Msg.resize 100 30).frame, ⟨msgStdin, [98]⟩], []⟩ [] true,
        .create true] ++ List.replicate 9 (.client 0 .ok)) = .next s ∧
    effectsOf s 0 = [.winsize 80 24, .bytes [97], .winsize 100 30] ∧
    ∃ fs, effectsOf s 0 = peerEffects ⟨none, none⟩ fs := by
  obtain ⟨ring, hring⟩ := optyRingInit_ok zeroAlloc 5 (by decide) rfl
  have hrun : (exec step (Sys.init ⟨none, none⟩ ring {})
      ([.accept ⟨wireBytes [(Msg.hello 80 24 []).frame, ⟨msgStdin, [97]⟩, (Msg.resize 100 30).frame, ⟨msgStdin, [98]⟩], []⟩ [] true,
        .create true] ++ List.replicate 9 (.client 0 .ok))).passes (fun s =>
      effectsOf s 0 == [.winsize 80 24, .bytes [97], .winsize 100 30] && (s.conn 0).pc == .recvLoop) = true := by
    cases hring
    decide +kernel
  obtain ⟨s, hs, htest⟩ := Outcome.passes_iff.1 hrun
  simp only [Bool.and_eq_true, beq_iff_eq] at htest
  obtain ⟨fs, -, -, -, hall⟩ := terminal_follows_frames ⟨none, none⟩ zeroAlloc 5 ring hring {} _ s hs 0
  exact ⟨ring, s, hring, hs, htest.1, fs, (hall htest.2).2⟩

/-- What is typed arrives at the terminal, in every run of the server and a client of it, whatever else the server does and however the
connections take what is written to them. Over each connection of which the server reads what the client wrote, or a first part of it:
what the terminal received because of it is what the client asked for, each size and everything that was typed, once and in this order,
up to some point, which may lie inside what was typed at once; and once the server has read all of it and waits for more, while the
client is still connected, it is all of it. -/
theorem typed_input_arrives (cfg : Config) (malloc : Alloc UInt8) (capacity : UInt64) (ring : Ring)
    (hinit : optyRingInit malloc (.ok ()) capacity = .ok ring) (master : Sink Errno) (args : ClientArgs) (out err : Sink Errno)
    (scrollback : Option (Sink Errno)) (acts : List WorldAct) (t : Typist)
    (ht : exec typistStep (.init (World.init (Sys.init cfg ring master) args out err scrollback)) acts = .next t) (i : Nat)
    (hwire : (t.world.server.conn i).wire <+: t.sent i) :
    CutOf (effectsOf t.world.server i) (t.asked i) ∧
    (effectsOf t.world.server i).flatMap PtyEffect.data <+: (t.asked i).flatMap PtyEffect.data ∧
    ((t.world.server.conn i).wire = t.sent i → (t.world.server.conn i).pc = .recvLoop → (t.world.server.conn i).input.bytes = [] →
      (∃ pos sock sawWelcome, t.world.pc = .session i pos sock sawWelcome) → effectsOf t.world.server i = t.asked i) := by
  have hrun : RunInv (fun _ _ => True) (tokenBytes args.token) cfg t := runInv_of_exec hinit (fun a _ => by cases a <;> trivial) ht
  obtain ⟨-, -, hfed, hinv⟩ := hrun
  obtain ⟨fs, hfs⟩ := hfed i
  obtain ⟨rest, hrest⟩ := hfs.wire
  have hcut : CutOf (effectsOf t.world.server i) (t.asked i) := by
    have hsent : wireBytes fs <+: t.sent i := List.IsPrefix.trans (hrest ▸ List.prefix_append _ _) hwire
    rcases hinv.spoke i with hnone | ⟨f, gs, cols, rows, hsp, hsent', hasked⟩
    · -- nothing was written, so there is no frame
      rw [hnone, List.prefix_nil] at hsent
      have hfs0 : fs = [] := wireBytes_inj hfs.short (fun _ h => (by cases h)) hsent
      have hcut := hfs.cut
      rw [hfs0] at hcut
      exact hcut.trans List.nil_prefix
    · have hle := wireBytes_prefix hfs.short hsp.short (hsent.trans hsent')
      exact (hfs.cut.trans (peerEffects_mono hle)).trans ((peerEffects_intro hsp.first gs).1.trans hasked)
  refine ⟨hcut, hcut.data, fun hall hpc hread hsession => ?_⟩
  obtain ⟨pos, sock, saw, hsession⟩ := hsession
  obtain ⟨-, hsent, f, gs, cols, rows, hsp, hwritten, hasked⟩ := hinv.speaking i pos sock saw hsession
  have hunread := hfs.unread (by rw [hpc]; rfl)
  rw [hread, List.append_nil, hall, hsent, hwritten] at hunread
  have heq := wireBytes_inj hsp.short hfs.short hunread
  have hexact := hfs.exact (by rw [hpc]; rfl)
  have hadm := hfs.admits (by rw [hpc]; rfl)
  rw [hpc, ← heq] at hexact
  rw [← heq] at hadm
  rw [hasked, ← (peerEffects_intro hsp.first gs).2 hadm, ← hexact]
  exact (List.append_nil _).symm

/-- The client is in a session over this connection. -/
def ClientPc.isIn (i : Nat) : ClientPc → Bool
  | .session j _ _ _ => j == i
  | _ => false

/-- A client that attaches and types `hi`, which the terminal takes in two writes. -/
def typingRun : List WorldAct :=
  [.connect 80 24 ⟨frameBytes (Msg.hello 80 24 []).frame ++ frameBytes ⟨msgStdin, [104, 105]⟩, []⟩ [] [] false, .server (.create true),
    .server (.client 0 .ok), .server (.client 0 .ok), .server (.client 0 .ok), .server (.client 0 .ok), .server (.client 0 .ok),
    .stdin [104, 105] false, .server (.client 0 .ok), .server (.client 0 .ok)]

/-- The terminal has been resized and has received `hi`. -/
theorem typed_input_arrives_hi : ∃ ring t, optyRingInit zeroAlloc (.ok ()) 5 = .ok ring ∧
    exec typistStep (.init (World.init (Sys.init ⟨none, none⟩ ring { sched := [.accept 1] }) .retrying {} {} none)) typingRun = .next t ∧
      t.asked 0 = [.winsize 80 24, .bytes [104, 105]] ∧ effectsOf t.world.server 0 = t.asked 0 := by
  obtain ⟨ring, hring⟩ := optyRingInit_ok zeroAlloc 5 (by decide) rfl
  have hrun : (exec typistStep (.init (World.init (Sys.init ⟨none, none⟩ ring { sched := [.accept 1] }) .retrying {} {} none))
      typingRun).passes (fun t => t.asked 0 == [.winsize 80 24, .bytes [104, 105]] && (t.world.server.conn 0).wire == t.sent 0 &&
        (t.world.server.conn 0).pc == .recvLoop && (t.world.server.conn 0).input.bytes == [] &&
        t.world.pc.isIn 0) = true := by
    cases hring
    decide +kernel
  obtain ⟨t, ht, htest⟩ := Outcome.passes_iff.1 hrun
  simp only [Bool.and_eq_true, beq_iff_eq] at htest
  obtain ⟨⟨⟨⟨hasked, hwire⟩, hpc⟩, hread⟩, hsession⟩ := htest
  refine ⟨ring, t, hring, ht, hasked, ?_⟩
  obtain ⟨-, -, hall⟩ := typed_input_arrives ⟨none, none⟩ zeroAlloc 5 ring hring { sched := [.accept 1] } .retrying {} {} none
    typingRun t ht 0 (hwire ▸ List.prefix_refl _)
  refine hall hwire hpc hread ?_
  cases hw : t.world.pc with
  | connecting =>
    rw [hw] at hsession
    cases hsession
  | exited status =>
    rw [hw] at hsession
    cases hsession
  | session i pos sock saw =>
    rw [hw, ClientPc.isIn, beq_iff_eq] at hsession
    exact ⟨pos, sock, saw, by rw [hsession]⟩

end ZeroPty
