import ZeroPty.Lemmas.Client

/-!
# What the client has printed

The bytes a client has printed are slices of the log, one for each connection that delivered a REPLAY. `Chained` says how the
slices follow each other; `InSession` ties the last of them to what the client has read of the connection it is in, and to the
snapshot the server attached that connection with.
-/

namespace ZeroPty

open Stream Memory Transition

/-- A part of the log, printed over one connection. -/
structure Slice where
  conn : Nat
  start : Nat
  stop : Nat

/-- What was printed, slice after slice. -/
def printed (log : List UInt8) (slices : List Slice) : List UInt8 := slices.flatMap fun g => window log g.start g.stop

@[simp] theorem printed_nil (log : List UInt8) : printed log [] = [] := rfl

@[simp] theorem printed_cons (log : List UInt8) (g : Slice) (gs : List Slice) :
    printed log (g :: gs) = window log g.start g.stop ++ printed log gs := rfl

@[simp] theorem printed_append (log : List UInt8) (gs gs' : List Slice) :
    printed log (gs ++ gs') = printed log gs ++ printed log gs' := List.flatMap_append

/-- Slices that lead from position `e` to `e'`: over later and later connections, each starts where the one before ended, or at the
base of the ring when its connection was attached, if that is later. -/
def Chained (s : Sys) : Nat → List Slice → Nat → Prop
  | e, [], e' => e' = e
  | e, g :: gs, e' =>
    (∃ snap, (s.conn g.conn).attached = some snap ∧ g.start = max e snap.baseSeq.toNat) ∧ g.start ≤ g.stop ∧
      g.stop ≤ s.log.length ∧ (g.conn < s.count ∧ ∀ g' ∈ gs, g.conn < g'.conn) ∧ Chained s g.stop gs e'

/-- The server went on. -/
structure Sys.Extends (s t : Sys) : Prop where
  log : s.log <+: t.log
  count : s.count ≤ t.count
  conn : ∀ j, j < s.count → Conn.Extends s.log.length (s.conn j) (t.conn j)

theorem window_prefix {log log' : List UInt8} (h : log <+: log') (a : Nat) {b : Nat} (hb : b ≤ log.length) :
    window log' a b = window log a b := by
  obtain ⟨more, rfl⟩ := h
  exact window_append_left log more a b hb

section Chained

variable {s t : Sys}

theorem Chained.extends (hst : s.Extends t) : ∀ {gs : List Slice} {e e' : Nat}, Chained s e gs e' → Chained t e gs e'
  | [], _, _, h => h
  | g :: gs, e, e', h => by
    obtain ⟨⟨snap, ha, hstart⟩, hle, hstop, ⟨hlt, hbefore⟩, hrest⟩ := h
    exact ⟨⟨snap, (hst.conn g.conn hlt).attached snap ha, hstart⟩, hle, Nat.le_trans hstop hst.log.length_le,
      ⟨Nat.lt_of_lt_of_le hlt hst.count, hbefore⟩, hrest.extends hst⟩

/-- What was printed stays what it was when the log grows. -/
theorem Chained.printed_eq (hlog : s.log <+: t.log) : ∀ {gs : List Slice} {e e' : Nat}, Chained s e gs e' →
    printed t.log gs = printed s.log gs
  | [], _, _, _ => rfl
  | g :: gs, e, e', h => by
    obtain ⟨-, -, hstop, -, hrest⟩ := h
    rw [printed_cons, printed_cons, hrest.printed_eq hlog, window_prefix hlog g.start hstop]

/-- The slices end inside the log. -/
theorem Chained.le_length : ∀ {gs : List Slice} {e e' : Nat}, Chained s e gs e' → e ≤ s.log.length → e' ≤ s.log.length
  | [], _, _, h, he => by rw [h]; exact he
  | _ :: _, _, _, ⟨_, _, hstop, _, hrest⟩, _ => hrest.le_length hstop

/-- They are of connections there are. -/
theorem Chained.conn_lt : ∀ {gs : List Slice} {e e' : Nat}, Chained s e gs e' → ∀ g ∈ gs, g.conn < s.count
  | [], _, _, _, g, hg => by cases hg
  | g₀ :: gs, _, _, ⟨_, _, _, ⟨hlt, _⟩, hrest⟩, g, hg => by
    rcases List.mem_cons.1 hg with rfl | hg
    · exact hlt
    · exact hrest.conn_lt g hg

/-- One slice more. -/
theorem Chained.concat {g : Slice} (hg : ∃ snap, (s.conn g.conn).attached = some snap) (hle : g.start ≤ g.stop)
    (hstop : g.stop ≤ s.log.length) (hlt : g.conn < s.count) : ∀ {gs : List Slice} {e m : Nat}, Chained s e gs m →
    (∀ snap, (s.conn g.conn).attached = some snap → g.start = max m snap.baseSeq.toNat) → (∀ g' ∈ gs, g'.conn < g.conn) →
    Chained s e (gs ++ [g]) g.stop
  | [], e, m, h, hstart, _ => by
    cases h
    obtain ⟨snap, ha⟩ := hg
    exact ⟨⟨snap, ha, hstart snap ha⟩, hle, hstop, ⟨hlt, nofun⟩, rfl⟩
  | g₀ :: gs, e, m, h, hstart, hbefore => by
    obtain ⟨h1, h2, h3, ⟨h4, h5⟩, hrest⟩ := h
    refine ⟨h1, h2, h3, ⟨h4, fun g' hg' => ?_⟩,
      Chained.concat hg hle hstop hlt hrest hstart fun g' hg' => hbefore g' (List.mem_cons_of_mem _ hg')⟩
    rcases List.mem_append.1 hg' with hg' | hg'
    · exact h5 g' hg'
    · rw [List.mem_singleton.1 hg']
      exact hbefore g₀ List.mem_cons_self

end Chained

/-- A connection that was accepted. -/
theorem step_accept {s t : Sys} {input : Source Errno} {sched : List (WriteEvent Errno)}
    (h : step s (.accept input sched true) = .next t) :
    t.conn s.count = ⟨.live .new, .starting, input, { sched := sched }, input.bytes, none⟩ ∧ t.count = s.count + 1 := by
  simp only [step, mainStep, if_true] at h
  split at h
  · cases h
    exact ⟨Function.update_self _ _ _, rfl⟩
  · cases h

/-! ## A session -/

/-- The frame a client sends first, when it has printed up to `e`. -/
def IntroFor (e : UInt64) (f : Frame) : Prop :=
  ∃ cols rows token, token.length ≤ optyMaxToken ∧
    ((f = (Msg.hello cols rows token).frame ∧ e = 0) ∨ f = (Msg.reconnect e cols rows token).frame)

/-- How far the client has read into connection `i`, when it had printed `closed` and was at `e` before: what it is at now, and
what it has printed. -/
inductive Reading (s : Sys) (i pos : Nat) (e : UInt64) (closed : List Slice) : UInt64 → List Slice → Prop where
  | start (hpos : pos = 0) : Reading s i pos e closed e closed
  | welcomed (snap : Snapshot) (ha : (s.conn i).attached = some snap)
      (hsent : frameBytes snap.welcome <+: (s.conn i).sock.written) (hpos : pos = (frameBytes snap.welcome).length) :
      Reading s i pos e closed e closed
  | streaming (snap : Snapshot) (parts : List (List UInt8)) (last : UInt64) (ha : (s.conn i).attached = some snap)
      (hsent : wireBytes (deliveryFrames snap parts) <+: (s.conn i).sock.written)
      (hpos : pos = (wireBytes (deliveryFrames snap parts)).length)
      (hpart : ∀ d ∈ parts, d.length ≤ 4096) (hlast : last.toNat = snap.nextSeq.toNat + parts.flatten.length)
      (hbytes : parts.flatten <+: s.log.drop snap.nextSeq.toNat) :
      Reading s i pos e closed last (closed ++ [⟨i, snap.fromSeq.toNat, last.toNat⟩])

/-- What holds of the connection a client is in a session over. -/
structure InSession (s : Sys) (i pos : Nat) (e : UInt64) (closed : List Slice) (last : UInt64) (slices : List Slice) : Prop where
  born : i < s.count
  before : ∀ g ∈ closed, g.conn < i
  intro : ∃ f, IntroFor e f ∧ Agree (s.conn i).wire (frameBytes f)
  seen : e.toNat ≤ s.log.length
  causal : ∀ snap, (s.conn i).attached = some snap → e.toNat ≤ snap.nextSeq.toNat
  reading : Reading s i pos e closed last slices

theorem Reading.extends {s t : Sys} {i pos : Nat} {e last : UInt64} {closed slices : List Slice} (hst : s.Extends t)
    (hi : i < s.count) (h : Reading s i pos e closed last slices) : Reading t i pos e closed last slices := by
  have hc := hst.conn i hi
  cases h with
  | start hpos => exact .start hpos
  | welcomed snap ha hsent hpos => exact .welcomed snap (hc.attached snap ha) (hsent.trans hc.written) hpos
  | streaming snap parts last ha hsent hpos hpart hlast hbytes =>
    obtain ⟨more, hmore⟩ := hst.log
    refine .streaming snap parts last (hc.attached snap ha) (hsent.trans hc.written) hpos hpart hlast (hbytes.trans ?_)
    rw [← hmore, List.drop_append]
    exact List.prefix_append _ _

/-- What the client reads is not affected by what the server does next; an attach then is at the end of the log. -/
theorem InSession.extends {s t : Sys} {i pos : Nat} {e last : UInt64} {closed slices : List Slice} (hst : s.Extends t)
    (h : InSession s i pos e closed last slices) : InSession t i pos e closed last slices where
  born := Nat.lt_of_lt_of_le h.born hst.count
  before := h.before
  intro := by
    rw [(hst.conn i h.born).wire]
    exact h.intro
  seen := Nat.le_trans h.seen hst.log.length_le
  causal := by
    intro snap ha
    rcases (hst.conn i h.born).fresh snap ha with ha | ha
    · exact h.causal snap ha
    · rw [ha]
      exact h.seen
  reading := h.reading.extends hst h.born

theorem IntroFor.short {e : UInt64} {f : Frame} (h : IntroFor e f) : f.Short := by
  obtain ⟨cols, rows, token, ht, hf⟩ := h
  rcases hf with ⟨rfl, -⟩ | rfl <;> simp [Frame.Short, Msg.frame, tokenField, optyMaxToken] at ht ⊢ <;> omega

/-- What an authorised intro asks for is what the client was at when it sent it. -/
theorem Authorised.requested_eq {cfg : Config} {f : Frame} {i : Intro} {e : UInt64} (h : Authorised cfg f i)
    (hf : IntroFor e f) : i.requestedSeq = e := by
  obtain ⟨-, -, token, ht, -, hg⟩ := h
  obtain ⟨cols, rows, token', ht', hf⟩ := hf
  -- both describe what the parser returns for the frame
  obtain ⟨r, -, hiff⟩ := optyParseClientIntro_spec f (Nat.lt_succ_self optyMaxToken) (.fill (optyMaxToken + 1) 0)
  have h1 := (hiff ⟨i.requestedSeq, i.cols, i.rows, ⟨_, length_tokenBuffer token _ (Nat.lt_succ_of_le ht)⟩⟩).2
    ⟨token, ht, rfl, hg⟩
  have h2 := (hiff ⟨e, cols, rows, ⟨_, length_tokenBuffer token' _ (Nat.lt_succ_of_le ht')⟩⟩).2 ⟨token', ht', rfl, hf⟩
  have h12 := h1.symm.trans h2
  injection h12 with h12
  injection h12

/-- The position a client asked for is the one it was at when it connected. -/
theorem Asked.eq_of_agree {cfg : Config} {wire : List UInt8} {req e : UInt64} {f : Frame} (h : Asked cfg wire req)
    (hf : IntroFor e f) (hagree : Agree wire (frameBytes f)) : req = e := by
  obtain ⟨g, rest, intro, hwire, hauth, rfl⟩ := h
  have hgf : g = f := by
    rcases hagree with ⟨more, hmore⟩ | ⟨more, hmore⟩
    · rw [hwire, List.append_assoc, ← List.append_nil (frameBytes f)] at hmore
      exact (frameBytes_append_inj hauth.short hf.short hmore).1
    · rw [hwire] at hmore
      exact (frameBytes_append_inj hf.short hauth.short hmore).1.symm
  subst hgf
  exact hauth.requested_eq hf

section Session

variable {cfg : Config} {cap : Nat} {s : Sys} {i pos : Nat} {e last : UInt64} {closed slices : List Slice}

/-- A replay starts where the client was, or at the base of the ring. -/
theorem InSession.start_eq (hdel : Delivery cfg cap s) (h : InSession s i pos e closed last slices) {snap : Snapshot}
    (ha : (s.conn i).attached = some snap) : snap.fromSeq.toNat = max e.toNat snap.baseSeq.toNat := by
  obtain ⟨req, hasked, hat⟩ := (hdel.conns i).snapshot snap ha
  obtain ⟨f, hf, hagree⟩ := h.intro
  have hcausal := h.causal snap ha
  rw [hat.start, hasked.eq_of_agree hf hagree]
  omega

/-- The slices of a session follow those before it. -/
theorem InSession.chained (hdel : Delivery cfg cap s) (hclosed : Chained s 0 closed e.toNat)
    (h : InSession s i pos e closed last slices) : Chained s 0 slices last.toNat := by
  cases h.reading with
  | start hpos => exact hclosed
  | welcomed snap ha hsent hpos => exact hclosed
  | streaming snap parts last ha hsent hpos hpart hlast hbytes =>
    obtain ⟨req, -, hat⟩ := (hdel.conns i).snapshot snap ha
    have hstart := h.start_eq hdel ha
    have hcausal := h.causal snap ha
    have hbase := hat.base
    have hnext := hat.next_le
    have hle := hbytes.length_le
    rw [List.length_drop] at hle
    refine hclosed.concat (g := ⟨i, snap.fromSeq.toNat, last.toNat⟩) ⟨snap, ha⟩ ?_ ?_ h.born ?_ h.before
    · show snap.fromSeq.toNat ≤ last.toNat
      omega
    · show last.toNat ≤ s.log.length
      omega
    · intro snap' ha'
      rw [ha] at ha'
      cases ha'
      exact hstart

end Session

/-! ## A frame of the session -/

theorem prefix_append_of_drop {a b l : List UInt8} (ha : a <+: l) (hb : b <+: l.drop a.length) : a ++ b <+: l := by
  obtain ⟨rest, rfl⟩ := ha
  rw [List.drop_left] at hb
  exact (List.prefix_append_right_inj a).2 hb

theorem stdoutFrames_short : ∀ {parts : List (List UInt8)} {seq : UInt64}, (∀ d ∈ parts, d.length ≤ 4096) →
    ∀ f ∈ stdoutFrames seq parts, f.Short
  | [], _, _, f, hf => by cases hf
  | d :: parts, seq, hpart, f, hf => by
    rcases List.mem_cons.1 hf with rfl | hf
    · have := hpart d List.mem_cons_self
      simp only [Frame.Short, Msg.frame, List.length_append, length_optyPutU64]
      omega
    · exact stdoutFrames_short (fun d hd => hpart d (List.mem_cons_of_mem _ hd)) f hf

/-- The frames of a connection can be told from each other. -/
theorem deliveryFrames_short {snap : Snapshot} {p : List (List UInt8)} (hdata : snap.data.bytes.length ≤ optyMaxFrame - 9)
    (hpart : ∀ d ∈ p, d.length ≤ 4096) : ∀ f ∈ deliveryFrames snap p, f.Short := by
  intro f hf
  rw [deliveryFrames, List.mem_cons, List.mem_cons] at hf
  rcases hf with rfl | rfl | hf
  · simp [Frame.Short, Snapshot.welcome, Msg.frame]
  · simp only [Frame.Short, Snapshot.replay, Msg.frame, List.length_append, length_optyPutU64]
    simp only [optyMaxFrame] at hdata
    omega
  · exact stdoutFrames_short hpart f hf

theorem ErrorText.frame_short (text : ErrorText) : text.frame.Short := by
  cases text <;> simp only [Frame.Short] <;> decide

/-- What a frame is to a client in a session, and what it is at when it has processed it. -/
inductive Received (s : Sys) (i pos : Nat) (e : UInt64) (closed : List Slice) (last : UInt64) (slices : List Slice) (f : Frame) :
    Prop where
  | error (text : ErrorText) (hf : f = text.frame)
  | welcome (base next : UInt64) (hf : f = (Msg.welcome base next).frame)
      (hin : InSession s i (pos + (frameBytes f).length) e closed last slices)
  | stream (seq : UInt64) (data : List UInt8) (last' : UInt64) (slices' : List Slice)
      (hf : (f = (Msg.stdout seq data).frame ∧ slices'.map Slice.conn = slices.map Slice.conn) ∨
        (f = (Msg.replay seq data).frame ∧ slices'.map Slice.conn = slices.map Slice.conn ++ [i]))
      (hlast : (if last < seq + .ofNat data.length then seq + .ofNat data.length else last) = last') (hle : last ≤ last')
      (hprinted : printed s.log slices' = printed s.log slices ++ data)
      (hin : InSession s i (pos + (frameBytes f).length) e closed last' slices')

section Received

variable {cfg : Config} {cap : Nat} {s : Sys} {i pos : Nat} {e last : UInt64} {closed slices : List Slice} {f : Frame}

/-- A peer that was never attached is sent an ERROR only. -/
theorem Received.of_silent {k : Nat} {text : ErrorText} (hshort : f.Short)
    (hf : frameBytes f <+: (frameBytes text.frame).take k) : Received s i pos e closed last slices f := by
  obtain ⟨rest, hrest⟩ := hf.trans (List.take_prefix _ _)
  rw [← List.append_nil (frameBytes text.frame)] at hrest
  exact .error text (frameBytes_append_inj hshort text.frame_short hrest).1

theorem ite_lt_eq_of_le {a b : UInt64} (h : a ≤ b) : (if a < b then b else a) = b := by
  by_cases hlt : a < b
  · rw [if_pos hlt]
  · rw [if_neg hlt]
    exact UInt64.le_antisymm h (UInt64.not_lt.1 hlt)

/-- The REPLAY after the WELCOME. -/
theorem Received.of_replay {snap : Snapshot} {req : UInt64} (h : InSession s i pos e closed e closed)
    (ha : (s.conn i).attached = some snap) (hat : snap.At cap s.log req)
    (hstart : snap.fromSeq.toNat = max e.toNat snap.baseSeq.toNat)
    (hpos : pos = (frameBytes snap.welcome).length)
    (hsent : frameBytes snap.welcome ++ frameBytes snap.replay <+: (s.conn i).sock.written) :
    Received s i pos e closed e closed snap.replay := by
  have hcausal := h.causal snap ha
  have hbase := hat.base
  have hlen : snap.data.bytes.length = snap.nextSeq.toNat - snap.fromSeq.toNat := by
    rw [hat.bytes, length_window, Nat.min_eq_left hat.next_le]
  have hend : snap.fromSeq + .ofNat snap.data.bytes.length = snap.nextSeq := by
    apply UInt64.toNat_inj.1
    have := snap.nextSeq.toNat_lt
    rw [toNat_add_length (by omega)]
    omega
  have hle : e ≤ snap.nextSeq := UInt64.le_iff_toNat_le.2 hcausal
  refine .stream snap.fromSeq snap.data.bytes snap.nextSeq (closed ++ [⟨i, snap.fromSeq.toNat, snap.nextSeq.toNat⟩])
    (Or.inr ⟨rfl, by simp⟩) (by rw [hend, ite_lt_eq_of_le hle]) hle (by simp [hat.bytes]) ?_
  refine { h with reading := .streaming snap [] snap.nextSeq ha ?_ ?_ nofun rfl List.nil_prefix }
  · simpa [deliveryFrames, stdoutFrames] using hsent
  · simp [deliveryFrames, stdoutFrames, hpos]

/-- One more STDOUT. -/
theorem Received.of_stdout {snap : Snapshot} {parts : List (List UInt8)} {d : List UInt8} {req : UInt64}
    (h : InSession s i pos e closed last (closed ++ [⟨i, snap.fromSeq.toNat, last.toNat⟩])) (hlen : s.log.length < 2 ^ 64)
    (ha : (s.conn i).attached = some snap) (hat : snap.At cap s.log req) (hfrom : snap.fromSeq.toNat ≤ snap.nextSeq.toNat)
    (hpos : pos = (wireBytes (deliveryFrames snap parts)).length)
    (hlast : last.toNat = snap.nextSeq.toNat + parts.flatten.length) (hpart : ∀ d' ∈ parts ++ [d], d'.length ≤ 4096)
    (hbytes : (parts ++ [d]).flatten <+: s.log.drop snap.nextSeq.toNat)
    (hsent : wireBytes (deliveryFrames snap (parts ++ [d])) <+: (s.conn i).sock.written) :
    Received s i pos e closed last (closed ++ [⟨i, snap.fromSeq.toNat, last.toNat⟩])
      (Msg.stdout (snap.nextSeq + .ofNat parts.flatten.length) d).frame := by
  have hle := hbytes.length_le
  have hflat : (parts ++ [d]).flatten = parts.flatten ++ d := by simp
  rw [hflat, List.length_append, List.length_drop] at hle
  have hseq : snap.nextSeq + .ofNat parts.flatten.length = last := by
    apply UInt64.toNat_inj.1
    rw [toNat_add_length (by rw [← hlast]; exact last.toNat_lt), hlast]
  have hnext := hat.next_le
  have hend : (last + .ofNat d.length).toNat = last.toNat + d.length := toNat_add_length (by omega)
  have hmono : last ≤ last + .ofNat d.length := by
    rw [UInt64.le_iff_toNat_le, hend]
    omega
  have hd : d = window s.log last.toNat (last.toNat + d.length) := by
    obtain ⟨rest, hrest⟩ := hbytes
    have hdrop : s.log.drop last.toNat = d ++ rest := by
      rw [hlast, ← List.drop_drop, ← hrest, hflat, List.append_assoc, List.drop_left]
    rw [window, List.drop_take, hdrop, Nat.add_sub_cancel_left, List.take_left]
  rw [hseq]
  refine .stream last d (last + .ofNat d.length) (closed ++ [⟨i, snap.fromSeq.toNat, (last + .ofNat d.length).toNat⟩])
    (Or.inl ⟨rfl, by simp⟩) (ite_lt_eq_of_le hmono) hmono ?_ ?_
  · rw [printed_append, printed_append, List.append_assoc]
    congr 1
    simp only [printed_cons, printed_nil, List.append_nil, hend]
    rw [← window_append_window s.log snap.fromSeq.toNat last.toNat _ (by omega) (Nat.le_add_right _ d.length), ← hd]
  · refine { h with reading := .streaming snap (parts ++ [d]) _ ha hsent ?_ hpart ?_ hbytes }
    · rw [wireBytes_deliveryFrames_concat, List.length_append, hpos, hseq]
    · rw [hend, hflat, List.length_append, hlast, Nat.add_assoc]

/-- A frame that the client receives is the next one of those its connection is sent. -/
theorem InSession.recv (hauth : AuthSys cfg s) (hdel : Delivery cfg cap s) (hcap : cap ≤ optyMaxFrame - 9)
    (hlen : s.log.length < 2 ^ 64) (h : InSession s i pos e closed last slices) (hshort : f.Short)
    (hf : frameBytes f <+: (s.conn i).sock.written.drop pos) : Received s i pos e closed last slices f := by
  cases hatt : (s.conn i).attached with
  | none =>
    obtain ⟨⟨text, k, hw⟩, -⟩ := (hauth.conns i).silent hatt
    rw [hw] at hf
    cases h.reading with
    | start hpos => rw [hpos, List.drop_zero] at hf; exact .of_silent hshort hf
    | welcomed snap ha hsent hpos => rw [hatt] at ha; cases ha
    | streaming snap parts last ha hsent hpos hpart hlast hbytes => rw [hatt] at ha; cases ha
  | some snap =>
    obtain ⟨req, -, hat⟩ := (hdel.conns i).snapshot snap hatt
    obtain ⟨parts, hd⟩ := (hdel.conns i).delivered snap hatt
    have hwritten := hd.sent.1.trans ((s.conn i).pc.sentFrames_prefix snap parts)
    have hdata : snap.data.bytes.length ≤ optyMaxFrame - 9 := by
      rw [show snap.data.bytes.length = snap.data.len from hat.readable]
      exact Nat.le_trans hat.data_le hcap
    have hall := deliveryFrames_short hdata fun d hmem => (hd.part d hmem).2
    have hstart := h.start_eq hdel hatt
    have hcausal := h.causal snap hatt
    cases h.reading with
    | start hpos =>
      rw [hpos, List.drop_zero] at hf
      have hpre := wireBytes_prefix (l := [f]) (by simpa using hshort) hall
        (by simpa only [wireBytes_cons, wireBytes_nil, List.append_nil] using hf.trans hwritten)
      rw [deliveryFrames, List.cons_prefix_cons] at hpre
      obtain ⟨rfl, -⟩ := hpre
      refine .welcome snap.baseSeq snap.nextSeq rfl { h with reading := .welcomed snap hatt hf ?_ }
      rw [hpos, Nat.zero_add]
    | welcomed snap' ha hsent hpos =>
      rw [hatt] at ha
      cases ha
      rw [hpos] at hf
      have hsent' := prefix_append_of_drop hsent hf
      have hpre := wireBytes_prefix (l := [snap.welcome, f])
        (by simpa using ⟨hall _ List.mem_cons_self, hshort⟩) hall
        (by simpa only [wireBytes_cons, wireBytes_nil, List.append_nil] using hsent'.trans hwritten)
      rw [deliveryFrames, List.cons_prefix_cons, List.cons_prefix_cons] at hpre
      obtain ⟨-, rfl, -⟩ := hpre
      exact .of_replay h hatt hat hstart hpos hsent'
    | streaming snap' parts' last ha hsent hpos hpart hlast hbytes =>
      rw [hatt] at ha
      cases ha
      rw [hpos] at hf
      have hsent' := prefix_append_of_drop hsent hf
      have hpre := wireBytes_prefix (l := deliveryFrames snap parts' ++ [f])
        (by
          intro g hg
          rcases List.mem_append.1 hg with hg | hg
          · exact deliveryFrames_short hdata hpart g hg
          · rw [List.mem_singleton.1 hg]
            exact hshort) hall
        (by simpa only [wireBytes_append, wireBytes_cons, wireBytes_nil, List.append_nil] using hsent'.trans hwritten)
      rw [deliveryFrames, deliveryFrames, List.cons_append, List.cons_append, List.cons_prefix_cons, List.cons_prefix_cons] at hpre
      obtain ⟨d, more, rfl, rfl⟩ := stdoutFrames_prefix hpre.2.2
      have hb := hat.base
      have hmore : parts' ++ d :: more = (parts' ++ [d]) ++ more := List.append_cons _ _ _
      refine .of_stdout h hlen hatt hat (by omega) hpos hlast ?_ ?_ ?_
      · intro d' hd'
        exact (hd.part d' (by rw [hmore]; exact List.mem_append_left _ hd')).2
      · refine List.IsPrefix.trans ?_ hd.bytes
        rw [hmore, @List.flatten_append _ (parts' ++ [d])]
        exact List.prefix_append _ _
      · rw [wireBytes_deliveryFrames_concat]
        exact hsent'

end Received

/-! ## The invariant -/

/-- What holds at each place of the client, if it had printed `closed` and was at `e` when its last session began. -/
def ClientPc.Holds (s : Sys) (e : UInt64) (closed : List Slice) (last : UInt64) (slices : List Slice) : ClientPc → Prop
  | .session i pos _ _ => InSession s i pos e closed last slices
  | _ => last = e ∧ slices = closed

/-- What holds of a client that has printed `slices`. -/
structure Resumed (w : World) (e : UInt64) (closed slices : List Slice) : Prop where
  chained : Chained w.server 0 closed e.toNat
  place : w.pc.Holds w.server e closed w.client.lastSeq slices
  printed : w.client.out.written = printed w.server.log slices
  replays : slices.map Slice.conn = w.replays
  first : w.pc = .connecting → w.client.connectedOnce = false → w.client.lastSeq = 0
  acks : w.client.acks.Pairwise (· ≤ ·)
  acked : ∀ a ∈ w.client.acks, a ≤ w.client.lastSeq
  lastAck : ∀ a, w.client.acks.getLast? = some a → a = w.client.lastSeq

section Resumed

variable {cfg : Config} {cap : Nat} {w : World} {e : UInt64} {closed slices : List Slice}

/-- All that was printed is chained. -/
theorem Resumed.all (hdel : Delivery cfg cap w.server) (h : Resumed w e closed slices) :
    Chained w.server 0 slices w.client.lastSeq.toNat := by
  have hplace := h.place
  cases hpc : w.pc with
  | session i pos sock saw =>
    rw [hpc] at hplace
    exact InSession.chained hdel h.chained hplace
  | connecting | exited status =>
    rw [hpc] at hplace
    rw [hplace.1, hplace.2]
    exact h.chained

/-- The client leaves its session. -/
theorem Resumed.leave (hdel : Delivery cfg cap w.server) (h : Resumed w e closed slices) {pc : ClientPc}
    (hpc : pc.Holds w.server w.client.lastSeq slices w.client.lastSeq slices) :
    Resumed { w with client := { w.client with connectedOnce := true }, pc := pc } w.client.lastSeq slices slices := by
  have hall := h.all hdel
  exact ⟨hall, hpc, h.printed, h.replays, fun _ => nofun, h.acks, h.acked, h.lastAck⟩

theorem Resumed.endSession (h : Resumed w e closed slices) (hdel : Delivery cfg cap w.server) (rc : Int) :
    Resumed (w.endSession rc) w.client.lastSeq slices slices := by
  refine h.leave hdel ?_
  split
  · exact ⟨rfl, rfl⟩
  · split <;> exact ⟨rfl, rfl⟩

/-- The client goes on in its session, or leaves it, whether a send succeeds or not. -/
theorem Resumed.afterSend (hdel : Delivery cfg cap w.server) (h : Resumed w e closed slices) {i pos : Nat} (saw pending : Bool)
    (r : Except Errno Unit × Sink Errno) (hin : InSession w.server i pos e closed w.client.lastSeq slices) :
    ∃ e closed, Resumed (w.afterSend i pos saw pending r) e closed slices := by
  have hs : ∀ sock, Resumed { w with pc := .session i pos sock saw } e closed slices := fun sock =>
    { h with place := hin, first := nofun }
  obtain ⟨r, sock⟩ := r
  cases r with
  | ok u => exact ⟨e, closed, hs sock⟩
  | error err => exact ⟨_, _, (hs sock).endSession hdel (failedRc pending 1)⟩

/-- The server goes on. -/
theorem Resumed.extends (hdel : Delivery cfg cap w.server) (h : Resumed w e closed slices) {t : Sys}
    (hst : w.server.Extends t) : Resumed { w with server := t } e closed slices where
  chained := h.chained.extends hst
  place := by
    have hplace := h.place
    cases hpc : w.pc with
    | session i pos sock saw =>
      rw [hpc] at hplace
      exact InSession.extends hst hplace
    | connecting | exited status =>
      rw [hpc] at hplace
      exact hplace
  printed := by
    rw [(h.all hdel).printed_eq hst.log]
    exact h.printed
  replays := h.replays
  first := h.first
  acks := h.acks
  acked := h.acked
  lastAck := h.lastAck

/-- A client whose connection was accepted, and which has sent its intro. -/
theorem Resumed.connect (hdel : Delivery cfg cap w.server) (h : Resumed w e closed slices) {input : Source Errno}
    {sched : List (WriteEvent Errno)} {t : Sys} (hst : w.server.Extends t)
    (hstep : step w.server (.accept input sched true) = .next t) {f : Frame} (hf : IntroFor w.client.lastSeq f)
    (hagree : Agree input.bytes (frameBytes f)) :
    InSession t w.server.count 0 w.client.lastSeq slices w.client.lastSeq slices := by
  have hall := h.all hdel
  obtain ⟨hconn, hcount⟩ := step_accept hstep
  refine ⟨?_, hall.conn_lt, ⟨f, hf, ?_⟩, (hall.extends hst).le_length (Nat.zero_le _), ?_, .start rfl⟩
  · rw [hcount]
    exact Nat.lt_succ_self _
  · rw [hconn]
    exact hagree
  · intro snap ha
    rw [hconn] at ha
    cases ha

end Resumed

/-- The intro of a client, when all of it could be sent. -/
theorem sendIntro_sends (args : ClientArgs) {lastSeq : UInt64} {once : Bool} (honce : once = false → lastSeq = 0)
    (cols rows : UInt16) (fd : Sink Errno) :
    ∃ f, IntroFor lastSeq f ∧ Sends .eintr fd (frameBytes f) (sendIntro fd once lastSeq cols rows args.token).1
      (sendIntro fd once lastSeq cols rows args.token).2 := by
  cases once with
  | false =>
    exact ⟨_, ⟨cols, rows, _, args.fits, Or.inl ⟨rfl, honce rfl⟩⟩, optySendHello_sends cols rows args.token args.fits fd⟩
  | true =>
    exact ⟨_, ⟨cols, rows, _, args.fits, Or.inr rfl⟩, optySendReconnect_sends cols rows lastSeq args.token args.fits fd⟩

/-- The client has processed a frame of its session: an ERROR, after which it leaves, or one it goes on after. -/
theorem Resumed.received {w : World} {e : UInt64} {closed slices : List Slice} {i pos : Nat}
    (sock : Sink Errno) (saw : Bool) {f : Frame} (hw : w.client.Writable) (h : Resumed w e closed slices)
    (hrec : Received w.server i pos e closed w.client.lastSeq slices f) :
    ∃ rc sock' c' saw', processServerFrame sock w.client saw f = some (rc, sock', c', saw') ∧ c'.Writable ∧
      ((rc ≠ 0 ∧ f.type ≠ msgReplay ∧ Resumed { w with client := c' } e closed slices) ∨
        ∃ slices', Resumed { w with
          client := c', pc := .session i (pos + (frameBytes f).length) sock' saw'
          replays := if f.type = msgReplay then w.replays ++ [i] else w.replays } e closed slices') := by
  cases hrec with
  | error text hf =>
    subst hf
    obtain ⟨err, herr⟩ := processServerFrame_error sock w.client saw text
    refine ⟨_, _, _, _, herr, ⟨hw.out, hw.scrollback⟩, Or.inl ⟨by decide, ?_, ?_⟩⟩
    · show msgError ≠ msgReplay
      decide
    · exact ⟨h.chained, h.place, h.printed, h.replays, h.first, h.acks, h.acked, h.lastAck⟩
  | welcome base next hf hin =>
    subst hf
    refine ⟨_, _, _, _, processServerFrame_welcome sock w.client saw base next, hw, Or.inr ⟨slices, ?_⟩⟩
    have hty : ¬(Msg.welcome base next).frame.type = msgReplay := by show ¬msgWelcome = msgReplay; decide
    rw [if_neg hty]
    exact ⟨h.chained, hin, h.printed, h.replays, nofun, h.acks, h.acked, h.lastAck⟩
  | stream seq data last' slices' hf hlast hle hprinted hin =>
    obtain ⟨rc, sock', c', hproc, -, hw', hout, -, hseq, hacks⟩ :=
      processServerFrame_stream (hf.imp And.left And.left) sock hw saw
    rw [hlast] at hseq
    subst hseq
    refine ⟨_, _, _, _, hproc, hw', Or.inr ⟨slices', h.chained, hin, ?_, ?_, nofun, ?_, ?_, ?_⟩⟩
    · rw [hout, h.printed, hprinted]
    · rcases hf with ⟨rfl, hslices⟩ | ⟨rfl, hslices⟩
      · have hty : ¬(Msg.stdout seq data).frame.type = msgReplay := by show ¬msgStdout = msgReplay; decide
        rw [if_neg hty, hslices, h.replays]
      · have hty : (Msg.replay seq data).frame.type = msgReplay := rfl
        rw [if_pos hty, hslices, h.replays]
    · rw [hacks, List.pairwise_append]
      refine ⟨h.acks, List.pairwise_singleton _ _, fun a ha b hb => ?_⟩
      rw [List.mem_singleton.1 hb]
      exact UInt64.le_trans (h.acked a ha) hle
    · intro a ha
      rw [hacks, List.mem_append, List.mem_singleton] at ha
      rcases ha with ha | rfl
      · exact UInt64.le_trans (h.acked a ha) hle
      · exact UInt64.le_refl _
    · intro a ha
      rw [hacks, List.getLast?_append_of_ne_nil _ (by simp)] at ha
      simpa using ha.symm

/-- What holds of the server and its client, as long as the log is shorter than `2 ^ 64`. -/
def WorldInv (cfg : Config) (cap : Nat) (w : World) : Prop :=
  ServerInv cfg cap w.server ∧
    (w.server.log.length < 2 ^ 64 → w.client.Writable ∧ ∃ e closed slices, Resumed w e closed slices)

/-- What an action must not run into: for the server what `Allows` says. -/
def WorldAllows (w : World) : WorldAct → Prop
  | .server a => Allows w.server a
  | .connect _ _ _ sched _ _ => Sink.FailsForGood Errno.eintr { sched := sched }
  | _ => True

/-- An action of the server is an extension of it. -/
theorem ServerInv.extends {cfg : Config} {cap : Nat} {s t : Sys} {a : Act} (h : ServerInv cfg cap s)
    (hdel : Delivery cfg cap s) (hstep : step s a = .next t) : s.Extends t :=
  ⟨log_prefix_of_moves h.1 (step_moves hstep), (outputs_of_moves h.1 (step_moves hstep)).2,
    fun _ hj => extends_of_moves h.1 hdel (step_moves hstep) hj⟩

section Step

variable {cfg : Config} {cap : Nat} {w w' : World}

/-- An action that leaves the server as it is. -/
theorem WorldInv.of_client (h : WorldInv cfg cap w) (hserver : w'.server = w.server)
    (hres : ∀ e closed slices, w.server.log.length < 2 ^ 64 → Delivery cfg cap w.server → w.client.Writable →
      Resumed w e closed slices → w'.client.Writable ∧ ∃ e closed slices, Resumed w' e closed slices) : WorldInv cfg cap w' := by
  obtain ⟨hsrv, hold⟩ := h
  refine ⟨by rw [hserver]; exact hsrv, fun hlen => ?_⟩
  rw [hserver] at hlen
  obtain ⟨hw, e, closed, slices, hr⟩ := hold hlen
  exact hres e closed slices hlen (hsrv.2.2 hlen) hw hr

theorem WorldInv.endSession (h : WorldInv cfg cap w) (rc : Int) : WorldInv cfg cap (w.endSession rc) :=
  h.of_client rfl fun _ _ _ _ hdel hw hr => ⟨⟨hw.out, hw.scrollback⟩, _, _, _, hr.endSession hdel rc⟩

theorem WorldInv.afterSend (h : WorldInv cfg cap w) {i pos : Nat} {sock : Sink Errno} {saw : Bool}
    (hpc : w.pc = .session i pos sock saw) (pending : Bool) (r : Except Errno Unit × Sink Errno) :
    WorldInv cfg cap (w.afterSend i pos saw pending r) := by
  refine h.of_client ?_ fun e closed slices hlen hdel hw hr => ⟨?_, ?_⟩
  · obtain ⟨r, sock⟩ := r
    cases r <;> rfl
  · obtain ⟨r, sock⟩ := r
    cases r <;> exact ⟨hw.out, hw.scrollback⟩
  · have hplace := hr.place
    rw [hpc] at hplace
    obtain ⟨e, closed, hr'⟩ := hr.afterSend hdel saw pending r hplace
    exact ⟨e, closed, slices, hr'⟩

/-- A frame that is received is the next of the stream. -/
theorem optyRecvFrame_some {alloc : Bool} {fd fd' : Source Errno} {f : Frame}
    (h : optyRecvFrame alloc fd = (.ok (some f), fd')) : fd.bytes = frameBytes f ++ fd'.bytes ∧ f.Short := by
  obtain ⟨r, fd₁, hr, -, hcases⟩ := optyRecvFrameLimited_cases alloc fd (optyMaxFrame - 1)
  rw [optyRecvFrame, hr] at h
  cases h
  rcases hcases with ⟨g, hg, hbytes, hlen⟩ | ⟨hr, -⟩ | ⟨n, hr, -⟩ | ⟨hr, -⟩ | ⟨e, hr, -⟩
  · cases hg
    refine ⟨hbytes, Nat.lt_of_le_of_lt hlen ?_⟩
    decide
  · cases hr
  · cases hr
  · cases hr
  · cases hr

/-- The client connects. -/
theorem WorldInv.connect (h : WorldInv cfg cap w) (hcap : cap ≤ optyMaxFrame - 9) (hpc : w.pc = .connecting)
    (cols rows : UInt16) {input : Source Errno} {sched clientSched : List (WriteEvent Errno)} (pending : Bool)
    (hgood : Sink.FailsForGood Errno.eintr { sched := sched }) {t : Sys}
    (hagree : Agree input.bytes
      (sendIntro { sched := clientSched } w.client.connectedOnce w.client.lastSeq cols rows w.args.token).2.written)
    (hstep : step w.server (.accept input sched true) = .next t) :
    WorldInv cfg cap (({ w with server := t }).afterSend w.server.count 0 false pending
      (sendIntro { sched := clientSched } w.client.connectedOnce w.client.lastSeq cols rows w.args.token)) := by
  obtain ⟨hsrv, hold⟩ := h
  have hsrv' := serverInv_step hsrv hcap (a := .accept input sched true) hgood hstep
  generalize hr : sendIntro _ _ _ _ _ _ = r at hagree ⊢
  have hserver : (({ w with server := t }).afterSend w.server.count 0 false pending r).server = t := by
    obtain ⟨r, sock⟩ := r
    cases r <;> rfl
  refine ⟨by rw [hserver]; exact hsrv', fun hlen => ?_⟩
  rw [hserver] at hlen
  have hle := (log_prefix_of_moves hsrv.1 (step_moves hstep)).length_le
  have hdel := hsrv.2.2 (by omega)
  have hst := hsrv.extends hdel hstep
  obtain ⟨hw, e, closed, slices, hres⟩ := hold (by omega)
  have hres' := hres.extends hdel hst
  have hplace := hres.place
  rw [hpc] at hplace
  obtain ⟨rfl, rfl⟩ := hplace
  obtain ⟨f, hf, hsends⟩ := sendIntro_sends w.args (hres.first hpc) cols rows { sched := clientSched }
  rw [hr] at hsends
  obtain ⟨r, sock⟩ := r
  cases r with
  | ok u =>
    rw [hsends.written_of_ok, List.nil_append] at hagree
    have hin := hres.connect hdel hst hstep hf hagree
    exact ⟨hw, _, _, _, { hres' with place := hin, first := nofun }⟩
  | error err =>
    exact ⟨⟨hw.out, hw.scrollback⟩, _, _, _, hres'.endSession (hsrv'.2.2 hlen) (failedRc pending 1)⟩

/-- The client receives. -/
theorem WorldInv.recv (h : WorldInv cfg cap w) (hcap : cap ≤ optyMaxFrame - 9) {i pos : Nat} {sock : Sink Errno} {saw : Bool}
    (hpc : w.pc = .session i pos sock saw) {stream : Source Errno} {alloc pending : Bool}
    (hstream : stream.bytes <+: (w.server.conn i).sock.written.drop pos)
    (hstep : worldStep w (.recv stream alloc pending) = .next w') : WorldInv cfg cap w' := by
  simp only [worldStep, hpc, if_pos hstream] at hstep
  split at hstep
  · cases hstep
    exact h.endSession 0
  · cases hstep
    exact h.endSession (failedRc pending 1)
  · rename_i f rest hrecv
    obtain ⟨hbytes, hfit⟩ := optyRecvFrame_some hrecv
    have hpos : stream.bytes.length - rest.bytes.length = (frameBytes f).length := by
      rw [hbytes, List.length_append]
      omega
    have hnext : frameBytes f <+: (w.server.conn i).sock.written.drop pos :=
      List.IsPrefix.trans ⟨rest.bytes, hbytes.symm⟩ hstream
    rw [hpos] at hstep
    obtain ⟨r, hproc, rfl⟩ := ofOption_map_eq_next hstep
    refine h.of_client ?_ fun e closed slices hlen hdel hw hres => ?_
    · split <;> rfl
    · have hin := hres.place
      rw [hpc] at hin
      have hrec := InSession.recv h.1.2.1 hdel hcap hlen hin hfit hnext
      obtain ⟨rc, sock', c', saw', hproc', hw', hcase⟩ := hres.received sock saw hw hrec
      rw [hproc] at hproc'
      cases hproc'
      rcases hcase with ⟨hrc, hty, hres'⟩ | ⟨slices', hres'⟩
      · rw [if_neg hrc, if_neg hty]
        exact ⟨⟨hw'.out, hw'.scrollback⟩, _, _, _, hres'.endSession hdel _⟩
      · split
        · exact ⟨hw', _, _, _, hres'⟩
        · exact ⟨⟨hw'.out, hw'.scrollback⟩, _, _, _, hres'.endSession hdel _⟩

/-- Every action keeps the invariant. -/
theorem worldInv_step (h : WorldInv cfg cap w) (hcap : cap ≤ optyMaxFrame - 9) {a : WorldAct} (hallows : WorldAllows w a)
    (hstep : worldStep w a = .next w') : WorldInv cfg cap w' := by
  cases a with
  | server a =>
    simp only [worldStep] at hstep
    split at hstep
    · nomatch hstep
    · nomatch hstep
    · rename_i t ht
      cases hstep
      obtain ⟨hsrv, hold⟩ := h
      refine ⟨serverInv_step hsrv hcap hallows ht, fun hlen => ?_⟩
      have hle := (log_prefix_of_moves hsrv.1 (step_moves ht)).length_le
      have hdel := hsrv.2.2 (Nat.lt_of_le_of_lt hle hlen)
      obtain ⟨hw, e, closed, slices, hres⟩ := hold (Nat.lt_of_le_of_lt hle hlen)
      exact ⟨hw, e, closed, slices, hres.extends hdel (hsrv.extends hdel ht)⟩
  | connect cols rows input sched clientSched pending =>
    simp only [worldStep] at hstep
    split at hstep
    · rename_i hpc
      split at hstep
      · rename_i hagree
        split at hstep
        · nomatch hstep
        · nomatch hstep
        · rename_i t ht
          cases hstep
          exact h.connect hcap hpc cols rows pending hallows hagree ht
      · nomatch hstep
    · nomatch hstep
  | refused =>
    simp only [worldStep] at hstep
    split at hstep
    · rename_i hpc
      cases hstep
      split
      · exact h
      · refine h.of_client rfl fun e closed slices _ _ hw hr => ⟨hw, e, closed, slices, { hr with place := ?_, first := nofun }⟩
        have hplace := hr.place
        rwa [hpc] at hplace
    · nomatch hstep
  | recv stream alloc pending =>
    cases hpc : w.pc with
    | session i pos sock saw =>
      by_cases hstream : stream.bytes <+: (w.server.conn i).sock.written.drop pos
      · exact h.recv hcap hpc hstream hstep
      · simp only [worldStep, hpc, if_neg hstream] at hstep
        nomatch hstep
    | connecting | exited status =>
      simp only [worldStep, hpc] at hstep
      nomatch hstep
  | resize cols rows pending =>
    simp only [worldStep] at hstep
    split at hstep
    · rename_i i pos sock hpc
      cases hstep
      exact h.afterSend hpc pending _
    · nomatch hstep
  | stdin data pending =>
    simp only [worldStep] at hstep
    split at hstep
    · rename_i i pos sock saw hpc
      split at hstep
      · cases hstep
        exact h.endSession 0
      · cases hstep
        exact h.afterSend hpc pending _
    · nomatch hstep
  | terminate =>
    simp only [worldStep] at hstep
    split at hstep
    · rename_i hpc
      cases hstep
      refine h.of_client rfl fun e closed slices _ _ hw hr => ⟨hw, e, closed, slices, { hr with place := ?_, first := nofun }⟩
      have hplace := hr.place
      rwa [hpc] at hplace
    · cases hstep
      exact h.endSession 0
    · nomatch hstep
  | pollFailed =>
    simp only [worldStep] at hstep
    split at hstep
    · cases hstep
      exact h.endSession 1
    · nomatch hstep

end Step

end ZeroPty
