import ZeroPty.Lemmas.Authentication

/-!
# What an attached connection is sent

The frames on the socket of an attached client are a function of the snapshot it attached with and of the parts of the log that
were broadcast to it since. `ConnDelivery` ties them to the log, to the client's `live_seq` and to the place of the PTY thread;
every action keeps it as long as allocations succeed and a failed write is final.
-/

namespace ZeroPty

open Stream Memory Transition ReferencesAux

/-! ## Frames -/

/-- STDOUT frames with these parts, numbered from `seq` on without a gap. -/
def stdoutFrames (seq : UInt64) : List (List UInt8) → List Frame
  | [] => []
  | d :: ds => (Msg.stdout seq d).frame :: stdoutFrames (seq + .ofNat d.length) ds

/-- The WELCOME of a snapshot. -/
def Snapshot.welcome (snap : Snapshot) : Frame := (Msg.welcome snap.baseSeq snap.nextSeq).frame

/-- The REPLAY of a snapshot. -/
def Snapshot.replay (snap : Snapshot) : Frame := (Msg.replay snap.fromSeq snap.data.bytes).frame

/-- What a client that attached with this snapshot is sent: the snapshot, then these parts. -/
def deliveryFrames (snap : Snapshot) (parts : List (List UInt8)) : List Frame :=
  snap.welcome :: snap.replay :: stdoutFrames snap.nextSeq parts

/-- What of it the thread of the client has got to. -/
def ThreadPc.sentFrames (snap : Snapshot) (parts : List (List UInt8)) : ThreadPc → List Frame
  | .sendWelcome _ => []
  | .sendReplay _ => [snap.welcome]
  | _ => deliveryFrames snap parts

theorem ThreadPc.sentFrames_of_not_sending {pc : ThreadPc} (h : pc.isSending = false) (snap : Snapshot)
    (parts : List (List UInt8)) : pc.sentFrames snap parts = deliveryFrames snap parts := by
  cases pc <;> first | rfl | cases h

/-- What the thread has got to is the start of it. -/
theorem ThreadPc.sentFrames_prefix (pc : ThreadPc) (snap : Snapshot) (parts : List (List UInt8)) :
    wireBytes (pc.sentFrames snap parts) <+: wireBytes (deliveryFrames snap parts) := by
  cases hs : pc.isSending with
  | false =>
    exact pc.sentFrames_of_not_sending hs snap parts ▸ List.prefix_refl _
  | true =>
    cases pc with
    | sendWelcome snap' => exact List.nil_prefix
    | sendReplay snap' =>
      rw [ThreadPc.sentFrames, deliveryFrames, wireBytes_cons, wireBytes_cons, wireBytes_nil, List.append_nil]
      exact List.prefix_append _ _
    | _ => cases hs

/-- One part more, numbered where the others end. -/
theorem stdoutFrames_concat (d : List UInt8) : ∀ (parts : List (List UInt8)) (seq : UInt64),
    stdoutFrames seq (parts ++ [d]) =
      stdoutFrames seq parts ++ [(Msg.stdout (seq + .ofNat parts.flatten.length) d).frame]
  | [], seq => by simp [stdoutFrames]
  | p :: parts, seq => by
    rw [List.cons_append, stdoutFrames, stdoutFrames_concat d parts, stdoutFrames, List.cons_append, List.flatten_cons,
      List.length_append, UInt64.ofNat_add, UInt64.add_assoc]

theorem wireBytes_deliveryFrames_concat (snap : Snapshot) (parts : List (List UInt8)) (d : List UInt8) :
    wireBytes (deliveryFrames snap (parts ++ [d])) =
      wireBytes (deliveryFrames snap parts) ++ frameBytes (Msg.stdout (snap.nextSeq + .ofNat parts.flatten.length) d).frame := by
  simp only [deliveryFrames, stdoutFrames_concat, wireBytes_cons, wireBytes_append, wireBytes_nil, List.append_nil,
    List.append_assoc]

/-! ## The invariant -/

/-- The peer's first frame is an authorised intro that asks for the log from `requestedSeq` on. -/
def Asked (cfg : Config) (wire : List UInt8) (requestedSeq : UInt64) : Prop :=
  ∃ f rest intro, wire = frameBytes f ++ rest ∧ Authorised cfg f intro ∧ intro.requestedSeq = requestedSeq

/-- A snapshot of a ring of this capacity, taken when the log was `next_seq` long, from a requested position. -/
structure Snapshot.At (snap : Snapshot) (cap : Nat) (log : List UInt8) (requestedSeq : UInt64) : Prop where
  next_le : snap.nextSeq.toNat ≤ log.length
  base : snap.baseSeq.toNat = snap.nextSeq.toNat - cap
  start : snap.fromSeq.toNat = max snap.baseSeq.toNat (min requestedSeq.toNat snap.nextSeq.toNat)
  readable : snap.data.Readable
  bytes : snap.data.bytes = window log snap.fromSeq.toNat snap.nextSeq.toNat

/-- The parts broadcast to a client since its snapshot, and how they stand on its socket: one after the other they are the log from
the snapshot on, and the socket has all of the frames, or if it failed a first part of them. -/
structure Delivered (log : List UInt8) (c : Conn) (snap : Snapshot) (parts : List (List UInt8)) : Prop where
  part : ∀ d ∈ parts, 0 < d.length ∧ d.length ≤ 4096
  bytes : parts.flatten <+: log.drop snap.nextSeq.toNat
  sending : c.pc.isSending = true → parts = []
  sent : c.sock.Carries (wireBytes (c.pc.sentFrames snap parts))
  live : c.sock.broken = false → ∀ cl, c.cell = .live cl → cl.liveSeq.toNat = snap.nextSeq.toNat + parts.flatten.length

/-- What the PTY thread still owes a client whose stream has got to `pos` of a log of length `len`: nothing, or the chunk it is
broadcasting; a client it is about to mark dead is owed nothing. -/
def PtyPc.Owes (len i pos : Nat) : PtyPc → Prop
  | .snapshot seq _ => pos = len ∨ pos = seq.toNat
  | .send seq _ _ todo => pos = len ∨ (pos = seq.toNat ∧ i ∈ todo)
  | .markDead seq _ _ j todo => i = j ∨ pos = len ∨ (pos = seq.toNat ∧ i ∈ todo)
  | _ => pos = len

/-- The chunk the PTY thread is at is the end of the log, from the position that `opty_ring_append` reported. -/
def PtyPc.Chunk (log : List UInt8) : PtyPc → Prop
  | .append chunk => 0 < chunk.length ∧ chunk.length ≤ 4096
  | .snapshot seq chunk | .send seq chunk _ _ | .markDead seq chunk _ _ _ =>
    0 < chunk.length ∧ chunk.length ≤ 4096 ∧ seq.toNat + chunk.length = log.length ∧ chunk = log.drop seq.toNat
  | _ => True

/-- The thread has not attached its client yet, and may. -/
def ThreadPc.isEarly : ThreadPc → Bool
  | .starting | .recvFirst | .resizeIntro _ | .attach _ => true
  | _ => false

/-- The position the thread is about to attach from. -/
def ThreadPc.requested : ThreadPc → Option UInt64
  | .resizeIntro intro => some intro.requestedSeq
  | .attach requestedSeq => some requestedSeq
  | _ => none

/-- What holds of connection `i`: nothing is sent to it before it attaches, and from then on what `Delivered` says; a client whose
socket has not failed is in the list, and the PTY thread owes it at most the chunk it is broadcasting. -/
structure ConnDelivery (cfg : Config) (cap : Nat) (log : List UInt8) (clients : List Nat) (p : PtyPc) (i : Nat) (c : Conn) :
    Prop where
  good : c.sock.FailsForGood .eintr
  early : c.pc.isEarly = true → c.attached = none ∧ c.sock.written = []
  asked : ∀ req, c.pc.requested = some req → Asked cfg c.wire req
  sending : ∀ snap, c.pc = .sendWelcome snap ∨ c.pc = .sendReplay snap → c.attached = some snap
  failed : ∀ text, c.pc = .sendError text → c.attached ≠ none → c.sock.broken = true
  snapshot : ∀ snap, c.attached = some snap → ∃ req, Asked cfg c.wire req ∧ snap.At cap log req
  delivered : ∀ snap, c.attached = some snap → ∃ parts, Delivered log c snap parts
  linked : c.sock.broken = false → ∀ cl, c.cell = .live cl → cl.dead = false ∧ i ∈ clients
  alive : c.attached ≠ none → c.sock.broken = false →
    ∃ cl, c.cell = .live cl ∧ cl.authenticated = true ∧ p.Owes log.length i cl.liveSeq.toNat

/-- What holds of the server. -/
structure Delivery (cfg : Config) (cap : Nat) (s : Sys) : Prop where
  ring : s.ring.Represents s.log
  cap_eq : s.ring.cap.toNat = cap
  chunk : s.pty.Chunk s.log
  conns : ∀ i, ConnDelivery cfg cap s.log s.clients s.pty i (s.conn i)

/-! ## The operations -/

/-- The snapshot an attach section takes. -/
theorem Snapshot.At.of_attach {malloc : Alloc UInt8} {ring : Ring} {log : List UInt8} {cl cl' : Client} {req : UInt64}
    {snap : Snapshot} (hrep : ring.Represents log) (h : serverAttach malloc ring cl req = some (some (cl', snap))) :
    snap.At ring.cap.toNat log req ∧ snap.nextSeq.toNat = log.length := by
  have hof := serverAttach_of hrep h
  have hnext : snap.nextSeq.toNat = log.length := by rw [hof.next, hrep.next]
  have hbase : snap.baseSeq.toNat = log.length - ring.cap.toNat := by rw [hof.base, hrep.base]
  refine ⟨⟨Nat.le_of_eq hnext, by rw [hbase, hnext], ?_, hof.readable, ?_⟩, hnext⟩
  · rw [hof.start, hrep.toNat_clampSeq, hbase, hnext]
  · rw [hof.bytes, hnext, window_length]

/-- The log a snapshot was taken from may grow. -/
theorem Snapshot.At.append {snap : Snapshot} {cap : Nat} {log : List UInt8} {req : UInt64} (h : snap.At cap log req)
    (more : List UInt8) : snap.At cap (log ++ more) req where
  next_le := Nat.le_trans h.next_le (by simp)
  base := h.base
  start := h.start
  readable := h.readable
  bytes := by
    rw [h.bytes, window, window, List.take_append_of_le_length h.next_le]

/-- A replay is no longer than the ring. -/
theorem Snapshot.At.data_le {snap : Snapshot} {cap : Nat} {log : List UInt8} {req : UInt64} (h : snap.At cap log req) :
    snap.data.len ≤ cap := by
  have hr : snap.data.bytes.length = snap.data.len := h.readable
  have hb := h.base
  have hs := h.start
  rw [← hr, h.bytes, window, List.length_drop, List.length_take]
  omega

theorem toNat_add_length {seq : UInt64} {chunk : List UInt8} (h : seq.toNat + chunk.length < 2 ^ 64) :
    (seq + UInt64.ofNat chunk.length).toNat = seq.toNat + chunk.length := by
  rw [UInt64.toNat_add, UInt64.toNat_ofNat', Nat.mod_eq_of_lt (a := chunk.length) (by omega), Nat.mod_eq_of_lt h]

/-- A client whose stream has got to the end of the log is sent nothing. -/
theorem serverSendStdout_skip {alloc : Bool} {seq : UInt64} {chunk : List UInt8} {cl : Client} {fd : Sink Errno}
    (hend : seq.toNat + chunk.length < 2 ^ 64) (hpos : cl.liveSeq.toNat = seq.toNat + chunk.length) :
    serverSendStdout alloc seq chunk cl fd = (.ok (), cl, fd) := by
  rw [serverSendStdout, if_neg]
  rw [UInt64.lt_iff_toNat_lt, toNat_add_length hend]
  omega

/-- A client whose stream has got to the chunk is sent all of it. -/
theorem serverSendStdout_sends {seq : UInt64} {chunk : List UInt8} {cl cl' : Client} {fd fd' : Sink Errno}
    {r : Except Errno Unit} (hchunk : 0 < chunk.length ∧ chunk.length ≤ 4096) (hend : seq.toNat + chunk.length < 2 ^ 64)
    (hpos : cl.liveSeq = seq) (h : serverSendStdout true seq chunk cl fd = (r, cl', fd')) :
    Sends .eintr fd (frameBytes (Msg.stdout seq chunk).frame) r fd' ∧
      (r = .ok () → cl'.liveSeq.toNat = seq.toNat + chunk.length) := by
  have hE := toNat_add_length hend
  have hlt : cl.liveSeq < seq + UInt64.ofNat chunk.length := by
    rw [UInt64.lt_iff_toNat_lt, hE, hpos]
    omega
  have hno : ¬seq < cl.liveSeq := by rw [hpos]; exact UInt64.lt_irrefl _
  have hs := optySendStdout_sends seq (.mem chunk) rfl (show chunk.length ≤ optyMaxFrame - 9 by
    simp only [optyMaxFrame]; omega)
  simp only [serverSendStdout, if_pos hlt, if_neg hno, UInt64.toNat_zero, List.drop_zero] at h
  split at h
  · rename_i fd1 hsend
    cases h
    exact ⟨hs.of_eq hsend, fun _ => hE⟩
  · rename_i e fd1 hsend
    cases h
    exact ⟨hs.of_eq hsend, (by rintro ⟨⟩)⟩

/-- Wherever the stream of a client has got to, it is sent nothing, or one frame. -/
theorem serverSendStdout_cases {seq : UInt64} {chunk : List UInt8} {cl cl' : Client} {fd fd' : Sink Errno}
    {r : Except Errno Unit} (hlen : chunk.length ≤ 4096) (h : serverSendStdout true seq chunk cl fd = (r, cl', fd')) :
    fd' = fd ∨ ∃ f, Sends .eintr fd (frameBytes f) r fd' := by
  simp only [serverSendStdout] at h
  split at h
  · have hs : ∀ (sq : UInt64) (off : Nat),
        SendsMsg (optySendStdout true · sq (.mem (chunk.drop off))) (.stdout sq (chunk.drop off)) := by
      intro sq off
      refine optySendStdout_sends sq (.mem (chunk.drop off)) rfl ?_
      simp only [Buf.len, List.length_drop, optyMaxFrame]
      omega
    split at h
    · rename_i fd1 hsend
      cases h
      exact Or.inr ⟨_, (hs _ _).of_eq hsend⟩
    · rename_i e fd1 hsend
      cases h
      exact Or.inr ⟨_, (hs _ _).of_eq hsend⟩
  · cases h
    exact Or.inl rfl

/-- Without memory for a frame nothing is sent, and the stream of the client stays where it is. -/
theorem serverSendStdout_no_memory {seq : UInt64} {chunk : List UInt8} {cl cl' : Client} {fd fd' : Sink Errno}
    {r : Except Errno Unit} (h : serverSendStdout false seq chunk cl fd = (r, cl', fd')) :
    fd' = fd ∧ cl' = cl ∧ (r = .ok () → ¬cl.liveSeq < seq + .ofNat chunk.length) := by
  simp only [serverSendStdout] at h
  split at h
  · have hno : ∀ sq data, ∃ e, optySendStdout false fd sq data = (.error e, fd) := fun sq data =>
      optySendStreamFrame_no_memory sq data msgStdout fd
    obtain ⟨e, he⟩ := hno (if seq < cl.liveSeq then cl.liveSeq else seq)
      (.mem (chunk.drop (if seq < cl.liveSeq then cl.liveSeq - seq else 0).toNat))
    rw [he] at h
    cases h
    exact ⟨rfl, rfl, (by rintro ⟨⟩)⟩
  · rename_i hlt
    cases h
    exact ⟨rfl, rfl, fun _ => hlt⟩

/-! ## One connection -/

section Connection

variable {cfg : Config} {cap : Nat} {log : List UInt8} {clients : List Nat} {p : PtyPc} {i : Nat} {c : Conn}

theorem Delivered.shaken {c' : Conn} {snap : Snapshot} {parts : List (List UInt8)} (h : Delivered log c snap parts)
    (hs : Shaken c c') : Delivered log c' snap parts where
  part := h.part
  bytes := h.bytes
  sending := by rw [hs.pc]; exact h.sending
  sent := by
    rw [Sink.Carries, hs.pc, hs.written]
    exact ⟨h.sent.1, fun hb => h.sent.2 (hs.unbroken hb)⟩
  live := by
    intro hb cl' hcl'
    obtain ⟨cl, hcl, -, hseq, -⟩ := hs.cell cl' hcl'
    rw [hseq]
    exact h.live (hs.unbroken hb) cl hcl

/-- The log grows; what was delivered is still of it. -/
theorem Delivered.append {snap : Snapshot} {parts : List (List UInt8)} (h : Delivered log c snap parts) (more : List UInt8) :
    Delivered (log ++ more) c snap parts :=
  ⟨h.part, h.bytes.trans (by rw [List.drop_append]; exact List.prefix_append _ _), h.sending, h.sent, h.live⟩

/-- A change of the references of a connection, of the list and of the place of the PTY thread. -/
theorem ConnDelivery.shaken (h : ConnDelivery cfg cap log clients p i c) {c' : Conn} {l : List Nat} {q : PtyPc}
    (hs : Shaken c c') (hin : ∀ cl, c.cell = .live cl → c'.sock.broken = false → i ∈ clients → i ∈ l)
    (howes : c.isAttached = true → i ∈ clients → ∀ pos, p.Owes log.length i pos → q.Owes log.length i pos) :
    ConnDelivery cfg cap log l q i c' where
  good := by
    intro e final he
    rw [hs.sched] at he
    exact h.good e final he
  early := by rw [hs.pc, hs.attached, hs.written]; exact h.early
  asked := by rw [hs.pc, hs.wire]; exact h.asked
  sending := by rw [hs.pc, hs.attached]; exact h.sending
  failed := by
    intro text hpc ha
    rw [hs.pc] at hpc
    rw [hs.attached] at ha
    exact hs.broken (h.failed text hpc ha)
  snapshot := by rw [hs.attached, hs.wire]; exact h.snapshot
  delivered := by
    intro snap ha
    rw [hs.attached] at ha
    obtain ⟨parts, hd⟩ := h.delivered snap ha
    exact ⟨parts, hd.shaken hs⟩
  linked := by
    intro hb cl' hcl'
    obtain ⟨cl, hcl, -, -, -, -, hd⟩ := hs.cell cl' hcl'
    obtain ⟨hdead, hmem⟩ := h.linked (hs.unbroken hb) cl hcl
    refine ⟨?_, hin cl hcl hb hmem⟩
    by_contra hd'
    rcases hd (by simpa using hd') with hd | hd
    · rw [hdead] at hd; cases hd
    · rw [hb] at hd; cases hd
  alive := by
    intro ha hb
    rw [hs.attached] at ha
    obtain ⟨cl, hcl, hauth, ho⟩ := h.alive ha (hs.unbroken hb)
    obtain ⟨hdead, hmem⟩ := h.linked (hs.unbroken hb) cl hcl
    have hatt : c.isAttached = true := by simp [Conn.isAttached, hcl, hauth, hdead]
    cases hcell : c'.cell with
    | live cl' =>
      obtain ⟨cl₀, hcl₀, ha', hseq, -⟩ := hs.cell cl' hcell
      rw [hcl] at hcl₀
      cases hcl₀
      exact ⟨cl', rfl, ha'.trans hauth, by rw [hseq]; exact howes hatt hmem _ ho⟩
    | fresh | freed =>
      have := hs.freed cl hcl (by rw [hcell]; nofun)
      rw [hb] at this
      cases this

/-- The log grows. -/
theorem ConnDelivery.append (h : ConnDelivery cfg cap log clients p i c) (more : List UInt8) {p' : PtyPc}
    (howes : ∀ pos, p.Owes log.length i pos → p'.Owes (log ++ more).length i pos) :
    ConnDelivery cfg cap (log ++ more) clients p' i c where
  good := h.good
  early := h.early
  asked := h.asked
  sending := h.sending
  failed := h.failed
  snapshot := by
    intro snap ha
    obtain ⟨req, hask, hat⟩ := h.snapshot snap ha
    exact ⟨req, hask, hat.append more⟩
  delivered := by
    intro snap ha
    obtain ⟨parts, hd⟩ := h.delivered snap ha
    exact ⟨parts, hd.append more⟩
  linked := h.linked
  alive := by
    intro ha hb
    obtain ⟨cl, hcl, hauth, ho⟩ := h.alive ha hb
    exact ⟨cl, hcl, hauth, howes _ ho⟩

/-- The client was marked dead and its references were released. -/
theorem ConnDelivery.released (h : ConnDelivery cfg cap log clients p i c) {c' : Conn} {clients' : List Nat} {p' : PtyPc}
    (hs : Shaken c c') (hbroken : ∀ cl, c.cell = .live cl → cl.dead = false → c'.sock.broken = true) :
    ConnDelivery cfg cap log clients' p' i c' := by
  have hno : ∀ cl, c.cell = .live cl → c'.sock.broken ≠ false := by
    intro cl hcl hb
    rw [hbroken cl hcl (h.linked (hs.unbroken hb) cl hcl).1] at hb
    cases hb
  have h' := h.shaken (l := clients) (q := p) hs (fun _ _ _ => id) (fun _ _ _ => id)
  refine ⟨h'.good, h'.early, h'.asked, h'.sending, h'.failed, h'.snapshot, h'.delivered, ?_, ?_⟩
  · intro hb cl' hcl'
    obtain ⟨cl, hcl, -⟩ := hs.cell cl' hcl'
    exact absurd hb (hno cl hcl)
  · intro ha hb
    rw [hs.attached] at ha
    obtain ⟨cl, hcl, -⟩ := h.alive ha (hs.unbroken hb)
    exact absurd hb (hno cl hcl)

/-- The thread goes on; it was not sending and is not, and it leaves the client and the socket alone. -/
theorem ConnDelivery.setPc (h : ConnDelivery cfg cap log clients p i c) {pc' : ThreadPc} {input' : Source Errno}
    (hsend : c.pc.isSending = false) (hsend' : pc'.isSending = false)
    (hearly : pc'.isEarly = true → c.attached = none ∧ c.sock.written = [])
    (hask : ∀ req, pc'.requested = some req → Asked cfg c.wire req)
    (hfail : ∀ text, pc' = .sendError text → c.attached = none) :
    ConnDelivery cfg cap log clients p i { c with pc := pc', input := input' } where
  good := h.good
  early := hearly
  asked := hask
  sending := by
    rintro snap (rfl | rfl)
    · cases hsend'
    · cases hsend'
  failed := fun text hpc ha => absurd (hfail text hpc) ha
  snapshot := h.snapshot
  delivered := by
    intro snap ha
    obtain ⟨parts, hd⟩ := h.delivered snap ha
    refine ⟨parts, hd.part, hd.bytes, fun hs => ?_, ?_, hd.live⟩
    · rw [hsend'] at hs
      cases hs
    · rw [ThreadPc.sentFrames_of_not_sending hsend', ← ThreadPc.sentFrames_of_not_sending hsend]
      exact hd.sent
  linked := h.linked
  alive := h.alive

/-- The thread is past everything it asks for or sends. -/
def ThreadPc.isPlain : ThreadPc → Bool
  | .recvLoop | .writePty _ | .resizeLoop _ _ | .shutdownInput _ | .shutdown _ | .finish | .done => true
  | _ => false

theorem ThreadPc.plain_of_isPlain {pc : ThreadPc} (h : pc.isPlain = true) :
    pc.isSending = false ∧ pc.isEarly = false ∧ pc.requested = none ∧ ∀ text, pc ≠ .sendError text := by
  cases pc with
  | starting | recvFirst | sendError text | resizeIntro intro | attach req | sendWelcome snap | sendReplay snap => cases h
  | recvLoop | writePty payload | resizeLoop cols rows | shutdownInput input | shutdown stage | finish | done =>
    exact ⟨rfl, rfl, rfl, nofun⟩

/-- Such a step to where the thread sends and asks for nothing any more. -/
theorem ConnDelivery.goOn (h : ConnDelivery cfg cap log clients p i c) {pc' : ThreadPc} {input' : Source Errno}
    (hsend : c.pc.isSending = false) (hplain : pc'.isPlain = true) :
    ConnDelivery cfg cap log clients p i { c with pc := pc', input := input' } := by
  obtain ⟨h1, h2, h3, h4⟩ := ThreadPc.plain_of_isPlain hplain
  exact h.setPc hsend h1 (fun he => by rw [h2] at he; cases he) (fun req hr => by rw [h3] at hr; cases hr)
    (fun text he => absurd he (h4 text))

/-- The attach section. -/
theorem ConnDelivery.attach (h : ConnDelivery cfg cap log clients p i c) {req : UInt64} {cl : Client} {snap : Snapshot}
    (hpc : c.pc = .attach req) (hcl : c.cell = .live cl) (hsnap : snap.At cap log req) (hnext : snap.nextSeq.toNat = log.length)
    (howes : p.Owes log.length i log.length) :
    ConnDelivery cfg cap log clients p i { c with
      cell := .live { cl with authenticated := true, liveSeq := snap.nextSeq, writeLocked := true }
      pc := .sendWelcome snap, attached := some snap } where
  good := h.good
  early := nofun
  asked := nofun
  sending := by
    rintro snap' (⟨⟨⟩⟩ | ⟨⟨⟩⟩)
    rfl
  failed := nofun
  snapshot := by
    rintro snap' ⟨⟩
    exact ⟨req, h.asked req (by rw [hpc]; rfl), hsnap⟩
  delivered := by
    rintro snap' ⟨⟩
    have hw := (h.early (by rw [hpc]; rfl)).2
    refine ⟨[], nofun, List.nil_prefix, fun _ => rfl, ⟨?_, fun _ => hw⟩, ?_⟩
    · rw [hw]
      exact List.nil_prefix
    · rintro - cl' ⟨⟩
      rfl
  linked := by
    rintro hb cl' ⟨⟩
    exact h.linked hb cl hcl
  alive := fun _ _ => ⟨_, rfl, rfl, by rw [hnext]; exact howes⟩

/-- The thread of an attached client sends the WELCOME or the REPLAY; `rest` is what is missing when it fails. -/
theorem ConnDelivery.send (h : ConnDelivery cfg cap log clients p i c) {snap : Snapshot} {cl k : Client} {f : Frame}
    {r : Except Errno Unit} {sock' : Sink Errno} {q : ThreadPc} {z : List UInt8}
    (hpc : c.pc = .sendWelcome snap ∨ c.pc = .sendReplay snap) (hcl : c.cell = .live cl)
    (hcl' : k.authenticated = cl.authenticated ∧ k.liveSeq = cl.liveSeq ∧ k.dead = cl.dead)
    (hs : Sends .eintr c.sock (frameBytes f) r sock')
    (hframes : wireBytes (q.sentFrames snap []) = wireBytes (c.pc.sentFrames snap []) ++ frameBytes f ++ z)
    (hrest : r = .ok () → z = [])
    (hpc' : q = .sendReplay snap ∨ (q = .recvLoop ∨ (∃ text, q = .sendError text) ∧ r ≠ .ok ())) :
    ConnDelivery cfg cap log clients p i { c with cell := .live k, pc := q, sock := sock' } := by
  have hatt : c.attached = some snap := h.sending snap hpc
  have hsending : c.pc.isSending = true := by rcases hpc with hpc | hpc <;> rw [hpc] <;> rfl
  have hbroken : r ≠ .ok () → sock'.broken = true := by
    intro hr
    match r, hr with
    | .error e, _ => exact hs.broken_of_error h.good
    | .ok (), hr => exact absurd rfl hr
  have hunbroken : sock'.broken = false → c.sock.broken = false := by
    intro hb
    cases hc : c.sock.broken with
    | false => rfl
    | true =>
      rw [(hs.of_broken hc).1] at hb
      cases hb
  refine ⟨hs.failsForGood h.good, ?_, ?_, ?_, ?_, h.snapshot, ?_, ?_, ?_⟩
  · rcases hpc' with rfl | rfl | ⟨⟨text, rfl⟩, -⟩ <;> nofun
  · rcases hpc' with rfl | rfl | ⟨⟨text, rfl⟩, -⟩ <;> nofun
  · rcases hpc' with rfl | rfl | ⟨⟨text, rfl⟩, -⟩
    · rintro snap' (⟨⟨⟩⟩ | ⟨⟨⟩⟩)
      exact hatt
    · nofun
    · nofun
  · rcases hpc' with rfl | rfl | ⟨⟨text, rfl⟩, hr⟩
    · nofun
    · nofun
    · exact fun _ _ _ => hbroken hr
  · intro snap' ha
    have heq : snap' = snap := Option.some.inj (ha.symm.trans hatt)
    subst heq
    obtain ⟨parts, hd⟩ := h.delivered snap' ha
    have hparts := hd.sending hsending
    subst hparts
    refine ⟨[], hd.part, hd.bytes, fun _ => rfl, ?_, fun hb cl'' hcl'' => ?_⟩
    · have hsent := hd.sent.sends h.good hs
      show sock'.Carries (wireBytes (q.sentFrames snap' []))
      rw [hframes]
      match r, hs, hrest, hbroken with
      | .ok (), _, hrest, _ => rw [hrest rfl, List.append_nil]; exact hsent
      | .error e, _, _, hbroken => exact hsent.of_broken (hbroken nofun) z
    · cases hcl''
      rw [hcl'.2.1]
      exact hd.live (hunbroken hb) cl hcl
  · rintro hb cl'' ⟨⟩
    rw [hcl'.2.2]
    exact h.linked (hunbroken hb) cl hcl
  · intro ha hb
    obtain ⟨cl₀, hcl₀, hauth, ho⟩ := h.alive ha (hunbroken hb)
    rw [hcl] at hcl₀
    cases hcl₀
    exact ⟨k, rfl, hcl'.1.trans hauth, by rw [hcl'.2.1]; exact ho⟩

/-- The thread sends an ERROR: to a client that never attached, or over a socket that failed. -/
theorem ConnDelivery.sendError (h : ConnDelivery cfg cap log clients p i c) {text : ErrorText} {f : Frame}
    {r : Except Errno Unit} {sock' : Sink Errno} (hpc : c.pc = .sendError text)
    (hs : Sends .eintr c.sock (frameBytes f) r sock') :
    ConnDelivery cfg cap log clients p i { c with pc := .finish, sock := sock' } := by
  have hbroken : c.attached ≠ none → sock'.broken = true ∧ sock'.written = c.sock.written := fun ha =>
    hs.of_broken (h.failed text hpc ha)
  refine ⟨hs.failsForGood h.good, nofun, nofun, nofun, nofun, h.snapshot, ?_, ?_, ?_⟩
  · intro snap ha
    have hne : c.attached ≠ none := by
      intro hn
      cases ha.symm.trans hn
    obtain ⟨hb, hw⟩ := hbroken hne
    obtain ⟨parts, hd⟩ := h.delivered snap ha
    refine ⟨parts, hd.part, hd.bytes, nofun, ⟨?_, fun hb' => ?_⟩, fun hb' => ?_⟩
    · have hsent := hd.sent.1
      rw [hpc] at hsent
      rw [hw]
      exact hsent
    · rw [hb] at hb'
      cases hb'
    · rw [hb] at hb'
      cases hb'
  · intro hb
    refine h.linked ?_
    cases hc : c.sock.broken with
    | false => rfl
    | true =>
      rw [(hs.of_broken hc).1] at hb
      cases hb
  · intro ha hb
    rw [(hbroken ha).1] at hb
    cases hb

/-- The log from the snapshot on, cut where the stream of the client has got to. -/
theorem Delivered.flatten_append {snap : Snapshot} {parts : List (List UInt8)} {pos : Nat} (h : Delivered log c snap parts)
    (hpos : pos = snap.nextSeq.toNat + parts.flatten.length) :
    parts.flatten ++ log.drop pos = log.drop snap.nextSeq.toNat := by
  obtain ⟨rest, hrest⟩ := h.bytes
  rw [hpos, ← List.drop_drop, ← hrest, List.drop_left]

/-- One part more: the rest of the log, sent from where the stream of the client has got to. -/
theorem Delivered.sendChunk {snap : Snapshot} {parts : List (List UInt8)} {seq : UInt64} {chunk : List UInt8} {cl cl' : Client}
    {r : Except Errno Unit} {sock' : Sink Errno} (h : Delivered log c snap parts) (hgood : c.sock.FailsForGood .eintr)
    (hsending : c.pc.isSending = false) (hb : c.sock.broken = false) (hcl : c.cell = .live cl) (hpos : cl.liveSeq = seq)
    (hchunk : 0 < chunk.length ∧ chunk.length ≤ 4096 ∧ seq.toNat + chunk.length = log.length ∧ chunk = log.drop seq.toNat)
    (hlen : log.length < 2 ^ 64) (hs : serverSendStdout true seq chunk cl c.sock = (r, cl', sock')) :
    Delivered log { c with cell := .live cl', sock := sock' } snap (parts ++ [chunk]) := by
  obtain ⟨h0, h4096, hend, hbytes⟩ := hchunk
  obtain ⟨hsends, hok⟩ := serverSendStdout_sends ⟨h0, h4096⟩ (by omega) hpos hs
  have hlive : seq.toNat = snap.nextSeq.toNat + parts.flatten.length := by
    rw [← hpos]
    exact h.live hb cl hcl
  have hall : (parts ++ [chunk]).flatten = log.drop snap.nextSeq.toNat := by
    rw [List.flatten_append, List.flatten_singleton, hbytes]
    exact h.flatten_append hlive
  have hseq : snap.nextSeq + UInt64.ofNat parts.flatten.length = seq := by
    rw [← UInt64.toNat_inj, toNat_add_length (by omega), hlive]
  refine ⟨fun d hd => ?_, hall ▸ List.prefix_refl _, fun hse => ?_, ?_, fun hb' cl'' hcl'' => ?_⟩
  · rcases List.mem_append.1 hd with hd | hd
    · exact h.part d hd
    · rw [List.mem_singleton.1 hd]
      exact ⟨h0, h4096⟩
  · rw [hsending] at hse
    cases hse
  · have hsent := h.sent.sends hgood hsends
    rw [ThreadPc.sentFrames_of_not_sending hsending] at hsent ⊢
    rw [wireBytes_deliveryFrames_concat, hseq]
    exact hsent
  · cases hcl''
    match r, hsends, hok with
    | .ok (), _, hok => rw [hok rfl, List.flatten_append, List.flatten_singleton, List.length_append, hlive, Nat.add_assoc]
    | .error e, hsends, _ =>
      have := hsends.broken_of_error hgood
      rw [hb'] at this
      cases this

/-- The PTY thread sends its chunk to a client of its snapshot: the stream gets to the end of the log, or the socket failed. -/
theorem ConnDelivery.broadcast {seq : UInt64} {chunk : List UInt8} {snaps todo : List Nat} {cl cl' : Client}
    {r : Except Errno Unit} {sock' : Sink Errno} {p' : PtyPc}
    (h : ConnDelivery cfg cap log clients (.send seq chunk snaps (i :: todo)) i c) (hatt : c.attached ≠ none)
    (hsending : c.pc.isSending = false) (hchunk : PtyPc.Chunk log (.send seq chunk snaps (i :: todo)))
    (hlen : log.length < 2 ^ 64) (hcl : c.cell = .live cl)
    (hs : serverSendStdout true seq chunk cl c.sock = (r, cl', sock')) (howes : p'.Owes log.length i log.length) :
    ConnDelivery cfg cap log clients p' i { c with cell := .live cl', sock := sock' } := by
  obtain ⟨h0, h4096, hend, hbytes⟩ := hchunk
  obtain ⟨-, -, hdead, hauth, -⟩ := serverSendStdout_refs hs
  -- what the send leaves of the socket, wherever the stream has got to
  have hgood : sock'.FailsForGood .eintr ∧
      (c.sock.broken = true → sock'.broken = true ∧ sock'.written = c.sock.written) := by
    rcases serverSendStdout_cases h4096 hs with rfl | ⟨f, hf⟩
    · exact ⟨h.good, fun hb => ⟨hb, rfl⟩⟩
    · exact ⟨hf.failsForGood h.good, hf.of_broken⟩
  have hunbroken : sock'.broken = false → c.sock.broken = false := by
    intro hb
    cases hc : c.sock.broken with
    | false => rfl
    | true =>
      rw [(hgood.2 hc).1] at hb
      cases hb
  -- the client's stream is at the end of the log, or at the chunk
  have hkey : ∀ snap, c.attached = some snap → ∃ parts, Delivered log { c with cell := .live cl', sock := sock' } snap parts ∧
      (sock'.broken = false → cl'.liveSeq.toNat = log.length) := by
    intro snap ha
    obtain ⟨parts, hd⟩ := h.delivered snap ha
    cases hb : c.sock.broken with
    | true =>
      obtain ⟨hb', hw'⟩ := hgood.2 hb
      have hno : sock'.broken ≠ false := by rw [hb']; nofun
      exact ⟨parts, ⟨hd.part, hd.bytes, hd.sending, ⟨hw' ▸ hd.sent.1, fun hb'' => absurd hb'' hno⟩,
        fun hb'' => absurd hb'' hno⟩, fun hb'' => absurd hb'' hno⟩
    | false =>
      obtain ⟨cl₀, hcl₀, -, ho⟩ := h.alive hatt hb
      rw [hcl] at hcl₀
      cases hcl₀
      rcases ho with ho | ⟨ho, -⟩
      · rw [serverSendStdout_skip (by omega) (by omega)] at hs
        cases hs
        exact ⟨parts, ⟨hd.part, hd.bytes, hd.sending, hd.sent, fun hb' cl'' hcl'' => hd.live hb' cl'' (hcl.trans hcl'')⟩,
          fun _ => ho⟩
      · have hpos : cl.liveSeq = seq := UInt64.toNat_inj.1 ho
        have hd' := hd.sendChunk h.good hsending hb hcl hpos ⟨h0, h4096, hend, hbytes⟩ hlen hs
        obtain ⟨hsends, hok⟩ := serverSendStdout_sends ⟨h0, h4096⟩ (by omega) hpos hs
        refine ⟨_, hd', fun hb' => ?_⟩
        match r, hsends, hok with
        | .ok (), _, hok => rw [hok rfl, hend]
        | .error e, hsends, _ =>
          have := hsends.broken_of_error h.good
          rw [hb'] at this
          cases this
  refine ⟨hgood.1, ?_, h.asked, h.sending, ?_, h.snapshot, fun snap ha => ?_, ?_, ?_⟩
  · intro he
    exact absurd (h.early he).1 hatt
  · exact fun text hpc ha => (hgood.2 (h.failed text hpc ha)).1
  · obtain ⟨parts, hd, -⟩ := hkey snap ha
    exact ⟨parts, hd⟩
  · rintro hb cl'' ⟨⟩
    rw [hdead]
    exact h.linked (hunbroken hb) cl hcl
  · intro _ hb
    obtain ⟨cl₀, hcl₀, ha₀, -⟩ := h.alive hatt (hunbroken hb)
    rw [hcl] at hcl₀
    cases hcl₀
    obtain ⟨snap, hsnap⟩ := Option.ne_none_iff_exists'.1 hatt
    obtain ⟨-, -, hl⟩ := hkey snap hsnap
    exact ⟨cl', rfl, hauth.trans ha₀, by rw [hl hb]; exact howes⟩

/-- There is no memory for the frame: the client is where it was, and is owed nothing or marked dead next. -/
theorem ConnDelivery.starved {seq : UInt64} {chunk : List UInt8} {snaps todo : List Nat} {cl cl' : Client}
    {r : Except Errno Unit} {sock' : Sink Errno} {p' : PtyPc}
    (h : ConnDelivery cfg cap log clients (.send seq chunk snaps (i :: todo)) i c)
    (hchunk : PtyPc.Chunk log (.send seq chunk snaps (i :: todo))) (hlen : log.length < 2 ^ 64) (hcl : c.cell = .live cl)
    (hs : serverSendStdout false seq chunk cl c.sock = (r, cl', sock'))
    (hp' : (p' = .send seq chunk snaps todo ∧ r = .ok ()) ∨ p' = .markDead seq chunk snaps i todo) :
    ConnDelivery cfg cap log clients p' i { c with cell := .live cl', sock := sock' } := by
  obtain ⟨h0, -, hend, -⟩ := hchunk
  obtain ⟨rfl, rfl, hskip⟩ := serverSendStdout_no_memory hs
  have hc : { c with cell := .live cl', sock := c.sock } = c := by rw [← hcl]
  rw [hc]
  refine ⟨h.good, h.early, h.asked, h.sending, h.failed, h.snapshot, h.delivered, h.linked, fun ha hb => ?_⟩
  obtain ⟨cl₀, hcl₀, hauth, ho⟩ := h.alive ha hb
  refine ⟨cl₀, hcl₀, hauth, ?_⟩
  rw [hcl] at hcl₀
  cases hcl₀
  rcases hp' with ⟨rfl, hr⟩ | rfl
  · have hno := hskip hr
    rw [UInt64.lt_iff_toNat_lt, toNat_add_length (by omega)] at hno
    rcases ho with ho | ⟨ho, -⟩
    · exact Or.inl ho
    · omega
  · exact Or.inl rfl

end Connection

/-! ## The server -/

/-- Whoever has got to the end of the log is owed nothing. -/
theorem PtyPc.owes_end (p : PtyPc) (len i : Nat) : p.Owes len i len := by
  cases p with
  | snapshot seq chunk => exact Or.inl rfl
  | send seq chunk snap todo => exact Or.inl rfl
  | markDead seq chunk snap j todo => exact Or.inr (Or.inl rfl)
  | read | append chunk | closeListener | shutdownClients | awaitChild | done => rfl

section Server

variable {cfg : Config} {cap : Nat} {s t : Sys}

/-- An action that is about connection `i` and appends nothing. -/
theorem Delivery.update (h : Delivery cfg cap s) {i : Nat} (hring : t.ring = s.ring) (hlog : t.log = s.log)
    (hchunk : t.pty.Chunk s.log)
    (hother : ∀ j, j ≠ i → Shaken (s.conn j) (t.conn j) ∧ (j ∈ s.clients → j ∈ t.clients) ∧
      ((s.conn j).isAttached = true → j ∈ s.clients → ∀ pos, s.pty.Owes s.log.length j pos → t.pty.Owes s.log.length j pos))
    (hi : ConnDelivery cfg cap s.log t.clients t.pty i (t.conn i)) : Delivery cfg cap t := by
  refine ⟨hring ▸ hlog ▸ h.ring, hring ▸ h.cap_eq, hlog ▸ hchunk, fun j => ?_⟩
  rw [hlog]
  by_cases hj : j = i
  · exact hj ▸ hi
  · obtain ⟨hsh, hmem, howes⟩ := hother j hj
    exact (h.conns j).shaken hsh (fun _ _ _ => hmem) howes

/-- An action that shakes the connections, at most. -/
theorem Delivery.shaken (h : Delivery cfg cap s) (hring : t.ring = s.ring) (hlog : t.log = s.log) (hchunk : t.pty.Chunk s.log)
    (hall : ∀ j, Shaken (s.conn j) (t.conn j)) (hmem : ∀ j, j ∈ s.clients → j ∈ t.clients)
    (howes : ∀ j, (s.conn j).isAttached = true → j ∈ s.clients →
      ∀ pos, s.pty.Owes s.log.length j pos → t.pty.Owes s.log.length j pos) : Delivery cfg cap t :=
  h.update (i := 0) hring hlog hchunk (fun j _ => ⟨hall j, hmem j, howes j⟩)
    ((h.conns 0).shaken (hall 0) (fun _ _ _ => hmem 0) (howes 0))

/-- A step of the thread of connection `i` that changes nothing but its connection. -/
theorem Delivery.setConn (h : Delivery cfg cap s) {i : Nat} {d : Conn} (hring : t.ring = s.ring) (hlog : t.log = s.log)
    (hpty : t.pty = s.pty) (hclients : t.clients = s.clients) (hconn : t.conn = Function.update s.conn i d)
    (hi : ConnDelivery cfg cap s.log s.clients s.pty i d) : Delivery cfg cap t := by
  refine h.update (i := i) hring hlog (hpty ▸ h.chunk) (fun j hj => ⟨?_, fun hm => hclients ▸ hm, fun _ _ _ ho => hpty ▸ ho⟩) ?_
  · rw [hconn]
    exact shaken_update d hj
  · rw [hconn, Function.update_self, hpty, hclients]
    exact hi

/-- Client `i` was marked dead and its references were released; the PTY thread owes the others what it did. -/
theorem Delivery.release (h : Delivery cfg cap s) {i : Nat} {c' : Conn} {p' : PtyPc} (hsh : Shaken (s.conn i) c')
    (hbroken : ∀ cl, (s.conn i).cell = .live cl → cl.dead = false → c'.sock.broken = true) (hchunk : p'.Chunk s.log)
    (howes : ∀ j pos, j ≠ i → s.pty.Owes s.log.length j pos → p'.Owes s.log.length j pos) :
    Delivery cfg cap { s with conn := Function.update s.conn i c', clients := s.clients.erase i, pty := p' } := by
  refine h.update (i := i) rfl rfl hchunk (fun j hj => ?_) ?_
  · exact ⟨shaken_update c' hj, (List.mem_erase_of_ne hj).2, fun _ _ pos => howes j pos hj⟩
  · simp only [Function.update_self]
    exact (h.conns i).released hsh hbroken

/-- The thread of client `i` has finished. -/
theorem Delivery.finish (h : Delivery cfg cap s) {i : Nat} {c' : Conn} {m : MainPc} (hsh : Shaken (s.conn i) c')
    (hbroken : ∀ cl, (s.conn i).cell = .live cl → cl.dead = false → c'.sock.broken = true)
    (hsend : (s.conn i).pc.isSending = false) :
    Delivery cfg cap { s with
      conn := Function.update s.conn i { c' with pc := .done }, clients := s.clients.erase i, main := m } := by
  have h' := h.release hsh hbroken h.chunk fun _ _ _ => id
  have hc := h'.conns i
  simp only [Function.update_self] at hc
  refine h'.setConn (i := i) (d := { c' with pc := .done }) rfl rfl rfl rfl ?_ (hc.goOn (by rw [hsh.pc, hsend]) rfl)
  rw [Function.update_idem]

/-- The PTY thread sent its chunk to the next client of its snapshot, or failed to. -/
theorem Delivery.sent (h : Delivery cfg cap s) (href : RefInv s) (hauth : AuthSys cfg s) {i : Nat} {alloc : Bool} {seq : UInt64}
    {chunk : List UInt8} {snap todo : List Nat} {cl cl' : Client} {r : Except Errno Unit} {sock : Sink Errno} {p' : PtyPc}
    (hp : s.pty = .send seq chunk snap (i :: todo)) (hcl : (s.conn i).cell = .live cl) (hlock : cl.writeLocked = false)
    (hlen : s.log.length < 2 ^ 64) (hs : serverSendStdout alloc seq chunk cl (s.conn i).sock = (r, cl', sock))
    (hp' : (p' = .send seq chunk snap todo ∧ r = .ok ()) ∨ p' = .markDead seq chunk snap i todo) :
    Delivery cfg cap { s.setConn i { s.conn i with cell := .live cl', sock := sock } with pty := p' } := by
  have hchunk := h.chunk
  have hc := h.conns i
  have hsending : (s.conn i).pc.isSending = false := by
    rw [← Bool.not_eq_true, ← (href.conns i).locks cl hcl, hlock]
    nofun
  have hatt : (s.conn i).attached ≠ none := hauth.held i (href.pty.todo i (by rw [hp]; exact List.mem_cons_self))
  rw [hp] at hchunk hc
  refine h.update (i := i) rfl rfl (by rcases hp' with ⟨rfl, -⟩ | rfl <;> exact hchunk) (fun j hj => ?_) ?_
  · refine ⟨shaken_setConn _ hj, id, fun _ _ pos ho => ?_⟩
    rw [hp] at ho
    have hnext : pos = s.log.length ∨ (pos = seq.toNat ∧ j ∈ todo) :=
      ho.imp_right fun ⟨hpos, hmem⟩ => ⟨hpos, (List.mem_cons.1 hmem).resolve_left hj⟩
    rcases hp' with ⟨rfl, -⟩ | rfl
    · exact hnext
    · exact Or.inr hnext
  · simp only [Sys.setConn, Function.update_self]
    cases alloc with
    | true => exact hc.broadcast hatt hsending hchunk hlen hcl hs (PtyPc.owes_end _ _ _)
    | false => exact hc.starved hchunk hlen hcl hs hp'

end Server

/-- What an action must not run into: a write to a socket that fails, other than by an interruption, is the last; the payload of a
REPLAY can be allocated; and so can the snapshot of a broadcast. -/
def Allows (s : Sys) : Act → Prop
  | .accept _ sched _ => Sink.FailsForGood Errno.eintr { sched := sched }
  | .client i env => ∀ snap, (s.conn i).pc = .sendReplay snap → env.alloc = true
  | .pty alloc => ∀ seq chunk, s.pty = .snapshot seq chunk → alloc = true
  | _ => True

/-- An idle PTY thread owes nothing, and has no chunk. -/
theorem PtyPc.owes_of_isIdle {p : PtyPc} (h : p.isIdle = true) (len i pos : Nat) : p.Owes len i pos ↔ pos = len := by
  cases p with
  | append chunk => cases h
  | snapshot seq chunk => cases h
  | send seq chunk snap todo => cases h
  | markDead seq chunk snap j todo => cases h
  | read | closeListener | shutdownClients | awaitChild | done => exact Iff.rfl

theorem PtyPc.chunk_of_isIdle {p : PtyPc} (h : p.isIdle = true) (log : List UInt8) : p.Chunk log := by
  cases p with
  | append chunk => cases h
  | snapshot seq chunk => cases h
  | send seq chunk snap todo => cases h
  | markDead seq chunk snap j todo => cases h
  | read | closeListener | shutdownClients | awaitChild | done => trivial

/-- Every action keeps what holds of the server. -/
theorem delivery_moves {cfg : Config} {cap : Nat} {s t : Sys} {a : Act} (href : RefInv s) (hauth : AuthSys cfg s)
    (h : Delivery cfg cap s) (hcap : cap ≤ optyMaxFrame - 9) (hlen : t.log.length < 2 ^ 64) (hallows : Allows s a)
    (hm : Moves s a t) : Delivery cfg cap t := by
  cases hm with
  | acceptFailed => exact h
  | accept hmain =>
    rename_i input sched
    refine h.update (i := s.count) rfl rfl h.chunk (fun j hj => ?_) ?_
    · exact ⟨shaken_setConn _ hj, List.mem_cons_of_mem _, fun _ _ _ => id⟩
    · simp only [Sys.setConn, Function.update_self]
      refine ⟨hallows, fun _ => ⟨rfl, rfl⟩, by rintro _ ⟨⟩, (fun _ hp => by rcases hp with hp | hp <;> cases hp), by rintro _ ⟨⟩,
        by rintro _ ⟨⟩, by rintro _ ⟨⟩, ?_, fun ha => absurd rfl ha⟩
      rintro - cl ⟨⟩
      exact ⟨rfl, List.mem_cons_self⟩
  | created hmain =>
    rename_i i
    have hpc := (href.conns i).starting (by rw [hmain]; rfl)
    have hc := h.conns i
    refine h.setConn (i := i) (d := { s.conn i with pc := .recvFirst }) rfl rfl rfl rfl rfl ?_
    exact hc.setPc (by rw [hpc]; rfl) rfl (fun _ => hc.early (by rw [hpc]; rfl)) (by rintro _ ⟨⟩) (by rintro _ ⟨⟩)
  | createFailed hmain => exact h.shaken rfl rfl h.chunk (fun j => Shaken.refl _) (fun _ => id) (fun _ _ _ _ => id)
  | dropped hmain hrel =>
    have hpc := href.starting_of_drop hmain
    obtain ⟨c', rfl, hsh', -, hbroken, -⟩ := exists_of_eq_some (href.finish (Or.inl hpc)) hrel
    simp only [Sys.setConn, Function.update_self, Function.update_idem]
    exact h.finish hsh' hbroken (by rw [hpc]; rfl)
  | mainQuiet hm hm' => exact h.shaken rfl rfl h.chunk (fun j => Shaken.refl _) (fun _ => id) (fun _ _ _ _ => id)
  | mainShut hm hm' hshut =>
    obtain ⟨conn', rfl, hsh', -⟩ := exists_of_eq_some href.shut hshut
    exact h.shaken rfl rfl h.chunk (fun j => (hsh' j).1) (fun _ => id) (fun _ _ _ _ => id)
  | recvFirst hpc hcl hmove =>
    rename_i i env cl move
    have hc := h.conns i
    have hearly := hc.early (by rw [hpc]; rfl)
    obtain ⟨hintro, -⟩ := hauth.first hpc hmove
    refine h.setConn (i := i) (d := { s.conn i with
      pc := move.pc, input := (optyRecvFrameLimited env.alloc (s.conn i).input optyMaxUnauthPayload).2 }) rfl rfl rfl rfl rfl ?_
    refine hc.setPc (by rw [hpc]; rfl) move.pc_running.2 (fun _ => hearly) ?_ (fun _ _ => hearly.1)
    intro req hreq
    cases move with
    | intro intro =>
      cases hreq
      obtain ⟨f, rest, hwire, ha⟩ := hintro intro rfl
      exact ⟨f, rest, intro, hwire, ha, rfl⟩
    | finish | sendError text | shutdown input => cases hreq
  | sendError hpc hcl hlock =>
    rename_i i env cl text
    exact h.setConn (i := i) rfl rfl rfl rfl rfl ((h.conns i).sendError hpc (optySendError_sends _ text))
  | resizeIntro hpc =>
    rename_i i env intro
    have hc := h.conns i
    refine h.setConn (i := i) (d := { s.conn i with pc := .attach intro.requestedSeq }) rfl rfl rfl rfl rfl ?_
    refine hc.setPc (by rw [hpc]; rfl) rfl (fun _ => hc.early (by rw [hpc]; rfl)) ?_ (by rintro _ ⟨⟩)
    rintro req ⟨⟩
    exact hc.asked _ (by rw [hpc]; rfl)
  | resizeIntroFailed hpc =>
    rename_i i env intro
    have hc := h.conns i
    refine h.setConn (i := i) (d := { s.conn i with pc := .sendError .badIntro }) rfl rfl rfl rfl rfl ?_
    exact hc.setPc (by rw [hpc]; rfl) rfl (by rintro ⟨⟩) (by rintro _ ⟨⟩) (fun _ _ => (hc.early (by rw [hpc]; rfl)).1)
  | attach hpc hcl hlock hattach =>
    rename_i i env req cl cl' snap
    obtain ⟨rfl, -⟩ := serverAttach_refs hattach
    obtain ⟨hat, hnext⟩ := Snapshot.At.of_attach h.ring hattach
    rw [h.cap_eq] at hat
    exact h.setConn (i := i) rfl rfl rfl rfl rfl ((h.conns i).attach hpc hcl hat hnext (PtyPc.owes_end _ _ _))
  | attachFailed hpc hcl hattach =>
    rename_i i env req cl
    have hc := h.conns i
    refine h.setConn (i := i) (d := { s.conn i with pc := .sendError .badIntro }) rfl rfl rfl rfl rfl ?_
    exact hc.setPc (by rw [hpc]; rfl) rfl (by rintro ⟨⟩) (by rintro _ ⟨⟩) (fun _ _ => (hc.early (by rw [hpc]; rfl)).1)
  | welcome hpc hcl hs =>
    rename_i i env snap cl sock
    have hsent := (h.conns i).send (q := .sendReplay snap) (k := cl) (z := []) (Or.inl hpc) hcl ⟨rfl, rfl, rfl⟩
      ((optySendWelcome_sends _ _).of_eq hs) (by simp [hpc, ThreadPc.sentFrames, Snapshot.welcome]) (fun _ => rfl) (Or.inl rfl)
    rw [← hcl] at hsent
    exact h.setConn (i := i) rfl rfl rfl rfl rfl hsent
  | welcomeFailed hpc hcl hs =>
    rename_i i env snap cl e sock
    refine h.setConn (i := i) rfl rfl rfl rfl rfl ?_
    refine (h.conns i).send (z := frameBytes snap.replay) (Or.inl hpc) hcl ⟨rfl, rfl, rfl⟩
      ((optySendWelcome_sends _ _).of_eq hs) ?_ (by rintro ⟨⟩) (Or.inr (Or.inr ⟨⟨_, rfl⟩, (by rintro ⟨⟩)⟩))
    simp [hpc, ThreadPc.sentFrames, deliveryFrames, stdoutFrames, Snapshot.welcome]
  | replay hpc hcl hs =>
    rename_i i env snap cl sock
    obtain ⟨req, -, hat⟩ := (h.conns i).snapshot snap ((h.conns i).sending snap (Or.inr hpc))
    rw [hallows snap hpc] at hs
    refine h.setConn (i := i) rfl rfl rfl rfl rfl ?_
    refine (h.conns i).send (z := []) (Or.inr hpc) hcl ⟨rfl, rfl, rfl⟩
      ((optySendReplay_sends _ _ hat.readable (Nat.le_trans hat.data_le hcap)).of_eq hs) ?_ (fun _ => rfl) (Or.inr (Or.inl rfl))
    simp [hpc, ThreadPc.sentFrames, deliveryFrames, stdoutFrames, Snapshot.replay]
  | replayFailed hpc hcl hs =>
    rename_i i env snap cl e sock
    obtain ⟨req, -, hat⟩ := (h.conns i).snapshot snap ((h.conns i).sending snap (Or.inr hpc))
    rw [hallows snap hpc] at hs
    refine h.setConn (i := i) rfl rfl rfl rfl rfl ?_
    refine (h.conns i).send (z := []) (Or.inr hpc) hcl ⟨rfl, rfl, rfl⟩
      ((optySendReplay_sends _ _ hat.readable (Nat.le_trans hat.data_le hcap)).of_eq hs) ?_ (by rintro ⟨⟩)
      (Or.inr (Or.inr ⟨⟨_, rfl⟩, (by rintro ⟨⟩)⟩))
    simp [hpc, ThreadPc.sentFrames, deliveryFrames, stdoutFrames, Snapshot.replay]
  | recvLoop hpc hcl hmove =>
    rename_i i env cl move
    refine h.setConn (i := i) (d := { s.conn i with
      pc := move.pc, input := (optyRecvFrame env.alloc (s.conn i).input).2 }) rfl rfl rfl rfl rfl ?_
    exact (h.conns i).goOn (by rw [hpc]; rfl) (by cases move <;> rfl)
  | writePty hpc hpc' =>
    rename_i i env payload pc'
    refine h.setConn (i := i) (d := { s.conn i with pc := pc' }) rfl rfl rfl rfl rfl ?_
    exact (h.conns i).goOn (by rw [hpc]; rfl) (by rcases hpc' with rfl | rfl <;> rfl)
  | resizeLoop hpc =>
    rename_i i env cols rows
    refine h.setConn (i := i) (d := { s.conn i with pc := .recvLoop }) rfl rfl rfl rfl rfl ?_
    exact (h.conns i).goOn (by rw [hpc]; rfl) rfl
  | resizeLoopFailed hpc =>
    rename_i i env cols rows
    refine h.setConn (i := i) (d := { s.conn i with pc := .finish }) rfl rfl rfl rfl rfl ?_
    exact (h.conns i).goOn (by rw [hpc]; rfl) rfl
  | shutdownInput hpc =>
    rename_i i env input
    refine h.setConn (i := i) (d := { s.conn i with pc := .shutdown .awaitChild }) rfl rfl rfl rfl rfl ?_
    exact (h.conns i).goOn (by rw [hpc]; rfl) rfl
  | shutdownStage hpc =>
    rename_i i env stage stage' l
    refine h.setConn (i := i) (d := { s.conn i with pc := .shutdown stage' }) rfl rfl rfl rfl rfl ?_
    exact (h.conns i).goOn (by rw [hpc]; rfl) rfl
  | shutdownShut hpc hshut =>
    rename_i i env stage s₁
    obtain ⟨conn', rfl, hsh', -⟩ := exists_of_eq_some href.shut hshut
    have hall := h.shaken (t := { s with conn := conn' }) rfl rfl h.chunk (fun j => (hsh' j).1) (fun _ => id)
      (fun _ _ _ _ => id)
    refine hall.setConn (i := i) (d := { conn' i with pc := .finish }) rfl rfl rfl rfl rfl ?_
    exact (hall.conns i).goOn (by rw [(hsh' i).1.pc, hpc]; rfl) rfl
  | finished hpc hrel =>
    obtain ⟨c', rfl, hsh', -, hbroken, -⟩ := exists_of_eq_some (href.finish (Or.inr hpc)) hrel
    simp only [Sys.setConn, Function.update_self, Function.update_idem]
    exact h.finish hsh' hbroken (by rw [hpc]; rfl)
  | ptyQuiet hp hp' =>
    refine h.shaken rfl rfl (PtyPc.chunk_of_isIdle hp' _) (fun j => Shaken.refl _) (fun _ => id) (fun j _ _ pos ho => ?_)
    rw [PtyPc.owes_of_isIdle hp] at ho
    exact (PtyPc.owes_of_isIdle hp' _ _ _).2 ho
  | ptyGot hp h0 h4096 =>
    refine h.shaken rfl rfl ⟨h0, h4096⟩ (fun j => Shaken.refl _) (fun _ => id) (fun j _ _ pos ho => ?_)
    rw [hp] at ho
    exact ho
  | ptyAppend hp hr =>
    rename_i alloc chunk r
    have hchunk := h.chunk
    rw [hp] at hchunk
    obtain ⟨ring', happ, hcap', hrep⟩ := append_represents h.ring chunk (by rw [List.length_append] at hlen; exact hlen)
    rw [hr] at happ
    cases happ
    refine ⟨hrep, by rw [hcap']; exact h.cap_eq, ⟨hchunk.1, hchunk.2, ?_, ?_⟩, fun j => ?_⟩
    · rw [h.ring.next, List.length_append]
    · rw [h.ring.next, List.drop_left]
    · refine (h.conns j).append chunk fun pos ho => Or.inr ?_
      rw [hp] at ho
      rw [h.ring.next]
      exact ho
  | ptyNoSnapshot hp hr =>
    rename_i alloc seq chunk s₁
    have halloc : alloc = true := hallows seq chunk hp
    obtain ⟨rfl, hnil⟩ := serverSnapshotClients_nil href.ledger hr
    refine h.shaken rfl rfl trivial (fun j => Shaken.refl _) (fun _ => id) (fun j hatt hmem => ?_)
    have hj : j ∈ s₁.clients.filter fun j => (s₁.conn j).isAttached := List.mem_filter.2 ⟨hmem, hatt⟩
    rw [hnil halloc] at hj
    cases hj
  | ptySnapshot hp hne hr =>
    rename_i alloc seq chunk s₁ snap
    have hchunk := h.chunk
    rw [hp] at hchunk
    obtain ⟨rfl, rfl, -⟩ := serverSnapshotClients_cons href.ledger hne hr
    refine h.shaken rfl rfl hchunk (fun j => Shaken.retain _ _) (fun _ => id) (fun j hatt hmem pos ho => ?_)
    rw [hp] at ho
    exact ho.imp_right fun ho => ⟨ho, List.mem_filter.2 ⟨hmem, hatt⟩⟩
  | ptyReleased hp hrel =>
    obtain ⟨conn', rfl, hsh', -⟩ := exists_of_eq_some (href.releaseSnapshot hp) hrel
    refine h.shaken rfl rfl trivial hsh' (fun _ => id) (fun j _ _ pos ho => ?_)
    rw [hp] at ho
    rcases ho with ho | ⟨-, hj⟩
    · exact ho
    · cases hj
  | ptySent hp hcl hlock hs => exact h.sent href hauth hp hcl hlock hlen hs (Or.inl ⟨rfl, rfl⟩)
  | ptySendFailed hp hcl hlock hs => exact h.sent href hauth hp hcl hlock hlen hs (Or.inr rfl)
  | ptyMarkedDead hp hrel =>
    rename_i alloc seq chunk snap i todo s₁
    obtain ⟨c', rfl, hsh', -, hbroken, -⟩ := exists_of_eq_some (href.markDead hp) hrel
    have hchunk := h.chunk
    rw [hp] at hchunk
    refine h.release hsh' hbroken hchunk fun j pos hj ho => ?_
    rw [hp] at ho
    exact ho.resolve_left hj
  | ptyShut hp hshut =>
    obtain ⟨conn', rfl, hsh', -⟩ := exists_of_eq_some href.shut hshut
    refine h.shaken rfl rfl trivial (fun j => (hsh' j).1) (fun _ => id) (fun j _ _ pos ho => ?_)
    rw [hp] at ho
    exact ho

/-- A server that was just started has delivered nothing. -/
theorem delivery_init {cfg : Config} {ring : Ring} {master : Sink Errno} (hring : ring.Represents []) :
    Delivery cfg ring.cap.toNat (Sys.init cfg ring master) :=
  ⟨hring, rfl, trivial, fun _ => ⟨nofun, nofun, nofun, nofun, nofun, nofun, nofun, nofun, nofun⟩⟩

/-- What holds of the references, of authentication and, as long as the log is shorter than `2 ^ 64`, of delivery. -/
def ServerInv (cfg : Config) (cap : Nat) (s : Sys) : Prop :=
  RefInv s ∧ AuthSys cfg s ∧ (s.log.length < 2 ^ 64 → Delivery cfg cap s)

theorem serverInv_step {cfg : Config} {cap : Nat} {s t : Sys} {a : Act} (h : ServerInv cfg cap s) (hcap : cap ≤ optyMaxFrame - 9)
    (hallows : Allows s a) (hstep : step s a = .next t) : ServerInv cfg cap t := by
  obtain ⟨href, hauth, hdel⟩ := h
  have hm := step_moves hstep
  refine ⟨refInv_moves href hm, authSys_moves href hauth hm, fun hlen => ?_⟩
  have hle := (log_prefix_of_moves href hm).length_le
  exact delivery_moves href hauth (hdel (by omega)) hcap hlen hallows hm

theorem serverInv_init (cfg : Config) {ring : Ring} (master : Sink Errno) (hring : ring.Represents []) :
    ServerInv cfg ring.cap.toNat (Sys.init cfg ring master) :=
  ⟨refInv_init hring.bounded, authSys_init cfg ring master, fun _ => delivery_init hring⟩

end ZeroPty
