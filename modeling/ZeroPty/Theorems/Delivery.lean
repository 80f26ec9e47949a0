import ZeroPty.Lemmas.Delivery
import ZeroPty.Theorems.Ring

/-!
# Gap-free, duplicate-free delivery
-/

namespace ZeroPty

open Stream Memory Transition

/-- The PTY thread has appended a chunk and is not done with broadcasting it. -/
def PtyPc.isBroadcasting : PtyPc → Bool
  | .snapshot _ _ | .send _ _ _ _ | .markDead _ _ _ _ _ => true
  | _ => false

theorem PtyPc.owes_of_not_broadcasting {p : PtyPc} (h : p.isBroadcasting = false) (len i pos : Nat) :
    p.Owes len i pos ↔ pos = len := by
  cases p with
  | snapshot seq chunk => cases h
  | send seq chunk snap todo => cases h
  | markDead seq chunk snap j todo => cases h
  | read | append chunk | closeListener | shutdownClients | awaitChild | done => exact Iff.rfl

/-- The allocations of the frames and of the snapshots of broadcasts succeed, and a write to a socket that fails, other than by an
interruption, is the last. -/
def Act.Sound : Act → Prop
  | .accept _ sched _ => Sink.FailsForGood Errno.eintr { sched := sched }
  | .client _ env => env.alloc = true
  | .pty alloc => alloc = true
  | _ => True

theorem Act.Sound.allows {a : Act} (h : a.Sound) (s : Sys) : Allows s a := by
  cases a with
  | accept input sched calloc => exact h
  | client i env => exact fun _ _ => h
  | pty alloc => exact fun _ _ _ => h
  | create ok | drop | signal fatal | main | leave | ptyRead r => trivial

/-- Gap-free, duplicate-free delivery, in every state of every interleaving, whatever connections fail at whatever time, as long as
allocations succeed and a failed write is final: what was put on the socket of an attached connection is
`WELCOME(base, next), REPLAY(from, d₀), STDOUT(next, d₁), STDOUT(next + |d₁|, d₂), ...` where `d₀` is the log from `from` to
`next` and `d₁, d₂, ...` are not empty and are, one after the other, the log from `next` on. The bounds are those of the ring
when the log was `next` long, and `from` is what the peer's first frame asked for, moved into them. If the socket has failed the
frames stand there up to some byte; if it has not, and the REPLAY was sent, they all do; and then nothing of the log is missing
unless the PTY thread is still broadcasting its last chunk. -/
theorem delivery_gap_free (cfg : Config) (malloc : Alloc UInt8) (capacity : UInt64)
    (hcap : capacity.toNat + 8 ≤ optyMaxFrame - 1) (ring : Ring) (hinit : optyRingInit malloc (.ok ()) capacity = .ok ring)
    (master : Sink Errno) (acts : List Act) (hacts : ∀ a ∈ acts, a.Sound) (s : Sys)
    (hs : exec step (Sys.init cfg ring master) acts = .next s) (hlen : s.log.length < 2 ^ 64) (i : Nat) (snap : Snapshot)
    (hi : (s.conn i).attached = some snap) :
    (∃ f rest intro, (s.conn i).wire = frameBytes f ++ rest ∧ Authorised cfg f intro ∧
      snap.fromSeq.toNat = max snap.baseSeq.toNat (min intro.requestedSeq.toNat snap.nextSeq.toNat)) ∧
    snap.nextSeq.toNat ≤ s.log.length ∧ snap.baseSeq.toNat = snap.nextSeq.toNat - capacity.toNat ∧
    snap.data.bytes = window s.log snap.fromSeq.toNat snap.nextSeq.toNat ∧
    ∃ parts : List (List UInt8), (∀ d ∈ parts, d ≠ []) ∧ parts.flatten <+: s.log.drop snap.nextSeq.toNat ∧
      (s.conn i).sock.written <+: wireBytes
        ((Msg.welcome snap.baseSeq snap.nextSeq).frame :: (Msg.replay snap.fromSeq snap.data.bytes).frame ::
          stdoutFrames snap.nextSeq parts) ∧
      ((s.conn i).sock.broken = false → (s.conn i).pc.isSending = false →
        (s.conn i).sock.written = wireBytes
          ((Msg.welcome snap.baseSeq snap.nextSeq).frame :: (Msg.replay snap.fromSeq snap.data.bytes).frame ::
            stdoutFrames snap.nextSeq parts) ∧
        (s.pty.isBroadcasting = false → parts.flatten = s.log.drop snap.nextSeq.toNat)) := by
  obtain ⟨hcap₀, hrep₀⟩ := represents_init hinit
  have h := (invariant (fun _ _ _ h (hsound : Act.Sound _) hstep => serverInv_step h (by rw [hcap₀]; omega) (hsound.allows _) hstep)
    (serverInv_init cfg master hrep₀) hacts hs).2.2 hlen
  rw [hcap₀] at h
  have hc := h.conns i
  obtain ⟨req, ⟨f, rest, intro, hwire, hauth, hreq⟩, hat⟩ := hc.snapshot snap hi
  obtain ⟨parts, hd⟩ := hc.delivered snap hi
  refine ⟨⟨f, rest, intro, hwire, hauth, by rw [hreq]; exact hat.start⟩, hat.next_le, hat.base, hat.bytes, parts,
    fun d hmem hnil => ?_, hd.bytes, ?_, fun hb hsend => ⟨?_, fun hidle => ?_⟩⟩
  · have := (hd.part d hmem).1
    rw [hnil] at this
    exact absurd this (Nat.lt_irrefl 0)
  · exact hd.sent.1.trans ((s.conn i).pc.sentFrames_prefix snap parts)
  · rw [hd.sent.2 hb, ThreadPc.sentFrames_of_not_sending hsend]
    rfl
  · obtain ⟨cl, hcl, -, ho⟩ := hc.alive (by rw [hi]; nofun) hb
    rw [PtyPc.owes_of_not_broadcasting hidle] at ho
    have hfull := hd.flatten_append (hd.live hb cl hcl)
    rwa [ho, List.drop_length, List.append_nil] at hfull

/-- System calls that succeed. -/
def Env.ok : Env := ⟨zeroAlloc, true, true⟩

/-- A client attaches with a HELLO, and then the terminal says `hi`. -/
def helloRun : List Act :=
  [.accept ⟨frameBytes (Msg.hello 80 24 []).frame, []⟩ [] true, .create true, .client 0 .ok, .client 0 .ok, .client 0 .ok,
    .client 0 .ok, .client 0 .ok, .ptyRead (.got [104, 105]), .pty true, .pty true, .pty true, .pty true]

/-- What that client was sent has all that the terminal said. -/
theorem delivery_gap_free_hello :
    ∃ ring s snap, optyRingInit zeroAlloc (.ok ()) 5 = .ok ring ∧
      exec step (Sys.init ⟨none, none⟩ ring {}) helloRun = .next s ∧ (s.conn 0).attached = some snap ∧ s.log = [104, 105] ∧
      ∃ parts : List (List UInt8), parts.flatten = s.log.drop snap.nextSeq.toNat ∧
        (s.conn 0).sock.written = wireBytes ((Msg.welcome snap.baseSeq snap.nextSeq).frame ::
          (Msg.replay snap.fromSeq snap.data.bytes).frame :: stdoutFrames snap.nextSeq parts) := by
  obtain ⟨ring, hinit⟩ := optyRingInit_ok zeroAlloc 5 (by decide) rfl
  have hrun : (exec step (Sys.init ⟨none, none⟩ ring {}) helloRun).passes (fun s =>
      (s.conn 0).attached.isSome && s.log == [104, 105] && !(s.conn 0).sock.broken && !(s.conn 0).pc.isSending &&
        !s.pty.isBroadcasting) = true := by
    cases hinit
    decide +kernel
  obtain ⟨s, hs, htest⟩ := Outcome.passes_iff.1 hrun
  simp only [Bool.and_eq_true, beq_iff_eq, Bool.not_eq_true'] at htest
  obtain ⟨⟨⟨⟨hatt, hlog⟩, hbroken⟩, hsend⟩, hidle⟩ := htest
  obtain ⟨snap, hsnap⟩ := Option.isSome_iff_exists.1 hatt
  have hacts : ∀ a ∈ helloRun, a.Sound := by
    simp [helloRun, Act.Sound, Env.ok, Sink.FailsForGood]
  obtain ⟨-, -, -, -, parts, -, -, -, hall⟩ := delivery_gap_free ⟨none, none⟩ zeroAlloc 5 (by decide) ring hinit {} helloRun hacts
    s hs (by rw [hlog]; decide) 0 snap hsnap
  obtain ⟨hw, hfull⟩ := hall hbroken hsend
  exact ⟨ring, s, snap, hinit, hs, hsnap, hlog, parts, hfull hidle, hw⟩

end ZeroPty
