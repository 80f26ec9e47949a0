import ZeroPty.Lemmas.Resume
import ZeroPty.Theorems.Delivery

/-!
# Reconnecting resumes where the client stopped
-/

namespace ZeroPty

open Stream Memory Transition

/-- The positions of the log that a slice prints. -/
def Slice.positions (g : Slice) : List Nat := List.range' g.start (g.stop - g.start)

/-- The client has printed these slices of the log, one for each connection that delivered a REPLAY, chained as `Chained` says, up
to its `last_seq`. So it printed nothing twice or out of order, and skipped a byte only if it was evicted when the client attached
the next time; and it acknowledged what it had printed. -/
structure Resumes (w : World) (slices : List Slice) : Prop where
  printed : w.client.out.written = printed w.server.log slices
  chained : Chained w.server 0 slices w.client.lastSeq.toNat
  replays : slices.map Slice.conn = w.replays
  once : (slices.flatMap Slice.positions).Pairwise (· < ·)
  skipped : ∀ p, p < w.client.lastSeq.toNat → p ∉ slices.flatMap Slice.positions →
    ∃ g ∈ slices, ∃ snap, (w.server.conn g.conn).attached = some snap ∧ p < snap.baseSeq.toNat ∧
      ∀ g' ∈ slices, g'.conn < g.conn → g'.stop ≤ p
  acks : w.client.acks.Pairwise (· ≤ ·)
  lastAck : ∀ a, w.client.acks.getLast? = some a → a = w.client.lastSeq

theorem Slice.mem_positions {g : Slice} {p : Nat} : p ∈ g.positions ↔ g.start ≤ p ∧ p < g.stop := by
  rw [Slice.positions, List.mem_range'_1]
  omega

/-- Chained slices do not overlap. -/
theorem Chained.pairwise {s : Sys} : ∀ {gs : List Slice} {e e' : Nat}, Chained s e gs e' →
    (gs.flatMap Slice.positions).Pairwise (· < ·) ∧ ∀ p ∈ gs.flatMap Slice.positions, e ≤ p
  | [], _, _, _ => ⟨List.Pairwise.nil, nofun⟩
  | g :: gs, e, e', h => by
    obtain ⟨⟨snap, -, hstart⟩, hle, -, -, hrest⟩ := h
    obtain ⟨hp, hge⟩ := hrest.pairwise
    rw [List.flatMap_cons]
    refine ⟨List.pairwise_append.2 ⟨List.pairwise_lt_range', hp, fun p hp q hq => ?_⟩, fun p hp => ?_⟩
    · exact Nat.lt_of_lt_of_le (Slice.mem_positions.1 hp).2 (hge q hq)
    · rcases List.mem_append.1 hp with hp | hp
      · have := (Slice.mem_positions.1 hp).1
        omega
      · have := hge p hp
        omega

/-- A position that chained slices leave out lies before the base that one of them starts at. -/
theorem Chained.evicted {s : Sys} : ∀ {gs : List Slice} {e e' p : Nat}, Chained s e gs e' → e ≤ p → p < e' →
    p ∉ gs.flatMap Slice.positions →
    ∃ g ∈ gs, ∃ snap, (s.conn g.conn).attached = some snap ∧ p < snap.baseSeq.toNat ∧
      ∀ g' ∈ gs, g'.conn < g.conn → g'.stop ≤ p
  | [], _, _, _, h, he, hp, _ => by
    cases h
    omega
  | g :: gs, e, e', p, h, he, hp, hno => by
    obtain ⟨⟨snap, ha, hstart⟩, hle, -, ⟨-, hbefore⟩, hrest⟩ := h
    rw [List.flatMap_cons, List.mem_append, not_or, Slice.mem_positions] at hno
    by_cases hps : p < g.start
    · refine ⟨g, List.mem_cons_self, snap, ha, by omega, fun g' hg' hlt => ?_⟩
      rcases List.mem_cons.1 hg' with rfl | hg'
      · exact absurd hlt (Nat.lt_irrefl _)
      · exact absurd hlt (Nat.lt_asymm (hbefore g' hg'))
    · obtain ⟨g₁, hg₁, snap₁, ha₁, hb₁, hall⟩ := hrest.evicted (p := p) (by omega) hp hno.2
      refine ⟨g₁, List.mem_cons_of_mem _ hg₁, snap₁, ha₁, hb₁, fun g' hg' hlt => ?_⟩
      rcases List.mem_cons.1 hg' with rfl | hg'
      · omega
      · exact hall g' hg' hlt

/-- Reconnecting resumes exactly where the client stopped: in every state of every interleaving of the server, its peers and one
client that connects again and again, over connections that are cut at any byte, what the client has printed are slices of the log
as `Resumes` says. It is so in the runs in which the allocations of the snapshots of broadcasts and of the payloads of replays
succeed, a failed write is the last on its socket, and the log stays shorter than `2 ^ 64`. -/
theorem reconnect_resumes (cfg : Config) (malloc : Alloc UInt8) (capacity : UInt64)
    (hcap : capacity.toNat + 8 ≤ optyMaxFrame - 1) (ring : Ring) (hinit : optyRingInit malloc (.ok ()) capacity = .ok ring)
    (master : Sink Errno) (args : ClientArgs) (out err : Sink Errno) (scrollback : Option (Sink Errno))
    (hout : out.Benign .eintr) (hempty : out.written = []) (hscrollback : ∀ fd, scrollback = some fd → fd.Benign .eintr)
    (acts : List WorldAct)
    (hacts : Meets worldStep WorldAllows (World.init (Sys.init cfg ring master) args out err scrollback) acts) (w : World)
    (hw : exec worldStep (World.init (Sys.init cfg ring master) args out err scrollback) acts = .next w)
    (hlen : w.server.log.length < 2 ^ 64) : ∃ slices, Resumes w slices := by
  obtain ⟨hcap₀, hrep₀⟩ := represents_init hinit
  have hstart : WorldInv cfg ring.cap.toNat (World.init (Sys.init cfg ring master) args out err scrollback) :=
    ⟨serverInv_init cfg master hrep₀, fun _ => ⟨⟨hout, hscrollback⟩, 0, [], [],
      ⟨rfl, ⟨rfl, rfl⟩, hempty, rfl, fun _ _ => rfl, List.Pairwise.nil, nofun, nofun⟩⟩⟩
  have h := invariant_of_meets (P := WorldInv cfg ring.cap.toNat)
    (fun _ _ _ h hallows hstep => worldInv_step h (by rw [hcap₀]; omega) hallows hstep) hstart hacts hw
  obtain ⟨-, e, closed, slices, hres⟩ := h.2 hlen
  have hall := hres.all (h.1.2.2 hlen)
  exact ⟨slices, hres.printed, hall, hres.replays, hall.pairwise.1,
    fun p hp hno => hall.evicted (Nat.zero_le p) hp hno, hres.acks, hres.lastAck⟩

/-- A client without a token that connects again. -/
def ClientArgs.retrying : ClientArgs := ⟨none, by decide, true⟩

/-- The client connects, and the server attaches it. -/
def attachRun (i : Nat) (intro : Frame) : List WorldAct :=
  [.connect 80 24 ⟨frameBytes intro, []⟩ [] [] false, .server (.create true), .server (.client i .ok), .server (.client i .ok),
    .server (.client i .ok), .server (.client i .ok), .server (.client i .ok)]

/-- The terminal says something, and it is broadcast to the one client there is. -/
def outputRun (data : List UInt8) : List WorldAct :=
  [.server (.ptyRead (.got data)), .server (.pty true), .server (.pty true), .server (.pty true), .server (.pty true)]

/-- The client receives a frame. -/
def recvRun (frame : Frame) : List WorldAct := [.recv ⟨frameBytes frame, []⟩ true false]

/-- The client attaches and the terminal says `h`; its connection is cut inside the STDOUT frame; it attaches again, and the
terminal says `i`. -/
def cutRun : List WorldAct :=
  attachRun 0 (Msg.hello 80 24 []).frame ++ recvRun (Msg.welcome 0 0).frame ++ recvRun (Msg.replay 0 []).frame ++
    outputRun [104] ++ [.recv ⟨(frameBytes (Msg.stdout 0 [104]).frame).take 9, [.fail .econnreset]⟩ true false, .server (.client 0 .ok)] ++
    attachRun 1 (Msg.reconnect 0 80 24 []).frame ++ recvRun (Msg.welcome 0 1).frame ++ recvRun (Msg.replay 0 [104]).frame ++
    outputRun [105] ++ recvRun (Msg.stdout 1 [105]).frame

/-- The client prints `hi`. -/
theorem reconnect_resumes_after_cut :
    ∃ ring w, optyRingInit zeroAlloc (.ok ()) 5 = .ok ring ∧
      exec worldStep (World.init (Sys.init ⟨none, none⟩ ring {}) .retrying {} {} none) cutRun = .next w ∧
      w.client.out.written = [104, 105] ∧ w.client.acks = [0, 1, 2] ∧ w.replays = [0, 1] ∧ ∃ slices, Resumes w slices := by
  obtain ⟨ring, hinit⟩ := optyRingInit_ok zeroAlloc 5 (by decide) rfl
  have hrun : (exec worldStep (World.init (Sys.init ⟨none, none⟩ ring {}) .retrying {} {} none) cutRun).passes (fun w =>
      w.client.out.written == [104, 105] && w.client.acks == [0, 1, 2] && w.replays == [0, 1] &&
        decide (w.server.log.length < 2 ^ 64)) = true := by
    cases hinit
    decide +kernel
  obtain ⟨w, hw, htest⟩ := Outcome.passes_iff.1 hrun
  simp only [Bool.and_eq_true, beq_iff_eq, decide_eq_true_eq] at htest
  obtain ⟨⟨⟨hout, hacks⟩, hreplays⟩, hlen⟩ := htest
  have hmeets : Meets worldStep WorldAllows (World.init (Sys.init ⟨none, none⟩ ring {}) .retrying {} {} none) cutRun := by
    refine .of_forall ?_
    simp [cutRun, attachRun, outputRun, recvRun, WorldAllows, Allows, Env.ok, Sink.FailsForGood]
  exact ⟨ring, w, hinit, hw, hout, hacks, hreplays,
    reconnect_resumes ⟨none, none⟩ zeroAlloc 5 (by decide) ring hinit {} .retrying {} {} none ⟨rfl, (by rintro _ _ ⟨⟩)⟩ rfl
      (by rintro _ ⟨⟩) cutRun hmeets w hw hlen⟩

/-- The client attaches; the terminal says `a`, but there is no memory for the snapshot of that broadcast; then it says `b`. -/
def noMemoryRun : List WorldAct :=
  attachRun 0 (Msg.hello 80 24 []).frame ++ recvRun (Msg.welcome 0 0).frame ++ recvRun (Msg.replay 0 []).frame ++
    [.server (.ptyRead (.got [97])), .server (.pty true), .server (.pty false)] ++ outputRun [98] ++
    recvRun (Msg.stdout 1 [98]).frame

/-- The client prints `b` alone, although the ring had `a` all the time. -/
theorem reconnect_skips_without_memory :
    ∃ ring w, optyRingInit zeroAlloc (.ok ()) 5 = .ok ring ∧
      exec worldStep (World.init (Sys.init ⟨none, none⟩ ring {}) .retrying {} {} none) noMemoryRun = .next w ∧
      ¬∃ slices, Resumes w slices := by
  obtain ⟨ring, hinit⟩ := optyRingInit_ok zeroAlloc 5 (by decide) rfl
  have hrun : (exec worldStep (World.init (Sys.init ⟨none, none⟩ ring {}) .retrying {} {} none) noMemoryRun).passes (fun w =>
      w.client.out.written == [98] && w.server.log == [97, 98] && w.replays == [0] &&
        decide (∀ snap, (w.server.conn 0).attached = some snap → snap.baseSeq = 0)) = true := by
    cases hinit
    decide +kernel
  obtain ⟨w, hw, htest⟩ := Outcome.passes_iff.1 hrun
  simp only [Bool.and_eq_true, beq_iff_eq, decide_eq_true_eq] at htest
  obtain ⟨⟨⟨hout, hlog⟩, hreplays⟩, hbase⟩ := htest
  refine ⟨ring, w, hinit, hw, fun ⟨slices, h⟩ => ?_⟩
  have hprinted := h.printed
  have hchained := h.chained
  have hconn := h.replays
  rw [hreplays] at hconn
  obtain ⟨g, rfl, hg⟩ := List.map_eq_singleton_iff.1 hconn
  -- the only slice starts at 0, so `b` cannot come without `a`
  obtain ⟨⟨snap, ha, hstart⟩, -⟩ := hchained
  rw [hg] at ha
  rw [hbase snap ha] at hstart
  rw [printed_cons, printed_nil, List.append_nil, hout, hlog, hstart, window] at hprinted
  generalize g.stop = stop at hprinted
  obtain _ | _ | stop := stop <;> cases hprinted

end ZeroPty
