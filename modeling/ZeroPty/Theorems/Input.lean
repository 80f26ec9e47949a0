import ZeroPty.Input
import ZeroPty.Lemmas.Server

/-!
# Input reaches the terminal in whole blocks
-/

namespace ZeroPty

open Transition

/-- The bytes of a block. -/
def InputBlock.bytes (b : InputBlock) : List UInt8 := b.data.take b.written

/-- A block is one whole payload or graceful input, or a proper prefix of one whose write failed. -/
def InputBlock.Sound (b : InputBlock) : Prop := if b.ok then b.written = b.data.length else b.written < b.data.length

/-- The blocks of a connection, in order. -/
def blocksOf (blocks : List InputBlock) (i : Nat) : List InputBlock := blocks.filter (·.conn = i)

/-- The payloads of STDIN frames that are there to be written. -/
def stdinPayloads (frames : List Frame) : List (List UInt8) :=
  frames.filterMap fun f => if f.type = msgStdin ∧ f.payload ≠ [] then some f.payload else none

/-- The frames a connection sends. -/
def Sender.frames : Sender → List Frame
  | .client frames => frames
  | .control _ => []

/-- What a connection writes before any frame. -/
def Sender.opening : Sender → List (List UInt8)
  | .client _ => []
  | .control input => if input = [] then [] else [input]

/-- What the thread is about to write, or writing. -/
def InputPc.pending : InputPc → List (List UInt8)
  | .request input => if input = [] then [] else [input]
  | .lock data _ | .write data _ _ => [data]
  | _ => []

/-- What the thread has written of what it is writing. -/
def InputPc.written : InputPc → List UInt8
  | .write data total _ => data.take total
  | _ => []

/-- What the terminal has accepted of the write in progress: that of the holder of `pty_mu`. -/
def InputSys.inProgress (s : InputSys) : List UInt8 :=
  match s.holder with
  | some i => (s.conn i).pc.written
  | none => []

/-- The thread holds `pty_mu`. -/
def InputPc.holds : InputPc → Bool
  | .write _ _ _ | .unlock _ _ | .ioctl _ _ | .unlockResize _ => true
  | _ => false

/-- The thread writes nothing any more. -/
def InputPc.isOver : InputPc → Bool
  | .unlock false _ | .left => true
  | _ => false

/-- The data the thread writes are not empty, and not all written yet. -/
def InputPc.Open : InputPc → Prop
  | .lock data _ => data ≠ []
  | .write data total _ => total < data.length
  | _ => True

namespace InputAux

/-- What holds of a connection and its blocks. -/
structure ConnInput (sender : Sender) (mine : List InputBlock) (c : InputConn) : Prop where
  order : ∃ received, sender.frames = received ++ c.frames ∧
    sender.opening ++ stdinPayloads received = mine.map InputBlock.data ++ c.pc.pending
  last : ∀ b ∈ mine.dropLast, b.ok = true
  going : c.pc.isOver = false → ∀ b ∈ mine, b.ok = true
  opened : c.pc.Open

/-- What holds of the server. -/
structure InputInv (senders : Nat → Sender) (s : InputSys) : Prop where
  accepted : s.accepted = s.blocks.flatMap InputBlock.bytes ++ s.inProgress
  holder : ∀ i, (s.conn i).pc.holds = true ↔ s.holder = some i
  sound : ∀ b ∈ s.blocks, b.Sound
  conns : ∀ i, ConnInput (senders i) (blocksOf s.blocks i) (s.conn i)

/-! ## Moves of one thread -/

/-- The thread goes on without a new block. -/
theorem ConnInput.goOn {sender : Sender} {mine : List InputBlock} {c : InputConn} (h : ConnInput sender mine c) {pc : InputPc}
    (hpending : pc.pending = c.pc.pending) (hover : pc.isOver = false → c.pc.isOver = false)
    (hopen : pc.Open) : ConnInput sender mine { c with pc := pc } where
  order := by
    obtain ⟨received, hframes, hpay⟩ := h.order
    exact ⟨received, hframes, by rw [hpay, hpending]⟩
  last := h.last
  going := fun ho => h.going (hover ho)
  opened := hopen

/-- A frame is received. -/
theorem ConnInput.receive {sender : Sender} {mine : List InputBlock} {c : InputConn} (h : ConnInput sender mine c)
    (hpc : c.pc = .recv) {frame : Frame} {frames : List Frame} (hframes : c.frames = frame :: frames) {pc : InputPc}
    (hpending : pc.pending = stdinPayloads [frame]) (hopen : pc.Open) : ConnInput sender mine ⟨frames, pc⟩ where
  order := by
    obtain ⟨received, hsent, hpay⟩ := h.order
    refine ⟨received ++ [frame], by rw [hsent, hframes, List.append_assoc, List.singleton_append], ?_⟩
    have hnone : c.pc.pending = [] := by rw [hpc]; rfl
    rw [hnone, List.append_nil] at hpay
    rw [stdinPayloads, List.filterMap_append, ← List.append_assoc, ← stdinPayloads, hpay, hpending]
    rfl
  last := h.last
  going := fun _ => h.going (by rw [hpc]; rfl)
  opened := hopen

/-- `opty_write_full` returns: the data become a block. -/
theorem ConnInput.returns {sender : Sender} {mine : List InputBlock} {c : InputConn} (h : ConnInput sender mine c)
    {data : List UInt8} {total : Nat} {kind : InputKind} (hpc : c.pc = .write data total kind) (i n : Nat) (ok : Bool) :
    ConnInput sender (mine ++ [⟨i, data, n, ok⟩]) { c with pc := .unlock ok kind } where
  order := by
    obtain ⟨received, hsent, hpay⟩ := h.order
    refine ⟨received, hsent, ?_⟩
    rw [hpay, hpc, List.map_append]
    exact (List.append_nil _).symm
  last := by
    rw [List.dropLast_concat]
    exact h.going (by rw [hpc]; rfl)
  going := fun ho b hb => by
    rcases List.mem_append.1 hb with hb | hb
    · exact h.going (by rw [hpc]; rfl) b hb
    · rw [List.mem_singleton] at hb
      cases ok with
      | true => rw [hb]
      | false => cases ho
  opened := trivial

/-! ## Moves of the server -/

/-- A thread goes on: the lock and the other threads are as they were. -/
theorem InputInv.goOn {senders : Nat → Sender} {s : InputSys} (h : InputInv senders s) {i : Nat} {c : InputConn}
    (hc : ConnInput (senders i) (blocksOf s.blocks i) c) (hholds : c.pc.holds = (s.conn i).pc.holds)
    (hwritten : c.pc.written = (s.conn i).pc.written) : InputInv senders { s with conn := Function.update s.conn i c } := by
  have hget : ∀ j, (Function.update s.conn i c j).pc.written = (s.conn j).pc.written := fun j => by
    by_cases hj : j = i
    · subst hj
      rw [Function.update_self, hwritten]
    · rw [Function.update_of_ne hj]
  refine ⟨?_, fun j => ?_, h.sound, fun j => ?_⟩
  · rw [h.accepted]
    unfold InputSys.inProgress
    cases s.holder with
    | none => rfl
    | some j => exact congrArg (_ ++ ·) (hget j).symm
  · rw [← h.holder j]
    by_cases hj : j = i
    · subst hj
      simp only [Function.update_self, hholds]
    · simp only [Function.update_of_ne hj]
  · by_cases hj : j = i
    · subst hj
      simp only [Function.update_self]
      exact hc
    · simp only [Function.update_of_ne hj]
      exact h.conns j

/-- A thread takes `pty_mu`. -/
theorem InputInv.lock {senders : Nat → Sender} {s : InputSys} (h : InputInv senders s) (hfree : s.holder = none) {i : Nat}
    {pc : InputPc} (hc : ConnInput (senders i) (blocksOf s.blocks i) { s.conn i with pc := pc }) (hholds : pc.holds = true)
    (hwritten : pc.written = []) : InputInv senders { s.goto i pc with holder := some i } := by
  refine ⟨?_, fun j => ?_, h.sound, fun j => ?_⟩
  · have hold : s.inProgress = [] := by rw [InputSys.inProgress, hfree]
    have hacc := h.accepted
    rw [hold] at hacc
    simp only [InputSys.goto, InputSys.inProgress, Function.update_self, hwritten]
    exact hacc
  · by_cases hj : j = i
    · subst hj
      simp only [InputSys.goto, Function.update_self, hholds]
    · simp only [InputSys.goto, Function.update_of_ne hj, h.holder j, hfree, Option.some.injEq, reduceCtorEq, false_iff]
      exact Ne.symm hj
  · by_cases hj : j = i
    · subst hj
      simp only [InputSys.goto, Function.update_self]
      exact hc
    · simp only [InputSys.goto, Function.update_of_ne hj]
      exact h.conns j

/-- A thread gives `pty_mu` up. -/
theorem InputInv.unlock {senders : Nat → Sender} {s : InputSys} (h : InputInv senders s) {i : Nat} (hheld : (s.conn i).pc.holds = true)
    (hwritten : (s.conn i).pc.written = []) {pc : InputPc}
    (hc : ConnInput (senders i) (blocksOf s.blocks i) { s.conn i with pc := pc }) (hholds : pc.holds = false) :
    InputInv senders { s.goto i pc with holder := none } := by
  have hi := (h.holder i).1 hheld
  refine ⟨?_, fun j => ?_, h.sound, fun j => ?_⟩
  · have hold : s.inProgress = [] := by simp only [InputSys.inProgress, hi, hwritten]
    have hacc := h.accepted
    rw [hold] at hacc
    exact hacc
  · by_cases hj : j = i
    · subst hj
      simp only [InputSys.goto, Function.update_self, hholds, Bool.false_eq_true, reduceCtorEq]
    · simp only [InputSys.goto, Function.update_of_ne hj, h.holder j, hi, Option.some.injEq, reduceCtorEq, iff_false]
      exact Ne.symm hj
  · by_cases hj : j = i
    · subst hj
      simp only [InputSys.goto, Function.update_self]
      exact hc
    · simp only [InputSys.goto, Function.update_of_ne hj]
      exact h.conns j

/-- The terminal accepts more of the data, and the loop goes on. -/
theorem InputInv.wrote {senders : Nat → Sender} {s : InputSys} (h : InputInv senders s) {i : Nat} {data : List UInt8} {total : Nat}
    {kind : InputKind} (hpc : (s.conn i).pc = .write data total kind) {n : Nat} (hn : total + n < data.length) :
    InputInv senders (InputSys.goto { s with accepted := s.accepted ++ (data.drop total).take n } i (.write data (total + n) kind)) := by
  have hi : s.holder = some i := (h.holder i).1 (by rw [hpc]; rfl)
  refine ⟨?_, fun j => ?_, h.sound, fun j => ?_⟩
  · have hold : s.inProgress = data.take total := by simp only [InputSys.inProgress, hi, hpc, InputPc.written]
    simp only [InputSys.goto, InputSys.inProgress, hi, Function.update_self, InputPc.written]
    rw [h.accepted, hold, List.append_assoc, List.take_add]
  · rw [InputSys.goto, ← h.holder j]
    by_cases hj : j = i
    · subst hj
      simp only [Function.update_self, hpc, InputPc.holds]
    · simp only [Function.update_of_ne hj]
  · by_cases hj : j = i
    · subst hj
      simp only [InputSys.goto, Function.update_self]
      exact (h.conns j).goOn (by rw [hpc]; rfl) (fun _ => by rw [hpc]; rfl) hn
    · simp only [InputSys.goto, Function.update_of_ne hj]
      exact h.conns j

/-- `opty_write_full` returns, after the terminal accepted `n` more bytes. -/
theorem InputInv.returns {senders : Nat → Sender} {s : InputSys} (h : InputInv senders s) {i : Nat} {data : List UInt8} {total : Nat}
    {kind : InputKind} (hpc : (s.conn i).pc = .write data total kind) (n : Nat) (ok : Bool)
    (hsound : InputBlock.Sound ⟨i, data, total + n, ok⟩) :
    InputInv senders (InputSys.returns { s with accepted := s.accepted ++ (data.drop total).take n } i data (total + n) ok kind) := by
  have hi : s.holder = some i := (h.holder i).1 (by rw [hpc]; rfl)
  refine ⟨?_, fun j => ?_, fun b hb => ?_, fun j => ?_⟩
  · have hold : s.inProgress = data.take total := by simp only [InputSys.inProgress, hi, hpc, InputPc.written]
    simp only [InputSys.returns, InputSys.goto, InputSys.inProgress, hi, Function.update_self, InputPc.written, List.append_nil]
    rw [h.accepted, hold, List.flatMap_append, List.append_assoc, ← List.take_add, List.flatMap_singleton]
    rfl
  · simp only [InputSys.returns, InputSys.goto]
    rw [← h.holder j]
    by_cases hj : j = i
    · subst hj
      simp only [Function.update_self, hpc, InputPc.holds]
    · simp only [Function.update_of_ne hj]
  · rcases List.mem_append.1 hb with hb | hb
    · exact h.sound b hb
    · rw [List.mem_singleton.1 hb]
      exact hsound
  · simp only [InputSys.returns, InputSys.goto, blocksOf, List.filter_append]
    by_cases hj : j = i
    · subst hj
      simp only [Function.update_self, List.filter_singleton, decide_true, cond_true]
      exact (h.conns j).returns hpc j (total + n) ok
    · simp only [Function.update_of_ne hj, List.filter_singleton, Ne.symm hj, decide_false, cond_false, List.append_nil]
      exact h.conns j

/-! ## Steps and runs -/

theorem pending_call (data : List UInt8) (kind : InputKind) :
    (serverWritePtyCall data kind).pending = if data = [] then [] else [data] := by
  unfold serverWritePtyCall
  cases data with
  | nil => cases kind <;> rfl
  | cons b data => rfl

theorem open_call (data : List UInt8) (kind : InputKind) : (serverWritePtyCall data kind).Open := by
  unfold serverWritePtyCall
  cases data with
  | nil => cases kind <;> trivial
  | cons b data => exact List.cons_ne_nil _ _

/-- What a frame leads to: a STDIN frame to a write of its payload, any other frame to none. -/
theorem inputPc_of_frame {frame : Frame} {move : LoopMove} (h : loopMove (.ok (some frame)) = some move) :
    move.inputPc.pending = stdinPayloads [frame] ∧ move.inputPc.Open ∧ move.inputPc.holds = false ∧ move.inputPc.written = [] := by
  have hquiet : ∀ {move : LoopMove}, (∀ payload, move ≠ .write payload) → frame.type ≠ msgStdin →
      move.inputPc.pending = stdinPayloads [frame] ∧ move.inputPc.Open ∧ move.inputPc.holds = false ∧ move.inputPc.written = [] := by
    intro move hmove htype
    have hnone : stdinPayloads [frame] = [] := by
      simp only [stdinPayloads, List.filterMap_cons, htype, false_and, if_false, List.filterMap_nil]
    rw [hnone]
    cases move with
    | write payload => exact absurd rfl (hmove payload)
    | leave | again | resize cols rows => exact ⟨rfl, trivial, rfl, rfl⟩
  unfold loopMove at h
  simp only at h
  split at h
  · rename_i htype
    cases h
    have hpay : stdinPayloads [frame] = if frame.payload = [] then [] else [frame.payload] := by
      by_cases hp : frame.payload = []
      · simp [stdinPayloads, hp]
      · simp [stdinPayloads, htype, hp]
    rw [hpay]
    refine ⟨pending_call _ _, open_call _ _, ?_, ?_⟩
    · simp only [LoopMove.inputPc, serverWritePtyCall]
      split <;> rfl
    · simp only [LoopMove.inputPc, serverWritePtyCall]
      split <;> rfl
  · rename_i htype
    split at h
    · obtain ⟨parsed, -, rfl⟩ := Option.map_eq_some_iff.1 h
      refine hquiet (fun payload => ?_) htype
      cases parsed with
      | error e => rintro ⟨⟩
      | ok p =>
        simp only
        split <;> rintro ⟨⟩
    · split at h
      · obtain ⟨parsed, -, rfl⟩ := Option.map_eq_some_iff.1 h
        refine hquiet (fun payload => ?_) htype
        cases parsed with
        | error e => rintro ⟨⟩
        | ok p => rintro ⟨⟩
      · cases h
        exact hquiet (fun payload => by rintro ⟨⟩) htype

theorem inputInv_step {senders : Nat → Sender} {s t : InputSys} {a : Nat × InputEnv} (h : InputInv senders s)
    (hstep : inputStep s a = .next t) : InputInv senders t := by
  obtain ⟨i, env⟩ := a
  have hc := h.conns i
  unfold inputStep at hstep
  simp only at hstep
  split at hstep
  · rename_i hpc
    split at hstep
    · rename_i frame frames _ hframes
      obtain ⟨move, hmove, rfl⟩ := ofOption_map_eq_next hstep
      obtain ⟨hpending, hopen, hholds, hwritten⟩ := inputPc_of_frame hmove
      exact h.goOn (hc.receive hpc hframes hpending hopen) (by rw [hholds, hpc]; rfl) (by rw [hwritten, hpc]; rfl)
    · cases hstep
      exact h.goOn (hc.goOn (by rw [hpc]; rfl) (by rintro ⟨⟩) trivial) (by rw [hpc]; rfl) (by rw [hpc]; rfl)
  · rename_i input hpc
    cases hstep
    cases input with
    | nil => exact h.goOn (hc.goOn (by rw [hpc]; rfl) (by rintro ⟨⟩) trivial) (by rw [hpc]; rfl) (by rw [hpc]; rfl)
    | cons b input =>
      exact h.goOn (hc.goOn (by rw [hpc]; rfl) (fun _ => by rw [hpc]; rfl) (open_call (b :: input) .graceful)) (by rw [hpc]; rfl)
        (by rw [hpc]; rfl)
  · rename_i data kind hpc
    split at hstep
    · rename_i hfree
      cases hstep
      have hopen := hc.opened
      rw [hpc] at hopen
      exact h.lock hfree (hc.goOn (by rw [hpc]; rfl) (fun _ => by rw [hpc]; rfl) (List.length_pos_iff.2 hopen)) rfl rfl
    · cases hstep
  · rename_i data total kind hpc
    have hopen : total < data.length := by
      have := hc.opened
      rwa [hpc] at this
    have hfail : InputInv senders (s.returns i data total false kind) := by
      have := h.returns hpc 0 false hopen
      rwa [List.take_zero, List.append_nil] at this
    unfold optyWriteFullStep at hstep
    split at hstep
    · rename_i n _
      split at hstep
      · rename_i hn
        simp only at hstep
        split at hstep
        · rename_i hlt
          cases hstep
          exact h.wrote hpc hlt
        · cases hstep
          refine h.returns hpc _ _ ?_
          rw [InputBlock.Sound, if_pos rfl]
          show total + n = data.length
          omega
      · cases hstep
    · cases hstep
      exact hfail
    · cases hstep
      exact h
    · cases hstep
      exact hfail
  · rename_i ok kind hpc
    cases hstep
    refine h.unlock (by rw [hpc]; rfl) (by rw [hpc]; rfl) (hc.goOn ?_ ?_ ?_) ?_
    · rw [hpc]
      cases kind <;> cases ok <;> rfl
    · rw [hpc]
      cases kind <;> cases ok <;> rintro ⟨⟩
      rfl
    · cases kind <;> cases ok <;> trivial
    · cases kind <;> cases ok <;> rfl
  · rename_i cols rows hpc
    split at hstep
    · rename_i hfree
      cases hstep
      exact h.lock hfree (hc.goOn (by rw [hpc]; rfl) (fun _ => by rw [hpc]; rfl) trivial) rfl rfl
    · cases hstep
  · rename_i cols rows hpc
    cases hstep
    exact h.goOn (hc.goOn (by rw [hpc]; rfl) (fun _ => by rw [hpc]; rfl) trivial) (by rw [hpc]; rfl) (by rw [hpc]; rfl)
  · rename_i ok hpc
    cases hstep
    refine h.unlock (by rw [hpc]; rfl) (by rw [hpc]; rfl) (hc.goOn ?_ (fun _ => by rw [hpc]; rfl) ?_) ?_
    · rw [hpc]
      cases ok <;> rfl
    · cases ok <;> trivial
    · cases ok <;> rfl
  · cases hstep

theorem inputInv_init (senders : Nat → Sender) : InputInv senders (.init senders) := by
  refine ⟨rfl, fun i => ?_, by rintro _ ⟨⟩, fun i => ?_⟩
  · simp only [InputSys.init]
    cases senders i <;> simp [Sender.start, InputPc.holds]
  · simp only [InputSys.init]
    cases senders i with
    | client frames => exact ⟨⟨[], rfl, rfl⟩, by rintro _ ⟨⟩, by rintro _ _ ⟨⟩, trivial⟩
    | control input => exact ⟨⟨[], rfl, List.append_nil _⟩, by rintro _ ⟨⟩, by rintro _ _ ⟨⟩, trivial⟩

end InputAux

open InputAux

/-- Input is serialised by whole frames. In every state of every run the terminal has accepted the blocks one after another, and then
what it has of the write in progress. A block is one whole payload or graceful input, or a proper prefix of one whose write failed. The
blocks of a connection, and what it is about to write, are its graceful input or the payloads of the STDIN frames that were received
from it, in order, with none skipped or repeated. A failed block is the last of its connection. -/
theorem input_serialised (senders : Nat → Sender) (acts : List (Nat × InputEnv)) (s : InputSys)
    (hrun : exec inputStep (.init senders) acts = .next s) :
    s.accepted = s.blocks.flatMap InputBlock.bytes ++ s.inProgress ∧ (∀ b ∈ s.blocks, b.Sound) ∧
    ∀ i, (∃ received, (senders i).frames = received ++ (s.conn i).frames ∧
        (senders i).opening ++ stdinPayloads received = (blocksOf s.blocks i).map InputBlock.data ++ (s.conn i).pc.pending) ∧
      (∀ b ∈ (blocksOf s.blocks i).dropLast, b.ok = true) ∧
      ((∃ b ∈ blocksOf s.blocks i, b.ok = false) → (s.conn i).pc.pending = []) := by
  have h : InputInv senders s := invariant (Q := fun _ => True) (fun _ _ _ h _ hstep => inputInv_step h hstep)
    (inputInv_init senders) (fun _ _ => trivial) hrun
  refine ⟨h.accepted, h.sound, fun i => ⟨(h.conns i).order, (h.conns i).last, ?_⟩⟩
  rintro ⟨b, hb, hfailed⟩
  have hover : (s.conn i).pc.isOver = true := by
    rw [← Bool.not_eq_false]
    intro hgo
    rw [(h.conns i).going hgo b hb] at hfailed
    cases hfailed
  cases hpc : (s.conn i).pc with
  | recv | unlock ok kind | lockResize cols rows | ioctl cols rows | unlockResize ok | left => rfl
  | request input | lock data kind | write data total kind =>
    rw [hpc] at hover
    cases hover

/-- Two kinds of client: the first sends `ab`, all others `cd`. -/
def twoWriters : Nat → Sender
  | 0 => .client [⟨msgStdin, [97, 98]⟩]
  | _ => .client [⟨msgStdin, [99, 100]⟩]

/-- Two clients receive their frames. The first one writes its frame byte by byte while the second one waits; then the second one is
interrupted, writes one byte and fails. -/
def twoWritersRun : List (Nat × InputEnv) :=
  [(0, ⟨true, .zero, true⟩), (1, ⟨true, .zero, true⟩), (0, ⟨true, .zero, true⟩), (0, ⟨true, .accepts 1, true⟩),
    (0, ⟨true, .accepts 1, true⟩), (0, ⟨true, .zero, true⟩), (1, ⟨true, .zero, true⟩), (1, ⟨true, .interrupted, true⟩),
    (1, ⟨true, .accepts 1, true⟩), (1, ⟨true, .fails, true⟩)]

theorem input_serialised_two_writers : ∃ s, exec inputStep (.init twoWriters) twoWritersRun = .next s ∧ s.accepted = [97, 98, 99] ∧
    s.accepted = s.blocks.flatMap InputBlock.bytes ++ s.inProgress ∧
    ∀ b ∈ (blocksOf s.blocks 1).dropLast, b.ok = true := by
  have hrun : (exec inputStep (.init twoWriters) twoWritersRun).passes (fun s => s.accepted = [97, 98, 99]) = true := by decide
  obtain ⟨s, hs, hacc⟩ := Outcome.passes_iff.1 hrun
  have h := input_serialised twoWriters twoWritersRun s hs
  exact ⟨s, hs, of_decide_eq_true hacc, h.1, (h.2.2 1).2.1⟩

end ZeroPty
