import ZeroPty.Lemmas.Authentication

/-!
# What the frames of a peer do to the terminal

`peerEffects` reads off a list of frames what the terminal is to receive because of them. `Fed` follows one connection from its first
byte on: the terminal has received what the frames that were read ask for, up to what the thread is about to do; and when the thread is
past its loop, a part of that from the start.
-/

namespace ZeroPty

open Stream Memory Transition ReferencesAux

/-- What the terminal received because of a connection. -/
def effectsOf (s : Sys) (i : Nat) : List PtyEffect := (s.effects.filter fun e => e.1 = i).map Prod.snd

/-- What a frame of an attached peer does to the terminal. -/
def frameEffects (f : Frame) : List PtyEffect :=
  match loopMove (.ok (some f)) with
  | some (.write payload) => [.bytes payload]
  | some (.resize cols rows) => [.winsize cols rows]
  | _ => []

/-- What the frames of a peer do to the terminal. -/
def peerEffects (cfg : Config) : List Frame → List PtyEffect
  | [] => []
  | f :: gs =>
    match firstMove cfg (.ok (some f)) with
    | some (.intro intro) => .winsize intro.cols intro.rows :: gs.flatMap frameEffects
    | some (.shutdown input) => [.bytes input]
    | _ => []

/-- A part of some effects, from the first on: the last may be bytes of which only the first were taken. -/
def CutOf (es full : List PtyEffect) : Prop :=
  es <+: full ∨ ∃ done data k, es = done ++ [.bytes (data.take k)] ∧ done ++ [.bytes data] <+: full

theorem CutOf.trans {es full full' : List PtyEffect} (h : CutOf es full) (hle : full <+: full') : CutOf es full' := by
  rcases h with h | ⟨done, data, k, he, h⟩
  · exact Or.inl (h.trans hle)
  · exact Or.inr ⟨done, data, k, he, h.trans hle⟩

/-- The bytes of a part are the first of all bytes. -/
theorem CutOf.data {es full : List PtyEffect} (h : CutOf es full) : es.flatMap PtyEffect.data <+: full.flatMap PtyEffect.data := by
  rcases h with ⟨more, rfl⟩ | ⟨done, data, k, rfl, more, rfl⟩
  · rw [List.flatMap_append]
    exact List.prefix_append _ _
  · simp only [List.flatMap_append, List.flatMap_cons, List.flatMap_nil, List.append_nil, List.append_assoc, PtyEffect.data]
    exact (List.prefix_append_right_inj _).2 ((List.take_prefix k data).trans (List.prefix_append _ _))

/-- More frames do more. -/
theorem peerEffects_mono {cfg : Config} {fs gs : List Frame} (h : fs <+: gs) : peerEffects cfg fs <+: peerEffects cfg gs := by
  cases fs with
  | nil => exact List.nil_prefix
  | cons f fs =>
    obtain ⟨more, rfl⟩ := h
    rw [List.cons_append, peerEffects, peerEffects]
    split
    · rw [List.flatMap_append]
      exact List.prefix_append (_ :: _) _
    · exact List.prefix_refl _
    · exact List.prefix_refl _

/-- What the thread is about to do to the terminal. -/
def ThreadPc.pending : ThreadPc → List PtyEffect
  | .resizeIntro intro => [.winsize intro.cols intro.rows]
  | .writePty payload => [.bytes payload]
  | .resizeLoop cols rows => [.winsize cols rows]
  | .shutdownInput input => [.bytes input]
  | _ => []

/-- The thread has neither failed nor done all it does for its peer. -/
def ThreadPc.isReading : ThreadPc → Bool
  | .sendError _ | .shutdown _ | .finish | .done => false
  | _ => true

/-- The first frame is an intro that is accepted. -/
def Admits (cfg : Config) (fs : List Frame) : Prop :=
  ∃ f gs intro, fs = f :: gs ∧ firstMove cfg (.ok (some f)) = some (.intro intro)

/-- What holds of a connection because of which the terminal received `es`, when the frames `fs` of it were read. -/
structure FedBy (cfg : Config) (c : Conn) (es : List PtyEffect) (fs : List Frame) : Prop where
  wire : ∃ rest, c.wire = wireBytes fs ++ rest
  short : ∀ f ∈ fs, f.payload.length < 2 ^ 32 - 1
  unread : c.pc.isReading = true → c.wire = wireBytes fs ++ c.input.bytes
  exact : c.pc.isReading = true → es ++ c.pc.pending = peerEffects cfg fs
  first : c.pc.isFirst = true → fs = []
  admits : c.pc.isAdmitted = true → Admits cfg fs
  cut : CutOf es (peerEffects cfg fs)

/-- What holds of a connection because of which the terminal received `es`. -/
def Fed (cfg : Config) (c : Conn) (es : List PtyEffect) : Prop := ∃ fs, FedBy cfg c es fs

variable {cfg : Config} {c c' : Conn} {es : List PtyEffect} {fs : List Frame}

namespace TypingAux

theorem wireBytes_concat (fs : List Frame) (f : Frame) : wireBytes (fs ++ [f]) = wireBytes fs ++ frameBytes f := by
  rw [wireBytes_append, wireBytes_cons, wireBytes_nil, List.append_nil]

/-- A frame after the intro adds what it does. -/
theorem peerEffects_concat (h : Admits cfg fs) (f : Frame) : peerEffects cfg (fs ++ [f]) = peerEffects cfg fs ++ frameEffects f := by
  obtain ⟨f₀, gs, intro, rfl, hfirst⟩ := h
  rw [List.cons_append, peerEffects, peerEffects, hfirst]
  simp only [List.flatMap_append, List.flatMap_cons, List.flatMap_nil, List.append_nil, List.cons_append]

theorem isReading_of_isAdmitted {p : ThreadPc} (h : p.isAdmitted = true) : p.isReading = true := by
  cases p <;> first | rfl | cases h

end TypingAux

open TypingAux

/-- The client, the socket and what was attached have no part in it. -/
theorem FedBy.same (h : FedBy cfg c es fs) (hpc : c'.pc = c.pc) (hinput : c'.input = c.input) (hwire : c'.wire = c.wire) :
    FedBy cfg c' es fs where
  wire := by rw [hwire]; exact h.wire
  short := h.short
  unread := by rw [hpc, hwire, hinput]; exact h.unread
  exact := by rw [hpc]; exact h.exact
  first := by rw [hpc]; exact h.first
  admits := by rw [hpc]; exact h.admits
  cut := h.cut

theorem FedBy.shaken (h : FedBy cfg c es fs) (hs : Shaken c c') : FedBy cfg c' es fs := h.same hs.pc hs.input hs.wire

/-- The thread goes on, without a frame and without an effect. -/
theorem FedBy.goOn (h : FedBy cfg c es fs) (hadm : c.pc.isAdmitted = true) (hnone : c.pc.pending = []) {q : ThreadPc} {cell : Cell Client}
    {sock : Sink Errno} {att : Option Snapshot} (hq' : q.pending = []) (hfirst : q.isFirst = false) :
    FedBy cfg { c with pc := q, cell := cell, sock := sock, attached := att } es fs where
  wire := h.wire
  short := h.short
  unread := fun _ => h.unread (isReading_of_isAdmitted hadm)
  exact := fun _ => by rw [hq', ← hnone]; exact h.exact (isReading_of_isAdmitted hadm)
  first := fun hf => by rw [hfirst] at hf; cases hf
  admits := fun _ => h.admits hadm
  cut := h.cut

/-- The thread is past its loop. -/
theorem FedBy.leave (h : FedBy cfg c es fs) {q : ThreadPc} {cell : Cell Client} {sock : Sink Errno} {x : Source Errno}
    (hq : q.isReading = false) (hfirst : q.isFirst = false) :
    FedBy cfg { c with pc := q, cell := cell, sock := sock, input := x } es fs where
  wire := h.wire
  short := h.short
  unread := fun hr => by rw [hq] at hr; cases hr
  exact := fun hr => by rw [hq] at hr; cases hr
  first := fun hf => by rw [hfirst] at hf; cases hf
  admits := fun ha => by rw [isReading_of_isAdmitted ha] at hq; cases hq
  cut := h.cut

/-- What was pending is done. -/
theorem FedBy.perform (h : FedBy cfg c es fs) (hadm : c.pc.isAdmitted = true) {q : ThreadPc}
    (hq' : q.pending = []) (hfirst : q.isFirst = false) : FedBy cfg { c with pc := q } (es ++ c.pc.pending) fs where
  wire := h.wire
  short := h.short
  unread := fun _ => h.unread (isReading_of_isAdmitted hadm)
  exact := fun _ => by rw [hq', List.append_nil]; exact h.exact (isReading_of_isAdmitted hadm)
  first := fun hf => by rw [hfirst] at hf; cases hf
  admits := fun _ => h.admits hadm
  cut := by
    rw [h.exact (isReading_of_isAdmitted hadm)]
    exact Or.inl (List.prefix_refl _)

/-- Only a first part of the bytes that were pending is written, and the thread is past its loop. -/
theorem FedBy.performPart (h : FedBy cfg c es fs) (hread : c.pc.isReading = true) {data : List UInt8} (hp : c.pc.pending = [.bytes data])
    (k : Nat) {q : ThreadPc} (hq : q.isReading = false) (hfirst : q.isFirst = false) :
    FedBy cfg { c with pc := q } (es ++ [.bytes (data.take k)]) fs where
  wire := h.wire
  short := h.short
  unread := fun hr => by rw [hq] at hr; cases hr
  exact := fun hr => by rw [hq] at hr; cases hr
  first := fun hf => by rw [hfirst] at hf; cases hf
  admits := fun ha => by rw [isReading_of_isAdmitted ha] at hq; cases hq
  cut := by
    refine Or.inr ⟨es, data, k, rfl, [], ?_⟩
    rw [List.append_nil, ← hp, h.exact hread]

/-! ## Receiving -/

namespace TypingAux

/-- A frame was received, and is the next of the wire; or none was. -/
theorem recv_cases (malloc : Bool) (fd : Source Errno) (limit : Nat) :
    (∃ f, (optyRecvFrameLimited malloc fd limit).1 = .ok (some f) ∧ f.payload.length < 2 ^ 32 - 1 ∧
      fd.bytes = frameBytes f ++ (optyRecvFrameLimited malloc fd limit).2.bytes) ∨
    ∀ f, (optyRecvFrameLimited malloc fd limit).1 ≠ .ok (some f) := by
  obtain ⟨r, fd', heq, -, hc⟩ := optyRecvFrameLimited_cases malloc fd limit
  rw [heq]
  rcases hc with ⟨f, rfl, hb, hcap⟩ | ⟨rfl, -⟩ | ⟨n, rfl, -⟩ | ⟨rfl, -⟩ | ⟨e, rfl, -⟩
  · refine Or.inl ⟨f, rfl, Nat.lt_of_le_of_lt hcap ?_, hb⟩
    have hmax : optyMaxFrame < 2 ^ 32 := by decide
    rw [payloadCap]
    omega
  · exact Or.inr fun f h => by cases h
  · exact Or.inr fun f h => by cases h
  · exact Or.inr fun f h => by cases h
  · exact Or.inr fun f h => by cases h

/-- Without a frame the thread ends, with an ERROR or without. -/
theorem firstMove_of_none {received : Except Errno (Option Frame)} {move : FirstMove} (h : firstMove cfg received = some move)
    (hno : ∀ f, received ≠ .ok (some f)) : move.pc.isReading = false ∧ move.pc.isFirst = false := by
  cases received with
  | error e =>
    cases h
    exact ⟨rfl, rfl⟩
  | ok r =>
    cases r with
    | none =>
      cases h
      exact ⟨rfl, rfl⟩
    | some f => exact absurd rfl (hno f)

theorem loopMove_of_none {received : Except Errno (Option Frame)} {move : LoopMove} (h : loopMove received = some move)
    (hno : ∀ f, received ≠ .ok (some f)) : move = .leave := by
  cases received with
  | error e =>
    cases h
    rfl
  | ok r =>
    cases r with
    | none =>
      cases h
      rfl
    | some f => exact absurd rfl (hno f)

end TypingAux

/-- The first frame. -/
theorem FedBy.recvFirst (h : FedBy cfg c es fs) (hpc : c.pc = .recvFirst) {alloc : Bool} {limit : Nat} {move : FirstMove}
    (hmove : firstMove cfg (optyRecvFrameLimited alloc c.input limit).1 = some move) :
    Fed cfg { c with pc := move.pc, input := (optyRecvFrameLimited alloc c.input limit).2 } es := by
  obtain rfl := h.first (by rw [hpc]; rfl)
  rcases recv_cases alloc c.input limit with ⟨f, hf, hshort, hbytes⟩ | hno
  · have hexact := h.exact (by rw [hpc]; rfl)
    rw [hpc] at hexact
    obtain rfl : es = [] := by simpa [ThreadPc.pending, peerEffects] using hexact
    have hwire : c.wire = wireBytes [f] ++ (optyRecvFrameLimited alloc c.input limit).2.bytes := by
      rw [h.unread (by rw [hpc]; rfl), wireBytes_nil, wireBytes_cons, wireBytes_nil, List.append_nil, List.nil_append, hbytes]
    rw [hf] at hmove
    have hshort' : ∀ g ∈ [f], g.payload.length < 2 ^ 32 - 1 := fun g hg => List.mem_singleton.1 hg ▸ hshort
    refine ⟨[f], ⟨_, hwire⟩, hshort', fun _ => hwire, fun hr => ?_, fun hfirst => ?_, fun ha => ?_, Or.inl List.nil_prefix⟩
    · cases move with
      | finish => cases hr
      | sendError text => cases hr
      | shutdown input =>
        simp only [peerEffects, hmove]
        rfl
      | intro intro =>
        simp only [peerEffects, hmove]
        rfl
    · cases move <;> cases hfirst
    · cases move with
      | finish => cases ha
      | sendError text => cases ha
      | shutdown input => cases ha
      | intro intro => exact ⟨f, [], intro, rfl, hmove⟩
  · obtain ⟨hread, hfirst⟩ := firstMove_of_none hmove hno
    exact ⟨[], h.leave hread hfirst⟩

/-- A frame of the loop. -/
theorem FedBy.recvLoop (h : FedBy cfg c es fs) (hpc : c.pc = .recvLoop) {alloc : Bool} {move : LoopMove}
    (hmove : loopMove (optyRecvFrame alloc c.input).1 = some move) :
    Fed cfg { c with pc := move.pc, input := (optyRecvFrame alloc c.input).2 } es := by
  have hleave : move = .leave → Fed cfg { c with pc := move.pc, input := (optyRecvFrame alloc c.input).2 } es := by
    rintro rfl
    exact ⟨fs, h.leave rfl rfl⟩
  rcases recv_cases alloc c.input (optyMaxFrame - 1) with ⟨f, hf, hshort, hbytes⟩ | hno
  · have hadm := h.admits (by rw [hpc]; rfl)
    have hexact := h.exact (by rw [hpc]; rfl)
    simp only [hpc, ThreadPc.pending, List.append_nil] at hexact
    have hwire : c.wire = wireBytes (fs ++ [f]) ++ (optyRecvFrame alloc c.input).2.bytes := by
      rw [h.unread (by rw [hpc]; rfl), wireBytes_concat, List.append_assoc]
      exact congrArg _ hbytes
    have hmove' : loopMove (.ok (some f)) = some move := by
      rw [← hmove, optyRecvFrame, hf]
    by_cases hl : move = .leave
    · exact hleave hl
    · have hshort' : ∀ g ∈ fs ++ [f], g.payload.length < 2 ^ 32 - 1 :=
        List.forall_mem_append.2 ⟨h.short, List.forall_mem_singleton.2 hshort⟩
      refine ⟨fs ++ [f], ⟨_, hwire⟩, hshort', fun _ => hwire, fun _ => ?_, fun hfirst => ?_, fun _ => ?_, ?_⟩
      · rw [peerEffects_concat hadm, ← hexact, frameEffects, hmove']
        cases move with
        | leave => exact absurd rfl hl
        | again => rfl
        | write payload => rfl
        | resize cols rows => rfl
      · cases move <;> cases hfirst
      · obtain ⟨f₀, gs, intro, rfl, hfirst⟩ := hadm
        exact ⟨f₀, gs ++ [f], intro, rfl, hfirst⟩
      · rw [peerEffects_concat hadm, ← hexact]
        exact Or.inl (List.prefix_append _ _)
  · exact hleave (loopMove_of_none hmove hno)

/-! ## The server -/

/-- What holds of the server. -/
def FedSys (cfg : Config) (s : Sys) : Prop := ∀ i, Fed cfg (s.conn i) (effectsOf s i)

namespace TypingAux

/-- A write to the terminal that succeeds takes all bytes. -/
theorem serverWritePty_ok {master : Sink Errno} {data : List UInt8} (h : (serverWritePty master data).1 = .ok ()) :
    (serverWritePty master data).2.written = master.written ++ data := by
  unfold serverWritePty at h ⊢
  by_cases h0 : data.length = 0
  · rw [if_pos h0, List.eq_nil_of_length_eq_zero h0, List.append_nil]
  · rw [if_neg h0] at h ⊢
    have hs := optyWriteFullLoop_sends master data 0 (fun hle => absurd hle (by omega))
    rw [List.drop_zero] at hs
    have hok : (optyWriteFull master data).1.map (fun _ => ()) = .ok () := h
    rw [optyWriteFull] at hok
    rw [hok] at hs
    exact hs.written_of_ok

/-- One more effect. -/
theorem effectsOf_concat {s t : Sys} {i : Nat} {e : PtyEffect} (h : t.effects = s.effects ++ [(i, e)]) :
    effectsOf t i = effectsOf s i ++ [e] ∧ ∀ j, j ≠ i → effectsOf t j = effectsOf s j := by
  refine ⟨?_, fun j hj => ?_⟩
  · rw [effectsOf, h, List.filter_append, List.map_append, List.filter_cons_of_pos (by simp), List.filter_nil]
    rfl
  · rw [effectsOf, h, List.filter_append, List.map_append, List.filter_cons_of_neg (by simpa using Ne.symm hj), List.filter_nil]
    exact List.append_nil _

theorem effectsOf_eq {s t : Sys} (h : t.effects = s.effects) (j : Nat) : effectsOf t j = effectsOf s j := by
  rw [effectsOf, h, effectsOf]

/-- The terminal receives something because of the connection that an action is about, if at all. -/
theorem effectsOf_of_moves {s t : Sys} {a : Act} (href : RefInv s) (hm : Moves s a t) {j : Nat} (hj : actsOn s a ≠ some j) :
    effectsOf t j = effectsOf s j := by
  have hother : ∀ {i : Nat} {e : PtyEffect}, actsOn s a = some i → t.effects = s.effects ++ [(i, e)] →
      effectsOf t j = effectsOf s j := fun hi he => (effectsOf_concat he).2 j fun hji => hj (hji ▸ hi)
  cases hm with
  | writePty hpc hpc' => exact hother rfl rfl
  | shutdownInput hpc => exact hother rfl rfl
  | resizeIntro hpc => exact hother rfl rfl
  | resizeLoop hpc => exact hother rfl rfl
  | dropped hmain hrel =>
    obtain ⟨c', rfl, -⟩ := exists_of_eq_some (href.finish (Or.inl (href.starting_of_drop hmain))) hrel
    rfl
  | finished hpc hrel =>
    obtain ⟨c', rfl, -⟩ := exists_of_eq_some (href.finish (Or.inr hpc)) hrel
    rfl
  | mainShut hm hm' hshut | shutdownShut hpc hshut | ptyShut hp hshut =>
    obtain ⟨conn', rfl, -⟩ := exists_of_eq_some href.shut hshut
    rfl
  | ptyNoSnapshot hp hr | ptySnapshot hp hne hr =>
    obtain ⟨conn', rfl, -⟩ := serverSnapshotClients_shaken href.ledger hr
    rfl
  | ptyReleased hp hrel =>
    obtain ⟨conn', rfl, -⟩ := exists_of_eq_some (href.releaseSnapshot hp) hrel
    rfl
  | ptyMarkedDead hp hrel =>
    obtain ⟨c', rfl, -⟩ := exists_of_eq_some (href.markDead hp) hrel
    rfl
  | _ => rfl

/-- What a thread that writes to the terminal comes to. -/
theorem step_writePty {s t : Sys} {i : Nat} {env : Env} {payload : List UInt8} (hpc : (s.conn i).pc = .writePty payload)
    (h : step s (.client i env) = .next t) :
    ((serverWritePty s.master payload).1 = .ok () ∧
      t = (s.setConn i { s.conn i with pc := .recvLoop }).wrote i (serverWritePty s.master payload).2) ∨
    t = (s.setConn i { s.conn i with pc := .finish }).wrote i (serverWritePty s.master payload).2 := by
  simp only [step, clientStep, hpc] at h
  cases hw : serverWritePty s.master payload with
  | mk r master =>
    rw [hw] at h
    cases r with
    | error e =>
      cases h
      exact Or.inr rfl
    | ok u =>
      cases h
      exact Or.inl ⟨rfl, rfl⟩

theorem fed_keep (s : Sys) {t : Sys} {i : Nat} {d : Conn} (hconn : t.conn i = d) (heff : t.effects = s.effects)
    (h : Fed cfg d (effectsOf s i)) : Fed cfg (t.conn i) (effectsOf t i) := by
  rw [hconn, effectsOf_eq heff]
  exact h

theorem fed_add (s : Sys) {t : Sys} {i : Nat} {d : Conn} {e : PtyEffect} (hconn : t.conn i = d) (heff : t.effects = s.effects ++ [(i, e)])
    (h : Fed cfg d (effectsOf s i ++ [e])) : Fed cfg (t.conn i) (effectsOf t i) := by
  rw [hconn, (effectsOf_concat heff).1]
  exact h

end TypingAux

/-- The connection that an action is about. -/
theorem fed_of_acting {s t : Sys} {a : Act} (hcfg : s.cfg = cfg) (href : RefInv s) (hauth : AuthSys cfg s) (h : FedSys cfg s)
    (hstep : step s a = .next t) {i : Nat} (hact : actsOn s a = some i) : Fed cfg (t.conn i) (effectsOf t i) := by
  obtain ⟨fs, hi⟩ := h i
  have hset : ∀ (s : Sys) (d : Conn), (s.setConn i d).conn i = d := fun s d => Function.update_self _ _ _
  cases step_moves hstep with
  | acceptFailed => exact ⟨fs, hi⟩
  | accept hmain =>
    cases hact
    have hnone : effectsOf s s.count = [] := by
      rw [effectsOf, List.map_eq_nil_iff, List.filter_eq_nil_iff]
      rintro ⟨j, e⟩ he
      simpa using Nat.ne_of_lt (hauth.effects j e he).1
    refine fed_keep s (hset _ _) rfl ⟨[], ?_⟩
    rw [hnone]
    exact ⟨⟨_, rfl⟩, fun _ hf => (by cases hf), fun _ => rfl, fun _ => rfl, fun _ => rfl, fun ha => (by cases ha),
      Or.inl List.nil_prefix⟩
  | created hmain =>
    simp only [actsOn, hmain, MainPc.adding, Option.some.injEq] at hact
    subst hact
    have hpc := (href.conns _).starting (by rw [hmain]; rfl)
    have hexact := hi.exact (by rw [hpc]; rfl)
    rw [hpc] at hexact
    exact fed_keep s (hset _ _) rfl ⟨fs, hi.wire, hi.short, fun _ => hi.unread (by rw [hpc]; rfl), fun _ => hexact,
      fun _ => hi.first (by rw [hpc]; rfl), fun ha => (by cases ha), hi.cut⟩
  | createFailed hmain => exact ⟨fs, hi⟩
  | dropped hmain hrel =>
    simp only [actsOn, hmain, MainPc.adding, Option.some.injEq] at hact
    subst hact
    obtain ⟨c', rfl, hsh, -⟩ := exists_of_eq_some (href.finish (Or.inl (href.starting_of_drop hmain))) hrel
    refine fed_keep s (hset _ _) rfl ⟨fs, ?_⟩
    simp only [Function.update_self]
    exact (hi.shaken hsh).leave rfl rfl
  | mainQuiet hm hm' => exact ⟨fs, hi⟩
  | mainShut hm hm' hshut => cases hact
  | recvFirst hpc hcl hmove =>
    cases hact
    subst hcfg
    exact fed_keep s (hset _ _) rfl (hi.recvFirst hpc hmove)
  | sendError hpc hcl hlock =>
    cases hact
    exact fed_keep s (hset _ _) rfl ⟨fs, hi.leave rfl rfl⟩
  | resizeIntro hpc =>
    cases hact
    rename_i env intro
    have hdone := hi.perform (q := .attach intro.requestedSeq) (by rw [hpc]; rfl) rfl rfl
    rw [hpc] at hdone
    exact fed_add s (hset _ _) rfl ⟨fs, hdone⟩
  | resizeIntroFailed hpc | attachFailed hpc hcl hattach | welcomeFailed hpc hcl hs | replayFailed hpc hcl hs | resizeLoopFailed hpc =>
    cases hact
    exact fed_keep s (hset _ _) rfl ⟨fs, hi.leave rfl rfl⟩
  | attach hpc hcl hlock hattach | welcome hpc hcl hs | replay hpc hcl hs =>
    cases hact
    exact fed_keep s (hset _ _) rfl ⟨fs, hi.goOn (by rw [hpc]; rfl) (by rw [hpc]; rfl) rfl rfl⟩
  | recvLoop hpc hcl hmove =>
    cases hact
    exact fed_keep s (hset _ _) rfl (hi.recvLoop hpc hmove)
  | writePty hpc hpc' =>
    cases hact
    rename_i env payload pc'
    have hp : (s.conn i).pc.pending = [.bytes payload] := by rw [hpc]; rfl
    have hadm : (s.conn i).pc.isAdmitted = true := by rw [hpc]; rfl
    rcases step_writePty hpc hstep with ⟨hok, ht⟩ | ht
    · -- all bytes were taken
      rw [ht]
      have hdone := hi.perform (q := .recvLoop) hadm rfl rfl
      rw [hp] at hdone
      refine fed_add s (hset _ _) (congrArg (fun data => s.effects ++ [(i, PtyEffect.bytes data)]) ?_) ⟨fs, hdone⟩
      rw [serverWritePty_ok hok]
      exact List.drop_left
    · rw [ht]
      obtain ⟨k, hk⟩ := serverWritePty_written s.master payload
      refine fed_add s (hset _ _) (congrArg (fun data => s.effects ++ [(i, PtyEffect.bytes data)]) ?_)
        ⟨fs, hi.performPart (isReading_of_isAdmitted hadm) hp k rfl rfl⟩
      rw [hk]
      exact List.drop_left
  | resizeLoop hpc =>
    cases hact
    have hdone := hi.perform (q := .recvLoop) (by rw [hpc]; rfl) rfl rfl
    rw [hpc] at hdone
    exact fed_add s (hset _ _) rfl ⟨fs, hdone⟩
  | shutdownInput hpc =>
    cases hact
    rename_i env input
    obtain ⟨k, hk⟩ := serverWritePty_written s.master input
    refine fed_add s (hset _ _) (congrArg (fun data => s.effects ++ [(i, PtyEffect.bytes data)]) ?_)
      ⟨fs, hi.performPart (by rw [hpc]; rfl) (by rw [hpc]; rfl) k rfl rfl⟩
    rw [hk]
    exact List.drop_left
  | shutdownStage hpc =>
    cases hact
    exact fed_keep s (hset _ _) rfl ⟨fs, hi.leave rfl rfl⟩
  | shutdownShut hpc hshut =>
    cases hact
    obtain ⟨conn', rfl, hsh, -⟩ := exists_of_eq_some href.shut hshut
    exact fed_keep s (hset _ _) rfl ⟨fs, (hi.shaken (hsh i).1).leave rfl rfl⟩
  | finished hpc hrel =>
    cases hact
    obtain ⟨c', rfl, hsh, -⟩ := exists_of_eq_some (href.finish (Or.inr hpc)) hrel
    refine fed_keep s (hset _ _) rfl ⟨fs, ?_⟩
    simp only [Function.update_self]
    exact (hi.shaken hsh).leave rfl rfl
  | ptyQuiet hp hp' => exact ⟨fs, hi⟩
  | ptyGot hp h0 hlen => exact ⟨fs, hi⟩
  | ptyAppend hp hr => exact ⟨fs, hi⟩
  | ptyNoSnapshot hp hr | ptySnapshot hp hne hr =>
    obtain ⟨conn', rfl, hsh⟩ := serverSnapshotClients_shaken href.ledger hr
    exact ⟨fs, hi.shaken (hsh i)⟩
  | ptyReleased hp hrel =>
    obtain ⟨conn', rfl, hsh, -⟩ := exists_of_eq_some (href.releaseSnapshot hp) hrel
    exact ⟨fs, hi.shaken (hsh i)⟩
  | ptySent hp hcl hlock hs | ptySendFailed hp hcl hlock hs =>
    simp only [actsOn, hp, PtyPc.todo, List.head?_cons, Option.some.injEq] at hact
    subst hact
    exact fed_keep s (hset _ _) rfl ⟨fs, hi.same rfl rfl rfl⟩
  | ptyMarkedDead hp hrel =>
    simp only [actsOn, hp, PtyPc.todo, List.head?_cons, Option.some.injEq] at hact
    subst hact
    obtain ⟨c', rfl, hsh, -⟩ := exists_of_eq_some (href.markDead hp) hrel
    exact fed_keep s (Function.update_self _ _ _) rfl ⟨fs, hi.shaken hsh⟩
  | ptyShut hp hshut =>
    obtain ⟨conn', rfl, hsh, -⟩ := exists_of_eq_some href.shut hshut
    exact ⟨fs, hi.shaken (hsh i).1⟩

/-- Every action keeps what holds of the server. -/
theorem fedSys_step {s t : Sys} {a : Act} (href : RefInv s) (hauth : AuthSys cfg s) (h : FedSys cfg s) (hstep : step s a = .next t) :
    FedSys cfg t := by
  intro i
  by_cases hact : actsOn s a = some i
  · exact fed_of_acting hauth.cfg_eq href hauth h hstep hact
  · obtain ⟨fs, hi⟩ := h i
    rw [effectsOf_of_moves href (step_moves hstep) hact]
    exact ⟨fs, hi.shaken (shaken_of_moves href (step_moves hstep) hact)⟩

/-- At the start nothing was accepted. -/
theorem fedSys_init (ring : Ring) (master : Sink Errno) : FedSys cfg (Sys.init cfg ring master) := fun _ =>
  ⟨[], ⟨[], rfl⟩, fun _ hf => (by cases hf), fun _ => rfl, fun hr => (by cases hr), fun _ => rfl, fun ha => (by cases ha),
    Or.inl List.nil_prefix⟩

end ZeroPty
