import Mathlib.Order.Bounds.Basic
import ZeroPty.Lemmas.Resume
import ZeroPty.Theorems.Ring

/-!
# Where the client and the server are after an attach
-/

namespace ZeroPty

open Stream Memory RingAux

/-- `process_server_frame` on one frame after another, none of which ends the client. -/
def processServerFrames (sock : Sink Errno) (c : ClientState) (sawWelcome : Bool) :
    List Frame → Option (Sink Errno × ClientState × Bool)
  | [] => some (sock, c, sawWelcome)
  | frame :: frames =>
    (processServerFrame sock c sawWelcome frame).bind fun r =>
      if r.1 < 0 then none else processServerFrames r.2.1 r.2.2.1 r.2.2.2 frames

/-- An attach that succeeds, of a client in state `c` to a server with this ring, up to the next RECONNECT of the client: it sends
its intro, the server processes it, the client processes the WELCOME and the REPLAY it reads, and then the STDOUT frames of `more`;
it connects again. -/
structure Reattached (cfg : Config) (ring : Ring) (c : ClientState) (more : List (List UInt8)) where
  frame : Frame
  asked : IntroFor c.lastSeq frame
  malloc : Alloc UInt8
  alloc : Bool
  ioctl : Bool
  sched : List (WriteEvent Errno)
  cl : Client
  server : Client
  fd : Sink Errno
  size : Option (UInt16 × UInt16)
  intro : serverProcessIntro cfg malloc alloc ioctl ring cl { sched := sched } frame = some (0, server, fd, size)
  stream : Source Errno
  sent : fd.written <+: stream.bytes
  alloc₁ : Bool
  welcome : Frame
  stream₁ : Source Errno
  recv₁ : optyRecvFrame alloc₁ stream = (.ok (some welcome), stream₁)
  alloc₂ : Bool
  replay : Frame
  stream₂ : Source Errno
  recv₂ : optyRecvFrame alloc₂ stream₁ = (.ok (some replay), stream₂)
  sock : Sink Errno
  rc₁ : Int
  sock₁ : Sink Errno
  c₁ : ClientState
  saw₁ : Bool
  process₁ : processServerFrame sock c false welcome = some (rc₁, sock₁, c₁, saw₁)
  rc₂ : Int
  sock₂ : Sink Errno
  c₂ : ClientState
  saw₂ : Bool
  process₂ : processServerFrame sock₁ c₁ saw₁ replay = some (rc₂, sock₂, c₂, saw₂)
  goesOn : 0 ≤ rc₂
  sock₃ : Sink Errno
  c₃ : ClientState
  saw₃ : Bool
  process₃ : processServerFrames sock₂ c₂ saw₂ (stdoutFrames server.liveSeq more) = some (sock₃, c₃, saw₃)
  cols : UInt16
  rows : UInt16
  token : Option CString
  fits : (tokenBytes token).length ≤ optyMaxToken
  clientSched : List (WriteEvent Errno)
  request : Sink Errno
  reconnects : sendIntro { sched := clientSched } true c₃.lastSeq cols rows token = (.ok (), request)

/-- What the client sends first on its next connection asks for position `q`. -/
def Reattached.AsksFor {cfg : Config} {ring : Ring} {c : ClientState} {more : List (List UInt8)} (x : Reattached cfg ring c more)
    (q : UInt64) : Prop :=
  x.request.written = frameBytes (Msg.reconnect q x.cols x.rows (tokenBytes x.token)).frame

namespace PositionAux

/-- What an attach that succeeded put on the socket. -/
theorem processIntro_sent {cfg : Config} {malloc : Alloc UInt8} {alloc ioctl : Bool} {ring : Ring} {log : List UInt8}
    (hring : ring.Represents log) {cl cl' : Client} {fd fd' : Sink Errno} {frame : Frame} {e : UInt64} (hframe : IntroFor e frame)
    {size : Option (UInt16 × UInt16)} (h : serverProcessIntro cfg malloc alloc ioctl ring cl fd frame = some (0, cl', fd', size)) :
    ∃ snap : Snapshot, snap.Of ring log e ∧ cl'.liveSeq = snap.nextSeq ∧ snap.data.bytes.length ≤ optyMaxFrame - 9 ∧
      fd'.written = fd.written ++ frameBytes snap.welcome ++ frameBytes snap.replay := by
  obtain ⟨v, hv, hviff⟩ := serverCheckIntro_spec cfg frame
  rw [serverProcessIntro, hv, Option.bind_some] at h
  cases v with
  | bad => cases h
  | denied => cases h
  | granted i =>
    have hauth := (hviff i).1 rfl
    simp only at h
    split at h
    · rw [Option.map_eq_some_iff] at h
      obtain ⟨r, hr, h⟩ := h
      rw [serverSendWelcomeAndReplay, Option.map_eq_some_iff] at hr
      obtain ⟨attached, hattach, hr⟩ := hr
      cases attached with
      | none =>
        cases hr
        cases h
      | some a =>
        obtain ⟨c1, snap⟩ := a
        rw [hauth.requested_eq hframe] at hattach
        have hof := serverAttach_of hring hattach
        obtain ⟨rfl, -⟩ := serverAttach_refs hattach
        simp only at hr
        split at hr
        · subst hr
          cases h
        · rename_i fd1 hw
          split at hr
          · subst hr
            cases h
          · rename_i fd2 hreplay
            subst hr
            cases h
            have hwritten := ((optySendWelcome_sends _ _).of_eq hw).written_of_ok
            obtain ⟨hsends, hfit⟩ := optySendReplay_of_ok _ _ _ hreplay
            refine ⟨snap, hof, rfl, hfit, ?_⟩
            rw [hsends.written_of_ok, hwritten]
            rfl
    · cases h

/-- The client is where the STDOUT frames that it has processed end, when it was where they start. -/
theorem processServerFrames_stdout : ∀ {more : List (List UInt8)} {seq : UInt64} {sock sock' : Sink Errno} {c c' : ClientState}
    {saw saw' : Bool}, seq.toNat + more.flatten.length < 2 ^ 64 →
    processServerFrames sock c saw (stdoutFrames seq more) = some (sock', c', saw') →
    c'.out.written = c.out.written ++ more.flatten ∧ (c.lastSeq = seq → c'.lastSeq.toNat = seq.toNat + more.flatten.length)
  | [], seq, _, _, _, _, _, _, _, h => by
    cases h
    exact ⟨(List.append_nil _).symm, fun hc => by rw [hc]; rfl⟩
  | d :: more, seq, sock, sock', c, c', saw, saw', hlen, h => by
    rw [List.flatten_cons, List.length_append] at hlen
    rw [stdoutFrames, processServerFrames, Option.bind_eq_some_iff] at h
    obtain ⟨⟨rc, sock₁, c₁, saw₁⟩, hd, h⟩ := h
    dsimp only at h
    split at h
    · cases h
    · rename_i hrc
      obtain ⟨hwritten, hlast⟩ := processServerFrame_printed (Or.inl rfl) (Int.not_lt.1 hrc) hd
      have hseq : (seq + .ofNat d.length).toNat = seq.toNat + d.length := toNat_add_length (by omega)
      obtain ⟨hmore, hgoes⟩ := processServerFrames_stdout (by rw [hseq]; omega) h
      refine ⟨by rw [hmore, hwritten, List.append_assoc, List.flatten_cons], fun hc => ?_⟩
      have hle : c.lastSeq ≤ seq + .ofNat d.length := by
        rw [UInt64.le_iff_toNat_le, hc, hseq]
        omega
      rw [ite_lt_eq_of_le hle] at hlast
      rw [hgoes hlast, hseq, List.flatten_cons, List.length_append, Nat.add_assoc]

/-- The position a RECONNECT asks for can be read from its bytes. -/
theorem reconnect_seq_inj {seq seq' : UInt64} {cols rows : UInt16} {token : List UInt8} (ht : token.length ≤ optyMaxToken)
    (h : frameBytes (Msg.reconnect seq cols rows token).frame = frameBytes (Msg.reconnect seq' cols rows token).frame) :
    seq = seq' := by
  have hshort := fun s : UInt64 => IntroFor.short (e := s) ⟨cols, rows, token, ht, Or.inr rfl⟩
  obtain ⟨hframe, -⟩ := frameBytes_append_inj (hshort seq) (hshort seq') (congrArg (· ++ []) h)
  -- the parser returns both
  obtain ⟨r, -, hiff⟩ := optyParseClientIntro_spec (Msg.reconnect seq cols rows token).frame (Nat.lt_succ_self optyMaxToken)
    (.fill (optyMaxToken + 1) 0)
  have hbuf := length_tokenBuffer token (Block.fill (optyMaxToken + 1) 0) (Nat.lt_succ_of_le ht)
  have h1 := (hiff ⟨seq, cols, rows, ⟨_, hbuf⟩⟩).2 ⟨token, ht, rfl, Or.inr rfl⟩
  have h2 := (hiff ⟨seq', cols, rows, ⟨_, hbuf⟩⟩).2 ⟨token, ht, rfl, Or.inr hframe⟩
  cases h1.symm.trans h2
  rfl

/-- What an attach that succeeded does: the WELCOME and the REPLAY are those of a snapshot at the end of the log, which is the
position the server records; the client prints the REPLAY and what follows. -/
theorem reattached_snapshot {cfg : Config} {ring : Ring} {log : List UInt8} {c : ClientState} {more : List (List UInt8)}
    (hrep : ring.Represents log) (hlen : (log ++ more.flatten).length < 2 ^ 64) (x : Reattached cfg ring c more) :
    ∃ snap : Snapshot, snap.Of ring log c.lastSeq ∧ x.welcome = snap.welcome ∧ x.replay = snap.replay ∧
      x.server.liveSeq = snap.nextSeq ∧ snap.nextSeq.toNat = log.length ∧
      snap.fromSeq.toNat = max ring.baseSeq.toNat (min c.lastSeq.toNat log.length) ∧
      x.c₂.lastSeq = (if c.lastSeq < snap.nextSeq then snap.nextSeq else c.lastSeq) ∧
      x.c₃.out.written = c.out.written ++ snap.data.bytes ++ more.flatten ∧
      (x.c₂.lastSeq = x.server.liveSeq → x.c₃.lastSeq.toNat = (log ++ more.flatten).length) := by
  rw [List.length_append] at hlen
  obtain ⟨snap, hof, hlive, hfit, hwritten⟩ := processIntro_sent hrep x.asked x.intro
  have hshort := deliveryFrames_short hfit (p := []) (by rintro _ ⟨⟩)
  rw [List.nil_append] at hwritten
  obtain ⟨later, hlater⟩ := x.sent
  -- what the client reads is what the server wrote
  obtain ⟨hbytes₁, hs₁⟩ := optyRecvFrame_some x.recv₁
  rw [← hlater, hwritten, List.append_assoc] at hbytes₁
  obtain ⟨hw, hrest⟩ := frameBytes_append_inj (hshort _ List.mem_cons_self) hs₁ hbytes₁
  obtain ⟨hbytes₂, hs₂⟩ := optyRecvFrame_some x.recv₂
  rw [← hrest] at hbytes₂
  obtain ⟨hr, -⟩ := frameBytes_append_inj (hshort _ (List.mem_cons_of_mem _ List.mem_cons_self)) hs₂ hbytes₂
  have hwelcome := x.process₁
  rw [← hw, Snapshot.welcome, processServerFrame_welcome] at hwelcome
  simp only [Option.some.injEq, Prod.mk.injEq] at hwelcome
  obtain ⟨-, -, hc₁, -⟩ := hwelcome
  obtain ⟨hout, hlast⟩ := processServerFrame_printed (Or.inr hr.symm) x.goesOn x.process₂
  rw [← hc₁] at hout hlast
  -- the replay ends at the end of the log
  have hnext : snap.nextSeq.toNat = log.length := by rw [hof.next, hrep.next]
  have hfrom : snap.fromSeq.toNat = max ring.baseSeq.toNat (min c.lastSeq.toNat log.length) := by
    rw [hof.start, RingAux.toNat_clampSeq ring c.lastSeq hrep.base_le_next, hrep.next]
  have hend : snap.fromSeq + .ofNat snap.data.bytes.length = snap.nextSeq := by
    have hbase := hrep.base
    have hdata : snap.data.bytes.length = log.length - snap.fromSeq.toNat := by rw [hof.bytes, List.length_drop]
    apply UInt64.toNat_inj.1
    rw [toNat_add_length (by omega)]
    omega
  rw [hend] at hlast
  obtain ⟨hmore, hgoes⟩ := processServerFrames_stdout (by rw [hlive, hnext]; exact hlen) x.process₃
  refine ⟨snap, hof, hw.symm, hr.symm, hlive, hnext, hfrom, hlast, by rw [hmore, hout], fun h => ?_⟩
  rw [hgoes h, hlive, hnext, List.length_append]

end PositionAux

open PositionAux

/-- The client and the server agree on the position after an attach, and the client goes on from there: for every ring that a server
may have, every `last_seq` with which a client sends its intro, and whatever the allocations, the resize, the sockets and the
client's descriptors do as long as the attach succeeds and the client processes the frames it reads. It prints the log from where
the REPLAY starts, and what follows. Then its `last_seq` is the `next_seq` of the WELCOME, which is the `live_seq` the server
recorded, and the next RECONNECT asks for the first byte of this server that it has not printed, exactly when its `last_seq` was not
beyond the end of the log and what the REPLAY left out had been printed before: `before` is what earlier connections to this server
have printed, and bytes below `floor` do not count, which may be those the ring no longer had. -/
theorem positions_agree_iff (cfg : Config) (ringMalloc : Alloc UInt8) (capacity : UInt64) (chunks more : List (List UInt8))
    (hlen : (chunks.flatten ++ more.flatten).length < 2 ^ 64) (ring₀ ring : Ring) (starts : List UInt64)
    (hinit : optyRingInit ringMalloc (.ok ()) capacity = .ok ring₀)
    (happend : optyRingAppendAll ring₀ (chunks.map Buf.mem) = some (ring, starts)) (c : ClientState)
    (x : Reattached cfg ring c more) (before : Set Nat) (hbefore : ∀ p ∈ before, p < chunks.flatten.length) (floor : Nat)
    (hfloor : floor ≤ ring.baseSeq.toNat) :
    ∃ start data, x.replay = (Msg.replay start data).frame ∧ data = chunks.flatten.drop start.toNat ∧
      x.c₃.out.written = c.out.written ++ data ++ more.flatten ∧
      (((∃ base, x.welcome = (Msg.welcome base x.c₂.lastSeq).frame) ∧ x.c₂.lastSeq = x.server.liveSeq ∧
          ∃ q, x.AsksFor q ∧
            IsLeast {p | floor ≤ p ∧ p ∉ before ∪ Set.Ico start.toNat (chunks.flatten ++ more.flatten).length} q.toNat) ↔
        c.lastSeq.toNat ≤ chunks.flatten.length ∧
          ∀ p, floor ≤ p → p < max ring.baseSeq.toNat c.lastSeq.toNat → p ∈ before) := by
  obtain ⟨-, hrep₀⟩ := represents_init hinit
  have hlen' := hlen
  rw [List.length_append] at hlen'
  obtain ⟨r, ss, hall, -, hrep, -⟩ := appendAll_represents chunks hrep₀ (by simp only [List.length_nil]; omega)
  rw [happend] at hall
  cases hall
  rw [List.nil_append] at hrep
  obtain ⟨snap, hof, hwelcome, hreplay, hlive, hnext, hfrom, hlast, hout, hgoes⟩ := reattached_snapshot hrep hlen x
  have hasks : x.AsksFor x.c₃.lastSeq :=
    ((optySendReconnect_sends x.cols x.rows x.c₃.lastSeq x.token x.fits).of_eq x.reconnects).written_of_ok
  have hbase := hrep.base
  refine ⟨snap.fromSeq, snap.data.bytes, hreplay, hof.bytes, hout, ?_⟩
  constructor
  · rintro ⟨-, hagree, q, hq, hleast⟩
    cases reconnect_seq_inj x.fits (hq.symm.trans hasks)
    have hle : c.lastSeq.toNat ≤ chunks.flatten.length := by
      rw [hlive, hlast] at hagree
      split at hagree
      · rename_i hlt
        rw [UInt64.lt_iff_toNat_lt] at hlt
        omega
      · rw [hagree]
        exact Nat.le_of_eq hnext
    refine ⟨hle, fun p hp hlt => by_contra fun hno => ?_⟩
    -- a byte before the replay that was never printed is before the one asked for
    have hmem : x.c₃.lastSeq.toNat ≤ p := hleast.2 ⟨hp, fun h => h.elim hno fun h => by have := h.1; omega⟩
    rw [hgoes hagree, List.length_append] at hmem
    omega
  · rintro ⟨hle, hprinted⟩
    have hle' : c.lastSeq ≤ snap.nextSeq := by
      rw [UInt64.le_iff_toNat_le, hnext]
      exact hle
    rw [ite_lt_eq_of_le hle'] at hlast
    have hat := hgoes (hlast.trans hlive.symm)
    rw [hlast, hlive]
    refine ⟨⟨snap.baseSeq, hwelcome⟩, rfl, _, hasks, ⟨?_, ?_⟩, ?_⟩
    · rw [hat, List.length_append]
      omega
    · rw [hat]
      rintro (h | h)
      · have := hbefore _ h
        rw [List.length_append] at this
        omega
      · exact Nat.lt_irrefl _ h.2
    · rintro p ⟨hp, hno⟩
      rw [hat]
      refine Nat.le_of_not_lt fun hlt => hno ?_
      by_cases h : p < snap.fromSeq.toNat
      · exact Or.inl (hprinted p hp (by omega))
      · exact Or.inr ⟨Nat.le_of_not_lt h, hlt⟩

/-- The state of a client at `lastSeq`. -/
def ClientState.holding (lastSeq : UInt64) : ClientState := { out := {}, err := {}, scrollback := none, lastSeq := lastSeq }

/-- An attach of a client at `lastSeq`, without failures, if there is one. -/
def reattach (ring : Ring) (lastSeq : UInt64) (more : List (List UInt8)) :
    Option (Reattached ⟨none, none⟩ ring (.holding lastSeq) more) :=
  match h : serverProcessIntro ⟨none, none⟩ zeroAlloc true true ring .new {} (Msg.reconnect lastSeq 80 24 []).frame with
  | some (0, server, fd, size) =>
    match h₁ : optyRecvFrame true ⟨fd.written, []⟩ with
    | (.ok (some welcome), stream₁) =>
      match h₂ : optyRecvFrame true stream₁ with
      | (.ok (some replay), stream₂) =>
        match p₁ : processServerFrame {} (.holding lastSeq) false welcome with
        | some (rc₁, sock₁, c₁, saw₁) =>
          match p₂ : processServerFrame sock₁ c₁ saw₁ replay with
          | some (0, sock₂, c₂, saw₂) =>
            match p₃ : processServerFrames sock₂ c₂ saw₂ (stdoutFrames server.liveSeq more) with
            | some (sock₃, c₃, saw₃) =>
              match s : sendIntro {} true c₃.lastSeq 80 24 none with
              | (.ok (), request) =>
                some ⟨_, ⟨80, 24, [], Nat.zero_le _, Or.inr rfl⟩, zeroAlloc, true, true, [], .new, server, fd, size, h,
                  ⟨fd.written, []⟩, List.prefix_refl _, true, welcome, stream₁, h₁, true, replay, stream₂, h₂,
                  {}, rc₁, sock₁, c₁, saw₁, p₁, 0, sock₂, c₂, saw₂, p₂, Int.le_refl 0, sock₃, c₃, saw₃, p₃,
                  80, 24, none, Nat.zero_le _, [], request, s⟩
              | _ => none
            | none => none
          | _ => none
        | none => none
      | _ => none
    | _ => none
  | _ => none

namespace PositionAux

/-- A client at `lastSeq` attaches to a server that said `hi`, in a ring of five bytes. -/
theorem reattach_hi (lastSeq : UInt64) (more : List (List UInt8)) {p : UInt64 × UInt64}
    (h : ∀ ring₀, optyRingInit zeroAlloc (.ok ()) 5 = .ok ring₀ →
      ((optyRingAppendAll ring₀ ([[104, 105]].map Buf.mem)).bind fun r =>
        (reattach r.1 lastSeq more).map fun x => (x.c₂.lastSeq, x.server.liveSeq)) = some p) :
    ∃ ring₀ ring starts, optyRingInit zeroAlloc (.ok ()) 5 = .ok ring₀ ∧
      optyRingAppendAll ring₀ ([[104, 105]].map Buf.mem) = some (ring, starts) ∧ ring.baseSeq.toNat = 0 ∧
      ∃ x : Reattached ⟨none, none⟩ ring (.holding lastSeq) more, x.c₂.lastSeq = p.1 ∧ x.server.liveSeq = p.2 := by
  obtain ⟨ring₀, hinit⟩ := optyRingInit_ok zeroAlloc 5 (by decide) rfl
  obtain ⟨hcap₀, hrep₀⟩ := represents_init hinit
  obtain ⟨ring, starts, hall, hcap, hrep, -⟩ := appendAll_represents [[104, 105]] hrep₀ (by decide)
  have hx := h ring₀ hinit
  rw [hall, Option.bind_some, Option.map_eq_some_iff] at hx
  obtain ⟨x, -, rfl⟩ := hx
  have hbase := hrep.base
  rw [hcap, hcap₀] at hbase
  exact ⟨ring₀, ring, starts, hinit, hall, hbase, x, rfl, rfl⟩

end PositionAux

/-- A client that has printed the `h` prints the `i` and the `!` that follows, and asks for what comes next. -/
theorem positions_agree_iff_behind : ∃ ring₀ ring starts, optyRingInit zeroAlloc (.ok ()) 5 = .ok ring₀ ∧
    optyRingAppendAll ring₀ ([[104, 105]].map Buf.mem) = some (ring, starts) ∧
    ∃ x : Reattached ⟨none, none⟩ ring (.holding 1) [[33]], (∃ base, x.welcome = (Msg.welcome base x.c₂.lastSeq).frame) ∧
      x.c₂.lastSeq = x.server.liveSeq ∧
      ∃ start q, x.AsksFor q ∧ IsLeast {p | 0 ≤ p ∧ p ∉ ({0} : Set Nat) ∪ Set.Ico start 3} q.toNat := by
  obtain ⟨ring₀, ring, starts, hinit, hall, hbase, x, -⟩ := reattach_hi 1 [[33]] (p := (2, 2)) (by
    rintro _ ⟨⟩
    decide +kernel)
  obtain ⟨start, data, -, -, -, hiff⟩ := positions_agree_iff ⟨none, none⟩ zeroAlloc 5 [[104, 105]] [[33]] (by decide) ring₀ ring
    starts hinit hall (.holding 1) x {0} (by rintro _ rfl; decide) 0 (Nat.zero_le _)
  obtain ⟨hw, hagree, q, hq, hleast⟩ := hiff.2 ⟨by decide, fun p _ hp => by
    rw [hbase] at hp
    exact Nat.lt_one_iff.1 hp⟩
  exact ⟨ring₀, ring, starts, hinit, hall, x, hw, hagree, start.toNat, q, hq, hleast⟩

/-- A client that remembers position 10 of an earlier server stays there; this one has recorded position 2 for it. -/
theorem positions_differ_after_restart : ∃ ring₀ ring starts, optyRingInit zeroAlloc (.ok ()) 5 = .ok ring₀ ∧
    optyRingAppendAll ring₀ ([[104, 105]].map Buf.mem) = some (ring, starts) ∧
    ∃ x : Reattached ⟨none, none⟩ ring (.holding 10) [], x.c₂.lastSeq = 10 ∧ x.server.liveSeq = 2 ∧
      ¬((∃ base, x.welcome = (Msg.welcome base x.c₂.lastSeq).frame) ∧ x.c₂.lastSeq = x.server.liveSeq) := by
  obtain ⟨ring₀, ring, starts, hinit, hall, -, x, hc, hs⟩ := reattach_hi 10 [] (p := (10, 2)) (by
    rintro _ ⟨⟩
    decide +kernel)
  refine ⟨ring₀, ring, starts, hinit, hall, x, hc, hs, ?_⟩
  rw [hc, hs]
  exact fun h => absurd h.2 (by decide)

end ZeroPty
