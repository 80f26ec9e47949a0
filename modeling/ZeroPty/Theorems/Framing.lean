import ZeroPty.Lemmas.Framing

/-!
# Framing survives any segmentation and any cut

A list of frames sent one after another, read back in pieces of any sizes from a stream that ends anywhere.
-/

namespace ZeroPty

open Stream

/-- `opty_send_frame` called once for each frame, up to the first failure. -/
def optySendFrames : Sink Errno → List Frame → Except Errno Unit × Sink Errno
  | fd, [] => (.ok (), fd)
  | fd, f :: fs =>
    match optySendFrame fd f.type (.mem f.payload) with
    | (.ok (), fd') => optySendFrames fd' fs
    | (.error e, fd') => (.error e, fd')

/-- A frame received leaves less of the stream. -/
theorem recv_bytes_lt {malloc : Bool} {fd fd' : Source Errno} {limit : Nat} {f : Frame}
    (h : optyRecvFrameLimited malloc fd limit = (.ok (some f), fd')) : fd'.bytes.length < fd.bytes.length := by
  obtain ⟨r, fd'', heq, -, hc⟩ := optyRecvFrameLimited_cases malloc fd limit
  rw [h] at heq
  cases heq
  rcases hc with ⟨g, -, hb, -⟩ | ⟨hr, -⟩ | ⟨n, hr, -⟩ | ⟨hr, -⟩ | ⟨e, hr, -⟩
  · rw [hb, List.length_append, length_frameBytes]
    omega
  · cases hr
  · cases hr
  · cases hr
  · cases hr

/-- `opty_recv_frame_limited` called until it returns no frame: the frames, whether the last return was 1 (`.ok ()`) or -1, and
what is left of the stream. -/
def optyRecvFrames (limit : Nat) (fd : Source Errno) : List Frame × Except Errno Unit × Source Errno :=
  match _h : optyRecvFrameLimited true fd limit with
  | (.ok (some f), fd') =>
    let rest := optyRecvFrames limit fd'
    (f :: rest.1, rest.2)
  | (.ok none, fd') => ([], .ok (), fd')
  | (.error e, fd') => ([], .error e, fd')
termination_by fd.bytes.length
decreasing_by exact recv_bytes_lt _h

/-- The first `k` frames are those that lie completely before the cut. -/
structure CutAt (frames : List Frame) (cut k : Nat) : Prop where
  le_length : k ≤ frames.length
  before : (wireBytes (frames.take k)).length ≤ cut
  after : k < frames.length → cut < (wireBytes (frames.take (k + 1))).length

namespace FramingAux

/-- Sending frames that fit over a descriptor without errors puts exactly their bytes on it. -/
theorem optySendFrames_benign (frames : List Frame) (hfit : ∀ f ∈ frames, f.payload.length ≤ optyMaxFrame - 1) :
    ∀ w : Sink Errno, w.Benign .eintr → (optySendFrames w frames).1 = .ok () ∧
      (optySendFrames w frames).2.written = w.written ++ wireBytes frames := by
  induction frames with
  | nil => intro w _; simp [optySendFrames]
  | cons f fs ih =>
    intro w hw
    have hf : (Buf.mem f.payload).Sendable := ⟨hfit f List.mem_cons_self, rfl⟩
    obtain ⟨hok, hwr, hb⟩ := (optySendFrame_sends w f.type (.mem f.payload) hf).of_benign hw
    obtain ⟨ih1, ih2⟩ := ih (fun g hg => hfit g (List.mem_cons_of_mem _ hg)) _ hb
    have hstep : optySendFrames w (f :: fs) = optySendFrames (optySendFrame w f.type (.mem f.payload)).2 fs := by
      rw [optySendFrames]
      split
      · rename_i fd' heq
        rw [heq]
      · rename_i e fd' heq
        rw [heq] at hok
        cases hok
    rw [hstep]
    refine ⟨ih1, ?_⟩
    rw [ih2, hwr, wireBytes_cons, List.append_assoc]
    rfl

/-- Two streams that start with a length prefix each and agree announce the same length. -/
theorem wirePrefix_append_inj {n m : Nat} (hn : n < 2 ^ 32) (hm : m < 2 ^ 32) {x y : List UInt8}
    (h : wirePrefix (UInt32.ofNat n) ++ x = wirePrefix (UInt32.ofNat m) ++ y) : n = m ∧ x = y := by
  obtain ⟨hpre, hxy⟩ := List.append_inj h (by simp)
  have h1 := (wirePrefix_eq_iff n hn _ _ _ _).1 rfl
  have h2 := (wirePrefix_eq_iff m hm _ _ _ _).1 hpre.symm
  exact ⟨by omega, hxy⟩

section Recv

variable {fd : Source Errno} {limit : Nat} {f : Frame} {rest : List UInt8} {c : Nat}

/-- A stream that starts with a frame and is cut after its prefix starts with its prefix. -/
theorem take_frameBytes (hc : 4 ≤ c) : (frameBytes f ++ rest).take c =
    wirePrefix (UInt32.ofNat (f.payload.length + 1)) ++ (f.type :: f.payload ++ rest).take (c - 4) := by
  rw [frameBytes, List.append_assoc, List.take_append, length_wirePrefix, List.take_of_length_le (by simpa using hc)]

/-- A whole frame at the start of the stream is returned, and the rest of the stream is left. -/
theorem recv_whole (hfd : fd.Benign .eintr) (hb : fd.bytes = frameBytes f ++ rest)
    (hf : f.payload.length ≤ payloadCap limit) :
    ∃ fd', optyRecvFrameLimited true fd limit = (.ok (some f), fd') ∧ fd'.bytes = rest ∧ fd'.Benign .eintr := by
  have hcap := payloadCap_lt limit
  obtain ⟨r, fd', heq, hs, hc⟩ := optyRecvFrameLimited_cases true fd limit
  have hpre : fd.bytes = wirePrefix (UInt32.ofNat (f.payload.length + 1)) ++ (f.type :: f.payload ++ rest) := by
    rw [hb, frameBytes, List.append_assoc]
  rcases hc with ⟨g, rfl, hg, hgl⟩ | ⟨-, hnil, -⟩ | ⟨n, -, hg, hn, hbad⟩ | ⟨-, ⟨-, hlt | ⟨n, x, h1, h2, h3, h4⟩⟩, -⟩ |
    ⟨e, -, -, hbad | hbad⟩
  · obtain ⟨rfl, hrest⟩ := frameBytes_append_inj (by omega) (by omega) (hb.symm.trans hg)
    exact ⟨fd', heq, hrest.symm, hfd.suffix hs⟩
  · rw [hb] at hnil
    exact absurd (List.append_eq_nil_iff.1 hnil).1 (frameBytes_ne_nil f)
  · obtain ⟨rfl, -⟩ := wirePrefix_append_inj hn (by omega) (hg.symm.trans hpre)
    omega
  · rw [hb, List.length_append, length_frameBytes] at hlt
    omega
  · obtain ⟨rfl, rfl⟩ := wirePrefix_append_inj (by omega) (by omega) (h3.symm.trans hpre)
    simp only [List.length_append, List.length_cons] at h4
    omega
  · exact absurd hfd hbad
  · cases hbad

/-- An empty stream is the end. -/
theorem recv_empty (limit : Nat) (hfd : fd.Benign .eintr) (hb : fd.bytes = []) :
    ∃ fd', optyRecvFrameLimited true fd limit = (.ok none, fd') := by
  obtain ⟨r, fd', heq, -, hc⟩ := optyRecvFrameLimited_cases true fd limit
  rcases hc with ⟨g, -, hg, -⟩ | ⟨rfl, -⟩ | ⟨n, -, hg, -⟩ | ⟨-, ⟨hne, -⟩, -⟩ | ⟨e, -, -, hbad | hbad⟩
  · rw [hb] at hg
    exact absurd (List.append_eq_nil_iff.1 hg.symm).1 (frameBytes_ne_nil g)
  · exact ⟨fd', heq⟩
  · rw [hb] at hg
    have := congrArg List.length (List.append_eq_nil_iff.1 hg.symm).1
    simp at this
  · exact absurd hb hne
  · exact absurd hfd hbad
  · cases hbad

/-- A frame cut in the middle is an error, and not an altered frame, unless its length is refused before that. -/
theorem recv_cut (limit : Nat) (hfd : fd.Benign .eintr) (hb : fd.bytes = (frameBytes f ++ rest).take c) (h0 : 0 < c)
    (hc : c < (frameBytes f).length) (hf : f.payload.length < 2 ^ 24) (hbig : payloadCap limit < f.payload.length → c < 4) :
    ∃ fd', optyRecvFrameLimited true fd limit = (.error .econnreset, fd') := by
  have hcap := payloadCap_lt limit
  have hlen : fd.bytes.length = c := by
    rw [hb, List.length_take, List.length_append]
    omega
  rw [length_frameBytes] at hc
  obtain ⟨r, fd', heq, -, hcs⟩ := optyRecvFrameLimited_cases true fd limit
  rcases hcs with ⟨g, -, hg, hgl⟩ | ⟨-, hnil, -⟩ | ⟨n, -, hg, hn, hbad⟩ | ⟨rfl, -⟩ | ⟨e, -, -, hbad | hbad⟩
  · -- a whole frame would have the length its prefix announces
    have hgc : 5 + g.payload.length ≤ c := by
      have := congrArg List.length hg
      rw [List.length_append, length_frameBytes] at this
      omega
    rw [hb, take_frameBytes (by omega), frameBytes, List.append_assoc] at hg
    obtain ⟨he, -⟩ := wirePrefix_append_inj (by omega) (by omega) hg
    omega
  · rw [hnil] at hlen
    exact absurd hlen (by simp only [List.length_nil]; omega)
  · have hc4 : 4 ≤ c := by
      have := congrArg List.length hg
      rw [List.length_append, length_wirePrefix] at this
      omega
    rw [hb, take_frameBytes hc4] at hg
    obtain ⟨he, -⟩ := wirePrefix_append_inj (by omega) hn hg
    omega
  · exact ⟨fd', heq⟩
  · exact absurd hfd hbad
  · cases hbad

/-- A frame whose payload is too long is refused after its four-byte prefix. -/
theorem recv_big (limit : Nat) (hfd : fd.Benign .eintr) (hb : fd.bytes = (frameBytes f ++ rest).take c) (h4 : 4 ≤ c)
    (hf : f.payload.length < 2 ^ 24) (hbig : payloadCap limit < f.payload.length) :
    ∃ fd', optyRecvFrameLimited true fd limit = (.error .emsgsize, fd') ∧ fd'.bytes = fd.bytes.drop 4 := by
  have hcap := payloadCap_lt limit
  rw [take_frameBytes h4] at hb
  obtain ⟨r, fd', heq, -, hcs⟩ := optyRecvFrameLimited_cases true fd limit
  rcases hcs with ⟨g, -, hg, hgl⟩ | ⟨-, hnil, -⟩ | ⟨n, rfl, hg, hn, hbad⟩ | ⟨-, ⟨-, hlt | ⟨n, x, h1, h2, h3, -⟩⟩, -⟩ |
    ⟨e, -, -, hbad | hbad⟩
  · rw [hb, frameBytes, List.append_assoc] at hg
    obtain ⟨he, -⟩ := wirePrefix_append_inj (by omega) (by omega) hg
    omega
  · rw [hb] at hnil
    have := congrArg List.length (List.append_eq_nil_iff.1 hnil).1
    simp at this
  · refine ⟨fd', heq, ?_⟩
    rw [hg, List.drop_append, length_wirePrefix, List.drop_of_length_le (by simp)]
    simp
  · rw [hb, List.length_append, length_wirePrefix] at hlt
    omega
  · rw [hb] at h3
    obtain ⟨he, -⟩ := wirePrefix_append_inj (by omega) (by omega) h3
    omega
  · exact absurd hfd hbad
  · cases hbad

end Recv

/-! ### Runs of receives -/

theorem optyRecvFrames_some {limit : Nat} {fd fd' : Source Errno} {f : Frame}
    (h : optyRecvFrameLimited true fd limit = (.ok (some f), fd')) :
    optyRecvFrames limit fd = (f :: (optyRecvFrames limit fd').1, (optyRecvFrames limit fd').2) := by
  rw [optyRecvFrames]
  split
  · rename_i heq
    rw [h] at heq
    cases heq
    rfl
  · rename_i heq
    rw [h] at heq
    cases heq
  · rename_i heq
    rw [h] at heq
    cases heq

theorem optyRecvFrames_none {limit : Nat} {fd fd' : Source Errno}
    (h : optyRecvFrameLimited true fd limit = (.ok none, fd')) : optyRecvFrames limit fd = ([], .ok (), fd') := by
  rw [optyRecvFrames]
  split
  · rename_i heq
    rw [h] at heq
    cases heq
  · rename_i heq
    rw [h] at heq
    cases heq
    rfl
  · rename_i heq
    rw [h] at heq
    cases heq

theorem optyRecvFrames_error {limit : Nat} {fd fd' : Source Errno} {e : Errno}
    (h : optyRecvFrameLimited true fd limit = (.error e, fd')) : optyRecvFrames limit fd = ([], .error e, fd') := by
  rw [optyRecvFrames]
  split
  · rename_i heq
    rw [h] at heq
    cases heq
  · rename_i heq
    rw [h] at heq
    cases heq
  · rename_i heq
    rw [h] at heq
    cases heq
    rfl

/-- The frames before the cut are received, then the end or an error as the cut is at a boundary or not, as long as no length that is
too long is read before the cut. -/
theorem recvFrames_cut (limit : Nat) (frames : List Frame) (hfit : ∀ f ∈ frames, f.payload.length ≤ optyMaxFrame - 1) :
    ∀ (fd : Source Errno) (cut : Nat), fd.Benign .eintr → fd.bytes = (wireBytes frames).take cut →
      cut ≤ (wireBytes frames).length →
      (∀ pre f post, frames = pre ++ f :: post → payloadCap limit < f.payload.length → cut < (wireBytes pre).length + 4) →
      ∃ k, CutAt frames cut k ∧ ∃ fd', optyRecvFrames limit fd =
        (frames.take k, if (wireBytes (frames.take k)).length = cut then .ok () else .error .econnreset, fd') := by
  have hmax : optyMaxFrame - 1 < 2 ^ 24 := by decide
  induction frames with
  | nil =>
    intro fd cut hfd hb hcut _
    have h0 : cut = 0 := by simpa using hcut
    obtain ⟨fd', hr⟩ := recv_empty limit hfd (by simpa using hb)
    exact ⟨0, ⟨Nat.le_refl _, by simp, fun h => absurd h (by simp)⟩, fd', by rw [optyRecvFrames_none hr]; simp [h0]⟩
  | cons f fs ih =>
    intro fd cut hfd hb hcut hbig
    rw [wireBytes_cons] at hb
    have hf := hfit f List.mem_cons_self
    have hbig0 := hbig [] f fs rfl
    simp only [wireBytes_nil, List.length_nil, Nat.zero_add] at hbig0
    have hone : (wireBytes ((f :: fs).take (0 + 1))).length = (frameBytes f).length := by simp
    by_cases hin : (frameBytes f).length ≤ cut
    · -- the first frame is before the cut
      have hfc : f.payload.length ≤ payloadCap limit := by
        rw [length_frameBytes] at hin
        by_contra hgt
        have := hbig0 (by omega)
        omega
      have hb' : fd.bytes = frameBytes f ++ (wireBytes fs).take (cut - (frameBytes f).length) := by
        rw [hb, List.take_append, List.take_of_length_le hin]
      obtain ⟨fd1, hr, hb1, hfd1⟩ := recv_whole hfd hb' hfc
      rw [wireBytes_cons, List.length_append] at hcut
      obtain ⟨k, hk, fd', hrec⟩ := ih (fun g hg => hfit g (List.mem_cons_of_mem _ hg)) fd1 _ hfd1 hb1 (by omega) (by
        intro pre g post hpost hg
        have := hbig (f :: pre) g post (by rw [hpost]; rfl) hg
        rw [wireBytes_cons, List.length_append] at this
        omega)
      have hlen : ∀ j, (wireBytes ((f :: fs).take (j + 1))).length = (frameBytes f).length + (wireBytes (fs.take j)).length := by
        intro j
        rw [List.take_succ_cons, wireBytes_cons, List.length_append]
      refine ⟨k + 1, ⟨?_, ?_, ?_⟩, fd', ?_⟩
      · have := hk.le_length
        simp only [List.length_cons]
        omega
      · have := hk.before
        rw [hlen]
        omega
      · intro hlt
        have := hk.after (by simpa using hlt)
        rw [hlen]
        omega
      · rw [optyRecvFrames_some hr, hrec, hlen]
        simp only [List.take_succ_cons]
        congr 2
        exact if_congr (by omega) rfl rfl
    · -- the cut is inside the first frame, or before it
      have hin : cut < (frameBytes f).length := by omega
      refine ⟨0, ⟨Nat.zero_le _, by simp, fun _ => by rw [hone]; exact hin⟩, ?_⟩
      by_cases h0 : cut = 0
      · subst h0
        obtain ⟨fd', hr⟩ := recv_empty limit hfd (by simpa using hb)
        exact ⟨fd', by rw [optyRecvFrames_none hr]; simp⟩
      · obtain ⟨fd', hr⟩ := recv_cut limit hfd hb (by omega) hin (by omega) hbig0
        refine ⟨fd', ?_⟩
        rw [optyRecvFrames_error hr, List.take_zero, wireBytes_nil, List.length_nil, if_neg (by omega)]

/-- The first frame whose length is too long ends the receiving, with its prefix consumed and nothing else. -/
theorem recvFrames_big (limit : Nat) (f : Frame) (post : List Frame) (hf : f.payload.length ≤ optyMaxFrame - 1)
    (hbig : payloadCap limit < f.payload.length) (pre : List Frame) (hpre : ∀ g ∈ pre, g.payload.length ≤ payloadCap limit) :
    ∀ (fd : Source Errno) (cut : Nat), fd.Benign .eintr → fd.bytes = (wireBytes (pre ++ f :: post)).take cut →
      (wireBytes pre).length + 4 ≤ cut →
      ∃ fd', optyRecvFrames limit fd = (pre, .error .emsgsize, fd') ∧ fd'.bytes = fd.bytes.drop ((wireBytes pre).length + 4) := by
  have hmax : optyMaxFrame - 1 < 2 ^ 24 := by decide
  induction pre with
  | nil =>
    intro fd cut hfd hb hcut
    rw [List.nil_append, wireBytes_cons] at hb
    obtain ⟨fd', hr, hd⟩ := recv_big limit hfd hb (by simpa using hcut) (by omega) hbig
    exact ⟨fd', by rw [optyRecvFrames_error hr], by simpa using hd⟩
  | cons g pre ih =>
    intro fd cut hfd hb hcut
    rw [List.cons_append, wireBytes_cons] at hb
    rw [wireBytes_cons, List.length_append] at hcut
    have hb' : fd.bytes = frameBytes g ++ (wireBytes (pre ++ f :: post)).take (cut - (frameBytes g).length) := by
      rw [hb, List.take_append, List.take_of_length_le (by omega)]
    obtain ⟨fd1, hr, hb1, hfd1⟩ := recv_whole hfd hb' (hpre g List.mem_cons_self)
    obtain ⟨fd', hrec, hd⟩ := ih (fun x hx => hpre x (List.mem_cons_of_mem _ hx)) fd1 _ hfd1 hb1 (by omega)
    refine ⟨fd', by rw [optyRecvFrames_some hr, hrec], ?_⟩
    rw [hd, hb1, hb', wireBytes_cons, List.length_append, Nat.add_assoc, List.drop_length_add_append]

end FramingAux

open FramingAux

/-- Framing survives any segmentation and any cut. Frames that fit are sent one after another over a descriptor that takes the bytes
in pieces of any sizes, with interruptions anywhere; the stream ends after `cut` bytes and is read in pieces of any sizes, with
interruptions anywhere. Receiving returns exactly the frames before the cut, unchanged and in order, then 1 at a frame boundary
and -1 (never an interruption) elsewhere. With a limit the same holds unless a frame too long for it announces itself before the
cut: the first such frame yields -1 with only its four-byte prefix consumed. On any stream at all, with reads that do anything,
no frame received is longer than the limit and no failure is an interruption. -/
theorem framing_survives_cut (frames : List Frame) (hfit : ∀ f ∈ frames, f.payload.length ≤ optyMaxFrame - 1)
    (w : Sink Errno) (hw : w.Benign .eintr) (hw₀ : w.written = []) (sched : List (ReadEvent Errno))
    (hsched : ∀ e, .fail e ∈ sched → e = .eintr) (cut : Nat) (hcut : cut ≤ (optySendFrames w frames).2.written.length)
    (limit : Nat) :
    ((optySendFrames w frames).1 = .ok () ∧ (optySendFrames w frames).2.written = wireBytes frames) ∧
    (∃ k, CutAt frames cut k ∧ ∃ fd',
      optyRecvFrames (optyMaxFrame - 1) ⟨(optySendFrames w frames).2.written.take cut, sched⟩ =
        (frames.take k, if (wireBytes (frames.take k)).length = cut then .ok () else .error .econnreset, fd')) ∧
    ((∀ pre f post, frames = pre ++ f :: post → min limit (optyMaxFrame - 1) < f.payload.length →
        cut < (wireBytes pre).length + 4) →
      ∃ k, CutAt frames cut k ∧ ∃ fd',
        optyRecvFrames limit ⟨(optySendFrames w frames).2.written.take cut, sched⟩ =
          (frames.take k, if (wireBytes (frames.take k)).length = cut then .ok () else .error .econnreset, fd')) ∧
    (∀ pre f post, frames = pre ++ f :: post → (∀ g ∈ pre, g.payload.length ≤ min limit (optyMaxFrame - 1)) →
      min limit (optyMaxFrame - 1) < f.payload.length → (wireBytes pre).length + 4 ≤ cut →
      ∃ fd', optyRecvFrames limit ⟨(optySendFrames w frames).2.written.take cut, sched⟩ = (pre, .error .emsgsize, fd') ∧
        fd'.bytes = ((optySendFrames w frames).2.written.take cut).drop ((wireBytes pre).length + 4)) ∧
    (∀ (malloc : Bool) (fd : Source Errno), (∀ f, (optyRecvFrameLimited malloc fd limit).1 = .ok (some f) →
        f.payload.length ≤ min limit (optyMaxFrame - 1)) ∧
      ∀ e, (optyRecvFrameLimited malloc fd limit).1 = .error e → e ≠ .eintr) := by
  obtain ⟨hok, hwritten⟩ := optySendFrames_benign frames hfit w hw
  rw [hw₀, List.nil_append] at hwritten
  rw [hwritten] at hcut ⊢
  refine ⟨⟨hok, rfl⟩, ?_, ?_, ?_, ?_⟩
  · refine recvFrames_cut _ frames hfit _ cut hsched rfl hcut ?_
    rintro pre f post rfl hbig
    have := hfit f (by simp)
    simp only [payloadCap, Nat.min_self] at hbig
    omega
  · intro hbig
    exact recvFrames_cut limit frames hfit _ cut hsched rfl hcut hbig
  · rintro pre f post rfl hpre hbig h4
    exact recvFrames_big limit f post (hfit f (by simp)) hbig pre hpre _ cut hsched rfl h4
  · intro malloc fd
    obtain ⟨r, fd', heq, -, hc⟩ := optyRecvFrameLimited_cases malloc fd limit
    rw [heq]
    rcases hc with ⟨g, rfl, -, hg⟩ | ⟨rfl, -⟩ | ⟨n, rfl, -⟩ | ⟨rfl, -⟩ | ⟨e, rfl, he, -⟩
    · exact ⟨fun f hf => by cases hf; exact hg, (by rintro _ ⟨⟩)⟩
    · exact ⟨(by rintro _ ⟨⟩), (by rintro _ ⟨⟩)⟩
    · exact ⟨(by rintro _ ⟨⟩), fun e he => by cases he; decide⟩
    · exact ⟨(by rintro _ ⟨⟩), fun e he => by cases he; decide⟩
    · exact ⟨(by rintro _ ⟨⟩), fun e' he' => by cases he'; exact he⟩

/-- Two frames of seven and five bytes, cut in the second, with interruptions on both sides: the first is received, then -1. -/
theorem framing_survives_cut_inside :
    ∃ k, CutAt [⟨4, [1, 2]⟩, ⟨5, []⟩] 9 k ∧ ∃ fd',
      optyRecvFrames (optyMaxFrame - 1)
          ⟨(optySendFrames ⟨[], [.refuse (some .eintr) false, .accept 3], false⟩ [⟨4, [1, 2]⟩, ⟨5, []⟩]).2.written.take 9,
            [.fail .eintr, .give 1]⟩ =
        ([⟨4, [1, 2]⟩, ⟨5, []⟩].take k,
          if (wireBytes ([⟨4, [1, 2]⟩, ⟨5, []⟩].take k)).length = 9 then .ok () else .error .econnreset, fd') := by
  have hfit : ∀ f ∈ [(⟨4, [1, 2]⟩ : Frame), ⟨5, []⟩], f.payload.length ≤ optyMaxFrame - 1 := by decide
  have hw : Sink.Benign Errno.eintr ⟨[], [.refuse (some .eintr) false, .accept 3], false⟩ := by
    refine ⟨rfl, fun e final h => ?_⟩
    simpa using h
  refine (framing_survives_cut [⟨4, [1, 2]⟩, ⟨5, []⟩] hfit _ hw rfl [.fail .eintr, .give 1] (by simp) 9 ?_ 1).2.1
  rw [(optySendFrames_benign _ hfit _ hw).2]
  decide

end ZeroPty
