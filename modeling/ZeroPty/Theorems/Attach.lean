import ZeroPty.Lemmas.Server
import ZeroPty.Theorems.Ring

/-!
# When an authorised attach succeeds

`opty_send_replay` puts the whole replay into one frame, and a frame has a largest size; the ring may be larger.
-/

namespace ZeroPty

open Stream Memory

/-- The attach succeeded: `server_process_intro` returned 0, and the socket was sent a WELCOME and a REPLAY with the bytes of the
ring from the requested position, moved into its bounds, to its end. -/
def AttachSucceeds (cfg : Config) (malloc : Alloc UInt8) (ring : Ring) (log : List UInt8) (c : Client) (fd : Sink Errno)
    (frame : Frame) (i : Intro) : Prop :=
  ∃ c' fd', serverProcessIntro cfg malloc true true ring c fd frame = some (0, c', fd', some (i.cols, i.rows)) ∧
    fd'.written = fd.written ++ wireBytes [(Msg.welcome ring.baseSeq ring.nextSeq).frame,
      (Msg.replay (ring.clampSeq i.requestedSeq)
        (window log (ring.clampSeq i.requestedSeq).toNat ring.nextSeq.toNat)).frame]

namespace AttachAux

/-- What `server_process_intro` does for an authorised intro once nothing it depends on fails: it depends on the size of the replay
alone. -/
theorem attachSucceeds_iff {cfg : Config} {malloc : Alloc UInt8} (hm : ∀ n, (malloc n).isSome) {ring : Ring} {log : List UInt8}
    (hring : ring.Represents log) (c : Client) {fd : Sink Errno} (hfd : fd.Benign .eintr) {frame : Frame} {i : Intro}
    (hauth : Authorised cfg frame i) :
    AttachSucceeds cfg malloc ring log c fd frame i ↔
      log.length - max (log.length - ring.cap.toNat) i.requestedSeq.toNat ≤ optyMaxFrame - 9 := by
  obtain ⟨v, hv, hviff⟩ := serverCheckIntro_spec cfg frame
  obtain rfl := (hviff i).2 hauth
  obtain ⟨snap, hattach, hsnap⟩ := serverAttach_ok hring malloc hm c i.requestedSeq
  have hlen : snap.data.len = log.length - max (log.length - ring.cap.toNat) i.requestedSeq.toNat := by
    rw [hsnap.data_len, hring.toNat_clampSeq]
    omega
  obtain ⟨hw1, hw2, hw3⟩ := (optySendWelcome_sends snap.baseSeq snap.nextSeq fd).of_benign hfd
  rcases hwelcome : optySendWelcome fd snap.baseSeq snap.nextSeq with ⟨r1, fd1⟩
  simp only [hwelcome] at hw1 hw2 hw3
  subst hw1
  simp only [AttachSucceeds, serverProcessIntro, hv, Option.bind_some, if_true, serverSendWelcomeAndReplay, hattach,
    Option.map_some, hwelcome]
  rw [← hlen]
  constructor
  · rintro ⟨c', fd', h, -⟩
    by_contra hbig
    obtain ⟨e, he⟩ := optySendStreamFrame_refuses snap.fromSeq snap.data true msgReplay (Or.inr (Nat.lt_of_not_le hbig)) fd1
    have hreplay : optySendReplay true fd1 snap.fromSeq snap.data = (.error e, fd1) := he
    simp only [hreplay] at h
    cases h
  · intro hfit
    obtain ⟨hr1, hr2, -⟩ := (optySendReplay_sends snap.fromSeq snap.data hsnap.readable hfit fd1).of_benign hw3
    rcases hreplay : optySendReplay true fd1 snap.fromSeq snap.data with ⟨r2, fd2⟩
    simp only [hreplay] at hr1 hr2
    subst hr1
    refine ⟨_, fd2, rfl, ?_⟩
    rw [hr2, hw2, hsnap.base, hsnap.next, hsnap.bytes, hsnap.start, hring.next, window_length]
    simp [wireBytes]

end AttachAux

open AttachAux

/-- When an authorised attach succeeds. For every size of the ring, everything that was appended to it, and every HELLO or
RECONNECT that is authorised, over a socket without failures and with allocations and the resize succeeding: the attach succeeds
exactly when the bytes of the ring at and after the requested position fit into one REPLAY frame. -/
theorem attach_succeeds_iff (cfg : Config) (malloc : Alloc UInt8) (hmalloc : ∀ n, (malloc n).isSome) (capacity : UInt64)
    (chunks : List (List UInt8)) (hlen : chunks.flatten.length < 2 ^ 64) (ring₀ ring : Ring) (starts : List UInt64)
    (hinit : optyRingInit malloc (.ok ()) capacity = .ok ring₀)
    (happend : optyRingAppendAll ring₀ (chunks.map Buf.mem) = some (ring, starts)) (c : Client) (fd : Sink Errno)
    (hfd : fd.Benign .eintr) (frame : Frame) (i : Intro) (hauth : Authorised cfg frame i) :
    AttachSucceeds cfg malloc ring chunks.flatten c fd frame i ↔
      chunks.flatten.length - max (chunks.flatten.length - capacity.toNat) i.requestedSeq.toNat ≤ optyMaxFrame - 9 := by
  obtain ⟨hcap₀, hrep₀⟩ := represents_init hinit
  obtain ⟨r, ss, hall, hcap, hrep, -⟩ := appendAll_represents chunks hrep₀ (by simpa using hlen)
  rw [happend] at hall
  cases hall
  rw [← hcap₀, ← hcap]
  exact attachSucceeds_iff hmalloc hrep c hfd hauth

/-- A HELLO without a token, on a server without one. -/
theorem hello_authorised : Authorised ⟨none, none⟩ (Msg.hello 80 24 []).frame ⟨0, 80, 24⟩ :=
  ⟨by decide, by decide, [], by decide, nofun, Or.inl ⟨rfl, rfl⟩⟩

theorem benign_default : Sink.Benign Errno.eintr {} := ⟨rfl, fun _ _ h => nomatch h⟩

/-- Five bytes in a ring of the default size are replayed. -/
theorem attach_succeeds_iff_small : ∃ ring₀ ring starts,
    optyRingInit zeroAlloc (.ok ()) (.ofNat optyDefaultRingSize) = .ok ring₀ ∧
      optyRingAppendAll ring₀ ([[104, 101, 108, 108, 111]].map Buf.mem) = some (ring, starts) ∧
      AttachSucceeds ⟨none, none⟩ zeroAlloc ring [104, 101, 108, 108, 111] .new {} (Msg.hello 80 24 []).frame ⟨0, 80, 24⟩ := by
  obtain ⟨ring₀, hinit⟩ := optyRingInit_ok zeroAlloc (.ofNat optyDefaultRingSize) (by decide) rfl
  obtain ⟨hcap₀, hrep₀⟩ := represents_init hinit
  obtain ⟨ring, starts, hall, -⟩ := appendAll_represents [[104, 101, 108, 108, 111]] hrep₀ (by decide)
  refine ⟨ring₀, ring, starts, hinit, hall, ?_⟩
  exact (attach_succeeds_iff ⟨none, none⟩ zeroAlloc (fun _ => rfl) _ [[104, 101, 108, 108, 111]] (by decide) ring₀ ring starts
    hinit hall .new {} benign_default _ ⟨0, 80, 24⟩ hello_authorised).2 (by decide)

/-- A ring of 16 MiB, filled by 4096 reads of 4096 bytes: the attach of an authorised HELLO fails. -/
theorem attach_fails_when_full : ∃ ring₀ ring starts,
    optyRingInit zeroAlloc (.ok ()) (.ofNat optyMaxFrame) = .ok ring₀ ∧
      optyRingAppendAll ring₀ ((List.replicate 4096 (List.replicate 4096 97)).map Buf.mem) = some (ring, starts) ∧
      Authorised ⟨none, none⟩ (Msg.hello 80 24 []).frame ⟨0, 80, 24⟩ ∧ Sink.Benign Errno.eintr {} ∧
      ¬AttachSucceeds ⟨none, none⟩ zeroAlloc ring (List.replicate 4096 (List.replicate 4096 97)).flatten .new {}
        (Msg.hello 80 24 []).frame ⟨0, 80, 24⟩ := by
  have hlen : (List.replicate 4096 (List.replicate 4096 (97 : UInt8))).flatten.length = optyMaxFrame := by
    rw [List.length_flatten, List.map_replicate, List.sum_replicate_nat, List.length_replicate]
    decide
  obtain ⟨ring₀, hinit⟩ := optyRingInit_ok zeroAlloc (.ofNat optyMaxFrame) (by decide) rfl
  obtain ⟨hcap₀, hrep₀⟩ := represents_init hinit
  obtain ⟨ring, starts, hall, hcap, hrep, -⟩ := appendAll_represents (List.replicate 4096 (List.replicate 4096 97)) hrep₀
    (by rw [hlen, List.length_nil]; decide)
  refine ⟨ring₀, ring, starts, hinit, hall, hello_authorised, benign_default, ?_⟩
  rw [List.nil_append] at hrep
  rw [attachSucceeds_iff (fun _ => rfl) hrep .new benign_default hello_authorised, hlen, hcap, hcap₀]
  decide

end ZeroPty
