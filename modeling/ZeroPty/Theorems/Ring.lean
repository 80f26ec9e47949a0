import ZeroPty.Lemmas.Ring

/-!
# The ring refines an append-only log
-/

namespace ZeroPty

open Memory RingAux

/-- A run of appends, of any chunks: what one append keeps, every append keeps. -/
theorem appendAll_represents (chunks : List (List UInt8)) : ∀ {ring : Ring} {log : List UInt8}, ring.Represents log →
    log.length + chunks.flatten.length < 2 ^ 64 →
    ∃ ring' starts, optyRingAppendAll ring (chunks.map Buf.mem) = some (ring', starts) ∧ ring'.cap = ring.cap ∧
      ring'.Represents (log ++ chunks.flatten) ∧ starts.length = chunks.length ∧
      ∀ k s, starts[k]? = some s → s.toNat = log.length + (chunks.take k).flatten.length := by
  induction chunks with
  | nil =>
    intro ring log h _
    exact ⟨ring, [], rfl, rfl, by simpa using h, rfl, by simp⟩
  | cons c cs ih =>
    intro ring log h hlen
    rw [List.flatten_cons, List.length_append] at hlen
    obtain ⟨r1, happ, hcap1, hrep1⟩ := append_represents h c (by omega)
    obtain ⟨r2, ss, hall, hcap2, hrep2, hss, hstart⟩ := ih hrep1 (by rw [List.length_append]; omega)
    refine ⟨r2, ring.nextSeq :: ss, ?_, hcap2.trans hcap1, ?_, by simp [hss], ?_⟩
    · simp only [List.map_cons, optyRingAppendAll, happ, Option.bind_some, hall]
    · rw [List.flatten_cons, ← List.append_assoc]
      exact hrep2
    · intro k s hk
      cases k with
      | zero =>
        simp only [List.getElem?_cons_zero, Option.some.injEq] at hk
        subst hk
        simp [h.next]
      | succ k =>
        rw [List.getElem?_cons_succ] at hk
        rw [hstart k s hk, List.take_succ_cons, List.flatten_cons, List.length_append, List.length_append]
        omega

/-- The ring buffer refines an append-only log. A ring of any capacity, after any appends of a total length below `2 ^ 64`: its next
sequence is the length of the log and its base the length less the capacity; each append reported the length of the log before
it and formed no sum that wraps; and a snapshot from any requested position is the log from that position, moved into the
bounds, to the end. Every copy of both functions is inside its blocks: outside one of them the result would be `none`. -/
theorem ring_refines_log (malloc : Alloc UInt8) (hmalloc : ∀ n, (malloc n).isSome) (capacity : UInt64)
    (hcapacity : 1 ≤ capacity.toNat) (chunks : List (List UInt8)) (hlen : chunks.flatten.length < 2 ^ 64)
    (requestedSeq : UInt64) :
    ∃ ring₀ ring starts, optyRingInit malloc (.ok ()) capacity = .ok ring₀ ∧
      optyRingAppendAll ring₀ (chunks.map Buf.mem) = some (ring, starts) ∧
      ring.nextSeq.toNat = chunks.flatten.length ∧
      ring.baseSeq.toNat = max 0 (chunks.flatten.length - capacity.toNat) ∧
      (starts.length = chunks.length ∧ ∀ k s, starts[k]? = some s → s.toNat = (chunks.take k).flatten.length) ∧
      (∃ snap, optyRingSnapshotWindow malloc ring requestedSeq = some snap ∧
        snap.baseSeq = ring.baseSeq ∧ snap.nextSeq = ring.nextSeq ∧
        snap.fromSeq.toNat = max ring.baseSeq.toNat (min requestedSeq.toNat ring.nextSeq.toNat) ∧
        snap.len.toNat = ring.nextSeq.toNat - snap.fromSeq.toNat ∧
        snap.bytes = window chunks.flatten snap.fromSeq.toNat chunks.flatten.length ∧
        (snap.out = none ↔ snap.len = 0)) ∧
      (∀ pre c post, chunks = pre ++ c :: post →
        ∃ r ss, optyRingAppendAll ring₀ (pre.map Buf.mem) = some (r, ss) ∧
          r.nextSeq.toNat + c.length < 2 ^ 64 ∧ (r.nextSeq - r.baseSeq).toNat + c.length < 2 ^ 64 ∧
          r.nextSeq.toNat + (c.length - min c.length capacity.toNat) < 2 ^ 64) := by
  obtain ⟨ring₀, hinit⟩ := optyRingInit_ok malloc capacity hcapacity (hmalloc _)
  obtain ⟨hcap₀, hrep₀⟩ := represents_init hinit
  obtain ⟨ring, starts, hall, hcap, hrep, hss, hstart⟩ := appendAll_represents chunks hrep₀ (by simpa using hlen)
  rw [List.nil_append] at hrep
  have hc : ring.cap.toNat = capacity.toNat := by rw [hcap, hcap₀]
  refine ⟨ring₀, ring, starts, hinit, hall, hrep.next, ?_, ⟨hss, fun k s hk => by simpa using hstart k s hk⟩, ?_, ?_⟩
  · rw [hrep.base, hc]
    omega
  · obtain ⟨snap, hsnap, hb, hn, hf, hl, hbytes, hout⟩ := snapshot_represents hrep malloc hmalloc requestedSeq
    refine ⟨snap, hsnap, hb, hn, ?_, ?_, ?_, hout⟩
    · rw [hf]
      exact toNat_clampSeq ring requestedSeq hrep.base_le_next
    · rw [hl, hrep.next]
    · rw [hbytes, window_length]
  · rintro pre c post rfl
    rw [List.flatten_append, List.flatten_cons, List.length_append, List.length_append] at hlen
    obtain ⟨r, ss, hpre, hcap', hrep', -⟩ := appendAll_represents pre hrep₀
      (by rw [List.length_nil]; omega)
    rw [List.nil_append] at hrep'
    have hw := append_no_wrap c hrep' (by omega)
    rw [hcap', hcap₀] at hw
    exact ⟨r, ss, hpre, hw⟩

/-- An allocator that never refuses and clears what it returns. -/
def zeroAlloc : Alloc UInt8 := fun n => some (.fill n 0)

/-- Five bytes of room, an append of three and one of seven: the second overwrites the whole buffer, as in the source's own test. -/
theorem ring_refines_log_wraps :
    ∃ ring₀ ring starts, optyRingInit zeroAlloc (.ok ()) 5 = .ok ring₀ ∧
      optyRingAppendAll ring₀ ([[97, 98, 99], [100, 101, 102, 103, 104, 105, 106]].map Buf.mem) = some (ring, starts) ∧
      ring.nextSeq.toNat = 10 ∧ ring.baseSeq.toNat = 5 := by
  obtain ⟨ring₀, ring, starts, h0, h, hn, hb, -⟩ := ring_refines_log zeroAlloc (fun _ => rfl) 5 (by decide)
    [[97, 98, 99], [100, 101, 102, 103, 104, 105, 106]] (by decide) 2
  exact ⟨ring₀, ring, starts, h0, h, hn, hb⟩

end ZeroPty
