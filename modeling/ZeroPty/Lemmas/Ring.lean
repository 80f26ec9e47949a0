import ZeroPty.Ring

/-!
# A ring is the end of a log

One lemma for each function: `represents_init`, `append_represents`, `snapshot_represents`. Each reads the 64-bit words as the
numbers they stand for, which is right because no sum wraps while the log is shorter than `2 ^ 64`, and leaves the two-part copies
to the circular storage.
-/

namespace ZeroPty

open Memory

namespace RingAux

theorem toNat_optyMinSize (a b : UInt64) : (optyMinSize a b).toNat = min a.toNat b.toNat := by
  unfold optyMinSize
  split
  · rename_i h
    rw [UInt64.lt_iff_toNat_lt] at h
    omega
  · rename_i h
    rw [UInt64.lt_iff_toNat_lt] at h
    omega

/-- The position a snapshot starts at, read as a number: the requested one moved into the bounds. -/
theorem toNat_clampSeq (ring : Ring) (req : UInt64) (h : ring.baseSeq.toNat ≤ ring.nextSeq.toNat) :
    (ring.clampSeq req).toNat = max ring.baseSeq.toNat (min req.toNat ring.nextSeq.toNat) := by
  unfold Ring.clampSeq
  split
  · rename_i h1
    rw [UInt64.lt_iff_toNat_lt] at h1
    omega
  · rename_i h1
    rw [UInt64.lt_iff_toNat_lt] at h1
    split
    · rename_i h2
      rw [UInt64.lt_iff_toNat_lt] at h2
      omega
    · rename_i h2
      rw [UInt64.lt_iff_toNat_lt] at h2
      omega

theorem toNat_ofNat_length {l : List UInt8} (h : l.length < 2 ^ 64) : (UInt64.ofNat l.length).toNat = l.length := by
  rw [UInt64.toNat_ofNat']
  exact Nat.mod_eq_of_lt h

end RingAux

open RingAux

/-- The bounds of a ring that is the end of a log are in order. -/
theorem Ring.Represents.base_le_next {ring : Ring} {log : List UInt8} (h : ring.Represents log) :
    ring.baseSeq.toNat ≤ ring.nextSeq.toNat := by
  rw [h.base, h.next]
  omega

/-- A new ring is the end of the empty log. -/
theorem represents_init {malloc : Alloc UInt8} {mu : Except Errno Unit} {capacity : UInt64} {ring : Ring}
    (h : optyRingInit malloc mu capacity = .ok ring) : ring.cap = capacity ∧ ring.Represents [] := by
  unfold optyRingInit at h
  split at h
  · nomatch h
  · split at h
    · nomatch h
    · split at h
      · nomatch h
      · cases h
        exact ⟨rfl, by simp, rfl, by simp, Circular.Holds.nil _ _⟩

/-- `opty_ring_init` succeeds for every size that is not zero once its allocation and its mutex do. -/
theorem optyRingInit_ok (malloc : Alloc UInt8) (capacity : UInt64) (hc : 0 < capacity.toNat)
    (hm : (malloc capacity.toNat).isSome) : ∃ ring, optyRingInit malloc (.ok ()) capacity = .ok ring := by
  obtain ⟨buf, hb⟩ := Option.isSome_iff_exists.1 hm
  unfold optyRingInit
  rw [dif_neg (by omega), hb]
  exact ⟨_, rfl⟩

/-- The three sums `opty_ring_append` forms do not wrap while the log stays shorter than `2 ^ 64`. -/
theorem append_no_wrap {ring : Ring} {log : List UInt8} (bytes : List UInt8) (h : ring.Represents log)
    (hlen : log.length + bytes.length < 2 ^ 64) :
    ring.nextSeq.toNat + bytes.length < 2 ^ 64 ∧
      (ring.nextSeq - ring.baseSeq).toNat + bytes.length < 2 ^ 64 ∧
      ring.nextSeq.toNat + (bytes.length - min bytes.length ring.cap.toNat) < 2 ^ 64 := by
  have hw : (ring.nextSeq - ring.baseSeq).toNat = ring.nextSeq.toNat - ring.baseSeq.toNat :=
    UInt64.toNat_sub_of_le _ _ (UInt64.le_iff_toNat_le.2 h.base_le_next)
  rw [hw, h.next]
  omega

/-- Appending bytes to a ring that is the end of a log: the copies are inside their blocks, the start reported is the length of the
log, and the ring is the end of the longer log. -/
theorem append_represents {ring : Ring} {log : List UInt8} (h : ring.Represents log) (bytes : List UInt8)
    (hlen : log.length + bytes.length < 2 ^ 64) :
    ∃ ring', optyRingAppend ring (.mem bytes) = some (ring', ring.nextSeq) ∧ ring'.cap = ring.cap ∧
      ring'.Represents (log ++ bytes) := by
  have hcap := ring.cap_pos
  have hC : ring.cap.toNat < 2 ^ 64 := UInt64.toNat_lt _
  have hn : (UInt64.ofNat bytes.length).toNat = bytes.length := toNat_ofNat_length (by omega)
  by_cases h0 : bytes.length = 0
  · have hnil : bytes = [] := List.eq_nil_of_length_eq_zero h0
    subst hnil
    exact ⟨ring, rfl, rfl, by rw [List.append_nil]; exact h⟩
  have hne : UInt64.ofNat bytes.length ≠ 0 := by
    intro he
    rw [he] at hn
    exact h0 hn.symm
  have hw : (ring.nextSeq - ring.baseSeq).toNat = ring.nextSeq.toNat - ring.baseSeq.toNat :=
    UInt64.toNat_sub_of_le _ _ (UInt64.le_iff_toNat_le.2 h.base_le_next)
  simp only [optyRingAppend, if_neg hne]
  generalize hlenE : UInt64.ofNat bytes.length = len at hn hne
  -- the words of the computation, read as numbers
  generalize hkeepE : optyMinSize len ring.cap = keep
  have hkeep : keep.toNat = min bytes.length ring.cap.toNat := by rw [← hkeepE, toNat_optyMinSize, hn]
  have hoff : (len - keep).toNat = bytes.length - keep.toNat := by
    rw [UInt64.toNat_sub_of_le _ _ (UInt64.le_iff_toNat_le.2 (by omega)), hn]
  have hdest : ((ring.nextSeq + (len - keep)) % ring.cap).toNat =
      (log.length + (bytes.length - keep.toNat)) % ring.cap.toNat := by
    rw [UInt64.toNat_mod, UInt64.toNat_add, hoff, h.next, Nat.mod_eq_of_lt (a := _ + _) (by omega)]
  have hdlt : ((ring.nextSeq + (len - keep)) % ring.cap).toNat < ring.cap.toNat := by
    rw [UInt64.toNat_mod]
    exact Nat.mod_lt _ hcap
  generalize hdestE : (ring.nextSeq + (len - keep)) % ring.cap = dest at hdest hdlt
  have hrest : (ring.cap - dest).toNat = ring.cap.toNat - dest.toNat :=
    UInt64.toNat_sub_of_le _ _ (UInt64.le_iff_toNat_le.2 (by omega))
  generalize hfirstE : optyMinSize (ring.cap - dest) keep = first
  have hfirst : first.toNat = min (ring.cap.toNat - dest.toNat) keep.toNat := by
    rw [← hfirstE, toNat_optyMinSize, hrest]
  have hoff2 : (len - keep + first).toNat = bytes.length - keep.toNat + first.toNat := by
    rw [UInt64.toNat_add, hoff, Nat.mod_eq_of_lt (by omega)]
  have hlt : (first < keep) ↔ first.toNat < keep.toNat := UInt64.lt_iff_toNat_lt
  have hsub : (keep - first).toNat = keep.toNat - first.toNat :=
    UInt64.toNat_sub_of_le _ _ (UInt64.le_iff_toNat_le.2 (by omega))
  -- the two copies are one write of consecutive positions
  obtain ⟨out, hout, hval⟩ := Circular.memcpy_put ring.buf hcap bytes (log.length + (bytes.length - keep.toNat))
    (bytes.length - keep.toNat) keep.toNat first.toNat (by omega) (by omega) (by rw [hfirst, hdest])
  rw [← hdest] at hout
  simp only [hoff, hoff2, hlt, hsub]
  rw [← Option.bind_assoc, hout]
  refine ⟨_, rfl, rfl, ?_⟩
  have hnext : (ring.nextSeq + len).toNat = log.length + bytes.length := by
    rw [UInt64.toNat_add, hn, h.next, Nat.mod_eq_of_lt (by omega)]
  refine ⟨by rw [List.length_append]; exact hlen, by rw [List.length_append]; exact hnext, ?_, ?_⟩
  · -- the base moves exactly when the window outgrows the buffer
    have hsum : (ring.nextSeq - ring.baseSeq + len).toNat = log.length - ring.baseSeq.toNat + bytes.length := by
      rw [UInt64.toNat_add, hw, hn, h.next, Nat.mod_eq_of_lt (by omega)]
    rw [List.length_append]
    change (if ring.cap < ring.nextSeq - ring.baseSeq + len then ring.nextSeq + len - ring.cap else ring.baseSeq).toNat =
      log.length + bytes.length - ring.cap.toNat
    have hb := h.base
    split
    · rename_i hgt
      rw [UInt64.lt_iff_toNat_lt, hsum] at hgt
      rw [UInt64.toNat_sub_of_le _ _ (UInt64.le_iff_toNat_le.2 (by omega)), hnext]
    · rename_i hgt
      rw [UInt64.lt_iff_toNat_lt, hsum] at hgt
      omega
  · rw [List.length_append]
    change Circular.Holds out.cells (log ++ bytes) (log.length + bytes.length - ring.cap.toNat)
    rw [hval]
    have hbl : ring.buf.cells.length = ring.cap.toNat := ring.buf.length_eq
    exact h.holds.put (by omega) bytes (bytes.length - keep.toNat) _ (by omega) (by omega) (by omega) (by omega) (by omega)

/-- A snapshot of a ring that is the end of a log: the copies are inside their blocks, and what is returned is the log from the
requested position, moved into the bounds of the ring, to its end. -/
theorem snapshot_represents {ring : Ring} {log : List UInt8} (h : ring.Represents log) (malloc : Alloc UInt8)
    (hm : ∀ n, (malloc n).isSome) (req : UInt64) :
    ∃ snap, optyRingSnapshotWindow malloc ring req = some snap ∧ snap.baseSeq = ring.baseSeq ∧
      snap.nextSeq = ring.nextSeq ∧ snap.fromSeq = ring.clampSeq req ∧
      snap.len.toNat = log.length - snap.fromSeq.toNat ∧ snap.bytes = log.drop snap.fromSeq.toNat ∧
      (snap.out = none ↔ snap.len = 0) := by
  have hcap := ring.cap_pos
  have hfrom := toNat_clampSeq ring req h.base_le_next
  have hb := h.base
  have hnx := h.next
  unfold optyRingSnapshotWindow
  generalize ring.clampSeq req = fromSeq at hfrom
  have hlen : (ring.nextSeq - fromSeq).toNat = log.length - fromSeq.toNat := by
    rw [UInt64.toNat_sub_of_le _ _ (UInt64.le_iff_toNat_le.2 (by omega)), h.next]
  simp only
  generalize houtE : ring.nextSeq - fromSeq = outLen at hlen
  by_cases h0 : outLen = 0
  · rw [if_pos h0]
    refine ⟨_, rfl, rfl, rfl, rfl, hlen, ?_, by simp [h0]⟩
    have : log.length ≤ fromSeq.toNat := by
      rw [h0] at hlen
      have : (0 : UInt64).toNat = 0 := rfl
      omega
    exact (List.drop_of_length_le this).symm
  rw [if_neg h0]
  obtain ⟨mem, hmem⟩ := Option.isSome_iff_exists.1 (hm outLen.toNat)
  simp only [hmem]
  have hstart : (fromSeq % ring.cap).toNat = fromSeq.toNat % ring.cap.toNat := UInt64.toNat_mod _ _
  have hslt : fromSeq.toNat % ring.cap.toNat < ring.cap.toNat := Nat.mod_lt _ hcap
  generalize hstartE : fromSeq % ring.cap = start at hstart
  have hrest : (ring.cap - start).toNat = ring.cap.toNat - start.toNat :=
    UInt64.toNat_sub_of_le _ _ (UInt64.le_iff_toNat_le.2 (by omega))
  generalize hfirstE : optyMinSize (ring.cap - start) outLen = first
  have hfirst : first.toNat = min (ring.cap.toNat - start.toNat) outLen.toNat := by
    rw [← hfirstE, toNat_optyMinSize, hrest]
  have hlt : (first < outLen) ↔ first.toNat < outLen.toNat := UInt64.lt_iff_toNat_lt
  have hsub : (outLen - first).toNat = outLen.toNat - first.toNat :=
    UInt64.toNat_sub_of_le _ _ (UInt64.le_iff_toNat_le.2 (by omega))
  obtain ⟨out, hout, hval⟩ := Circular.memcpy_get ring.buf mem hcap fromSeq.toNat first.toNat (by omega)
    (by rw [hfirst, hstart])
  rw [← hstart] at hout
  simp only [hlt, hsub]
  rw [← Option.bind_assoc, hout]
  have hbl : ring.buf.cells.length = ring.cap.toNat := ring.buf.length_eq
  refine ⟨_, rfl, rfl, rfl, rfl, hlen, ?_, by simp [h0]⟩
  change out.cells = _
  rw [hval, hlen]
  exact h.holds.get (by omega) (by omega) (by omega) (by omega)

/-! ## However much is appended

The copies stay inside their blocks also when the sequence numbers wrap: the indices are taken modulo the capacity and cut to
what is there. -/

/-- The window between the bounds of the ring is no larger than its buffer. -/
def Ring.Bounded (ring : Ring) : Prop := (ring.nextSeq - ring.baseSeq).toNat ≤ ring.cap.toNat

theorem Ring.Represents.bounded {ring : Ring} {log : List UInt8} (h : ring.Represents log) : ring.Bounded := by
  rw [Ring.Bounded, UInt64.toNat_sub_of_le _ _ (UInt64.le_iff_toNat_le.2 h.base_le_next), h.next, h.base]
  omega

/-- An append to a bounded ring stays inside its blocks and leaves it bounded. -/
theorem append_bounded {ring : Ring} (h : ring.Bounded) (bytes : List UInt8) (hlen : bytes.length < 2 ^ 64) :
    ∃ r, optyRingAppend ring (.mem bytes) = some r ∧ r.1.Bounded := by
  have hcap := ring.cap_pos
  have hn : (UInt64.ofNat bytes.length).toNat = bytes.length := toNat_ofNat_length hlen
  simp only [optyRingAppend]
  generalize UInt64.ofNat bytes.length = len at hn
  by_cases h0 : len = 0
  · rw [if_pos h0]
    exact ⟨_, rfl, h⟩
  rw [if_neg h0]
  generalize hkeepE : optyMinSize len ring.cap = keep
  have hkeep : keep.toNat = min bytes.length ring.cap.toNat := by rw [← hkeepE, toNat_optyMinSize, hn]
  have hoff : (len - keep).toNat = bytes.length - keep.toNat := by
    rw [UInt64.toNat_sub_of_le _ _ (UInt64.le_iff_toNat_le.2 (by omega)), hn]
  have hdlt : ((ring.nextSeq + (len - keep)) % ring.cap).toNat < ring.cap.toNat := by
    rw [UInt64.toNat_mod]
    exact Nat.mod_lt _ hcap
  generalize (ring.nextSeq + (len - keep)) % ring.cap = dest at hdlt
  have hrest : (ring.cap - dest).toNat = ring.cap.toNat - dest.toNat :=
    UInt64.toNat_sub_of_le _ _ (UInt64.le_iff_toNat_le.2 (by omega))
  generalize hfirstE : optyMinSize (ring.cap - dest) keep = first
  have hfirst : first.toNat = min (ring.cap.toNat - dest.toNat) keep.toNat := by
    rw [← hfirstE, toNat_optyMinSize, hrest]
  have hoff2 : (len - keep + first).toNat = bytes.length - keep.toNat + first.toNat := by
    rw [UInt64.toNat_add, hoff, Nat.mod_eq_of_lt (by omega)]
  have hsub : (keep - first).toNat = keep.toNat - first.toNat :=
    UInt64.toNat_sub_of_le _ _ (UInt64.le_iff_toNat_le.2 (by omega))
  obtain ⟨buf1, hbuf1, -⟩ := memcpy_eq_some ring.buf bytes (d := dest.toNat) (s := (len - keep).toNat)
    (k := first.toNat) (by omega) (by omega)
  obtain ⟨buf2, hbuf2, -⟩ := memcpy_eq_some buf1 bytes (d := 0) (s := (len - keep + first).toNat)
    (k := (keep - first).toNat) (by omega) (by omega)
  have hcopy : ∃ buf, (if first < keep then memcpy buf1 0 bytes (len - keep + first).toNat (keep - first).toNat
      else some buf1) = some buf := by
    by_cases hlt : first < keep
    · exact ⟨buf2, by rw [if_pos hlt, hbuf2]⟩
    · exact ⟨buf1, if_neg hlt⟩
  obtain ⟨buf, hbuf⟩ := hcopy
  rw [hbuf1, Option.bind_some, hbuf, Option.bind_some]
  refine ⟨_, rfl, ?_⟩
  -- the base follows the end at the distance of the capacity once the window outgrows it
  simp only [Ring.Bounded]
  by_cases hgt : ring.cap < ring.nextSeq - ring.baseSeq + len
  · have hfull : ring.nextSeq + len - (ring.nextSeq + len - ring.cap) = ring.cap := by grind
    rw [if_pos hgt]
    exact Nat.le_of_eq (congrArg UInt64.toNat hfull)
  · rw [if_neg hgt, show ring.nextSeq + len - ring.baseSeq = ring.nextSeq - ring.baseSeq + len by grind]
    exact UInt64.le_iff_toNat_le.1 (UInt64.not_lt.1 hgt)

/-- A snapshot of a bounded ring stays inside its blocks, whatever its allocation does. -/
theorem snapshot_bounded {ring : Ring} (h : ring.Bounded) (malloc : Alloc UInt8) (req : UInt64) :
    ∃ snap, optyRingSnapshotWindow malloc ring req = some snap := by
  have hcap := ring.cap_pos
  have hlen : (ring.nextSeq - ring.clampSeq req).toNat ≤ ring.cap.toNat := by
    unfold Ring.clampSeq
    split
    · exact h
    · rename_i h1
      split
      · rw [UInt64.sub_self]
        exact Nat.zero_le _
      · rename_i h2
        rw [UInt64.not_lt, UInt64.le_iff_toNat_le] at h1 h2
        rw [Ring.Bounded, UInt64.toNat_sub_of_le _ _ (UInt64.le_iff_toNat_le.2 (by omega))] at h
        rw [UInt64.toNat_sub_of_le _ _ (UInt64.le_iff_toNat_le.2 h2)]
        omega
  simp only [optyRingSnapshotWindow]
  generalize ring.clampSeq req = fromSeq at hlen
  generalize ring.nextSeq - fromSeq = outLen at hlen
  by_cases h0 : outLen = 0
  · exact ⟨_, if_pos h0⟩
  rw [if_neg h0]
  cases malloc outLen.toNat with
  | none => exact ⟨_, rfl⟩
  | some out =>
    simp only
    have hslt : (fromSeq % ring.cap).toNat < ring.cap.toNat := by
      rw [UInt64.toNat_mod]
      exact Nat.mod_lt _ hcap
    generalize fromSeq % ring.cap = start at hslt
    have hrest : (ring.cap - start).toNat = ring.cap.toNat - start.toNat :=
      UInt64.toNat_sub_of_le _ _ (UInt64.le_iff_toNat_le.2 (by omega))
    generalize hfirstE : optyMinSize (ring.cap - start) outLen = first
    have hfirst : first.toNat = min (ring.cap.toNat - start.toNat) outLen.toNat := by
      rw [← hfirstE, toNat_optyMinSize, hrest]
    have hsub : (outLen - first).toNat = outLen.toNat - first.toNat :=
      UInt64.toNat_sub_of_le _ _ (UInt64.le_iff_toNat_le.2 (by omega))
    have hbl : ring.buf.cells.length = ring.cap.toNat := ring.buf.length_eq
    obtain ⟨out1, hout1, -⟩ := memcpy_eq_some out ring.buf.cells (d := 0) (s := start.toNat) (k := first.toNat)
      (by omega) (by omega)
    obtain ⟨out2, hout2, -⟩ := memcpy_eq_some out1 ring.buf.cells (d := first.toNat) (s := 0)
      (k := (outLen - first).toNat) (by omega) (by omega)
    rw [hout1, Option.bind_some]
    by_cases hlt : first < outLen
    · rw [if_pos hlt, hout2]
      exact ⟨_, rfl⟩
    · rw [if_neg hlt]
      exact ⟨_, rfl⟩

end ZeroPty
