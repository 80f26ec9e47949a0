import Mathlib.Algebra.Group.Nat.Defs
import Mathlib.Data.List.Basic

/-!
# Byte streams behind a descriptor

A descriptor transfers bytes in pieces of its own choosing. A `Source` is what is still to be read before the end of the stream,
with what the next reads do: hand out some of it, at least one byte and at most what is asked for, or fail. A `Sink` is what was
written, with what the next writes do. Once the list of events is used up every transfer is whole, so a loop over transfers
that makes progress on each ends: a list of any length stands for every way of splitting, and of interrupting, a transfer
that ends. The errors are those of any type `ε`.
-/

namespace Stream

variable {ε : Type}

/-- What one `read` does: hand out up to `k` bytes (one at least, and what is asked for at most), or fail. -/
inductive ReadEvent (ε : Type) where
  | give (k : Nat)
  | fail (e : ε)
  deriving DecidableEq, Repr

/-- The reading end of a descriptor. -/
structure Source (ε : Type) where
  bytes : List UInt8
  sched : List (ReadEvent ε) := []
  deriving DecidableEq, Repr

/-- The result of `read`: bytes (never none), the end of the stream, or an error. -/
inductive ReadResult (ε : Type) where
  | got (bs : List UInt8)
  | eof
  | error (e : ε)
  deriving DecidableEq, Repr

/-- `read(fd, buf, n)`. -/
def Source.read (s : Source ε) (n : Nat) : ReadResult ε × Source ε :=
  match s.sched with
  | .fail e :: rest => (.error e, { s with sched := rest })
  | .give k :: rest =>
    if s.bytes = [] then (.eof, { s with sched := rest })
    else (.got (s.bytes.take (min (max k 1) n)), { bytes := s.bytes.drop (min (max k 1) n), sched := rest })
  | [] =>
    if s.bytes = [] then (.eof, s)
    else (.got (s.bytes.take n), { s with bytes := s.bytes.drop n })

/-- What is left to do: every read that is not the end of the stream makes it smaller. -/
def Source.measure (s : Source ε) : Nat := s.sched.length + s.bytes.length

/-- What one `write` does: take up to `k` bytes (one at least), or refuse, with an error or with a count of zero; `final` says that
every later write of the descriptor is refused too. -/
inductive WriteEvent (ε : Type) where
  | accept (k : Nat)
  | refuse (e : Option ε) (final : Bool)
  deriving DecidableEq, Repr

/-- The writing end of a descriptor. -/
structure Sink (ε : Type) where
  written : List UInt8 := []
  sched : List (WriteEvent ε) := []
  broken : Bool := false
  deriving DecidableEq, Repr

/-- `write(fd, data, |data|)`: the count, or an error; `gone` is the error of a broken descriptor. -/
def Sink.write (gone : ε) (s : Sink ε) (data : List UInt8) : Except ε Nat × Sink ε :=
  if s.broken then (.error gone, s)
  else
    match s.sched with
    | .accept k :: rest =>
      (.ok (min (max k 1) data.length), { s with written := s.written ++ data.take (min (max k 1) data.length), sched := rest })
    | .refuse (some e) final :: rest => (.error e, { s with sched := rest, broken := final })
    | .refuse none final :: rest => (.ok 0, { s with sched := rest, broken := final })
    | [] => (.ok data.length, { s with written := s.written ++ data })

/-- No event of the source is an error other than an interruption. -/
def Source.Benign (intr : ε) (s : Source ε) : Prop := ∀ e, .fail e ∈ s.sched → e = intr

/-- The sink is not broken, and no event of it is a refusal other than an interruption. -/
def Sink.Benign (intr : ε) (s : Sink ε) : Prop :=
  s.broken = false ∧ ∀ e final, .refuse e final ∈ s.sched → e = some intr ∧ final = false

/-- A refusal other than an interruption is final. -/
def Sink.FailsForGood (intr : ε) (s : Sink ε) : Prop := ∀ e final, .refuse e final ∈ s.sched → e ≠ some intr → final = true

/-- The sink has all of these bytes, or, if it is broken, a first part of them. -/
def Sink.Carries (s : Sink ε) (bytes : List UInt8) : Prop := s.written <+: bytes ∧ (s.broken = false → s.written = bytes)

/-- What a loop that writes all of `bytes`, and goes on after interruptions, may do to a sink: write all of them; or write a
proper first part of them and fail with an error that is not the interruption. -/
inductive Sends (intr : ε) (s : Sink ε) (bytes : List UInt8) : Except ε Unit → Sink ε → Prop where
  | whole (s' : Sink ε) (hb : s.broken = false) (hw : s'.written = s.written ++ bytes) (hs : s'.sched <:+ s.sched)
      (hb' : s'.broken = false) : Sends intr s bytes (.ok ()) s'
  | part (s' : Sink ε) (e : ε) (k : Nat) (he : e ≠ intr) (hk : k < bytes.length)
      (hw : s'.written = s.written ++ bytes.take k) (hs : s'.sched <:+ s.sched) (hbad : ¬s.Benign intr)
      (hbroken : s.broken = true → k = 0 ∧ s'.broken = true) (hgood : s.FailsForGood intr → s'.broken = true) :
      Sends intr s bytes (.error e) s'

/-! ## Reading -/

/-- What a read can do: fail and lose an event; report the end when nothing is left; or hand out a first part, of one byte at
least, of what is left. -/
theorem Source.read_cases (s : Source ε) (n : Nat) :
    (∃ e rest, s.sched = .fail e :: rest ∧ s.read n = (.error e, { s with sched := rest })) ∨
    (s.bytes = [] ∧ ∃ sched, sched <:+ s.sched ∧ s.read n = (.eof, { s with sched := sched })) ∨
    (s.bytes ≠ [] ∧ ∃ k sched, k ≤ n ∧ (0 < n → 0 < k) ∧ sched <:+ s.sched ∧
      (sched.length < s.sched.length ∨ k = n) ∧
      s.read n = (.got (s.bytes.take k), { bytes := s.bytes.drop k, sched := sched })) := by
  unfold Source.read
  split
  · rename_i e rest h
    exact Or.inl ⟨e, rest, h, rfl⟩
  · rename_i k rest h
    by_cases hb : s.bytes = []
    · rw [if_pos hb]
      exact Or.inr (Or.inl ⟨hb, rest, h ▸ List.suffix_cons _ _, rfl⟩)
    · rw [if_neg hb]
      refine Or.inr (Or.inr ⟨hb, min (max k 1) n, rest, Nat.min_le_right _ _, by omega, h ▸ List.suffix_cons _ _, ?_, rfl⟩)
      rw [h, List.length_cons]
      omega
  · rename_i h
    by_cases hb : s.bytes = []
    · rw [if_pos hb]
      exact Or.inr (Or.inl ⟨hb, s.sched, List.suffix_refl _, rfl⟩)
    · rw [if_neg hb]
      exact Or.inr (Or.inr ⟨hb, n, s.sched, Nat.le_refl _, fun h => h, List.suffix_refl _, Or.inr rfl, rfl⟩)

/-- A read that is not the end of the stream makes progress. -/
theorem Source.read_measure {s s' : Source ε} {n : Nat} {r : ReadResult ε} (hn : 0 < n) (h : s.read n = (r, s'))
    (hr : r ≠ .eof) : s'.measure < s.measure := by
  unfold Source.measure
  rcases s.read_cases n with ⟨e, rest, hs, hread⟩ | ⟨-, sched, -, hread⟩ | ⟨hb, k, sched, -, hk, hsuf, hlt, hread⟩
  · rw [h] at hread
    cases hread
    simp [hs]
  · rw [h] at hread
    cases hread
    exact absurd rfl hr
  · rw [h] at hread
    cases hread
    have hle := hsuf.length_le
    have hpos : 0 < s.bytes.length := List.length_pos_iff.2 hb
    simp only [List.length_drop]
    have := hk hn
    omega

/-- A read that hands out bytes hands out a first part of what is left. -/
theorem Source.read_got {s s' : Source ε} {n : Nat} {bs : List UInt8} (h : s.read n = (.got bs, s')) :
    s.bytes ≠ [] ∧ s.bytes = bs ++ s'.bytes ∧ bs.length ≤ n ∧ (0 < n → 0 < bs.length) ∧ s'.sched <:+ s.sched := by
  rcases s.read_cases n with ⟨e, rest, -, hread⟩ | ⟨-, sched, -, hread⟩ | ⟨hb, k, sched, hkn, hk, hsuf, -, hread⟩
  · rw [h] at hread; cases hread
  · rw [h] at hread; cases hread
  · rw [h] at hread
    cases hread
    have hpos := List.length_pos_iff.2 hb
    refine ⟨hb, (List.take_append_drop k s.bytes).symm, ?_, fun hn => ?_, hsuf⟩
    · rw [List.length_take]; omega
    · rw [List.length_take]
      have := hk hn
      omega

/-- A read that reports the end of the stream has nothing left. -/
theorem Source.read_eof {s s' : Source ε} {n : Nat} (h : s.read n = (.eof, s')) :
    s.bytes = [] ∧ s'.bytes = [] ∧ s'.sched <:+ s.sched := by
  rcases s.read_cases n with ⟨e, rest, -, hread⟩ | ⟨hb, sched, hsuf, hread⟩ | ⟨-, k, sched, -, -, -, -, hread⟩
  · rw [h] at hread; cases hread
  · rw [h] at hread
    cases hread
    exact ⟨hb, hb, hsuf⟩
  · rw [h] at hread; cases hread

/-- A read that fails consumes nothing. -/
theorem Source.read_error {s s' : Source ε} {n : Nat} {e : ε} (h : s.read n = (.error e, s')) :
    .fail e ∈ s.sched ∧ s'.bytes = s.bytes ∧ s'.sched <:+ s.sched := by
  rcases s.read_cases n with ⟨e', rest, hs, hread⟩ | ⟨-, sched, -, hread⟩ | ⟨-, k, sched, -, -, -, -, hread⟩
  · rw [h] at hread
    cases hread
    refine ⟨?_, rfl, ?_⟩
    · rw [hs]; exact List.mem_cons_self
    · rw [hs]; exact List.suffix_cons _ _
  · rw [h] at hread; cases hread
  · rw [h] at hread; cases hread

/-! ## Writing -/

/-- What a write of some bytes can do: fail; take nothing and report a count of zero; or take a first part, of one byte at
least. -/
theorem Sink.write_cases (gone : ε) (s : Sink ε) (data : List UInt8) (hd : data ≠ []) :
    (s.broken = true ∧ s.write gone data = (.error gone, s)) ∨
    (s.broken = false ∧ ∃ e final rest, s.sched = .refuse (some e) final :: rest ∧
      s.write gone data = (.error e, { s with sched := rest, broken := final })) ∨
    (s.broken = false ∧ ∃ final rest, s.sched = .refuse none final :: rest ∧
      s.write gone data = (.ok 0, { s with sched := rest, broken := final })) ∨
    (s.broken = false ∧ ∃ n sched, 0 < n ∧ n ≤ data.length ∧ sched <:+ s.sched ∧
      (sched.length < s.sched.length ∨ n = data.length) ∧
      s.write gone data = (.ok n, { s with written := s.written ++ data.take n, sched := sched })) := by
  have hpos : 0 < data.length := List.length_pos_iff.2 hd
  unfold Sink.write
  split
  · rename_i h
    exact Or.inl ⟨h, rfl⟩
  · rename_i h
    have hb : s.broken = false := by simpa using h
    right
    split
    · rename_i k rest hs
      refine Or.inr (Or.inr ⟨hb, min (max k 1) data.length, rest, by omega, Nat.min_le_right _ _,
        hs ▸ List.suffix_cons _ _, ?_, rfl⟩)
      rw [hs, List.length_cons]
      omega
    · rename_i e final rest hs
      exact Or.inl ⟨hb, e, final, rest, hs, rfl⟩
    · rename_i final rest hs
      exact Or.inr (Or.inl ⟨hb, final, rest, hs, rfl⟩)
    · refine Or.inr (Or.inr ⟨hb, data.length, s.sched, hpos, Nat.le_refl _, List.suffix_refl _, Or.inr rfl, ?_⟩)
      rw [List.take_length]

/-- A write that is interrupted uses an event up, and a write that takes bytes uses up an event or takes all of them. -/
theorem Sink.write_progress (gone : ε) (s : Sink ε) (data : List UInt8) :
    (∀ e, (s.write gone data).1 = .error e → e ≠ gone → (s.write gone data).2.sched.length < s.sched.length) ∧
    (∀ n, (s.write gone data).1 = .ok n → 0 < n → n ≤ data.length ∧
      (s.write gone data).2.sched.length + (data.length - n) < s.sched.length + data.length) := by
  unfold Sink.write
  split
  · exact ⟨fun e he hne => absurd (Except.error.inj he).symm hne, nofun⟩
  · split
    · rename_i hs
      refine ⟨nofun, fun n hn h0 => ?_⟩
      have hn := Except.ok.inj hn
      rw [hs, List.length_cons]
      dsimp only
      omega
    · rename_i hs
      refine ⟨fun e _ _ => ?_, nofun⟩
      rw [hs]
      exact Nat.lt_succ_self _
    · refine ⟨nofun, fun n hn h0 => ?_⟩
      have hn := Except.ok.inj hn
      omega
    · refine ⟨nofun, fun n hn h0 => ?_⟩
      have hn := Except.ok.inj hn
      dsimp only
      omega

/-! ## Sending -/

theorem Source.Benign.suffix {intr : ε} {s s' : Source ε} (h : s.Benign intr) (hs : s'.sched <:+ s.sched) : s'.Benign intr :=
  fun e he => h e (hs.subset he)

theorem Sink.Benign.suffix {intr : ε} {s s' : Sink ε} (h : s.Benign intr) (hb : s'.broken = false)
    (hs : s'.sched <:+ s.sched) : s'.Benign intr :=
  ⟨hb, fun e final he => h.2 e final (hs.subset he)⟩

theorem Sink.FailsForGood.suffix {intr : ε} {s s' : Sink ε} (h : s.FailsForGood intr) (hs : s'.sched <:+ s.sched) :
    s'.FailsForGood intr :=
  fun e final he => h e final (hs.subset he)

/-- On a sink without errors everything is written. -/
theorem Sends.of_benign {intr : ε} {s s' : Sink ε} {bytes : List UInt8} {r : Except ε Unit}
    (h : Sends intr s bytes r s') (hb : s.Benign intr) : r = .ok () ∧ s'.written = s.written ++ bytes ∧ s'.Benign intr := by
  cases h with
  | whole _ hbr hw hs hb' => exact ⟨rfl, hw, hb.suffix hb' hs⟩
  | part _ e k he hk hw hs hbad hbroken hgood => exact absurd hb hbad

theorem Sends.written_of_ok {intr : ε} {s s' : Sink ε} {bytes : List UInt8} (h : Sends intr s bytes (.ok ()) s') :
    s'.written = s.written ++ bytes := by
  cases h with
  | whole _ hb hw hs hb' => exact hw

/-- What is written is a first part of the bytes. -/
theorem Sends.exists_take {intr : ε} {s s' : Sink ε} {bytes : List UInt8} {r : Except ε Unit}
    (h : Sends intr s bytes r s') : ∃ k, s'.written = s.written ++ bytes.take k := by
  cases h with
  | whole _ hbr hw hs hb' => exact ⟨bytes.length, by rw [hw, List.take_length]⟩
  | part _ e k he hk hw hs hbad hbroken hgood => exact ⟨k, hw⟩

/-- A sink whose failures are final stays one. -/
theorem Sends.failsForGood {intr : ε} {s s' : Sink ε} {bytes : List UInt8} {r : Except ε Unit}
    (h : Sends intr s bytes r s') (hf : s.FailsForGood intr) : s'.FailsForGood intr := by
  cases h with
  | whole _ hbr hw hs hb' => exact hf.suffix hs
  | part _ e k he hk hw hs hbad hbroken hgood => exact hf.suffix hs

/-- Nothing is sent over a broken sink. -/
theorem Sends.of_broken {intr : ε} {s s' : Sink ε} {bytes : List UInt8} {r : Except ε Unit} (h : Sends intr s bytes r s')
    (hb : s.broken = true) : s'.broken = true ∧ s'.written = s.written := by
  cases h with
  | whole _ hbr hw hs hb' => rw [hb] at hbr; cases hbr
  | part _ e k he hk hw hs hbad hbroken hgood =>
    obtain ⟨rfl, hb'⟩ := hbroken hb
    exact ⟨hb', by rw [hw, List.take_zero, List.append_nil]⟩

/-- A failure to send over a sink whose failures are final breaks it. -/
theorem Sends.broken_of_error {intr e : ε} {s s' : Sink ε} {bytes : List UInt8} (h : Sends intr s bytes (.error e) s')
    (hf : s.FailsForGood intr) : s'.broken = true := by
  cases h with
  | part _ _ k he hk hw hs hbad hbroken hgood => exact hgood hf

/-- What a sink whose failures are final carries after a send. -/
theorem Sink.Carries.sends {intr : ε} {s s' : Sink ε} {sent bytes : List UInt8} {r : Except ε Unit} (h : s.Carries sent)
    (hf : s.FailsForGood intr) (hs : Sends intr s bytes r s') : s'.Carries (sent ++ bytes) := by
  cases hs with
  | whole _ hbr hw hs hb' =>
    rw [Sink.Carries, hw, h.2 hbr]
    exact ⟨List.prefix_refl _, fun _ => rfl⟩
  | part _ e k he hk hw hs hbad hbroken hgood =>
    refine ⟨?_, fun hb' => absurd (hgood hf) (by rw [hb']; nofun)⟩
    rw [hw]
    cases hb : s.broken with
    | true =>
      rw [(hbroken hb).1, List.take_zero, List.append_nil]
      exact h.1.trans (List.prefix_append _ _)
    | false =>
      rw [h.2 hb]
      exact (List.prefix_append_right_inj _).2 (List.take_prefix _ _)

/-- A broken sink carries a first part of anything that goes on from what it carries. -/
theorem Sink.Carries.of_broken {s : Sink ε} {sent : List UInt8} (h : s.Carries sent) (hb : s.broken = true)
    (rest : List UInt8) : s.Carries (sent ++ rest) :=
  ⟨h.1.trans (List.prefix_append _ _), fun hb' => absurd hb (by rw [hb']; nofun)⟩

/-- What a loop that writes all of `bytes` does when a write fails: it is done, or, after an interruption, it goes on as before. -/
theorem Sends.of_write_error {intr gone : ε} (hg : gone ≠ intr) {s s' : Sink ε} {bytes : List UInt8} {e : ε}
    (hne : bytes ≠ []) (h : s.write gone bytes = (.error e, s')) :
    (e ≠ intr → Sends intr s bytes (.error e) s') ∧
      (e = intr → ∀ r s₂, Sends intr s' bytes r s₂ → Sends intr s bytes r s₂) := by
  have hpos : 0 < bytes.length := List.length_pos_iff.2 hne
  rcases s.write_cases gone bytes hne with ⟨hb, hw⟩ | ⟨hb, e', f, rest, hs, hw⟩ | ⟨-, f, rest, -, hw⟩ |
    ⟨-, n, sched, -, -, -, -, hw⟩
  · rw [h] at hw
    cases hw
    refine ⟨fun he => .part _ _ 0 he hpos (by simp) (List.suffix_refl _) (fun hbn => ?_) (fun _ => ⟨rfl, hb⟩) (fun _ => hb),
      fun he => absurd he hg⟩
    rw [hbn.1] at hb
    cases hb
  · rw [h] at hw
    cases hw
    have hmem : .refuse (some e) f ∈ s.sched := by rw [hs]; exact List.mem_cons_self
    have hsuf : rest <:+ s.sched := by rw [hs]; exact List.suffix_cons _ _
    constructor
    · intro he
      refine .part _ _ 0 he hpos (by simp) hsuf (fun hbn => ?_) (fun hbr => ?_) (fun hg => hg _ _ hmem (by simpa using he))
      · exact he (Option.some.inj (hbn.2 _ _ hmem).1)
      · rw [hb] at hbr
        cases hbr
    · rintro rfl r s₂ hsend
      cases hsend with
      | whole _ hbr hw' hs' hb' => exact .whole _ hb hw' (hs'.trans hsuf) hb'
      | part _ e k he hk hw' hs' hbad hbroken hgood =>
        refine .part _ _ k he hk hw' (hs'.trans hsuf) (fun hbn => hbad ?_) (fun hbr => ?_) (fun hg => hgood (hg.suffix hsuf))
        · exact hbn.suffix (hbn.2 _ _ hmem).2 hsuf
        · rw [hb] at hbr
          cases hbr
  · rw [h] at hw; cases hw
  · rw [h] at hw; cases hw

/-- What such a loop does when a write reports a count: a count of zero is a failure, and otherwise it goes on with the rest. -/
theorem Sends.of_write_ok (intr : ε) {gone : ε} {s s' : Sink ε} {bytes : List UInt8} {n : Nat}
    (hne : bytes ≠ []) (h : s.write gone bytes = (.ok n, s')) :
    (n = 0 → ∀ z, z ≠ intr → Sends intr s bytes (.error z) s') ∧
      (0 < n → s'.broken = false ∧ ∀ r s₂, Sends intr s' (bytes.drop n) r s₂ → Sends intr s bytes r s₂) := by
  have hpos : 0 < bytes.length := List.length_pos_iff.2 hne
  rcases s.write_cases gone bytes hne with ⟨hb, hw⟩ | ⟨hb, e', f, rest, hs, hw⟩ | ⟨hb, f, rest, hs, hw⟩ |
    ⟨hb, m, sched, h0, hle, hsuf, -, hw⟩
  · rw [h] at hw; cases hw
  · rw [h] at hw; cases hw
  · rw [h] at hw
    cases hw
    have hmem : .refuse none f ∈ s.sched := by rw [hs]; exact List.mem_cons_self
    refine ⟨fun _ z hz => ?_, fun h => absurd h (Nat.lt_irrefl 0)⟩
    refine .part _ _ 0 hz hpos (by simp) (by rw [hs]; exact List.suffix_cons _ _) (fun hbn => ?_) (fun hbr => ?_)
      (fun hg => hg _ _ hmem (by simp))
    · cases (hbn.2 _ _ hmem).1
    · rw [hb] at hbr
      cases hbr
  · rw [h] at hw
    cases hw
    refine ⟨fun h => absurd h (by omega), fun _ => ⟨hb, fun r s₂ hsend => ?_⟩⟩
    cases hsend with
    | whole _ hbr hw' hs' hb' =>
      exact .whole _ hb (by rw [hw', List.append_assoc, List.take_append_drop]) (hs'.trans hsuf) hb'
    | part _ e k he hk hw' hs' hbad hbroken hgood =>
      refine .part _ _ (n + k) he (by rw [List.length_drop] at hk; omega) ?_ (hs'.trans hsuf)
        (fun hbn => hbad (hbn.suffix hb hsuf)) (fun hbr => ?_) (fun hg => hgood (hg.suffix hsuf))
      · rw [hw', List.append_assoc, List.take_add]
      · rw [hb] at hbr
        cases hbr

end Stream
