import ZeroPty.Lemmas.References
import ZeroPty.Theorems.Ring

/-!
# Client reference counting is exact
-/

namespace ZeroPty

open Stream Memory Transition

/-- A thread holds the `write_mu` of client `i`, is inside a section under it, or waits for it: its own thread, to send an ERROR, to
attach or while it attaches, or the PTY thread, to send it a chunk. -/
def UsesWriteMu (s : Sys) (i : Nat) : Prop :=
  (∃ text, (s.conn i).pc = .sendError text) ∨ (∃ requestedSeq, (s.conn i).pc = .attach requestedSeq) ∨
    (s.conn i).pc.isSending = true ∨ ∃ seq chunk snap todo, s.pty = .send seq chunk snap (i :: todo)

namespace ReferencesAux

theorem freed_of_shaken {c c' : Conn} (h : Shaken c c') (hc : c.cell = .freed) : c'.cell = .freed := by
  cases hcell : c'.cell with
  | freed => rfl
  | fresh => rw [h.fresh.1 hcell] at hc; cases hc
  | live cl' =>
    obtain ⟨cl, hcl, -⟩ := h.cell cl' hcell
    rw [hcl] at hc
    cases hc

/-- A client that was freed stays freed: nothing is left that could act on it. -/
theorem freed_step {s t : Sys} {a : Act} (h : RefInv s) (hstep : step s a = .next t) {i : Nat}
    (hi : (s.conn i).cell = .freed) : (t.conn i).cell = .freed := by
  have hcounts := h.ledger.counts i
  unfold Conn.Counts at hcounts
  rw [hi] at hcounts
  have hdone : (s.conn i).pc = .done := by
    by_contra hpc
    have := hcounts.2
    rw [Sys.owners, threadRef, if_neg hpc] at this
    omega
  have hheld : i ∉ s.pty.held := fun hmem => absurd (List.count_pos_iff.2 hmem) (by
    have := hcounts.2
    rw [Sys.owners] at this
    omega)
  by_cases hact : actsOn s a = some i
  · cases a with
    | client k env =>
      cases hact
      simp only [step, clientStep, hdone] at hstep
      cases hstep
    | accept input sched calloc =>
      have hk : s.count = i := Option.some.inj hact
      rw [(h.conns i).fresh.2 (Nat.le_of_eq hk)] at hi
      cases hi
    | create ok => exact absurd ((h.conns i).starting hact) (by rw [hdone]; rintro ⟨⟩)
    | drop => exact absurd ((h.conns i).starting hact) (by rw [hdone]; rintro ⟨⟩)
    | pty alloc => exact absurd (h.pty.todo i (List.mem_of_mem_head? hact)) hheld
    | signal fatal => cases hact
    | main => cases hact
    | leave => cases hact
    | ptyRead r => cases hact
  · exact freed_of_shaken (shaken_of_moves h (step_moves hstep) hact) hi

end ReferencesAux

open ReferencesAux

/-- Client reference counting is exact, in every state of every interleaving, whatever fails: `calloc`, `pthread_create`, any
allocation, any send. A client has one reference for being in the list, one for its thread until that has finished, and one for
each snapshot it is in; it is in the list at most once, exactly when `in_list` says so; it is freed exactly when no reference
is left, and stays freed; a client whose `write_mu` is in use or waited for is not freed; and no action reads, locks, sends on or
frees a client that was freed. -/
theorem client_references_exact (cfg : Config) (malloc : Alloc UInt8) (capacity : UInt64) (ring : Ring)
    (hinit : optyRingInit malloc (.ok ()) capacity = .ok ring) (master : Sink Errno) (acts : List Act) (s : Sys)
    (hs : exec step (Sys.init cfg ring master) acts = .next s) :
    (∀ a, step s a ≠ .fault) ∧
    ∀ i,
      (∀ cl, (s.conn i).cell = .live cl →
        cl.refs = (if i ∈ s.clients then 1 else 0) + (if (s.conn i).pc = .done then 0 else 1) + s.pty.held.count i ∧
          0 < cl.refs ∧ (cl.inList = true ↔ i ∈ s.clients)) ∧
      s.clients.count i ≤ 1 ∧ s.pty.held.count i ≤ 1 ∧
      (i < s.count → ((s.conn i).cell = .freed ↔ i ∉ s.clients ∧ (s.conn i).pc = .done ∧ i ∉ s.pty.held)) ∧
      (i < s.count → (s.conn i).pc = .done → i ∉ s.pty.held → (s.conn i).cell = .freed) ∧
      (UsesWriteMu s i → ∃ cl, (s.conn i).cell = .live cl) ∧
      ((s.conn i).cell = .freed → ∀ acts' s', exec step s acts' = .next s' → (s'.conn i).cell = .freed) := by
  have h : RefInv s := refInv_exec (represents_init hinit).2.bounded hs
  refine ⟨step_ne_fault h, fun i => ?_⟩
  have hone : linkRef s.clients i = if i ∈ s.clients then 1 else 0 := rfl
  have hfreed : i < s.count → ((s.conn i).cell = .freed ↔ i ∉ s.clients ∧ (s.conn i).pc = .done ∧ i ∉ s.pty.held) := by
    intro hi
    have hcounts := h.ledger.counts i
    unfold Conn.Counts at hcounts
    have hzero : linkRef s.clients i = 0 ∧ s.owners i = 0 ↔ i ∉ s.clients ∧ (s.conn i).pc = .done ∧ i ∉ s.pty.held := by
      rw [Sys.owners, threadRef, linkRef, Nat.add_eq_zero_iff, List.count_eq_zero]
      simp
    cases hcell : (s.conn i).cell with
    | fresh => exact absurd ((h.conns i).fresh.1 hcell) (by omega)
    | freed =>
      rw [hcell] at hcounts
      exact ⟨fun _ => hzero.1 hcounts, fun _ => rfl⟩
    | live cl =>
      rw [hcell] at hcounts
      refine ⟨(by rintro ⟨⟩), fun hz => ?_⟩
      obtain ⟨h1, h2⟩ := hzero.2 hz
      have := hcounts.2.1
      omega
  refine ⟨fun cl hcl => ?_, List.nodup_iff_count.1 h.ledger.nodup i, List.nodup_iff_count.1 h.pty.nodup i, hfreed,
    fun hi hdone hheld => (hfreed hi).2 ⟨(h.conns i).unlinked hdone, hdone, hheld⟩, ?_, fun hi acts' s' hs' => ?_⟩
  · obtain ⟨hrefs, hpos, hlist⟩ := h.ledger.counts_live hcl
    refine ⟨by rw [hrefs, Sys.owners, hone, threadRef, Nat.add_assoc], by omega, ?_⟩
    rw [hlist, hone]
    simp
  · rintro (⟨text, hpc⟩ | ⟨req, hpc⟩ | hpc | ⟨seq, chunk, snap, todo, hp⟩)
    · exact h.live_of_thread (by rw [hpc]; rintro ⟨⟩)
    · exact h.live_of_thread (by rw [hpc]; rintro ⟨⟩)
    · refine h.live_of_thread fun hdone => ?_
      rw [hdone] at hpc
      cases hpc
    · exact h.live_of_held (h.pty.todo i (by rw [hp]; exact List.mem_cons_self))
  · exact (invariant (Q := fun _ => True) (P := fun s => RefInv s ∧ (s.conn i).cell = .freed)
      (fun _ _ _ hp _ hstep => ⟨refInv_moves hp.1 (step_moves hstep), freed_step hp.1 hstep hp.2⟩) ⟨h, hi⟩
      (fun _ _ => trivial) hs').2

/-- A connection whose thread cannot be created: once `server_add_client` is done with it, it is freed. -/
theorem client_references_exact_create_fails :
    ∃ ring s, optyRingInit zeroAlloc (.ok ()) 5 = .ok ring ∧
      exec step (Sys.init ⟨none, none⟩ ring {}) [.accept ⟨[], []⟩ [] true, .create false, .drop] = .next s ∧
      s.count = 1 ∧ (s.conn 0).cell = .freed := by
  refine ⟨_, _, rfl, rfl, rfl, ?_⟩
  exact ((client_references_exact ⟨none, none⟩ zeroAlloc 5 _ rfl {} [.accept ⟨[], []⟩ [] true, .create false, .drop] _ rfl).2
    0).2.2.2.2.1 (Nat.zero_lt_one) rfl nofun

end ZeroPty
