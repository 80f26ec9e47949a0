import ZeroPty.Lemmas.Clients
import ZeroPty.Lemmas.Server
import ZeroPty.Lemmas.Threads

/-!
# References along an execution

The owners of a client are the list, its thread until that has finished, and the snapshot of the PTY thread. `RefInv` says that
the references of every client are exactly these; every action keeps it, and under it no action runs into undefined behaviour.
-/

namespace ZeroPty

open Stream Memory Transition

/-- The snapshot the PTY thread holds. -/
def PtyPc.held : PtyPc → List Nat
  | .send _ _ snap _ => snap
  | .markDead _ _ snap _ _ => snap
  | _ => []

/-- The clients the PTY thread is yet to lock. -/
def PtyPc.todo : PtyPc → List Nat
  | .send _ _ _ todo => todo
  | .markDead _ _ _ i todo => i :: todo
  | _ => []

/-- What the thread of a connection holds of its client; `main` holds it until the thread starts. -/
def threadRef (c : Conn) : Nat := if c.pc = .done then 0 else 1

/-- The thread keeps the `write_mu` of its client between two actions. -/
def ThreadPc.isSending : ThreadPc → Bool
  | .sendWelcome _ | .sendReplay _ => true
  | _ => false

/-- What owns a client, besides the list. -/
def Sys.owners (s : Sys) (i : Nat) : Nat := threadRef (s.conn i) + s.pty.held.count i

/-- What holds of connection `i` besides its references: it is there from its number being given out on, `main` adds it before its
thread starts, it leaves the list before its thread is done, and its `write_mu` is locked while the thread is sending. -/
structure ConnInv (count : Nat) (adding : Option Nat) (clients : List Nat) (i : Nat) (c : Conn) : Prop where
  fresh : c.cell = .fresh ↔ count ≤ i
  unborn : count ≤ i → c.pc = .done
  starting : adding = some i → c.pc = .starting
  unlinked : c.pc = .done → i ∉ clients
  locks : ∀ cl, c.cell = .live cl → (cl.writeLocked = true ↔ c.pc.isSending = true)

/-- What holds of the PTY thread: a snapshot has every client once, it is sent to clients of its snapshot, and a chunk is what one
read returns. -/
structure PtyInv (p : PtyPc) : Prop where
  nodup : p.held.Nodup
  todo : ∀ i ∈ p.todo, i ∈ p.held
  read : ∀ chunk, p = .append chunk → chunk.length ≤ 4096

theorem PtyInv.of_idle {p : PtyPc} (h : p.isIdle = true) : PtyInv p ∧ p.held = [] := by
  cases p with
  | append chunk => cases h
  | snapshot seq chunk => cases h
  | send seq chunk snap todo => cases h
  | markDead seq chunk snap i todo => cases h
  | read | closeListener | shutdownClients | awaitChild | done => exact ⟨⟨List.nodup_nil, nofun, nofun⟩, rfl⟩

/-- A broadcast goes on. -/
theorem PtyInv.next {p : PtyPc} (h : PtyInv p) (seq : UInt64) (chunk : List UInt8) (todo : List Nat)
    (htodo : ∀ i ∈ todo, i ∈ p.todo) : PtyInv (.send seq chunk p.held todo) :=
  ⟨h.nodup, fun i hi => h.todo i (htodo i hi), nofun⟩

/-- The references of every client are its owners. -/
structure RefInv (s : Sys) : Prop where
  ledger : Ledger s.conn s.clients s.owners
  conns : ∀ i, ConnInv s.count s.main.adding s.clients i (s.conn i)
  pty : PtyInv s.pty
  ring : s.ring.Bounded

theorem ConnInv.shaken {count : Nat} {adding : Option Nat} {clients clients' : List Nat} {i : Nat} {c c' : Conn}
    (h : ConnInv count adding clients i c) (hs : Shaken c c') (hsub : ∀ j ∈ clients', j ∈ clients) :
    ConnInv count adding clients' i c' where
  fresh := hs.fresh.trans h.fresh
  unborn := fun hc => hs.pc.trans (h.unborn hc)
  starting := fun ha => hs.pc.trans (h.starting ha)
  unlinked := fun hd hm => h.unlinked (hs.pc ▸ hd) (hsub i hm)
  locks := by
    intro cl' hcl'
    obtain ⟨cl, hcl, -, -, hw, -⟩ := hs.cell cl' hcl'
    rw [hs.pc, hw]
    exact h.locks cl hcl

/-- Without a connection being added. -/
theorem ConnInv.notAdding {count : Nat} {adding adding' : Option Nat} {clients : List Nat} {i : Nat} {c : Conn}
    (h : ConnInv count adding clients i c) (ha : adding' = none) : ConnInv count adding' clients i c :=
  ⟨h.fresh, h.unborn, fun h' => (by rw [ha] at h'; cases h'), h.unlinked, h.locks⟩

section References

variable {s : Sys} {i : Nat}

/-- The client of a thread that has not finished is there. -/
theorem RefInv.live_of_thread (h : RefInv s) (hpc : (s.conn i).pc ≠ .done) : ∃ cl, (s.conn i).cell = .live cl :=
  h.ledger.live_of_own (by rw [Sys.owners, threadRef, if_neg hpc]; omega)

/-- A client of the snapshot is there. -/
theorem RefInv.live_of_held (h : RefInv s) (hi : i ∈ s.pty.held) : ∃ cl, (s.conn i).cell = .live cl :=
  h.ledger.live_of_own (Nat.lt_of_lt_of_le (List.count_pos_iff.2 hi) (Nat.le_add_left _ _))

/-- A client of the snapshot is not the one that is accepted next. -/
theorem RefInv.ne_count_of_held (h : RefInv s) (hi : i ∈ s.pty.held) : i ≠ s.count := by
  rintro rfl
  obtain ⟨cl, hcl⟩ := h.live_of_held hi
  rw [(h.conns s.count).fresh.2 (Nat.le_refl _)] at hcl
  cases hcl

theorem threadRef_shaken {c c' : Conn} (h : Shaken c c') : threadRef c' = threadRef c := by
  rw [threadRef, h.pc, threadRef]

/-- A change of one connection that leaves the references of its client, and whether its thread is done, alone. -/
theorem RefInv.update (h : RefInv s) {d : Conn} (hthread : threadRef d = threadRef (s.conn i))
    (hconn : ConnInv s.count s.main.adding s.clients i d)
    (hcell : d.cell = (s.conn i).cell ∨
      ∃ cl cl', (s.conn i).cell = .live cl ∧ d.cell = .live cl' ∧ cl'.refs = cl.refs ∧ cl'.inList = cl.inList) :
    RefInv (s.setConn i d) := by
  refine ⟨?_, fun j => ?_, h.pty, h.ring⟩
  · refine Ledger.of_owners (o := s.owners) ?_ fun j => ?_
    · exact h.ledger.update ((h.ledger.counts i).congr hcell) fun _ _ => rfl
    · by_cases hj : j = i
      · subst hj
        simp [Sys.owners, Sys.setConn, hthread]
      · simp [Sys.owners, Sys.setConn, Function.update_of_ne hj]
  · by_cases hj : j = i
    · subst hj
      simp only [Sys.setConn, Function.update_self]
      exact hconn
    · simp only [Sys.setConn, Function.update_of_ne hj]
      exact h.conns j

/-- The thread is neither to be started nor over. -/
def ThreadPc.isRunning : ThreadPc → Bool
  | .starting | .done => false
  | _ => true

/-- A step of a thread that is running and goes on running, and leaves the references of its client alone. -/
theorem RefInv.setConn (h : RefInv s) {c' : Conn} (hrun : (s.conn i).pc.isRunning = true) (hdone' : c'.pc ≠ .done)
    (hcell : c'.cell = (s.conn i).cell ∨
      ∃ cl cl', (s.conn i).cell = .live cl ∧ c'.cell = .live cl' ∧ cl'.refs = cl.refs ∧ cl'.inList = cl.inList)
    (hlock : ∀ cl', c'.cell = .live cl' → (cl'.writeLocked = true ↔ c'.pc.isSending = true)) : RefInv (s.setConn i c') := by
  have hc := h.conns i
  have hdone : (s.conn i).pc ≠ .done := by
    intro hd
    rw [hd] at hrun
    cases hrun
  have hstart : (s.conn i).pc ≠ .starting := by
    intro hs
    rw [hs] at hrun
    cases hrun
  refine h.update ?_ ⟨?_, fun hle => absurd (hc.unborn hle) hdone, fun ha => absurd (hc.starting ha) hstart,
    fun hd => absurd hd hdone', hlock⟩ hcell
  · simp only [threadRef, if_neg hdone, if_neg hdone']
  · rw [← hc.fresh]
    rcases hcell with hcell | ⟨cl, cl', h1, h2, -⟩
    · rw [hcell]
    · rw [h1, h2]
      exact ⟨nofun, nofun⟩

/-- Such a step that leaves the client as it is, and takes or keeps no lock. -/
theorem RefInv.setPc (h : RefInv s) {d : Conn} (hrun : (s.conn i).pc.isRunning = true) (hsend : (s.conn i).pc.isSending = false)
    (hcell : d.cell = (s.conn i).cell) (hdone' : d.pc ≠ .done) (hsend' : d.pc.isSending = false) : RefInv (s.setConn i d) := by
  refine h.setConn hrun hdone' (Or.inl hcell) fun cl' hcl' => ?_
  rw [hsend', ← hsend]
  exact (h.conns i).locks cl' (hcell ▸ hcl')

/-- `server_shutdown_clients` leaves every client alone. -/
theorem RefInv.shut (h : RefInv s) : ∃ conn', serverShutdownClients s = some { s with conn := conn' } ∧
    (∀ j, Shaken (s.conn j) (conn' j) ∧ (conn' j).cell = (s.conn j).cell) ∧ RefInv { s with conn := conn' } := by
  have hshaken : ∀ j, Shaken (s.conn j) (if j ∈ s.clients then (s.conn j).shut else s.conn j) ∧
      (if j ∈ s.clients then (s.conn j).shut else s.conn j).cell = (s.conn j).cell := by
    intro j
    by_cases hj : j ∈ s.clients
    · rw [if_pos hj]
      exact ⟨Shaken.shut _, rfl⟩
    · rw [if_neg hj]
      exact ⟨Shaken.refl _, rfl⟩
  refine ⟨_, by rw [serverShutdownClients, if_pos (listLive_of_ledger h.ledger)], hshaken, ?_⟩
  refine ⟨⟨h.ledger.nodup, fun j => ?_⟩, fun j => (h.conns j).shaken (hshaken j).1 fun _ => id, h.pty, h.ring⟩
  simp only [Sys.owners, threadRef_shaken (hshaken j).1]
  exact (h.ledger.counts j).congr (Or.inl (hshaken j).2)

/-- The section that marks client `i` dead, for a caller with `k` references of its own; `own` are the owners the caller leaves. -/
theorem RefInv.releaseDead (h : RefInv s) {k : Nat} {o : Nat → Nat} (hlive : 0 < s.owners i) (hk : s.owners i = o i + k)
    (hown : ∀ j, j ≠ i → o j = s.owners j) (hlock : o i = 0 → (s.conn i).pc.isSending = false) :
    ∃ c', serverReleaseDead k s i = some { s with conn := Function.update s.conn i c', clients := s.clients.erase i } ∧
      Shaken (s.conn i) c' ∧ (∀ cl', c'.cell = .live cl' → cl'.dead = true) ∧
      (∀ cl, (s.conn i).cell = .live cl → cl.dead = false → c'.sock.broken = true) ∧
      Ledger (Function.update s.conn i c') (s.clients.erase i) o ∧
      ∀ j, ConnInv s.count s.main.adding (s.clients.erase i) j (Function.update s.conn i c' j) := by
  obtain ⟨cl, hcl⟩ := h.ledger.live_of_own hlive
  have hwl : s.owners i = k → cl.writeLocked = false := by
    intro he
    by_contra hw
    have := ((h.conns i).locks cl hcl).1 (by simpa using hw)
    rw [hlock (by omega)] at this
    cases this
  obtain ⟨c', hrel, hsh, hcounts, hdead, hbroken⟩ := serverReleaseDead_spec h.ledger hcl (by omega) hwl
  refine ⟨c', hrel, hsh, hdead, fun cl' hcl' hd => hbroken ?_, ⟨h.ledger.nodup.erase i, fun j => ?_⟩, fun j => ?_⟩
  · rw [hcl] at hcl'
    cases hcl'
    exact hd
  · by_cases hj : j = i
    · subst hj
      rw [Function.update_self, ClientsAux.linkRef_erase_self h.ledger.nodup]
      rwa [show s.owners j - k = o j by omega] at hcounts
    · rw [Function.update_of_ne hj, ClientsAux.linkRef_erase_ne hj, hown j hj]
      exact h.ledger.counts j
  · refine (h.conns j).shaken ?_ fun _ => List.mem_of_mem_erase
    by_cases hj : j = i
    · subst hj
      rwa [Function.update_self]
    · rw [Function.update_of_ne hj]
      exact Shaken.refl _

/-- The client the accept loop has to drop never got its thread. -/
theorem RefInv.starting_of_drop (h : RefInv s) (hmain : s.main = .drop i) : (s.conn i).pc = .starting :=
  (h.conns i).starting (by rw [hmain]; rfl)

/-- A thread that ends, or that was never created, has given its reference back. -/
theorem RefInv.finish (h : RefInv s) (hend : (s.conn i).pc = .starting ∨ (s.conn i).pc = .finish) :
    ∃ c', serverReleaseDead 1 s i = some { s with conn := Function.update s.conn i c', clients := s.clients.erase i } ∧
      Shaken (s.conn i) c' ∧ (∀ cl', c'.cell = .live cl' → cl'.dead = true) ∧
      (∀ cl, (s.conn i).cell = .live cl → cl.dead = false → c'.sock.broken = true) ∧
      ∀ m : MainPc, (∀ j, m.adding = some j → j ≠ i ∧ s.main.adding = some j) →
        RefInv { s with
          conn := Function.update s.conn i { c' with pc := .done }, clients := s.clients.erase i, main := m } := by
  have hdone : (s.conn i).pc ≠ .done := by
    rcases hend with hpc | hpc <;> rw [hpc] <;> rintro ⟨⟩
  have hsend : (s.conn i).pc.isSending = false := by
    rcases hend with hpc | hpc <;> rw [hpc] <;> rfl
  have hown : s.owners i = s.pty.held.count i + 1 := by
    rw [Sys.owners, threadRef, if_neg hdone]
    omega
  let own : Nat → Nat := fun j => if j = i then s.pty.held.count i else s.owners j
  obtain ⟨c', hrel, hsh, hdead, hbroken, hledger, hconns⟩ := h.releaseDead (k := 1) (o := own) (by omega)
    (by simp only [own, if_true]; exact hown) (fun j hj => if_neg hj) (fun _ => hsend)
  refine ⟨c', hrel, hsh, hdead, hbroken, fun m hm => ⟨?_, fun j => ?_, h.pty, h.ring⟩⟩
  · -- the owners the section leaves are those of the state in which the thread is done
    have hc' := hledger.counts i
    rw [Function.update_self] at hc'
    have hledger' := hledger.update (i := i) (c := { c' with pc := .done }) (o := own) hc' (fun _ _ => rfl)
    rw [Function.update_idem] at hledger'
    refine hledger'.of_owners fun j => ?_
    by_cases hj : j = i
    · subst hj
      simp [own, Sys.owners, threadRef]
    · simp only [own, if_neg hj, Sys.owners, Function.update_of_ne hj]
  · have hc := hconns j
    by_cases hj : j = i
    · subst hj
      simp only [Function.update_self] at hc ⊢
      refine ⟨hc.fresh, fun _ => rfl, fun ha => absurd rfl (hm j ha).1, fun _ => h.ledger.nodup.not_mem_erase, fun cl hcl => ?_⟩
      rw [hc.locks cl hcl, hsh.pc, hsend]
      exact ⟨nofun, nofun⟩
    · simp only [Function.update_of_ne hj] at hc ⊢
      exact ⟨hc.fresh, hc.unborn, fun ha => hc.starting (hm j ha).2, hc.unlinked, hc.locks⟩

/-- The PTY thread gives its snapshot back. -/
theorem RefInv.releaseSnapshot (h : RefInv s) {seq : UInt64} {chunk : List UInt8} {snap : List Nat}
    (hp : s.pty = .send seq chunk snap []) :
    ∃ conn', serverReleaseSnapshot s snap = some { s with conn := conn' } ∧ (∀ j, Shaken (s.conn j) (conn' j)) ∧
      RefInv { s with conn := conn', pty := .read } := by
  have hledger : Ledger s.conn s.clients (fun j => threadRef (s.conn j) + snap.count j) := by
    refine h.ledger.of_owners fun j => ?_
    simp only [Sys.owners, hp, PtyPc.held]
  obtain ⟨conn', hrel, hsh, hledger'⟩ := serverReleaseSnapshot_spec snap hledger (fun j cl hcl hw => by
    -- a locked client has a thread, so the snapshot is not its last owner
    have hsend := ((h.conns j).locks cl hcl).1 hw
    have hdone : (s.conn j).pc ≠ .done := by
      intro hd
      rw [hd] at hsend
      cases hsend
    simp [threadRef, hdone])
  refine ⟨conn', hrel, hsh, hledger'.of_owners fun j => ?_, fun j => (h.conns j).shaken (hsh j) fun _ => id,
    (PtyInv.of_idle rfl).1, h.ring⟩
  simp only [Sys.owners, threadRef_shaken (hsh j), PtyPc.held, List.count_nil, Nat.add_zero]

/-- The PTY thread marks a client dead. -/
theorem RefInv.markDead (h : RefInv s) {seq : UInt64} {chunk : List UInt8} {snap todo : List Nat}
    (hp : s.pty = .markDead seq chunk snap i todo) :
    ∃ c', serverReleaseDead 0 s i = some { s with conn := Function.update s.conn i c', clients := s.clients.erase i } ∧
      Shaken (s.conn i) c' ∧ (∀ cl', c'.cell = .live cl' → cl'.dead = true) ∧
      (∀ cl, (s.conn i).cell = .live cl → cl.dead = false → c'.sock.broken = true) ∧
      RefInv { s with
        conn := Function.update s.conn i c', clients := s.clients.erase i, pty := .send seq chunk snap todo } := by
  have hi : i ∈ s.pty.held := h.pty.todo i (by rw [hp]; exact List.mem_cons_self)
  have hpos : 0 < s.owners i := Nat.lt_of_lt_of_le (List.count_pos_iff.2 hi) (Nat.le_add_left _ _)
  obtain ⟨c', hrel, hsh, hdead, hbroken, hledger, hconns⟩ := h.releaseDead (k := 0) (o := s.owners) hpos rfl
    (fun _ _ => rfl) (fun h0 => absurd h0 (by omega))
  refine ⟨c', hrel, hsh, hdead, hbroken, hledger.of_owners fun j => ?_, hconns, ?_, h.ring⟩
  · simp only [Sys.owners, hp, PtyPc.held]
    by_cases hj : j = i
    · subst hj
      simp only [Function.update_self, threadRef_shaken hsh]
    · simp only [Function.update_of_ne hj]
  · have := h.pty.next seq chunk todo (by rw [hp]; exact fun j hj => List.mem_cons_of_mem _ hj)
    rwa [hp] at this

end References

/-- The sends to a client change none of its references. -/
theorem serverSendStdout_refs {alloc : Bool} {seq : UInt64} {data : List UInt8} {cl cl' : Client} {fd fd' : Sink Errno}
    {r : Except Errno Unit} (h : serverSendStdout alloc seq data cl fd = (r, cl', fd')) :
    cl'.refs = cl.refs ∧ cl'.inList = cl.inList ∧ cl'.dead = cl.dead ∧ cl'.authenticated = cl.authenticated ∧
      cl'.writeLocked = cl.writeLocked := by
  simp only [serverSendStdout] at h
  split at h
  · split at h
    · cases h; exact ⟨rfl, rfl, rfl, rfl, rfl⟩
    · cases h; exact ⟨rfl, rfl, rfl, rfl, rfl⟩
  · cases h; exact ⟨rfl, rfl, rfl, rfl, rfl⟩

/-- An attach changes none of the references of the client. -/
theorem serverAttach_refs {malloc : Alloc UInt8} {ring : Ring} {cl cl' : Client} {req : UInt64} {snap : Snapshot}
    (h : serverAttach malloc ring cl req = some (some (cl', snap))) :
    cl' = { cl with authenticated := true, liveSeq := snap.nextSeq, writeLocked := true } ∧
      optyRingSnapshotWindow malloc ring req = some snap := by
  rw [serverAttach, Option.map_eq_some_iff] at h
  obtain ⟨snap', hs, h⟩ := h
  split at h
  · cases h
  · cases h
    exact ⟨rfl, hs⟩

/-- Where a first frame leads, the thread is neither done nor inside a send. -/
theorem FirstMove.pc_running (move : FirstMove) : move.pc ≠ .done ∧ move.pc.isSending = false := by
  cases move <;> exact ⟨nofun, rfl⟩

/-- Where a frame of the loop leads, the thread is neither done nor inside a send. -/
theorem LoopMove.pc_running (move : LoopMove) : move.pc ≠ .done ∧ move.pc.isSending = false := by
  cases move <;> exact ⟨nofun, rfl⟩

/-- A send to a client keeps the references exact, whatever its result. -/
theorem RefInv.afterSend {s : Sys} {i : Nat} {alloc : Bool} {seq : UInt64} {data : List UInt8} {cl cl' : Client}
    {sock : Sink Errno} {r : Except Errno Unit} (h : RefInv s) (hcl : (s.conn i).cell = .live cl)
    (hs : serverSendStdout alloc seq data cl (s.conn i).sock = (r, cl', sock)) :
    RefInv (s.setConn i { s.conn i with cell := .live cl', sock := sock }) := by
  obtain ⟨hrefs, hlist, -, -, hw⟩ := serverSendStdout_refs hs
  have hc := h.conns i
  refine h.update rfl ⟨?_, hc.unborn, hc.starting, hc.unlinked, ?_⟩ (Or.inr ⟨cl, cl', hcl, rfl, hrefs, hlist⟩)
  · rw [← hc.fresh, hcl]
    exact ⟨nofun, nofun⟩
  · rintro cl'' ⟨⟩
    rw [hw]
    exact hc.locks cl hcl

/-- Every action keeps the references exact. -/
theorem refInv_moves {s t : Sys} {a : Act} (h : RefInv s) (hm : Moves s a t) : RefInv t := by
  cases hm with
  | acceptFailed => exact h
  | accept hmain =>
    rename_i input sched
    have hcell := (h.conns s.count).fresh.2 (Nat.le_refl _)
    have hcounts := h.ledger.counts s.count
    unfold Conn.Counts at hcounts
    rw [hcell] at hcounts
    have hnot : s.count ∉ s.clients := by
      intro hmem
      rw [linkRef, if_pos hmem] at hcounts
      cases hcounts.1
    have hheld : s.pty.held.count s.count = 0 := Nat.eq_zero_of_add_eq_zero_left hcounts.2
    refine ⟨⟨List.nodup_cons.2 ⟨hnot, h.ledger.nodup⟩, fun j => ?_⟩, fun j => ?_, h.pty, h.ring⟩
    · by_cases hj : j = s.count
      · subst hj
        simp only [Sys.owners, Sys.setConn, Function.update_self, threadRef, hheld]
        simp [Conn.Counts, Client.new, linkRef]
      · have hlink : linkRef (s.count :: s.clients) j = linkRef s.clients j := by
          simp only [linkRef, List.mem_cons, hj, false_or]
        simp only [Sys.owners, Sys.setConn, Function.update_of_ne hj, hlink]
        exact h.ledger.counts j
    · have hc := h.conns j
      by_cases hj : j = s.count
      · subst hj
        simp only [Sys.setConn, Function.update_self]
        refine ⟨⟨(by rintro ⟨⟩), fun hle => by omega⟩, fun hle => by omega, fun _ => rfl, (by rintro ⟨⟩), ?_⟩
        rintro cl ⟨⟩
        exact ⟨(by rintro ⟨⟩), (by rintro ⟨⟩)⟩
      · simp only [Sys.setConn, Function.update_of_ne hj]
        refine ⟨hc.fresh.trans (by omega), fun hle => hc.unborn (by omega), fun ha => ?_, fun hd => ?_, hc.locks⟩
        · cases ha
          exact absurd rfl hj
        · exact fun hmem => (List.mem_cons.1 hmem).elim hj (hc.unlinked hd)
  | created hmain =>
    rename_i i
    have hc := h.conns i
    have hpc := hc.starting (by rw [hmain]; rfl)
    have h' : RefInv { s with main := .accept } := ⟨h.ledger, fun j => (h.conns j).notAdding rfl, h.pty, h.ring⟩
    have hinv := h'.update (i := i) (d := { s.conn i with pc := .recvFirst }) (by simp [threadRef, hpc])
      ⟨hc.fresh, fun hle => absurd (hpc.symm.trans (hc.unborn hle)) (by rintro ⟨⟩), (by rintro ⟨⟩), (by rintro ⟨⟩), fun cl hcl => by
        rw [hc.locks cl hcl, hpc]
        exact ⟨(by rintro ⟨⟩), (by rintro ⟨⟩)⟩⟩ (Or.inl rfl)
    exact ⟨hinv.ledger, hinv.conns, hinv.pty, hinv.ring⟩
  | createFailed hmain =>
    rename_i i
    refine ⟨h.ledger, fun j => ?_, h.pty, h.ring⟩
    have hc := h.conns j
    refine ⟨hc.fresh, hc.unborn, fun ha => hc.starting ?_, hc.unlinked, hc.locks⟩
    rw [hmain]
    exact ha
  | dropped hmain hrel =>
    have hpc := h.starting_of_drop hmain
    obtain ⟨c', rfl, -, -, -, hinv⟩ := exists_of_eq_some (h.finish (Or.inl hpc)) hrel
    simp only [Sys.setConn, Function.update_self, Function.update_idem]
    exact hinv .accept (by rintro _ ⟨⟩)
  | mainQuiet hm hm' => exact ⟨h.ledger, fun j => (h.conns j).notAdding hm', h.pty, h.ring⟩
  | mainShut hm hm' hshut =>
    obtain ⟨conn', rfl, -, hinv⟩ := exists_of_eq_some h.shut hshut
    exact ⟨hinv.ledger, fun j => (hinv.conns j).notAdding hm', hinv.pty, hinv.ring⟩
  | recvFirst hpc hcl hmove =>
    rename_i i env cl move
    have hinv := h.setPc (i := i) (d := { s.conn i with
        pc := move.pc, input := (optyRecvFrameLimited env.alloc (s.conn i).input optyMaxUnauthPayload).2 })
      (by rw [hpc]; rfl) (by rw [hpc]; rfl) rfl move.pc_running.1 move.pc_running.2
    exact ⟨hinv.ledger, hinv.conns, hinv.pty, hinv.ring⟩
  | sendError hpc hcl hlock =>
    exact h.setPc (by rw [hpc]; rfl) (by rw [hpc]; rfl) rfl (by rintro ⟨⟩) rfl
  | resizeIntro hpc =>
    rename_i i env intro
    have hinv := h.setPc (i := i) (d := { s.conn i with pc := .attach intro.requestedSeq }) (by rw [hpc]; rfl)
      (by rw [hpc]; rfl) rfl (by rintro ⟨⟩) rfl
    exact ⟨hinv.ledger, hinv.conns, hinv.pty, hinv.ring⟩
  | resizeIntroFailed hpc => exact h.setPc (by rw [hpc]; rfl) (by rw [hpc]; rfl) rfl (by rintro ⟨⟩) rfl
  | attach hpc hcl hlock hattach =>
    obtain ⟨rfl, -⟩ := serverAttach_refs hattach
    refine h.setConn (by rw [hpc]; rfl) (by rintro ⟨⟩) (Or.inr ⟨_, _, hcl, rfl, rfl, rfl⟩) ?_
    rintro cl' ⟨⟩
    exact ⟨fun _ => rfl, fun _ => rfl⟩
  | attachFailed hpc hcl hattach =>
    exact h.setPc (by rw [hpc]; rfl) (by rw [hpc]; rfl) rfl (by rintro ⟨⟩) rfl
  | welcome hpc hcl hs =>
    refine h.setConn (by rw [hpc]; rfl) (by rintro ⟨⟩) (Or.inl rfl) fun cl' hcl' => ?_
    rw [(h.conns _).locks cl' hcl', hpc]
    simp [ThreadPc.isSending]
  | welcomeFailed hpc hcl hs =>
    refine h.setConn (by rw [hpc]; rfl) (by rintro ⟨⟩) (Or.inr ⟨_, _, hcl, rfl, rfl, rfl⟩) ?_
    rintro cl' ⟨⟩
    simp [ThreadPc.isSending]
  | replay hpc hcl hs =>
    refine h.setConn (by rw [hpc]; rfl) (by rintro ⟨⟩) (Or.inr ⟨_, _, hcl, rfl, rfl, rfl⟩) ?_
    rintro cl' ⟨⟩
    simp [ThreadPc.isSending]
  | replayFailed hpc hcl hs =>
    refine h.setConn (by rw [hpc]; rfl) (by rintro ⟨⟩) (Or.inr ⟨_, _, hcl, rfl, rfl, rfl⟩) ?_
    rintro cl' ⟨⟩
    simp [ThreadPc.isSending]
  | recvLoop hpc hcl hmove =>
    rename_i i env cl move
    exact h.setPc (by rw [hpc]; rfl) (by rw [hpc]; rfl) rfl move.pc_running.1 move.pc_running.2
  | writePty hpc hpc' =>
    rename_i i env payload pc'
    have hrun : pc' ≠ .done ∧ pc'.isSending = false := by
      rcases hpc' with rfl | rfl <;> exact ⟨(by rintro ⟨⟩), rfl⟩
    have hinv := h.setPc (i := i) (d := { s.conn i with pc := pc' }) (by rw [hpc]; rfl)
      (by rw [hpc]; rfl) rfl hrun.1 hrun.2
    exact ⟨hinv.ledger, hinv.conns, hinv.pty, hinv.ring⟩
  | resizeLoop hpc =>
    rename_i i env cols rows
    have hinv := h.setPc (i := i) (d := { s.conn i with pc := .recvLoop }) (by rw [hpc]; rfl)
      (by rw [hpc]; rfl) rfl (by rintro ⟨⟩) rfl
    exact ⟨hinv.ledger, hinv.conns, hinv.pty, hinv.ring⟩
  | resizeLoopFailed hpc => exact h.setPc (by rw [hpc]; rfl) (by rw [hpc]; rfl) rfl (by rintro ⟨⟩) rfl
  | shutdownInput hpc =>
    rename_i i env input
    have hinv := h.setPc (i := i) (d := { s.conn i with pc := .shutdown .awaitChild }) (by rw [hpc]; rfl)
      (by rw [hpc]; rfl) rfl (by rintro ⟨⟩) rfl
    exact ⟨hinv.ledger, hinv.conns, hinv.pty, hinv.ring⟩
  | shutdownStage hpc =>
    rename_i i env stage stage' l
    have hinv := h.setPc (i := i) (d := { s.conn i with pc := .shutdown stage' }) (by rw [hpc]; rfl)
      (by rw [hpc]; rfl) rfl (by rintro ⟨⟩) rfl
    exact ⟨hinv.ledger, hinv.conns, hinv.pty, hinv.ring⟩
  | shutdownShut hpc hshut =>
    obtain ⟨conn', rfl, hsh, hinv⟩ := exists_of_eq_some h.shut hshut
    refine hinv.setPc ?_ ?_ rfl (by rintro ⟨⟩) rfl
    · simp only [(hsh _).1.pc, hpc]; rfl
    · simp only [(hsh _).1.pc, hpc]; rfl
  | finished hpc hrel =>
    obtain ⟨c', rfl, -, -, -, hinv⟩ := exists_of_eq_some (h.finish (Or.inr hpc)) hrel
    simp only [Sys.setConn, Function.update_self, Function.update_idem]
    refine hinv s.main fun j hj => ⟨?_, hj⟩
    rintro rfl
    have := (h.conns j).starting hj
    rw [hpc] at this
    cases this
  | ptyQuiet hp hp' =>
    rename_i p l
    obtain ⟨hinv, hnil⟩ := PtyInv.of_idle hp'
    refine ⟨h.ledger.of_owners fun j => ?_, h.conns, hinv, h.ring⟩
    simp only [Sys.owners, hnil, (PtyInv.of_idle hp).2]
  | ptyGot hp h0 hlen =>
    refine ⟨h.ledger.of_owners fun j => ?_, h.conns, ⟨List.nodup_nil, (by rintro _ ⟨⟩), fun chunk hchunk => ?_⟩, h.ring⟩
    · simp only [Sys.owners, hp, PtyPc.held]
    · cases hchunk
      exact hlen
  | ptyAppend hp hr =>
    obtain ⟨r', rfl, hbounded⟩ := exists_of_eq_some (append_bounded h.ring _ (Nat.lt_of_le_of_lt (h.pty.read _ hp) (by decide))) hr
    refine ⟨h.ledger.of_owners fun j => ?_, h.conns, ⟨List.nodup_nil, (by rintro _ ⟨⟩), (by rintro _ ⟨⟩)⟩, hbounded⟩
    simp only [Sys.owners, hp, PtyPc.held]
  | ptyNoSnapshot hp hr =>
    obtain ⟨rfl, -⟩ := serverSnapshotClients_nil h.ledger hr
    refine ⟨h.ledger.of_owners fun j => ?_, h.conns, (PtyInv.of_idle rfl).1, h.ring⟩
    simp only [Sys.owners, hp, PtyPc.held]
  | ptySnapshot hp hne hr =>
    rename_i alloc seq chunk s₁ snap
    obtain ⟨rfl, rfl, hledger⟩ := serverSnapshotClients_cons h.ledger hne hr
    have hsh := fun j => Shaken.retain (s.conn j) ((s.clients.filter fun k => (s.conn k).isAttached).count j)
    refine ⟨hledger.of_owners fun j => ?_, fun j => (h.conns j).shaken (hsh j) fun _ => id,
      ⟨h.ledger.nodup.filter _, fun j hj => hj, (by rintro _ ⟨⟩)⟩, h.ring⟩
    simp only [Sys.owners, threadRef_shaken (hsh j), hp, PtyPc.held, List.count_nil, Nat.add_zero]
  | ptyReleased hp hrel =>
    obtain ⟨conn', rfl, -, hinv⟩ := exists_of_eq_some (h.releaseSnapshot hp) hrel
    exact hinv
  | ptySent hp hcl hlock hs =>
    rename_i alloc seq chunk snap i todo cl cl' sock
    have hinv := h.afterSend hcl hs
    refine ⟨hinv.ledger.of_owners fun j => ?_, hinv.conns, ?_, hinv.ring⟩
    · simp only [Sys.owners, Sys.setConn, hp, PtyPc.held]
    · have := h.pty.next seq chunk todo (by rw [hp]; exact fun j hj => List.mem_cons_of_mem _ hj)
      rwa [hp] at this
  | ptySendFailed hp hcl hlock hs =>
    rename_i alloc seq chunk snap i todo cl cl' e sock
    have hinv := h.afterSend hcl hs
    refine ⟨hinv.ledger.of_owners fun j => ?_, hinv.conns, ?_, hinv.ring⟩
    · simp only [Sys.owners, Sys.setConn, hp, PtyPc.held]
    · have := h.pty
      rw [hp] at this
      exact ⟨this.nodup, this.todo, (by rintro _ ⟨⟩)⟩
  | ptyMarkedDead hp hrel =>
    obtain ⟨c', rfl, -, -, -, hinv⟩ := exists_of_eq_some (h.markDead hp) hrel
    exact hinv
  | ptyShut hp hshut =>
    obtain ⟨conn', rfl, -, hinv⟩ := exists_of_eq_some h.shut hshut
    refine ⟨hinv.ledger.of_owners fun j => ?_, hinv.conns, (PtyInv.of_idle rfl).1, hinv.ring⟩
    simp only [Sys.owners, hp, PtyPc.held]

/-! ## The connections an action is not about -/

/-- The connection an action is about. -/
def actsOn (s : Sys) : Act → Option Nat
  | .client i _ => some i
  | .accept _ _ _ => some s.count
  | .create _ | .drop => s.main.adding
  | .pty _ => s.pty.todo.head?
  | _ => none

namespace ReferencesAux

theorem shaken_update {conn : Nat → Conn} {i j : Nat} (c : Conn) (hj : j ≠ i) :
    Shaken (conn j) (Function.update conn i c j) := by
  rw [Function.update_of_ne hj]
  exact Shaken.refl _

theorem shaken_setConn {s : Sys} {i j : Nat} (c : Conn) (hj : j ≠ i) : Shaken (s.conn j) ((s.setConn i c).conn j) :=
  shaken_update c hj

end ReferencesAux

open ReferencesAux in
/-- An action does no more to the other connections than to shut their sockets and to change their references. -/
theorem shaken_of_moves {s t : Sys} {a : Act} (h : RefInv s) (hm : Moves s a t) {j : Nat} (hj : actsOn s a ≠ some j) :
    Shaken (s.conn j) (t.conn j) := by
  have hne : ∀ {i : Nat}, actsOn s a = some i → j ≠ i := fun hi hji => hj (hji ▸ hi)
  cases hm with
  | acceptFailed => exact Shaken.refl _
  | accept hmain => exact shaken_setConn _ (hne rfl)
  | created hmain => exact shaken_setConn _ (hne (by rw [actsOn, hmain]; rfl))
  | createFailed hmain => exact Shaken.refl _
  | dropped hmain hrel =>
    have hpc := h.starting_of_drop hmain
    obtain ⟨c', rfl, -⟩ := exists_of_eq_some (h.finish (Or.inl hpc)) hrel
    simp only [Sys.setConn, Function.update_idem]
    exact shaken_update _ (hne (by rw [actsOn, hmain]; rfl))
  | mainQuiet hm hm' => exact Shaken.refl _
  | mainShut hm hm' hshut =>
    obtain ⟨conn', rfl, hsh, -⟩ := exists_of_eq_some h.shut hshut
    exact (hsh j).1
  | recvFirst hpc hcl hmove => exact shaken_setConn _ (hne rfl)
  | sendError hpc hcl hlock => exact shaken_setConn _ (hne rfl)
  | resizeIntro hpc => exact shaken_setConn _ (hne rfl)
  | resizeIntroFailed hpc => exact shaken_setConn _ (hne rfl)
  | attach hpc hcl hlock hattach => exact shaken_setConn _ (hne rfl)
  | attachFailed hpc hcl hattach => exact shaken_setConn _ (hne rfl)
  | welcome hpc hcl hs => exact shaken_setConn _ (hne rfl)
  | welcomeFailed hpc hcl hs => exact shaken_setConn _ (hne rfl)
  | replay hpc hcl hs => exact shaken_setConn _ (hne rfl)
  | replayFailed hpc hcl hs => exact shaken_setConn _ (hne rfl)
  | recvLoop hpc hcl hmove => exact shaken_setConn _ (hne rfl)
  | writePty hpc hpc' => exact shaken_setConn _ (hne rfl)
  | resizeLoop hpc => exact shaken_setConn _ (hne rfl)
  | resizeLoopFailed hpc => exact shaken_setConn _ (hne rfl)
  | shutdownInput hpc => exact shaken_setConn _ (hne rfl)
  | shutdownStage hpc => exact shaken_setConn _ (hne rfl)
  | shutdownShut hpc hshut =>
    obtain ⟨conn', rfl, hsh, -⟩ := exists_of_eq_some h.shut hshut
    exact (hsh j).1.trans (shaken_update _ (hne rfl))
  | finished hpc hrel =>
    obtain ⟨c', rfl, -⟩ := exists_of_eq_some (h.finish (Or.inr hpc)) hrel
    simp only [Sys.setConn, Function.update_idem]
    exact shaken_update _ (hne rfl)
  | ptyQuiet hp hp' => exact Shaken.refl _
  | ptyGot hp h0 hlen => exact Shaken.refl _
  | ptyAppend hp hr => exact Shaken.refl _
  | ptyNoSnapshot hp hr | ptySnapshot hp hne hr =>
    obtain ⟨conn', rfl, hsh⟩ := serverSnapshotClients_shaken h.ledger hr
    exact hsh j
  | ptyReleased hp hrel =>
    obtain ⟨conn', rfl, hsh, -⟩ := exists_of_eq_some (h.releaseSnapshot hp) hrel
    exact hsh j
  | ptySent hp hcl hlock hs => exact shaken_setConn _ (hne (by rw [actsOn, hp]; rfl))
  | ptySendFailed hp hcl hlock hs => exact shaken_setConn _ (hne (by rw [actsOn, hp]; rfl))
  | ptyMarkedDead hp hrel =>
    obtain ⟨c', rfl, -⟩ := exists_of_eq_some (h.markDead hp) hrel
    exact shaken_update _ (hne (by rw [actsOn, hp]; rfl))
  | ptyShut hp hshut =>
    obtain ⟨conn', rfl, hsh, -⟩ := exists_of_eq_some h.shut hshut
    exact (hsh j).1

/-- What an action adds to the log and to what the terminal received. -/
inductive Outputs (s : Sys) (t : Sys) : Prop where
  | none (hlog : t.log = s.log) (hmaster : t.master = s.master) (heffects : t.effects = s.effects) : Outputs s t
  | append (chunk : List UInt8) (hlog : t.log = s.log ++ chunk) (hmaster : t.master = s.master)
      (heffects : t.effects = s.effects) : Outputs s t
  | wrote (i : Nat) (payload : List UInt8) (hlog : t.log = s.log) (hmaster : t.master = (serverWritePty s.master payload).2)
      (heffects : t.effects = s.effects ++ [(i, .bytes (t.master.written.drop s.master.written.length))]) : Outputs s t
  | resized (i : Nat) (cols rows : UInt16) (hlog : t.log = s.log) (hmaster : t.master = s.master)
      (heffects : t.effects = s.effects ++ [(i, .winsize cols rows)]) : Outputs s t

/-- Every action is one of these; connections are only ever added. -/
theorem outputs_of_moves {s t : Sys} {a : Act} (h : RefInv s) (hm : Moves s a t) :
    Outputs s t ∧ s.count ≤ t.count := by
  cases hm with
  | accept hmain => exact ⟨.none rfl rfl rfl, Nat.le_succ _⟩
  | writePty hpc hpc' => exact ⟨.wrote _ _ rfl rfl rfl, Nat.le_refl _⟩
  | shutdownInput hpc => exact ⟨.wrote _ _ rfl rfl rfl, Nat.le_refl _⟩
  | resizeIntro hpc => exact ⟨.resized _ _ _ rfl rfl rfl, Nat.le_refl _⟩
  | resizeLoop hpc => exact ⟨.resized _ _ _ rfl rfl rfl, Nat.le_refl _⟩
  | ptyAppend hp hr => exact ⟨.append _ rfl rfl rfl, Nat.le_refl _⟩
  | dropped hmain hrel =>
    have hpc := h.starting_of_drop hmain
    obtain ⟨c', rfl, -⟩ := exists_of_eq_some (h.finish (Or.inl hpc)) hrel
    exact ⟨.none rfl rfl rfl, Nat.le_refl _⟩
  | finished hpc hrel =>
    obtain ⟨c', rfl, -⟩ := exists_of_eq_some (h.finish (Or.inr hpc)) hrel
    exact ⟨.none rfl rfl rfl, Nat.le_refl _⟩
  | mainShut hm hm' hshut | shutdownShut hpc hshut | ptyShut hp hshut =>
    obtain ⟨conn', rfl, -⟩ := exists_of_eq_some h.shut hshut
    exact ⟨.none rfl rfl rfl, Nat.le_refl _⟩
  | ptyNoSnapshot hp hr | ptySnapshot hp hne hr =>
    obtain ⟨conn', rfl, -⟩ := serverSnapshotClients_shaken h.ledger hr
    exact ⟨.none rfl rfl rfl, Nat.le_refl _⟩
  | ptyReleased hp hrel =>
    obtain ⟨conn', rfl, -⟩ := exists_of_eq_some (h.releaseSnapshot hp) hrel
    exact ⟨.none rfl rfl rfl, Nat.le_refl _⟩
  | ptyMarkedDead hp hrel =>
    obtain ⟨c', rfl, -⟩ := exists_of_eq_some (h.markDead hp) hrel
    exact ⟨.none rfl rfl rfl, Nat.le_refl _⟩
  | _ => exact ⟨.none rfl rfl rfl, Nat.le_refl _⟩

/-- The log only grows. -/
theorem log_prefix_of_moves {s t : Sys} {a : Act} (h : RefInv s) (hm : Moves s a t) : s.log <+: t.log := by
  cases (outputs_of_moves h hm).1 with
  | none hlog => exact hlog ▸ List.prefix_refl _
  | append chunk hlog => rw [hlog]; exact List.prefix_append _ _
  | wrote i payload hlog => exact hlog ▸ List.prefix_refl _
  | resized i cols rows hlog => exact hlog ▸ List.prefix_refl _

/-! ## No undefined behaviour -/

namespace ReferencesAux

theorem ofOption_map_ne_fault {α : Type} {o : Option α} {f : α → Sys} (h : ∃ a, o = some a) :
    Outcome.ofOption (o.map f) ≠ .fault := by
  obtain ⟨a, rfl⟩ := h
  nofun

theorem withClient_ne_fault {s : Sys} {i : Nat} {k : Client → Outcome Sys} (h : ∃ cl, (s.conn i).cell = .live cl)
    (hk : ∀ cl, (s.conn i).cell = .live cl → k cl ≠ .fault) : s.withClient i k ≠ .fault := by
  obtain ⟨cl, hcl⟩ := h
  rw [Sys.withClient, hcl]
  exact hk cl hcl

/-- The stages of a shutdown run into nothing undefined. -/
theorem shutdownStep_total {s : Sys} (h : RefInv s) (stage : Shutdown) : ∃ r, shutdownStep s stage = some r := by
  cases stage with
  | awaitChild => exact ⟨_, rfl⟩
  | closeListener => exact ⟨_, rfl⟩
  | shutdownClients =>
    obtain ⟨conn', hshut, -⟩ := h.shut
    exact ⟨_, by rw [shutdownStep, hshut]; rfl⟩

theorem mainStep_ne_fault {s : Sys} (h : RefInv s) (a : Act) : mainStep s a ≠ .fault := by
  cases a with
  | accept input sched calloc =>
    simp only [mainStep]
    split
    · split <;> rintro ⟨⟩
    · rintro ⟨⟩
  | create ok =>
    simp only [mainStep]
    split
    · split <;> rintro ⟨⟩
    · rintro ⟨⟩
  | drop =>
    simp only [mainStep]
    split
    · rename_i i hm
      have hpc := h.starting_of_drop hm
      obtain ⟨c', hrel, -⟩ := h.finish (Or.inl hpc)
      exact ofOption_map_ne_fault ⟨_, hrel⟩
    · rintro ⟨⟩
  | signal fatal =>
    simp only [mainStep]
    split <;> rintro ⟨⟩
  | main =>
    simp only [mainStep]
    split
    · exact ofOption_map_ne_fault (shutdownStep_total h _)
    · rintro ⟨⟩
  | leave =>
    simp only [mainStep]
    split <;> rintro ⟨⟩
  | client i env => rintro ⟨⟩
  | ptyRead r => rintro ⟨⟩
  | pty alloc => rintro ⟨⟩

theorem clientStep_ne_fault {s : Sys} (h : RefInv s) (i : Nat) (env : Env) : clientStep s i env ≠ .fault := by
  unfold clientStep
  simp only
  split
  · rintro ⟨⟩
  · rename_i hpc
    refine withClient_ne_fault (h.live_of_thread (by rw [hpc]; rintro ⟨⟩)) fun cl _ => ?_
    obtain ⟨move, hmove, -⟩ := firstMove_spec s.cfg (optyRecvFrameLimited env.alloc (s.conn i).input optyMaxUnauthPayload).1
    exact ofOption_map_ne_fault ⟨move, hmove⟩
  · rename_i text hpc
    refine withClient_ne_fault (h.live_of_thread (by rw [hpc]; rintro ⟨⟩)) fun cl _ => ?_
    split <;> rintro ⟨⟩
  · split <;> rintro ⟨⟩
  · rename_i requestedSeq hpc
    refine withClient_ne_fault (h.live_of_thread (by rw [hpc]; rintro ⟨⟩)) fun cl _ => ?_
    split
    · rintro ⟨⟩
    · obtain ⟨snap, hsnap⟩ := snapshot_bounded h.ring env.malloc requestedSeq
      exact ofOption_map_ne_fault ⟨_, by rw [serverAttach, hsnap, Option.map_some]⟩
  · rename_i snap hpc
    refine withClient_ne_fault (h.live_of_thread (by rw [hpc]; rintro ⟨⟩)) fun cl _ => ?_
    split <;> rintro ⟨⟩
  · rename_i snap hpc
    refine withClient_ne_fault (h.live_of_thread (by rw [hpc]; rintro ⟨⟩)) fun cl _ => ?_
    split <;> rintro ⟨⟩
  · rename_i hpc
    refine withClient_ne_fault (h.live_of_thread (by rw [hpc]; rintro ⟨⟩)) fun cl _ => ?_
    exact ofOption_map_ne_fault (loopMove_total _)
  · split <;> rintro ⟨⟩
  · split <;> rintro ⟨⟩
  · rintro ⟨⟩
  · exact ofOption_map_ne_fault (shutdownStep_total h _)
  · rename_i hpc
    obtain ⟨c', hrel, -⟩ := h.finish (Or.inr hpc)
    exact ofOption_map_ne_fault ⟨_, hrel⟩
  · rintro ⟨⟩

theorem ptyStep_ne_fault {s : Sys} (h : RefInv s) (a : Act) : ptyStep s a ≠ .fault := by
  cases a with
  | ptyRead r =>
    simp only [ptyStep]
    split
    · cases r with
      | got chunk =>
        simp only
        split <;> rintro ⟨⟩
      | interrupted => rintro ⟨⟩
      | ended => rintro ⟨⟩
    · rintro ⟨⟩
  | pty alloc =>
    simp only [ptyStep]
    split
    · rename_i chunk hp
      obtain ⟨r, hr, -⟩ := append_bounded h.ring chunk (Nat.lt_of_le_of_lt (h.pty.read chunk hp) (by decide))
      exact ofOption_map_ne_fault ⟨r, hr⟩
    · rcases serverSnapshotClients_spec h.ledger alloc with ⟨hs, -⟩ | ⟨-, hs, -⟩
      · exact ofOption_map_ne_fault ⟨_, hs⟩
      · exact ofOption_map_ne_fault ⟨_, hs⟩
    · rename_i seq chunk snap hp
      obtain ⟨conn', hrel, -⟩ := h.releaseSnapshot hp
      exact ofOption_map_ne_fault ⟨_, hrel⟩
    · rename_i seq chunk snap i todo hp
      have hi : i ∈ s.pty.held := h.pty.todo i (by rw [hp]; exact List.mem_cons_self)
      refine withClient_ne_fault (h.live_of_held hi) fun cl _ => ?_
      split
      · rintro ⟨⟩
      · split <;> rintro ⟨⟩
    · rename_i seq chunk snap i todo hp
      obtain ⟨c', hrel, -⟩ := h.markDead hp
      exact ofOption_map_ne_fault ⟨_, hrel⟩
    · rintro ⟨⟩
    · obtain ⟨conn', hshut, -⟩ := h.shut
      exact ofOption_map_ne_fault ⟨_, hshut⟩
    · rintro ⟨⟩
    · rintro ⟨⟩
    · rintro ⟨⟩
  | accept input sched calloc => rintro ⟨⟩
  | create ok => rintro ⟨⟩
  | drop => rintro ⟨⟩
  | signal fatal => rintro ⟨⟩
  | main => rintro ⟨⟩
  | leave => rintro ⟨⟩
  | client i env => rintro ⟨⟩

end ReferencesAux

open ReferencesAux

/-- While the references are exact no action runs into undefined behaviour. -/
theorem step_ne_fault {s : Sys} (h : RefInv s) (a : Act) : step s a ≠ .fault := by
  cases a with
  | client i env => exact clientStep_ne_fault h i env
  | ptyRead r => exact ptyStep_ne_fault h (.ptyRead r)
  | pty alloc => exact ptyStep_ne_fault h (.pty alloc)
  | accept input sched calloc => exact mainStep_ne_fault h (.accept input sched calloc)
  | create ok => exact mainStep_ne_fault h (.create ok)
  | drop => exact mainStep_ne_fault h .drop
  | signal fatal => exact mainStep_ne_fault h (.signal fatal)
  | main => exact mainStep_ne_fault h .main
  | leave => exact mainStep_ne_fault h .leave

/-- The references are exact when the server starts. -/
theorem refInv_init {cfg : Config} {ring : Ring} {master : Sink Errno} (hring : ring.Bounded) :
    RefInv (Sys.init cfg ring master) := by
  refine ⟨⟨List.nodup_nil, fun i => ?_⟩, fun i => ?_, (PtyInv.of_idle rfl).1, hring⟩
  · exact ⟨rfl, rfl⟩
  · exact ⟨⟨fun _ => Nat.zero_le _, fun _ => rfl⟩, fun _ => rfl, nofun, fun _ => List.not_mem_nil, nofun⟩

/-- The references are exact in every state the server reaches. -/
theorem refInv_exec {cfg : Config} {ring : Ring} {master : Sink Errno} (hring : ring.Bounded) {acts : List Act} {s : Sys}
    (h : exec step (Sys.init cfg ring master) acts = .next s) : RefInv s :=
  invariant (Q := fun _ => True) (fun _ _ _ hs _ hstep => refInv_moves hs (step_moves hstep)) (refInv_init hring)
    (fun _ _ => trivial) h

end ZeroPty
