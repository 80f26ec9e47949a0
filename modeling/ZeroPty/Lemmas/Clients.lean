import ZeroPty.Threads

/-!
# What the sections on references do

A `Ledger` says that every client has exactly as many references as it has owners: the list, if it is in it, and the others. Each
section is given by what it makes of a ledger, and by `Shaken`, which says that of a connection it changes nothing but the
references, the place in the list and whether it is dead.
-/

namespace ZeroPty

open Stream Memory

/-- What the list holds of a client. -/
def linkRef (clients : List Nat) (i : Nat) : Nat := if i ∈ clients then 1 else 0

/-- The references of a client are those of the list and `own` others; there is a client as long as there are any. -/
def Conn.Counts (c : Conn) (linked own : Nat) : Prop :=
  match c.cell with
  | .live cl => cl.refs = linked + own ∧ 0 < linked + own ∧ (cl.inList = true ↔ linked = 1)
  | _ => linked = 0 ∧ own = 0

/-- Every client has exactly as many references as it has owners, and is in the list at most once. -/
structure Ledger (conn : Nat → Conn) (clients : List Nat) (own : Nat → Nat) : Prop where
  nodup : clients.Nodup
  counts : ∀ i, (conn i).Counts (linkRef clients i) (own i)

/-- Only the references of the connection changed, its place in the list, or that it is dead; a socket is shut when its client
dies or is freed, and may be shut at any time. -/
structure Shaken (c c' : Conn) : Prop where
  pc : c'.pc = c.pc
  input : c'.input = c.input
  wire : c'.wire = c.wire
  attached : c'.attached = c.attached
  written : c'.sock.written = c.sock.written
  sched : c'.sock.sched = c.sock.sched
  broken : c.sock.broken = true → c'.sock.broken = true
  cell : ∀ cl', c'.cell = .live cl' → ∃ cl, c.cell = .live cl ∧ cl'.authenticated = cl.authenticated ∧
    cl'.liveSeq = cl.liveSeq ∧ cl'.writeLocked = cl.writeLocked ∧ (cl.dead = true → cl'.dead = true) ∧
    (cl'.dead = true → cl.dead = true ∨ c'.sock.broken = true)
  freed : ∀ cl, c.cell = .live cl → (∀ cl', c'.cell ≠ .live cl') → c'.sock.broken = true
  fresh : c'.cell = .fresh ↔ c.cell = .fresh

theorem Shaken.refl (c : Conn) : Shaken c c where
  pc := rfl
  input := rfl
  wire := rfl
  attached := rfl
  written := rfl
  sched := rfl
  broken := id
  cell := fun cl h => ⟨cl, h, rfl, rfl, rfl, id, Or.inl⟩
  freed := fun cl h hn => absurd h (hn cl)
  fresh := Iff.rfl

/-- A socket that is not broken afterwards was not before. -/
theorem Shaken.unbroken {c c' : Conn} (h : Shaken c c') (hb : c'.sock.broken = false) : c.sock.broken = false := by
  cases hc : c.sock.broken with
  | false => rfl
  | true =>
    rw [h.broken hc] at hb
    cases hb

theorem Shaken.trans {c c' c'' : Conn} (h : Shaken c c') (h' : Shaken c' c'') : Shaken c c'' where
  pc := h'.pc.trans h.pc
  input := h'.input.trans h.input
  wire := h'.wire.trans h.wire
  attached := h'.attached.trans h.attached
  written := h'.written.trans h.written
  sched := h'.sched.trans h.sched
  broken := fun hb => h'.broken (h.broken hb)
  cell := by
    intro cl'' hcl''
    obtain ⟨cl', hcl', ha', hs', hw', hd', hb'⟩ := h'.cell cl'' hcl''
    obtain ⟨cl, hcl, ha, hs, hw, hd, hb⟩ := h.cell cl' hcl'
    refine ⟨cl, hcl, ha'.trans ha, hs'.trans hs, hw'.trans hw, fun hx => hd' (hd hx), fun hx => ?_⟩
    rcases hb' hx with hx | hx
    · exact (hb hx).imp id h'.broken
    · exact Or.inr hx
  freed := by
    intro cl hcl hn
    by_cases hl : ∃ cl', c'.cell = .live cl'
    · obtain ⟨cl', hcl'⟩ := hl
      exact h'.freed cl' hcl' hn
    · exact h'.broken (h.freed cl hcl fun cl' hcl' => hl ⟨cl', hcl'⟩)
  fresh := h'.fresh.trans h.fresh

theorem Shaken.shut (c : Conn) : Shaken c c.shut where
  pc := rfl
  input := rfl
  wire := rfl
  attached := rfl
  written := rfl
  sched := rfl
  broken := fun _ => rfl
  cell := fun cl h => ⟨cl, h, rfl, rfl, rfl, id, Or.inl⟩
  freed := fun _ _ _ => rfl
  fresh := Iff.rfl

/-- The client keeps its authentication, its position and its lock. It may leave the list, lose references and, with a socket that is
shut, die. -/
theorem Shaken.setClient {c d : Conn} {cl cl' : Client} (h : Shaken c d) (hc : c.cell = .live cl)
    (hauth : cl'.authenticated = cl.authenticated) (hseq : cl'.liveSeq = cl.liveSeq) (hlock : cl'.writeLocked = cl.writeLocked)
    (hdead : cl.dead = true → cl'.dead = true) (hdies : cl'.dead = true → cl.dead = true ∨ d.sock.broken = true) :
    Shaken c { d with cell := .live cl' } where
  pc := h.pc
  input := h.input
  wire := h.wire
  attached := h.attached
  written := h.written
  sched := h.sched
  broken := h.broken
  cell := by
    rintro _ ⟨⟩
    exact ⟨cl, hc, hauth, hseq, hlock, hdead, hdies⟩
  freed := fun _ _ hn => absurd rfl (hn _)
  fresh := by simp [hc]

/-- The client is freed, and its socket closed. -/
theorem Shaken.free {c d : Conn} {cl : Client} (h : Shaken c d) (hc : c.cell = .live cl) : Shaken c { d.shut with cell := .freed } where
  pc := h.pc
  input := h.input
  wire := h.wire
  attached := h.attached
  written := h.written
  sched := h.sched
  broken := fun _ => rfl
  cell := by rintro _ ⟨⟩
  freed := fun _ _ _ => rfl
  fresh := by simp [hc]

theorem Shaken.retain (c : Conn) (n : Nat) : Shaken c (c.retain n) := by
  cases hc : c.cell with
  | live cl =>
    simp only [Conn.retain, hc]
    exact (Shaken.refl c).setClient hc rfl rfl rfl id Or.inl
  | fresh => simp only [Conn.retain, hc]; exact Shaken.refl c
  | freed => simp only [Conn.retain, hc]; exact Shaken.refl c

/-- A connection whose client is marked dead. -/
def Conn.markedDead (c : Conn) (cl : Client) : Conn :=
  if cl.dead then c else { c.shut with cell := .live { cl with dead := true } }

theorem Conn.markedDead_cell {c : Conn} {cl : Client} (hc : c.cell = .live cl) :
    (c.markedDead cl).cell = .live { cl with dead := true } := by
  unfold Conn.markedDead
  split
  · rename_i hdead
    rw [hc, ← hdead]
  · rfl

/-- The socket of a client that dies is shut. -/
theorem Conn.markedDead_broken {c : Conn} {cl : Client} (hdead : cl.dead = false) : (c.markedDead cl).sock.broken = true := by
  rw [Conn.markedDead, hdead]
  rfl

theorem Shaken.markedDead {c : Conn} {cl : Client} (hc : c.cell = .live cl) : Shaken c (c.markedDead cl) := by
  unfold Conn.markedDead
  split
  · exact Shaken.refl c
  · exact (Shaken.shut c).setClient hc rfl rfl rfl (fun _ => rfl) (fun _ => Or.inr rfl)

namespace ClientsAux

theorem linkRef_le_one (clients : List Nat) (i : Nat) : linkRef clients i ≤ 1 := by
  unfold linkRef
  split <;> omega

theorem linkRef_erase_self {clients : List Nat} (h : clients.Nodup) (i : Nat) : linkRef (clients.erase i) i = 0 :=
  if_neg (h.not_mem_erase)

theorem linkRef_erase_ne {clients : List Nat} {i j : Nat} (h : j ≠ i) : linkRef (clients.erase i) j = linkRef clients j := by
  simp only [linkRef, List.mem_erase_of_ne h]

end ClientsAux

open ClientsAux

/-! ## Ledgers -/

section Ledger

variable {conn : Nat → Conn} {clients : List Nat} {own : Nat → Nat} {i : Nat}

/-- A client someone owns is there. -/
theorem Ledger.live_of_own (h : Ledger conn clients own) (hi : 0 < own i) : ∃ cl, (conn i).cell = .live cl := by
  have hc := h.counts i
  unfold Conn.Counts at hc
  cases hcell : (conn i).cell with
  | live cl => exact ⟨cl, rfl⟩
  | fresh => rw [hcell] at hc; simp only at hc; omega
  | freed => rw [hcell] at hc; simp only at hc; omega

/-- A client of the list is there. -/
theorem Ledger.live_of_mem (h : Ledger conn clients own) (hi : i ∈ clients) : ∃ cl, (conn i).cell = .live cl := by
  have hc := h.counts i
  have hl : linkRef clients i = 1 := if_pos hi
  unfold Conn.Counts at hc
  cases hcell : (conn i).cell with
  | live cl => exact ⟨cl, rfl⟩
  | fresh => rw [hcell] at hc; simp only at hc; omega
  | freed => rw [hcell] at hc; simp only at hc; omega

/-- The counts of a client that is there. -/
theorem Ledger.counts_live (h : Ledger conn clients own) {cl : Client} (hc : (conn i).cell = .live cl) :
    cl.refs = linkRef clients i + own i ∧ 0 < linkRef clients i + own i ∧ (cl.inList = true ↔ linkRef clients i = 1) := by
  have := h.counts i
  unfold Conn.Counts at this
  rwa [hc] at this

/-- A ledger after one connection and the owners of its client changed. -/
theorem Ledger.update (h : Ledger conn clients own) {c : Conn} {o : Nat → Nat} (hc : c.Counts (linkRef clients i) (o i))
    (ho : ∀ j, j ≠ i → o j = own j) : Ledger (Function.update conn i c) clients o := by
  refine ⟨h.nodup, fun j => ?_⟩
  by_cases hj : j = i
  · subst hj
    rwa [Function.update_self]
  · rw [Function.update_of_ne hj, ho j hj]
    exact h.counts j

theorem Ledger.of_owners {o o' : Nat → Nat} (h : Ledger conn clients o) (ho : ∀ j, o' j = o j) : Ledger conn clients o' := by
  rw [funext ho]
  exact h

/-- A connection that keeps its client, or changes none of its references, keeps the counts. -/
theorem Conn.Counts.congr {c c' : Conn} {linked own : Nat} (h : c.Counts linked own)
    (hc : c'.cell = c.cell ∨ ∃ cl cl', c.cell = .live cl ∧ c'.cell = .live cl' ∧ cl'.refs = cl.refs ∧ cl'.inList = cl.inList) :
    c'.Counts linked own := by
  unfold Conn.Counts at h ⊢
  rcases hc with hc | ⟨cl, cl', h1, h2, h3, h4⟩
  · rwa [hc]
  · rw [h1] at h
    rw [h2]
    simpa [h3, h4] using h

theorem listLive_of_ledger {s : Sys} (h : Ledger s.conn s.clients own) : listLive s = true := by
  unfold listLive
  rw [List.all_eq_true]
  intro j hj
  obtain ⟨cl, hc⟩ := h.live_of_mem hj
  rw [hc]

end Ledger

/-! ## Releases -/

/-- `client_release_many_locked`, when there are that many references: the client has so many fewer, and is freed when none are
left. -/
theorem clientReleaseManyLocked_spec (k : Nat) : ∀ {c : Conn} {l : Client}, c.cell = .live l → k ≤ l.refs → 0 < l.refs →
    (k = l.refs → l.writeLocked = false) →
    clientReleaseManyLocked c k =
      some (if k = l.refs then { c.shut with cell := .freed } else { c with cell := .live { l with refs := l.refs - k } }) := by
  induction k with
  | zero =>
    intro c cl hc hk h0 hl
    rw [clientReleaseManyLocked, if_neg (by omega), Nat.sub_zero]
    cases c
    simp only at hc
    rw [hc]
  | succ k ih =>
    intro c cl hc hk h0 hl
    rw [clientReleaseManyLocked]
    simp only [clientReleaseLocked, hc]
    rw [if_neg (by omega)]
    by_cases h1 : cl.refs - 1 = 0
    · have hk0 : k = 0 := by omega
      subst hk0
      rw [if_pos h1, if_pos (by omega)]
      simp only [clientFree, hl (by omega), Bool.false_eq_true, if_false, Option.map_some, Option.bind_some, if_true]
      rfl
    · rw [if_neg h1, Option.bind_some]
      simp only [Bool.false_eq_true, if_false]
      rw [ih (c := { c with cell := .live { cl with refs := cl.refs - 1 } }) (l := { cl with refs := cl.refs - 1 }) rfl
        (by simp only; omega) (by simp only; omega) (fun h => hl (by simp only at h; omega))]
      have hiff : k = cl.refs - 1 ↔ k + 1 = cl.refs := by omega
      by_cases he : k + 1 = cl.refs
      · rw [if_pos (hiff.2 he), if_pos he]
        rfl
      · rw [if_neg (fun h => he (hiff.1 h)), if_neg he]
        have : cl.refs - 1 - k = cl.refs - (k + 1) := by omega
        simp only [this]

/-- The walk through a list of clients that are all there. -/
theorem unlink_spec {conn : Nat → Conn} {i : Nat} {clients : List Nat} (h : ∀ j ∈ clients, ∃ cl, (conn j).cell = .live cl) :
    unlink conn i clients = some (clients.erase i) := by
  induction clients with
  | nil => rfl
  | cons j rest ih =>
    rw [unlink]
    by_cases hj : j = i
    · rw [if_pos hj, hj, List.erase_cons_head]
    · obtain ⟨cl, hc⟩ := h j List.mem_cons_self
      rw [if_neg hj, hc, ih fun k hk => h k (List.mem_cons_of_mem _ hk), List.erase_cons_tail (by simpa using hj)]
      rfl

/-- `server_drop_from_list_locked`: the client is out of the list, which gives up the reference it had. -/
theorem serverDropFromListLocked_spec {s : Sys} {i : Nat} {cl : Client} (hc : (s.conn i).cell = .live cl)
    (hlive : ∀ j ∈ s.clients, ∃ cl, (s.conn j).cell = .live cl) (hlist : cl.inList = true ↔ linkRef s.clients i = 1) :
    serverDropFromListLocked s i = some ({ s with
      conn := Function.update s.conn i { s.conn i with cell := .live { cl with inList := false } }
      clients := s.clients.erase i }, linkRef s.clients i) := by
  simp only [serverDropFromListLocked, hc]
  by_cases hin : cl.inList = true
  · rw [if_pos hin, unlink_spec hlive, hlist.1 hin]
    rfl
  · rw [if_neg hin]
    have hnot : i ∉ s.clients := fun hm => hin (hlist.2 (if_pos hm))
    have hzero : linkRef s.clients i = 0 := if_neg hnot
    have hin' : cl.inList = false := by simpa using hin
    have hsame : { s.conn i with cell := .live { cl with inList := false } } = s.conn i := by rw [← hin', ← hc]
    rw [hzero, List.erase_of_not_mem hnot, hsame, Function.update_eq_self]

/-- `server_mark_dead_locked`: the client is dead and out of the list. -/
theorem serverMarkDeadLocked_spec {s : Sys} {own : Nat → Nat} (h : Ledger s.conn s.clients own) {i : Nat} {cl : Client}
    (hc : (s.conn i).cell = .live cl) :
    serverMarkDeadLocked s i = some ({ s with
      conn := Function.update s.conn i { (s.conn i).markedDead cl with cell := .live { cl with dead := true, inList := false } }
      clients := s.clients.erase i }, linkRef s.clients i) := by
  have hmark : serverMarkDeadLocked s i = serverDropFromListLocked (s.setConn i ((s.conn i).markedDead cl)) i := by
    simp only [serverMarkDeadLocked, hc, Conn.markedDead]
    split
    · rw [Sys.setConn, Function.update_eq_self]
    · rfl
  have hcell : ((s.setConn i ((s.conn i).markedDead cl)).conn i).cell = .live { cl with dead := true } := by
    simp only [Sys.setConn, Function.update_self, Conn.markedDead_cell hc]
  rw [hmark, serverDropFromListLocked_spec hcell ?_ (h.counts_live hc).2.2]
  · simp only [Sys.setConn, Function.update_self, Function.update_idem]
  · intro j hj
    by_cases hji : j = i
    · subst hji
      exact ⟨_, hcell⟩
    · simp only [Sys.setConn, Function.update_of_ne hji]
      exact h.live_of_mem hj

/-- What `client_release_many_locked(c, own + server_mark_dead_locked(srv, c))` makes of a ledger in which the caller has `k`
references of its own: the client is out of the list, dead, and has `k` owners fewer. -/
theorem serverReleaseDead_spec {s : Sys} {own : Nat → Nat} (h : Ledger s.conn s.clients own) {i k : Nat} {cl : Client}
    (hc : (s.conn i).cell = .live cl) (hk : k ≤ own i) (hlock : own i = k → cl.writeLocked = false) :
    ∃ c', serverReleaseDead k s i = some { s with conn := Function.update s.conn i c', clients := s.clients.erase i } ∧
      Shaken (s.conn i) c' ∧ c'.Counts 0 (own i - k) ∧ (∀ cl', c'.cell = .live cl' → cl'.dead = true) ∧
      (cl.dead = false → c'.sock.broken = true) := by
  obtain ⟨hrefs, hpos, -⟩ := h.counts_live hc
  have hl1 := linkRef_le_one s.clients i
  have hdies : cl.dead = true ∨ ((s.conn i).markedDead cl).sock.broken = true := by
    cases hd : cl.dead with
    | true => exact Or.inl rfl
    | false => exact Or.inr (Conn.markedDead_broken hd)
  have hrel := clientReleaseManyLocked_spec (k + linkRef s.clients i)
    (c := { (s.conn i).markedDead cl with cell := .live { cl with dead := true, inList := false } })
    (l := { cl with dead := true, inList := false }) rfl
    (by simp only; omega) (by simp only; omega) (fun he => hlock (by simp only at he; omega))
  have hdead : serverReleaseDead k s i = (clientReleaseManyLocked
      { (s.conn i).markedDead cl with cell := .live { cl with dead := true, inList := false } } (k + linkRef s.clients i)).map
      fun c => { s with conn := Function.update s.conn i c, clients := s.clients.erase i } := by
    rw [serverReleaseDead, serverMarkDeadLocked_spec h hc, Option.bind_some]
    simp only [Function.update_self, Sys.setConn, Function.update_idem]
  rw [hdead, hrel]
  by_cases he : own i = k
  · -- nobody else has the client
    rw [if_pos (by simp only; omega)]
    exact ⟨_, rfl, (Shaken.markedDead hc).free hc, ⟨rfl, by omega⟩, by rintro _ ⟨⟩, fun _ => rfl⟩
  · rw [if_neg (by simp only; omega)]
    refine ⟨_, rfl, (Shaken.markedDead hc).setClient hc rfl rfl rfl (fun _ => rfl) (fun _ => hdies), ⟨?_, ?_, ?_⟩, ?_,
      Conn.markedDead_broken⟩
    · simp only
      omega
    · omega
    · simp
    · rintro _ ⟨⟩
      rfl

/-- `client_release_locked` for an owner of its own. -/
theorem clientReleaseLocked_spec {c : Conn} {cl : Client} {linked own : Nat} (hc : c.cell = .live cl)
    (h : c.Counts linked (own + 1)) (hlock : cl.writeLocked = true → 0 < own) :
    ∃ r, clientReleaseLocked c = some r ∧ Shaken c r.1 ∧ r.1.Counts linked own := by
  unfold Conn.Counts at h
  rw [hc] at h
  obtain ⟨hrefs, -, hlist⟩ := h
  simp only [clientReleaseLocked, hc]
  rw [if_neg (by omega)]
  by_cases h1 : cl.refs - 1 = 0
  · have hw : cl.writeLocked = false := by
      by_contra hw
      have := hlock (by simpa using hw)
      omega
    rw [if_pos h1]
    simp only [clientFree, hw, Bool.false_eq_true, if_false, Option.map_some]
    refine ⟨_, rfl, ((Shaken.refl c).setClient hc rfl rfl rfl id Or.inl).free hc, ?_⟩
    simp only [Conn.Counts]
    omega
  · rw [if_neg h1]
    refine ⟨_, rfl, (Shaken.refl c).setClient hc rfl rfl rfl id Or.inl, ?_⟩
    simp only [Conn.Counts]
    exact ⟨by omega, by omega, hlist⟩

/-- `server_release_snapshot` gives back one reference for each client of the snapshot. -/
theorem serverReleaseSnapshot_spec (snap : List Nat) : ∀ {s : Sys} {own : Nat → Nat},
    Ledger s.conn s.clients (fun j => own j + snap.count j) →
    (∀ j cl, (s.conn j).cell = .live cl → cl.writeLocked = true → 0 < own j) →
    ∃ conn', serverReleaseSnapshot s snap = some { s with conn := conn' } ∧ (∀ j, Shaken (s.conn j) (conn' j)) ∧
      Ledger conn' s.clients own := by
  induction snap with
  | nil =>
    intro s own h _
    exact ⟨s.conn, rfl, fun j => Shaken.refl _, by simpa using h⟩
  | cons i snap ih =>
    intro s own h hlock
    obtain ⟨cl, hcl⟩ := h.live_of_own (i := i) (by rw [List.count_cons_self]; omega)
    have hcounts := h.counts i
    rw [List.count_cons_self, ← Nat.add_assoc] at hcounts
    obtain ⟨⟨c₁, b⟩, hrel, hsh, hcounts₁⟩ := clientReleaseLocked_spec hcl hcounts
      (fun hw => Nat.lt_of_lt_of_le (hlock i cl hcl hw) (Nat.le_add_right _ _))
    have hledger : Ledger (Function.update s.conn i c₁) s.clients (fun j => own j + snap.count j) := by
      refine h.update hcounts₁ fun j hj => ?_
      rw [List.count_cons_of_ne (fun e => hj e.symm)]
    obtain ⟨conn', hrest, hshaken, hledger'⟩ := ih (s := s.setConn i c₁) hledger (by
      intro j cl' hcl' hw
      simp only [Sys.setConn] at hcl'
      by_cases hj : j = i
      · subst hj
        rw [Function.update_self] at hcl'
        obtain ⟨cl₀, hcl₀, -, -, hw₀, -⟩ := hsh.cell cl' hcl'
        exact hlock j cl₀ hcl₀ (hw₀ ▸ hw)
      · rw [Function.update_of_ne hj] at hcl'
        exact hlock j cl' hcl' hw)
    refine ⟨conn', ?_, fun j => ?_, hledger'⟩
    · rw [serverReleaseSnapshot, hrel, Option.bind_some, hrest]
      rfl
    · have hj := hshaken j
      simp only [Sys.setConn] at hj
      by_cases hji : j = i
      · subst hji
        rw [Function.update_self] at hj
        exact hsh.trans hj
      · rwa [Function.update_of_ne hji] at hj

/-- A client of a ledger with `n` more owners. -/
theorem Conn.Counts.retain {c : Conn} {linked own : Nat} (h : c.Counts linked own) (n : Nat) (hn : n = 0 ∨ ∃ cl, c.cell = .live cl) :
    (c.retain n).Counts linked (own + n) := by
  unfold Conn.Counts at h ⊢
  cases hc : c.cell with
  | live cl =>
    rw [hc] at h
    simp only [Conn.retain, hc]
    exact ⟨by omega, by omega, h.2.2⟩
  | fresh =>
    rw [hc] at h
    simp only [Conn.retain, hc]
    rcases hn with rfl | ⟨cl, hcl⟩
    · exact h
    · rw [hc] at hcl; cases hcl
  | freed =>
    rw [hc] at h
    simp only [Conn.retain, hc]
    rcases hn with rfl | ⟨cl, hcl⟩
    · exact h
    · rw [hc] at hcl; cases hcl

/-- `server_snapshot_clients`: the attached clients of the list, each with one owner more, or nothing. -/
theorem serverSnapshotClients_spec {s : Sys} {own : Nat → Nat} (h : Ledger s.conn s.clients own) (calloc : Bool) :
    let snap := s.clients.filter fun j => (s.conn j).isAttached
    (serverSnapshotClients s calloc = some (s, []) ∧ (calloc = true → snap = [])) ∨
      (snap ≠ [] ∧ serverSnapshotClients s calloc = some ({ s with conn := fun j => (s.conn j).retain (snap.count j) }, snap) ∧
        Ledger (fun j => (s.conn j).retain (snap.count j)) s.clients (fun j => own j + snap.count j)) := by
  intro snap
  simp only [serverSnapshotClients, listLive_of_ledger h, if_true]
  by_cases h0 : snap.length = 0
  · rw [if_pos h0]
    exact Or.inl ⟨rfl, fun _ => List.eq_nil_of_length_eq_zero h0⟩
  · rw [if_neg h0]
    cases calloc with
    | false => exact Or.inl ⟨rfl, nofun⟩
    | true =>
      refine Or.inr ⟨fun e => h0 (by rw [e]; rfl), rfl, h.nodup, fun j => ?_⟩
      refine (h.counts j).retain _ ?_
      by_cases hj : j ∈ snap
      · exact Or.inr (h.live_of_mem (List.mem_of_mem_filter hj))
      · exact Or.inl (List.count_eq_zero_of_not_mem hj)

/-- An empty snapshot: there is no attached client, or no memory. -/
theorem serverSnapshotClients_nil {s t : Sys} {own : Nat → Nat} (h : Ledger s.conn s.clients own) {calloc : Bool}
    (hr : serverSnapshotClients s calloc = some (t, [])) :
    t = s ∧ (calloc = true → (s.clients.filter fun j => (s.conn j).isAttached) = []) := by
  rcases serverSnapshotClients_spec h calloc with ⟨hs, hnil⟩ | ⟨hne, hs, -⟩
  · rw [hr] at hs
    cases hs
    exact ⟨rfl, hnil⟩
  · rw [hr] at hs
    exact absurd (congrArg Prod.snd (Option.some.inj hs)).symm hne

/-- A snapshot that is not empty has the attached clients of the list. -/
theorem serverSnapshotClients_cons {s t : Sys} {own : Nat → Nat} (h : Ledger s.conn s.clients own) {calloc : Bool} {snap : List Nat}
    (hne : snap ≠ []) (hr : serverSnapshotClients s calloc = some (t, snap)) :
    snap = (s.clients.filter fun j => (s.conn j).isAttached) ∧ t = { s with conn := fun j => (s.conn j).retain (snap.count j) } ∧
      Ledger (fun j => (s.conn j).retain (snap.count j)) s.clients (fun j => own j + snap.count j) := by
  rcases serverSnapshotClients_spec h calloc with ⟨hs, -⟩ | ⟨-, hs, hledger⟩
  · rw [hr] at hs
    exact absurd (congrArg Prod.snd (Option.some.inj hs)) hne
  · rw [hr] at hs
    cases hs
    exact ⟨rfl, rfl, hledger⟩

/-- Taking a snapshot only changes references. -/
theorem serverSnapshotClients_shaken {s t : Sys} {own : Nat → Nat} (h : Ledger s.conn s.clients own) {calloc : Bool} {snap : List Nat}
    (hr : serverSnapshotClients s calloc = some (t, snap)) :
    ∃ conn', t = { s with conn := conn' } ∧ ∀ j, Shaken (s.conn j) (conn' j) := by
  rcases serverSnapshotClients_spec h calloc with ⟨hs, -⟩ | ⟨-, hs, -⟩
  · rw [hr] at hs
    cases hs
    exact ⟨s.conn, rfl, fun j => Shaken.refl _⟩
  · rw [hr] at hs
    cases hs
    exact ⟨_, rfl, fun j => Shaken.retain _ _⟩

end ZeroPty
