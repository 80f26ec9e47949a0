import ZeroPty.Lemmas.Session
import ZeroPty.Connect

/-!
# Which session is connected to without a name

`run_connect_auto` counts the records, not those of sessions that are alive, and it looks the record up again by the name inside it.
-/

namespace ZeroPty

open Memory Text

/-- The entry of a file, if its record can be read. -/
def SessionDir.entry? (d : SessionDir) (name : CString) : Option SessionEntry :=
  (sessionOfFile name).bind fun session => (d.read session).toOption.map fun info => ⟨session, info⟩

/-- The records that can be read. -/
def SessionDir.readable (d : SessionDir) : List SessionEntry :=
  match d.entries with
  | .error _ => []
  | .ok names => names.filterMap d.entry?

/-- The records of the sessions that are alive. -/
def SessionDir.alive (d : SessionDir) : List SessionEntry := d.readable.filter fun e => d.accepts e.session

/-- The name inside a record leads to the host and port of that record: through the record of that name, through what the other reader
takes of it when it cannot be read, or through its number when neither reader finds an endpoint. -/
def SessionDir.LeadsBack (d : SessionDir) (e : SessionEntry) : Prop :=
  let name := CString.ofBytes e.info.name
  let endpoint := optyReadSessionEndpoint d.home (d.fopen name) d.files name 128 16
  optyIsSessionName name.bytes = true ∧
    ((∃ info, d.read name = .ok info ∧ info.host = e.info.host ∧ info.port = e.info.port) ∨
      (∃ err, d.read name = .error err) ∧
        (endpoint = .ok (e.info.host, e.info.port) ∨
          (∃ err, endpoint = .error err) ∧ optyIsDecimal name.bytes = true ∧
            numericSessionEndpoint name.bytes 16 = .ok ⟨e.info.host, e.info.port⟩))

/-- The one session that is alive is connected to, and without one there is no connection. -/
def PicksAlive (d : SessionDir) (r : ConnectResult) : Prop :=
  (∀ e, d.alive = [e] → r = .connects e.info.host e.info.port) ∧ (d.alive.length ≠ 1 → r = .returned 1)

namespace ConnectAux

open SessionAux

variable {d : SessionDir}

/-! ## Loading -/

theorem entry?_of_none {name : CString} (h : sessionOfFile name = none) : d.entry? name = none := by
  rw [SessionDir.entry?, h]
  rfl

theorem entry?_of_error {name session : CString} (h : sessionOfFile name = some session) {e : Errno} (hr : d.read session = .error e) :
    d.entry? name = none := by
  rw [SessionDir.entry?, h, Option.bind_some, hr]
  rfl

theorem entry?_of_ok {name session : CString} (h : sessionOfFile name = some session) {info : SessionInfo}
    (hr : d.read session = .ok info) : d.entry? name = some ⟨session, info⟩ := by
  rw [SessionDir.entry?, h, Option.bind_some, hr]
  rfl

/-- What is loaded are the records that can be read. -/
theorem loadEntries_eq {names : List CString} {cap : Nat} {entries loaded : List SessionEntry}
    (h : loadEntries d cap entries names = some loaded) : loaded = entries ++ names.filterMap d.entry? := by
  induction names generalizing cap entries with
  | nil =>
    cases h
    rw [List.filterMap_nil, List.append_nil]
  | cons name names ih =>
    rw [loadEntries] at h
    split at h
    · rename_i hs
      rw [List.filterMap_cons_none (entry?_of_none hs)]
      exact ih h
    · rename_i session hs
      generalize (if entries.length = cap then (if cap = 0 then 8 else cap * 2) else cap) = newCap at h
      simp only at h
      split at h
      · cases h
      · split at h
        · rename_i e hr
          rw [List.filterMap_cons_none (entry?_of_error hs hr)]
          exact ih h
        · rename_i info hr
          rw [List.filterMap_cons_some (entry?_of_ok hs hr), ih h, List.append_assoc, List.singleton_append]

/-- Where there is room, nothing has to be allocated. -/
theorem loadEntries_room {names : List CString} {cap : Nat} {entries : List SessionEntry}
    (h : entries.length + (names.filterMap d.entry?).length < cap) :
    loadEntries d cap entries names = some (entries ++ names.filterMap d.entry?) := by
  induction names generalizing entries with
  | nil => rw [loadEntries, List.filterMap_nil, List.append_nil]
  | cons name names ih =>
    have hne : entries.length ≠ cap := by omega
    rw [loadEntries]
    cases hs : sessionOfFile name with
    | none =>
      rw [List.filterMap_cons_none (entry?_of_none hs)] at h ⊢
      exact ih h
    | some session =>
      simp only [hne, false_and, if_false]
      cases hr : d.read session with
      | error e =>
        rw [List.filterMap_cons_none (entry?_of_error hs hr)] at h ⊢
        exact ih h
      | ok info =>
        rw [List.filterMap_cons_some (entry?_of_ok hs hr)] at h ⊢
        rw [List.length_cons] at h
        have hroom : (entries ++ [SessionEntry.mk session info]).length + (names.filterMap d.entry?).length < cap := by
          rw [List.length_append, List.length_singleton]
          omega
        simp only [ih hroom, List.append_assoc, List.singleton_append]

/-- A few records are loaded exactly when the first allocation succeeds. -/
theorem loadEntries_few {names : List CString} (hne : names.filterMap d.entry? ≠ []) (hfew : (names.filterMap d.entry?).length < 8) :
    loadEntries d 0 [] names = if d.realloc 8 then some (names.filterMap d.entry?) else none := by
  induction names with
  | nil => exact absurd rfl hne
  | cons name names ih =>
    rw [loadEntries]
    cases hs : sessionOfFile name with
    | none =>
      rw [List.filterMap_cons_none (entry?_of_none hs)] at hne hfew ⊢
      exact ih hne hfew
    | some session =>
      simp only [List.length_nil, true_and, if_true]
      cases hrealloc : d.realloc 8 with
      | false => rfl
      | true =>
        simp only [Bool.true_eq_false, if_false, if_true]
        cases hr : d.read session with
        | error e =>
          rw [List.filterMap_cons_none (entry?_of_error hs hr)] at hfew ⊢
          exact loadEntries_room (by rw [List.length_nil]; omega)
        | ok info =>
          rw [List.filterMap_cons_some (entry?_of_ok hs hr), List.length_cons] at hfew
          rw [List.filterMap_cons_some (entry?_of_ok hs hr)]
          exact loadEntries_room (by simp only [List.length_append, List.length_nil, List.length_singleton]; omega)

theorem readable_of_load {loaded : List SessionEntry} (h : optyLoadSessionEntries d = some loaded) : loaded = d.readable := by
  unfold optyLoadSessionEntries at h
  split at h
  · cases h
  · unfold SessionDir.readable
    cases hentries : d.entries with
    | error e =>
      simp only [hentries] at h
      split at h
      · cases h
        rfl
      · cases h
    | ok names =>
      simp only [hentries] at h
      obtain ⟨entries, hload, h⟩ := Option.bind_eq_some_iff.1 h
      split at h
      · cases h
        exact loadEntries_eq hload
      · cases h

theorem mem_readable {e : SessionEntry} (h : e ∈ d.readable) : d.read e.session = .ok e.info := by
  unfold SessionDir.readable at h
  split at h
  · cases h
  · obtain ⟨name, -, hname⟩ := List.mem_filterMap.1 h
    obtain ⟨session, -, hread⟩ := Option.bind_eq_some_iff.1 hname
    obtain ⟨info, hinfo, rfl⟩ := Option.map_eq_some_iff.1 hread
    cases hr : d.read session with
    | error e =>
      rw [hr] at hinfo
      cases hinfo
    | ok info' =>
      rw [hr] at hinfo
      cases hinfo
      rfl

/-- Records are read in a directory that has a name. -/
theorem sessionDir_of_readable {e : SessionEntry} (h : e ∈ d.readable) : ∃ dir, optySessionDir d.home = .ok dir := by
  obtain ⟨path, content, r, hpath, -⟩ := optyReadSessionInfo_eq_ok (mem_readable h)
  obtain ⟨dir, hdir, -⟩ := optySessionPath_eq hpath
  exact ⟨dir, hdir⟩

/-- A record that is alone is loaded exactly when the first allocation and the first thread succeed. -/
theorem load_single {e : SessionEntry} (h : d.readable = [e]) :
    optyLoadSessionEntries d = if d.realloc 8 = true ∧ d.pthreadCreate 0 = true then some [e] else none := by
  obtain ⟨dir, hdir⟩ := sessionDir_of_readable (h ▸ List.mem_cons_self : e ∈ d.readable)
  unfold SessionDir.readable at h
  unfold optyLoadSessionEntries
  rw [hdir]
  cases hentries : d.entries with
  | error e =>
    rw [hentries] at h
    cases h
  | ok names =>
    simp only [hentries] at h ⊢
    rw [loadEntries_few (by rw [h]; exact List.cons_ne_nil _ _) (by rw [h]; exact Nat.le_of_ble_eq_true rfl), h]
    cases d.realloc 8 with
    | false => rfl
    | true =>
      simp only [if_true, Option.bind_some, true_and]
      refine if_congr ⟨fun hall => hall 0 (Nat.succ_pos 0), fun h0 i hi => ?_⟩ rfl rfl
      rw [List.length_singleton, Nat.lt_one_iff] at hi
      rw [hi]
      exact h0

/-- The record is looked up by the name inside it. -/
theorem runConnectAuto_single {e : SessionEntry} (h : d.readable = [e]) :
    runConnectAuto d = if d.realloc 8 = true ∧ d.pthreadCreate 0 = true ∧ d.accepts e.session = true
      then runNamedConnect d (.ofBytes e.info.name) else .returned 1 := by
  unfold runConnectAuto
  rw [load_single h]
  by_cases hok : d.realloc 8 = true ∧ d.pthreadCreate 0 = true
  · rw [if_pos hok]
    simp only [hok.1, hok.2, true_and]
  · rw [if_neg hok, if_neg (fun hall => hok ⟨hall.1, hall.2.1⟩)]

/-- Without exactly one record nothing is connected to. -/
theorem runConnectAuto_of_ne (h : d.readable.length ≠ 1) : runConnectAuto d = .returned 1 := by
  unfold runConnectAuto
  cases hload : optyLoadSessionEntries d with
  | none => rfl
  | some loaded =>
    rw [← readable_of_load hload] at h
    cases loaded with
    | nil => rfl
    | cons e rest =>
      cases rest with
      | nil => exact absurd rfl h
      | cons e' rest => rfl

theorem ofBytes_bytes (s : CString) : CString.ofBytes s.bytes = s := by
  obtain ⟨bytes, hnul⟩ := s
  have hall : ∀ b ∈ bytes, decide (b ≠ 0) = true := by
    intro b hb
    rw [decide_eq_true_iff]
    rintro rfl
    exact hnul hb
  simp only [CString.ofBytes, List.takeWhile_eq_self_iff.2 hall]

/-- Without exactly one session alive nothing is connected to. -/
theorem runConnectAuto_of_not_alive (h : d.alive.length ≠ 1) : runConnectAuto d = .returned 1 := by
  by_cases hreadable : d.readable.length = 1
  · obtain ⟨e, he⟩ := List.length_eq_one_iff.1 hreadable
    rw [runConnectAuto_single he, if_neg]
    rintro ⟨-, -, haccepts⟩
    apply h
    rw [SessionDir.alive, he, List.filter_cons_of_pos (by exact haccepts), List.filter_nil]
    rfl
  · exact runConnectAuto_of_ne hreadable

/-- Where `run_named_connect` finds an endpoint, in the order in which it looks. -/
theorem namedEndpoint_eq_some_iff {session : CString} {host port : List UInt8} : namedEndpoint d session = some (host, port) ↔
    (∃ info, d.read session = .ok info ∧ info.host = host ∧ info.port = port) ∨
      (∃ err, d.read session = .error err) ∧
        (optyReadSessionEndpoint d.home (d.fopen session) d.files session 128 16 = .ok (host, port) ∨
          (∃ err, optyReadSessionEndpoint d.home (d.fopen session) d.files session 128 16 = .error err) ∧
            optyIsDecimal session.bytes = true ∧ numericSessionEndpoint session.bytes 16 = .ok ⟨host, port⟩) := by
  unfold namedEndpoint
  cases d.read session with
  | ok info => simp
  | error err =>
    cases optyReadSessionEndpoint d.home (d.fopen session) d.files session 128 16 with
    | ok endpoint => simp
    | error err' =>
      cases optyIsDecimal session.bytes with
      | false => simp
      | true =>
        cases numericSessionEndpoint session.bytes 16 with
        | error err'' => simp
        | ok endpoint =>
          obtain ⟨host', port'⟩ := endpoint
          simp

/-- The record that is looked up by its name is found exactly when the name leads back to it. -/
theorem runNamedConnect_eq_iff {e : SessionEntry} :
    runNamedConnect d (.ofBytes e.info.name) = .connects e.info.host e.info.port ↔ d.LeadsBack e := by
  unfold runNamedConnect
  rw [SessionDir.LeadsBack, ← namedEndpoint_eq_some_iff]
  cases optyIsSessionName (CString.ofBytes e.info.name).bytes with
  | false => simp
  | true =>
    cases namedEndpoint d (.ofBytes e.info.name) with
    | none => simp
    | some endpoint =>
      obtain ⟨host, port⟩ := endpoint
      simp

end ConnectAux

open ConnectAux SessionAux

/-- `run_connect_auto` does what it says exactly when there is not one session alive, or when its record is the only one, the calls to
load it succeed, and the name inside it is one that leads to its own host and port. -/
theorem connect_auto_picks_alive_iff (d : SessionDir) :
    PicksAlive d (runConnectAuto d) ↔ d.alive.length ≠ 1 ∨
      ∃ e, d.readable = [e] ∧ d.realloc 8 = true ∧ d.pthreadCreate 0 = true ∧ d.LeadsBack e := by
  constructor
  · rintro ⟨hone, -⟩
    by_cases hcount : d.alive.length = 1
    · right
      obtain ⟨e, halive⟩ := List.length_eq_one_iff.1 hcount
      have hconnects := hone e halive
      by_cases hreadable : d.readable.length = 1
      · obtain ⟨e', he'⟩ := List.length_eq_one_iff.1 hreadable
        have hsame : e = e' := by
          have hmem : e ∈ d.readable := (List.mem_filter.1 (halive ▸ List.mem_cons_self : e ∈ d.alive)).1
          rw [he'] at hmem
          exact List.mem_singleton.1 hmem
        subst hsame
        rw [runConnectAuto_single he'] at hconnects
        split at hconnects
        · rename_i hok
          exact ⟨e, he', hok.1, hok.2.1, runNamedConnect_eq_iff.1 hconnects⟩
        · cases hconnects
      · rw [runConnectAuto_of_ne hreadable] at hconnects
        cases hconnects
    · exact Or.inl hcount
  · rintro (hcount | ⟨e, hreadable, hrealloc, hcreate, hback⟩)
    · exact ⟨fun e he => absurd (by rw [he]; rfl) hcount, fun _ => runConnectAuto_of_not_alive hcount⟩
    · refine ⟨fun e' he' => ?_, fun hcount => runConnectAuto_of_not_alive hcount⟩
      obtain ⟨hmem, haccepts⟩ := List.mem_filter.1 (he' ▸ List.mem_cons_self : e' ∈ d.alive)
      rw [hreadable] at hmem
      obtain rfl : e' = e := List.mem_singleton.1 hmem
      rw [runConnectAuto_single hreadable, if_pos ⟨hrealloc, hcreate, haccepts⟩]
      exact runNamedConnect_eq_iff.2 hback

/-- A record whose name is that of its file leads to itself. -/
theorem own_name_leads_back (d : SessionDir) {e : SessionEntry} (h : e ∈ d.readable) (hname : e.info.name = e.session.bytes) :
    d.LeadsBack e := by
  have hsame : CString.ofBytes e.info.name = e.session := by
    rw [hname]
    exact ofBytes_bytes e.session
  have hread := mem_readable h
  rw [SessionDir.LeadsBack, hsame]
  refine ⟨?_, Or.inl ⟨e.info, hread, rfl, rfl⟩⟩
  obtain ⟨path, content, r, hpath, -⟩ := optyReadSessionInfo_eq_ok hread
  exact optySessionPath_name hpath

/-- A directory with the sessions `a`, which is alive, and `b`, which is not. -/
def twoSessions : SessionDir where
  home := some (.ofBytes (ascii "/root"))
  entries := .ok [.ofBytes (ascii "b.session"), .ofBytes (ascii "a.session")]
  files := fun path =>
    if path = ascii "/root/.0pty/sessions/a.session" then some (ascii "name=a\nport=6077\n")
    else if path = ascii "/root/.0pty/sessions/b.session" then some (ascii "name=b\nport=6078\n")
    else none
  fopen := fun _ => .ok ()
  malloc := fun _ _ n => some (.fill n 0)
  realloc := fun _ => true
  pthreadCreate := fun _ => true
  accepts := fun session => session.bytes = ascii "a"

/-- One session of two is alive, and it is not connected to. -/
theorem one_alive_not_connected : twoSessions.alive.map (fun e => e.session.bytes) = [ascii "a"] ∧
    runConnectAuto twoSessions = .returned 1 ∧ ¬PicksAlive twoSessions (runConnectAuto twoSessions) := by
  have halive : twoSessions.alive.map (fun e => e.session.bytes) = [ascii "a"] := by decide +kernel
  have hresult : runConnectAuto twoSessions = .returned 1 := by decide +kernel
  refine ⟨halive, hresult, fun h => ?_⟩
  obtain ⟨e, he⟩ : ∃ e, twoSessions.alive = [e] := by
    rw [← List.length_eq_one_iff, ← List.length_map (f := fun e => e.session.bytes), halive]
    rfl
  cases hresult.symm.trans (h.1 e he)

end ZeroPty
