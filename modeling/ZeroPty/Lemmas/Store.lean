import ZeroPty.Lemmas.Server
import ZeroPty.Store

/-!
# What the store and the commands say about a session

A mark is a port or a control token that a record, a command or a server has for a session. A step of any command leaves no mark that
was not there, except the ports it takes by their number (`opty_pick_session_endpoint` and the number of a numeric session) and the
tokens it generates. Both theorems about the store follow from this.
-/

namespace ZeroPty

open Transition Memory Text

/-- What is said of a session: one of its ports, or one of its control tokens. -/
inductive Mark where
  | port (port : Nat)
  | token (bytes : List UInt8)
  deriving DecidableEq, Repr

/-- What a record says of its session. -/
def SessionRecord.marks (r : SessionRecord) : List (List UInt8 × Mark) :=
  [(r.session, .port r.port), (r.session, .token r.token.bytes)]

/-- What a command has in hand about its session. A stop asks for its port, but never attaches to it. -/
def CommandPc.marks : CommandPc → List Mark
  | .startProbe _ port | .startToken _ port | .wait port _ _ | .attach port => [.port port]
  | .startWrite _ port token | .spawn port token => [.port port, .token token.bytes]
  | .restartProbe r => [.port r.port, .token r.token.bytes]
  | .stopProbe r | .stopConnect r | .stopSend r _ => [.token r.token.bytes]
  | _ => []

def CommandProc.marks (p : CommandProc) : List (List UInt8 × Mark) := p.pc.marks.map fun m => (p.session, m)

/-- A server has its port while it is on its way to it or listens on it. -/
def ServerProc.marks (v : ServerProc) : List (List UInt8 × Mark) :=
  (if v.phase = .starting ∨ v.phase = .listening then [(v.session, .port v.port)] else []) ++ [(v.session, .token v.token.bytes)]

/-- Everything that is said of any session. -/
def Store.marks (s : Store) : List (List UInt8 × Mark) :=
  s.records.flatMap SessionRecord.marks ++ s.procs.flatMap CommandProc.marks ++ s.servers.flatMap ServerProc.marks

/-- The port that a step of a command takes by its number alone: the one that `opty_pick_session_endpoint` finds, or that of a numeric
session without a record. -/
def CommandProc.takes (s : Store) (p : CommandProc) (e : CommandEnv) : Option Nat :=
  match p.pc with
  | .startPick _ => optyPickSessionEndpoint (s.bindable e.busy)
  | .connectEndpoint => if (s.read p.session e.ok).isNone then optyNumericSessionEndpoint p.session else none
  | _ => none

/-- The port that an action takes by its number alone, and for which session. -/
def Store.takes (s : Store) : StoreAct → Option (List UInt8 × Nat)
  | .command c e => s.procs[c]?.bind fun p => (p.takes s e).map fun port => (p.session, port)
  | _ => none

namespace StoreAux

/-! ## Marks -/

variable {s : Store} {x : List UInt8 × Mark}

theorem mem_marks : x ∈ s.marks ↔
    (∃ r ∈ s.records, x ∈ r.marks) ∨ (∃ p ∈ s.procs, x ∈ p.marks) ∨ ∃ v ∈ s.servers, x ∈ v.marks := by
  unfold Store.marks
  rw [List.mem_append, List.mem_append, List.mem_flatMap, List.mem_flatMap, List.mem_flatMap, or_assoc]

/-- The one mark of a place. -/
theorem mark_of_eq {session : List UInt8} {m n : Mark} (h : (session, m) ∈ s.marks) (hn : n ∈ [m]) : (session, n) ∈ s.marks := by
  rw [List.mem_singleton.1 hn]
  exact h

/-- The two marks of a place. -/
theorem marks_of_pair {session : List UInt8} {m m' n : Mark} (h : (session, m) ∈ s.marks) (h' : (session, m') ∈ s.marks)
    (hn : n ∈ [m, m']) : (session, n) ∈ s.marks := by
  rcases List.mem_pair.1 hn with rfl | rfl
  · exact h
  · exact h'

/-- A command that is there has its marks. -/
theorem marks_of_proc {c : Nat} {p : CommandProc} (hp : s.procs[c]? = some p) {m : Mark} (hm : m ∈ p.pc.marks) :
    (p.session, m) ∈ s.marks := by
  exact mem_marks.2 (.inr (.inl ⟨p, List.mem_of_getElem? hp, List.mem_map_of_mem hm⟩))

/-- A server that is there has its marks. -/
theorem marks_of_server {k : Nat} {v : ServerProc} (hv : s.servers[k]? = some v) (hx : x ∈ v.marks) : x ∈ s.marks := by
  exact mem_marks.2 (.inr (.inr ⟨v, List.mem_of_getElem? hv, hx⟩))

/-- The record that is read is that of the session. -/
theorem marks_of_read {session : List UInt8} {ok : Bool} {r : SessionRecord} (h : s.read session ok = some r) :
    (session, .port r.port) ∈ s.marks ∧ (session, .token r.token.bytes) ∈ s.marks := by
  unfold Store.read at h
  split at h
  · have hr : r ∈ s.records := List.mem_of_find?_eq_some h
    have hname : r.session = session := by
      have := List.find?_some h
      simpa using this
    subst hname
    refine ⟨mem_marks.2 (.inl ⟨r, hr, ?_⟩), mem_marks.2 (.inl ⟨r, hr, ?_⟩)⟩ <;> simp [SessionRecord.marks]
  · cases h

/-- The server that a connection reaches listens on the port. -/
theorem connect_listening {port k : Nat} {connects : Bool} (h : s.connect port connects = some k) :
    ∃ v, s.servers[k]? = some v ∧ v.phase = .listening ∧ v.port = port := by
  unfold Store.connect at h
  split at h
  · have hk := List.find?_some h
    split at hk
    · rename_i v hv
      rw [Bool.and_eq_true, beq_iff_eq, beq_iff_eq] at hk
      exact ⟨v, hv, hk⟩
    · cases hk
  · cases h

/-- Going on, a command has no marks but its new ones. -/
theorem marks_goto {c : Nat} {p : CommandProc} {pc : CommandPc} (hx : x ∈ (s.goto c p pc).marks) :
    x ∈ s.marks ∨ ∃ m ∈ pc.marks, x = (p.session, m) := by
  rcases mem_marks.1 hx with hr | ⟨q, hq, hx⟩ | hv
  · exact .inl (mem_marks.2 (.inl hr))
  · rcases List.mem_or_eq_of_mem_set hq with hq | rfl
    · exact .inl (mem_marks.2 (.inr (.inl ⟨q, hq, hx⟩)))
    · obtain ⟨m, hm, rfl⟩ := List.mem_map.1 hx
      exact .inr ⟨m, hm, rfl⟩
  · exact .inl (mem_marks.2 (.inr (.inr hv)))

/-- A record that is written brings its own marks. -/
theorem marks_write {r : SessionRecord} (hx : x ∈ (s.write r).marks) : x ∈ s.marks ∨ x ∈ r.marks := by
  rcases mem_marks.1 hx with ⟨q, hq, hx⟩ | hp
  · rcases List.mem_cons.1 hq with hqr | hq
    · rw [hqr] at hx
      exact .inr hx
    · exact .inl (mem_marks.2 (.inl ⟨q, (List.mem_filter.1 hq).1, hx⟩))
  · exact .inl (mem_marks.2 (.inr hp))

/-- A server that changes its phase brings no new marks, unless its port is new to it. -/
theorem marks_setPhase {k : Nat} {v : ServerProc} (hv : s.servers[k]? = some v) {phase : ServerPhase}
    (hphase : phase = .starting ∨ phase = .listening → v.phase = .starting ∨ v.phase = .listening)
    (hx : x ∈ (s.setPhase k v phase).marks) : x ∈ s.marks := by
  rcases mem_marks.1 hx with hr | hp | ⟨w, hw, hx⟩
  · exact mem_marks.2 (.inl hr)
  · exact mem_marks.2 (.inr (.inl hp))
  · rcases List.mem_or_eq_of_mem_set hw with hw | rfl
    · exact mem_marks.2 (.inr (.inr ⟨w, hw, hx⟩))
    · refine marks_of_server hv ?_
      rcases List.mem_append.1 hx with hx | hx
      · simp only at hx
        split at hx
        · rename_i hnew
          exact List.mem_append_left _ (by rw [if_pos (hphase hnew)]; exact hx)
        · cases hx
      · exact List.mem_append_right _ hx

/-! ## What a step does -/

/-- What every action does to the marks, the servers and the events. -/
structure StoreStep (urandom : Nat → Block UInt8 optyControlTokenBytes) (s : Store) (a : StoreAct) (s' : Store) : Prop where
  marks : ∀ session m, (session, m) ∈ s'.marks → (session, m) ∈ s.marks ∨
    (∃ port, m = .port port ∧ s.takes a = some (session, port)) ∨
    (m = .token (optyGenerateControlToken (urandom s.generated.length)).bytes ∧ s'.generated = s.generated ++ [session])
  generated : s.generated <+: s'.generated
  servers : ∀ (k : Nat) (v : ServerProc), s.servers[k]? = some v → ∃ v', s'.servers[k]? = some v' ∧ v'.session = v.session
  shutdowns : ∀ session k, (session, k) ∈ s'.shutdowns → (session, k) ∈ s.shutdowns ∨
    ∃ r v, (session, .token r.token.bytes) ∈ s.marks ∧ s.servers[k]? = some v ∧ v.shutsDown (stopFrame r) = true
  attachments : ∀ session k, (session, k) ∈ s'.attachments → (session, k) ∈ s.attachments ∨
    ∃ port v, (session, .port port) ∈ s.marks ∧ s.servers[k]? = some v ∧ v.phase = .listening ∧ v.port = port

variable {urandom : Nat → Block UInt8 optyControlTokenBytes} {a : StoreAct} {s' : Store} {c : Nat} {p : CommandProc}

/-- An action that no server and no event sees is judged by its marks. -/
theorem StoreStep.of_marks (hgenerated : s'.generated = s.generated) (hservers : s'.servers = s.servers)
    (hshutdowns : s'.shutdowns = s.shutdowns) (hattachments : s'.attachments = s.attachments)
    (hmarks : ∀ session m, (session, m) ∈ s'.marks →
      (session, m) ∈ s.marks ∨ ∃ port, m = .port port ∧ s.takes a = some (session, port)) :
    StoreStep urandom s a s' where
  marks := fun session m hm => (hmarks session m hm).imp_right .inl
  generated := hgenerated ▸ List.prefix_refl _
  servers := fun k v hv => ⟨v, by rw [hservers, hv], rfl⟩
  shutdowns := fun _ _ h => .inl (by rwa [hshutdowns] at h)
  attachments := fun _ _ h => .inl (by rwa [hattachments] at h)

/-- A command goes on with what it or the store had. -/
theorem StoreStep.goto {pc : CommandPc} (hpc : ∀ m ∈ pc.marks, (p.session, m) ∈ s.marks) :
    StoreStep urandom s a (s.goto c p pc) := by
  refine .of_marks rfl rfl rfl rfl fun session m hm => ?_
  rcases marks_goto hm with hm | ⟨n, hn, heq⟩
  · exact .inl hm
  · rw [heq]
    exact .inl (hpc n hn)

/-- A command is over. -/
theorem StoreStep.done : StoreStep urandom s a (s.goto c p .done) := .goto (by rintro _ ⟨⟩)

/-- A command goes on with a port that it took by its number. -/
theorem StoreStep.take {pc : CommandPc} {port : Nat} (hpc : pc.marks = [.port port]) (htakes : s.takes a = some (p.session, port)) :
    StoreStep urandom s a (s.goto c p pc) := by
  refine .of_marks rfl rfl rfl rfl fun session m hm => ?_
  rcases marks_goto hm with hm | ⟨n, hn, heq⟩
  · exact .inl hm
  · rw [hpc, List.mem_singleton] at hn
    cases heq
    exact .inr ⟨port, hn, htakes⟩

/-- A token is generated. -/
theorem StoreStep.generate {argv : List CString} {port : Nat} (hport : (p.session, .port port) ∈ s.marks) :
    StoreStep urandom s a { s.goto c p (.startWrite argv port (optyGenerateControlToken (urandom s.generated.length))) with
      generated := s.generated ++ [p.session] } where
  marks := fun session m hm => by
    rcases marks_goto (s := s) hm with hm | ⟨n, hn, heq⟩
    · exact .inl hm
    · cases heq
      rcases List.mem_pair.1 hn with rfl | rfl
      · exact .inl hport
      · exact .inr (.inr ⟨rfl, rfl⟩)
  generated := List.prefix_append _ _
  servers := fun k v hv => ⟨v, hv, rfl⟩
  shutdowns := fun _ _ h => .inl h
  attachments := fun _ _ h => .inl h

/-- A record is written with the port and the token that the command has. -/
theorem StoreStep.write {argv : List CString} {port : Nat} {token : CString} (hport : (p.session, .port port) ∈ s.marks)
    (htoken : (p.session, .token token.bytes) ∈ s.marks) :
    StoreStep urandom s a ((s.write ⟨p.session, port, token, argv⟩).goto c p (.spawn port token)) := by
  refine .of_marks rfl rfl rfl rfl fun session m hm => .inl ?_
  rcases marks_goto hm with hm | ⟨n, hn, heq⟩
  · rcases marks_write hm with hm | hm
    · exact hm
    · rcases List.mem_pair.1 hm with heq | heq <;> cases heq
      · exact hport
      · exact htoken
  · cases heq
    exact marks_of_pair hport htoken hn

/-- A server is spawned with the port and the token that the command has. -/
theorem StoreStep.spawn {port : Nat} {token : CString} (hport : (p.session, .port port) ∈ s.marks)
    (htoken : (p.session, .token token.bytes) ∈ s.marks) : StoreStep urandom s a (s.spawnServer c p port token) where
  marks := fun session m hm => by
    have hserver : ∀ y ∈ (ServerProc.mk p.session port token .starting).marks, y ∈ s.marks := by
      intro y hy
      rcases List.mem_pair.1 hy with rfl | rfl
      · exact hport
      · exact htoken
    rcases mem_marks.1 hm with hr | hp | ⟨v, hv, hm⟩
    · exact .inl (mem_marks.2 (.inl hr))
    · rcases marks_goto (mem_marks.2 (.inr (.inl hp))) with hm | ⟨n, hn, heq⟩
      · exact .inl hm
      · cases heq
        rw [List.mem_singleton.1 hn]
        exact .inl hport
    · rcases List.mem_append.1 hv with hv | hv
      · exact .inl (mem_marks.2 (.inr (.inr ⟨v, hv, hm⟩)))
      · rw [List.mem_singleton.1 hv] at hm
        exact .inl (hserver _ hm)
  generated := List.prefix_refl _
  servers := fun k v hv => ⟨v, by
    have hk : k < s.servers.length := (List.getElem?_eq_some_iff.1 hv).1
    simpa [Store.spawnServer, List.getElem?_append_left hk] using hv, rfl⟩
  shutdowns := fun _ _ h => .inl h
  attachments := fun _ _ h => .inl h

/-- A server changes its phase. -/
theorem StoreStep.phase {k : Nat} {v : ServerProc} (hv : s.servers[k]? = some v) {phase : ServerPhase}
    (hphase : phase = .starting ∨ phase = .listening → v.phase = .starting ∨ v.phase = .listening) :
    StoreStep urandom s a (s.setPhase k v phase) where
  marks := fun _ _ hm => .inl (marks_setPhase hv hphase hm)
  generated := List.prefix_refl _
  servers := fun j w hw => by
    by_cases hj : k = j
    · subst hj
      rw [hv] at hw
      cases hw
      have hk : k < s.servers.length := (List.getElem?_eq_some_iff.1 hv).1
      exact ⟨{ v with phase := phase }, by simp [Store.setPhase, hk], rfl⟩
    · exact ⟨w, by simpa [Store.setPhase, List.getElem?_set_ne hj] using hw, rfl⟩
  shutdowns := fun _ _ h => .inl h
  attachments := fun _ _ h => .inl h

/-- A stop that its server grants is recorded. -/
theorem StoreStep.shutdown {r : SessionRecord} {k : Nat} {v : ServerProc} (htoken : (p.session, .token r.token.bytes) ∈ s.marks)
    (hv : s.servers[k]? = some v) (hdown : v.shutsDown (stopFrame r) = true) :
    StoreStep urandom s a { s.goto c p .done with shutdowns := s.shutdowns ++ [(p.session, k)] } where
  marks := (StoreStep.done (s := s)).marks
  generated := List.prefix_refl _
  servers := fun j w hw => ⟨w, hw, rfl⟩
  shutdowns := fun session j h => by
    rcases List.mem_append.1 h with h | h
    · exact .inl h
    · cases List.mem_singleton.1 h
      exact .inr ⟨r, v, htoken, hv, hdown⟩
  attachments := fun _ _ h => .inl h

/-- A connection of `run_client_endpoint` is recorded. -/
theorem StoreStep.attach {port k : Nat} {connects : Bool} (hport : (p.session, .port port) ∈ s.marks)
    (hk : s.connect port connects = some k) :
    StoreStep urandom s a { s.goto c p .done with attachments := s.attachments ++ [(p.session, k)] } where
  marks := (StoreStep.done (s := s)).marks
  generated := List.prefix_refl _
  servers := fun j w hw => ⟨w, hw, rfl⟩
  shutdowns := fun _ _ h => .inl h
  attachments := fun session j h => by
    rcases List.mem_append.1 h with h | h
    · exact .inl h
    · cases List.mem_singleton.1 h
      obtain ⟨v, hv, hlistening, hvport⟩ := connect_listening hk
      exact .inr ⟨port, v, hport, hv, hlistening, hvport⟩

/-- What a step of a command does. -/
theorem commandStep_spec {e : CommandEnv} (hp : s.procs[c]? = some p) (h : commandStep urandom s c p e = .next s') :
    StoreStep urandom s (.command c e) s' := by
  have htakes : s.takes (.command c e) = (p.takes s e).map fun port => (p.session, port) := by
    rw [Store.takes, hp, Option.bind_some]
  have hmine : ∀ m ∈ p.pc.marks, (p.session, m) ∈ s.marks := fun m hm => marks_of_proc hp hm
  obtain ⟨session, pc⟩ := p
  cases pc with
  | startRead argv =>
    simp only [commandStep] at h
    split at h <;> cases h
    · rename_i r hr
      exact .goto fun m hm => mark_of_eq (marks_of_read hr).1 hm
    · exact .goto (by rintro _ ⟨⟩)
  | startProbe argv port =>
    simp only [commandStep] at h
    split at h <;> cases h
    · exact .goto fun m hm => hmine m hm
    · exact .goto (by rintro _ ⟨⟩)
  | startPick argv =>
    simp only [commandStep] at h
    split at h <;> cases h
    · rename_i port hport
      refine .take rfl ?_
      rw [htakes]
      simp only [CommandProc.takes, hport, Option.map_some]
    · exact .done
  | startToken argv port =>
    simp only [commandStep] at h
    split at h <;> cases h
    · exact .generate (hmine _ (List.mem_singleton.2 rfl))
    · exact .done
  | startWrite argv port token =>
    simp only [commandStep] at h
    split at h <;> cases h
    · exact .write (hmine _ (List.mem_pair.2 (.inl rfl))) (hmine _ (List.mem_pair.2 (.inr rfl)))
    · exact .done
  | restartRead =>
    simp only [commandStep] at h
    split at h
    · rename_i r hr
      split at h <;> cases h
      · exact .done
      · exact .goto fun m hm => marks_of_pair (marks_of_read hr).1 (marks_of_read hr).2 hm
    · cases h
      exact .done
  | restartProbe r =>
    simp only [commandStep] at h
    split at h
    · cases h
      exact .done
    · split at h <;> cases h
      · exact .goto fun m hm => hmine m hm
      · exact .done
  | spawn port token =>
    simp only [commandStep] at h
    split at h <;> cases h
    · exact .spawn (hmine _ (List.mem_pair.2 (.inl rfl))) (hmine _ (List.mem_pair.2 (.inr rfl)))
    · exact .done
  | wait port k tries =>
    simp only [commandStep] at h
    cases h
    -- Whatever comes of the round, the command has the same port, or is over.
    have hpc : ∀ m ∈ (s.waitForServer port k tries e).marks, m ∈ [Mark.port port] := by
      unfold Store.waitForServer
      split
      · exact fun m hm => hm
      · split
        · rintro _ ⟨⟩
        · split
          · exact fun m hm => hm
          · rintro _ ⟨⟩
    exact .goto fun m hm => hmine m (hpc m hm)
  | connectRead =>
    simp only [commandStep] at h
    split at h <;> cases h
    · rename_i r hr
      exact .goto fun m hm => mark_of_eq (marks_of_read hr).1 hm
    · exact .goto (by rintro _ ⟨⟩)
  | connectEndpoint =>
    simp only [commandStep] at h
    split at h
    · rename_i r hr
      cases h
      exact .goto fun m hm => mark_of_eq (marks_of_read hr).1 hm
    · rename_i hnone
      split at h <;> cases h
      · rename_i port hport
        refine .take rfl ?_
        rw [htakes]
        simp only [CommandProc.takes, hnone, Option.isNone_none, if_true, hport, Option.map_some]
      · exact .done
  | attach port =>
    simp only [commandStep] at h
    split at h <;> cases h
    · rename_i k hk
      exact .attach (hmine _ (List.mem_singleton.2 rfl)) hk
    · exact .done
  | stopRead =>
    simp only [commandStep] at h
    split at h
    · rename_i r hr
      split at h <;> cases h
      · exact .done
      · exact .goto fun m hm => mark_of_eq (marks_of_read hr).2 hm
    · cases h
      exact .done
  | stopProbe r =>
    simp only [commandStep] at h
    split at h <;> cases h
    · exact .goto fun m hm => hmine m hm
    · exact .done
  | stopConnect r =>
    simp only [commandStep] at h
    split at h <;> cases h
    · exact .goto fun m hm => hmine m hm
    · exact .done
  | stopSend r k =>
    simp only [commandStep] at h
    split at h
    · rename_i v hv
      split at h <;> cases h
      · rename_i hdown
        exact .shutdown (hmine _ (List.mem_singleton.2 rfl)) hv hdown.2
      · exact .done
    · cases h
      exact .done
  | done => cases h

/-- A command has nothing in hand at first. -/
theorem marks_first (session : List UInt8) (command : Command) :
    (CommandProc.mk session (if optyIsSessionName session then command.pc else .done)).marks = [] := by
  unfold CommandProc.marks
  split
  · cases command <;> rfl
  · rfl

/-- What an action does. -/
theorem storeStep_spec (h : storeStep urandom s a = .next s') : StoreStep urandom s a s' := by
  cases a with
  | run session command =>
    cases h
    refine .of_marks rfl rfl rfl rfl fun name m hm => .inl ?_
    rcases mem_marks.1 hm with hr | ⟨p, hp, hm⟩ | hv
    · exact mem_marks.2 (.inl hr)
    · rcases List.mem_append.1 hp with hp | hp
      · exact mem_marks.2 (.inr (.inl ⟨p, hp, hm⟩))
      · rw [List.mem_singleton.1 hp, marks_first] at hm
        cases hm
    · exact mem_marks.2 (.inr (.inr hv))
  | command c e =>
    simp only [storeStep] at h
    split at h
    · rename_i p hp
      exact commandStep_spec hp h
    · cases h
  | bind k ok =>
    simp only [storeStep, Store.bindServer] at h
    split at h
    · rename_i v hv
      split at h
      · rename_i hstarting
        split at h <;> cases h
        · exact .phase hv fun _ => .inl hstarting
        · exact .phase hv (by rintro (h | h) <;> cases h)
      · cases h
    · cases h
  | close k =>
    simp only [storeStep] at h
    split at h
    · rename_i v hv
      split at h <;> cases h
      exact .phase hv (by rintro (h | h) <;> cases h)
    · cases h
  | die k =>
    simp only [storeStep] at h
    split at h
    · rename_i v hv
      cases h
      exact .phase hv (by rintro (h | h) <;> cases h)
    · cases h

/-! ## The token of a stop -/

/-- Two control messages are alike only when their tokens are. -/
theorem controlShutdown_token {t u i j : List UInt8} (ht : t.length ≤ optyMaxToken) (hu : u.length ≤ optyMaxToken)
    (h : (Msg.controlShutdown t i).frame = (Msg.controlShutdown u j).frame) : t = u := by
  have hpay := congrArg Frame.payload h
  simp only [Msg.frame, tokenField, List.cons_append, List.cons.injEq, true_and, List.append_assoc] at hpay
  have hlen : t.length = u.length := by
    rw [← toNat_tokenLength ht, ← toNat_tokenLength hu, hpay.1]
  exact (List.append_inj hpay.2 hlen).1

/-- A server shuts down for the token that it was spawned with. -/
theorem shutsDown_token {v : ServerProc} {r : SessionRecord} (hr : r.token.bytes.length ≤ optyMaxToken)
    (h : v.shutsDown (stopFrame r) = true) : r.token.bytes = v.token.bytes := by
  unfold ServerProc.shutsDown at h
  split at h
  · split at h
    · rename_i input hmove
      obtain ⟨cfg, hcfg, hmove⟩ := Option.bind_eq_some_iff.1 hmove
      obtain ⟨move, hspec, -, hshut⟩ := firstMove_spec cfg (.ok (some (stopFrame r)))
      rw [hspec] at hmove
      cases hmove
      obtain ⟨f, hf, t, token, hctl, -, ht, ⟨n, hmatch⟩, -, hframe⟩ := (hshut input).1 rfl
      cases hf
      have htoken : r.token.bytes = token := controlShutdown_token hr ht hframe
      -- The token of a record has no NUL behind it.
      have hzero : n = 0 := by
        cases n with
        | zero => rfl
        | succ n =>
          refine absurd ?_ r.token.noNul
          rw [htoken, hmatch]
          exact List.mem_append_right _ List.mem_cons_self
      have htext : t.text = v.token := by
        unfold serverControlConfig at hcfg
        split at hcfg
        · cases hcfg
          cases hctl
        · split at hcfg
          · split at hcfg <;> cases hcfg
            cases hctl
            rfl
          · cases hcfg
      rw [htoken, hmatch, hzero, List.replicate_zero, List.append_nil, htext]
    · cases h
  · cases h

end StoreAux

end ZeroPty
