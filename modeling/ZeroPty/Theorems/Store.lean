import ZeroPty.Lemmas.Store

/-!
# A name stands for its session
-/

namespace ZeroPty

open Transition Memory Text StoreAux

/-- The server was spawned by a start or a restart of the session. -/
def Store.SpawnedFor (s : Store) (k : Nat) (session : List UInt8) : Prop := ∃ v, s.servers[k]? = some v ∧ v.session = session

/-- The port that a command takes by its number alone is none that a record, an unfinished command or a server has for another
session. -/
def takesFreePort (s : Store) (a : StoreAct) : Bool :=
  match s.takes a with
  | some (session, port) => s.marks.all fun x => x.2 != .port port || x.1 == session
  | none => true

namespace StoreAux

variable {urandom : Nat → Block UInt8 optyControlTokenBytes} {s s' : Store} {a : StoreAct} {session : List UInt8} {k : Nat}

/-- A server stays the server of its session. -/
theorem SpawnedFor.step (h : s.SpawnedFor k session) (hstep : StoreStep urandom s a s') : s'.SpawnedFor k session := by
  obtain ⟨v, hv, hsession⟩ := h
  obtain ⟨v', hv', heq⟩ := hstep.servers k v hv
  exact ⟨v', hv', heq.trans hsession⟩

/-! ## Tokens -/

/-- Every control token in use was generated for the session it is used for, and a shutdown was asked for with the token of the
server. -/
structure TokenInv (urandom : Nat → Block UInt8 optyControlTokenBytes) (s : Store) : Prop where
  tokens : ∀ session t, (session, .token t) ∈ s.marks →
    ∃ n, s.generated[n]? = some session ∧ t = (optyGenerateControlToken (urandom n)).bytes
  shutdowns : ∀ session k, (session, k) ∈ s.shutdowns → ∃ n m other, s.SpawnedFor k other ∧ s.generated[n]? = some session ∧
    s.generated[m]? = some other ∧ optyGenerateControlToken (urandom n) = optyGenerateControlToken (urandom m)

theorem length_flatMap_hex (l : List UInt8) :
    (l.flatMap fun (b : UInt8) => [hexDigit ((b >>> 4) &&& 15), hexDigit (b &&& 15)]).length = 2 * l.length := by
  induction l with
  | nil => rfl
  | cons b l ih =>
    rw [List.flatMap_cons, List.length_append, ih, List.length_cons]
    simp only [List.length_cons, List.length_nil]
    omega

/-- A generated token fits its field. -/
theorem length_token (random : Block UInt8 optyControlTokenBytes) : (optyGenerateControlToken random).bytes.length ≤ optyMaxToken := by
  unfold optyGenerateControlToken
  rw [length_flatMap_hex, random.length_eq]
  decide

/-- Two strings with the same bytes. -/
theorem cString_ext {x y : CString} (h : x.bytes = y.bytes) : x = y := by
  cases x
  cases y
  cases h
  rfl

theorem TokenInv.step (h : TokenInv urandom s) (hstep : StoreStep urandom s a s') : TokenInv urandom s' := by
  obtain ⟨rest, hrest⟩ := hstep.generated
  have hkeep : ∀ {n : Nat} {name : List UInt8}, s.generated[n]? = some name → s'.generated[n]? = some name := by
    intro n name hn
    have hlt : n < s.generated.length := (List.getElem?_eq_some_iff.1 hn).1
    rw [← hrest, List.getElem?_append_left hlt]
    exact hn
  refine ⟨fun session t hm => ?_, fun session k hk => ?_⟩
  · rcases hstep.marks session _ hm with hm | ⟨port, heq, -⟩ | ⟨heq, hnew⟩
    · obtain ⟨n, hn, ht⟩ := h.tokens session t hm
      exact ⟨n, hkeep hn, ht⟩
    · cases heq
    · cases heq
      exact ⟨s.generated.length, by rw [hnew]; simp, rfl⟩
  · rcases hstep.shutdowns session k hk with hk | ⟨r, v, htoken, hv, hdown⟩
    · obtain ⟨n, m, other, hspawned, hn, hm, hsame⟩ := h.shutdowns session k hk
      exact ⟨n, m, other, SpawnedFor.step hspawned hstep, hkeep hn, hkeep hm, hsame⟩
    · obtain ⟨n, hn, ht⟩ := h.tokens session _ htoken
      obtain ⟨m, hm, hvt⟩ := h.tokens v.session v.token.bytes
        (marks_of_server hv (List.mem_append_right _ (List.mem_singleton.2 rfl)))
      have hlen : r.token.bytes.length ≤ optyMaxToken := by
        rw [ht]
        exact length_token _
      exact ⟨n, m, v.session, SpawnedFor.step ⟨v, hv, rfl⟩ hstep, hkeep hn, hkeep hm,
        cString_ext (ht.symm.trans ((shutsDown_token hlen hdown).trans hvt))⟩

/-! ## Ports -/

/-- Every port in use is used for one session, and every attachment is to a server of its session. -/
structure PortInv (s : Store) : Prop where
  exclusive : ∀ session other port, (session, .port port) ∈ s.marks → (other, .port port) ∈ s.marks → session = other
  attachments : ∀ session k, (session, k) ∈ s.attachments → s.SpawnedFor k session

theorem PortInv.step (h : PortInv s) (hfree : takesFreePort s a = true) (hstep : StoreStep urandom s a s') : PortInv s' where
  exclusive := fun session other port hm ho => by
    -- The port that is taken by its number is no other session's.
    have hown : ∀ {name : List UInt8}, s.takes a = some (name, port) → ∀ {x : List UInt8}, (x, .port port) ∈ s.marks → x = name := by
      intro name htakes x hx
      unfold takesFreePort at hfree
      rw [htakes] at hfree
      have hall := List.all_eq_true.1 hfree _ hx
      simpa using hall
    rcases hstep.marks session _ hm with hm | ⟨p, hp, htake⟩ | ⟨heq, -⟩
    · rcases hstep.marks other _ ho with ho | ⟨p, hp, htake⟩ | ⟨heq, -⟩
      · exact h.exclusive session other port hm ho
      · cases hp
        exact hown htake hm
      · cases heq
    · cases hp
      rcases hstep.marks other _ ho with ho | ⟨q, hq, htake'⟩ | ⟨heq, -⟩
      · exact (hown htake ho).symm
      · cases hq
        rw [htake] at htake'
        cases htake'
        rfl
      · cases heq
    · cases heq
  attachments := fun session k hk => by
    rcases hstep.attachments session k hk with hk | ⟨port, v, hport, hv, hlistening, hvport⟩
    · exact SpawnedFor.step (h.attachments session k hk) hstep
    · refine SpawnedFor.step ⟨v, hv, ?_⟩ hstep
      have hmark : (v.session, .port port) ∈ s.marks := by
        refine marks_of_server hv (List.mem_append_left _ ?_)
        rw [if_pos (.inr hlistening), hvport]
        exact List.mem_singleton.2 rfl
      exact h.exclusive v.session session port hmark hport

end StoreAux

/-- In every run of any commands in which no two tokens that were generated are the same, with servers that die and ports that are
reused, a server that enters `server_request_shutdown` for a `run_named_stop` of a session was spawned by a start or a restart of that
session. A record is read as it was written here, which the text format gives for a working directory of one line only. -/
theorem stop_reaches_own_server (urandom : Nat → Block UInt8 optyControlTokenBytes) {run : List StoreAct} {s : Store}
    (hrun : exec (storeStep urandom) Store.init run = .next s)
    (hgen : ∀ n m, n < s.generated.length → m < s.generated.length →
      optyGenerateControlToken (urandom n) = optyGenerateControlToken (urandom m) → n = m) :
    ∀ session k, (session, k) ∈ s.shutdowns → s.SpawnedFor k session := by
  have hinit : TokenInv urandom Store.init := ⟨by rintro _ _ ⟨⟩, by rintro _ _ ⟨⟩⟩
  have hinv := invariant (Q := fun _ => True) (fun s a s' hs _ hstep => TokenInv.step hs (storeStep_spec hstep)) hinit
    (fun _ _ => trivial) hrun
  intro session k hk
  obtain ⟨n, m, other, hspawned, hn, hm, hsame⟩ := hinv.shutdowns session k hk
  -- The same token, so the same call of the generator, so the same session.
  have hnm : n = m := hgen n m (List.getElem?_eq_some_iff.1 hn).1 (List.getElem?_eq_some_iff.1 hm).1 hsame
  rw [hnm, hm] at hn
  rw [← Option.some.inj hn]
  exact hspawned

/-- The calls of a command succeed, and no port is taken by others. -/
def CommandEnv.fine : CommandEnv := ⟨true, true, fun _ => false⟩

/-- The process `c` starts session `name` with server `k`, and attaches to it. -/
def startRun (name : String) (c k : Nat) : List StoreAct :=
  [.run (ascii name) (.start [])] ++ List.replicate 5 (.command c .fine) ++ [.bind k true] ++
    List.replicate 2 (.command c .fine)

/-- Tokens for as many sessions as there are bytes. -/
def countedRandom (n : Nat) : Block UInt8 optyControlTokenBytes := .fill optyControlTokenBytes (UInt8.ofNat n)

/-- Session `a` is started and dies, session `b` is started on the same port, and both are stopped. -/
def reusedPortRun : List StoreAct :=
  startRun "a" 0 0 ++ [.die 0] ++ startRun "b" 1 1 ++ [.run (ascii "a") .stop] ++ List.replicate 4 (.command 2 .fine) ++
    [.run (ascii "b") .stop] ++ List.replicate 4 (.command 3 .fine)

theorem stop_reaches_own_server_reused_port : ∃ s, exec (storeStep countedRandom) Store.init reusedPortRun = .next s ∧
    s.servers.map ServerProc.port = [6077, 6077] ∧ s.shutdowns = [(ascii "b", 1)] ∧ s.SpawnedFor 1 (ascii "b") := by
  have hrun : (exec (storeStep countedRandom) Store.init reusedPortRun).passes (fun s =>
      s.servers.map ServerProc.port == [6077, 6077] && s.shutdowns == [(ascii "b", 1)] && s.generated.length == 2) = true := by
    decide +kernel
  obtain ⟨s, hs, htest⟩ := Outcome.passes_iff.1 hrun
  simp only [Bool.and_eq_true, beq_iff_eq] at htest
  obtain ⟨⟨hports, hdown⟩, hcount⟩ := htest
  refine ⟨s, hs, hports, hdown, stop_reaches_own_server countedRandom hs (fun n m hn hm h => ?_) _ _ ?_⟩
  · rw [hcount] at hn hm
    have hbytes := congrArg CString.bytes h
    have hcheck : ∀ n < 2, ∀ m < 2, (optyGenerateControlToken (countedRandom n)).bytes =
        (optyGenerateControlToken (countedRandom m)).bytes → n = m := by
      decide +kernel
    exact hcheck n hn m hm hbytes
  · rw [hdown]
    exact List.mem_singleton.2 rfl

/-- In every run in which each port taken by its number is free of other sessions, whatever a start, a restart or a connect of a
session attaches to was spawned by a start or a restart of that session. -/
theorem name_attaches_to_own_server (urandom : Nat → Block UInt8 optyControlTokenBytes) {run : List StoreAct} {s : Store}
    (hfree : Meets (storeStep urandom) (fun s a => takesFreePort s a = true) Store.init run)
    (hrun : exec (storeStep urandom) Store.init run = .next s) :
    ∀ session k, (session, k) ∈ s.attachments → s.SpawnedFor k session := by
  have hinit : PortInv Store.init := ⟨by rintro _ _ _ ⟨⟩, by rintro _ _ ⟨⟩⟩
  have hinv := invariant_of_meets (fun s a s' hs hok hstep => PortInv.step hs hok (storeStep_spec hstep)) hinit hfree hrun
  exact hinv.attachments

/-- Two sessions are started, and the first is connected to. -/
def twoSessionsRun : List StoreAct :=
  startRun "a" 0 0 ++ startRun "b" 1 1 ++ [.run (ascii "a") .connect] ++ List.replicate 2 (.command 2 .fine)

theorem name_attaches_to_own_server_two : ∃ s, exec (storeStep countedRandom) Store.init twoSessionsRun = .next s ∧
    s.servers.map ServerProc.port = [6077, 6078] ∧ s.attachments = [(ascii "a", 0), (ascii "b", 1), (ascii "a", 0)] ∧
    s.SpawnedFor 0 (ascii "a") := by
  have hfree : checks (storeStep countedRandom) takesFreePort Store.init twoSessionsRun = true := by decide +kernel
  have hrun : (exec (storeStep countedRandom) Store.init twoSessionsRun).passes (fun s =>
      s.servers.map ServerProc.port == [6077, 6078] && s.attachments == [(ascii "a", 0), (ascii "b", 1), (ascii "a", 0)]) = true := by
    decide +kernel
  obtain ⟨s, hs, htest⟩ := Outcome.passes_iff.1 hrun
  simp only [Bool.and_eq_true, beq_iff_eq] at htest
  refine ⟨s, hs, htest.1, htest.2, name_attaches_to_own_server countedRandom (.of_checks hfree) hs _ _ ?_⟩
  rw [htest.2]
  exact List.mem_cons_self

/-- Session `a` is started and dies, session `b` is started on the same port, and `a` is connected to. -/
def staleRecordRun : List StoreAct :=
  startRun "a" 0 0 ++ [.die 0] ++ startRun "b" 1 1 ++ [.run (ascii "a") .connect] ++ List.replicate 2 (.command 2 .fine)

/-- The name of a dead session attaches to the session that has its port now. -/
theorem name_attaches_to_other_server : ∃ s, exec (storeStep countedRandom) Store.init staleRecordRun = .next s ∧
    (ascii "a", 1) ∈ s.attachments ∧ s.SpawnedFor 1 (ascii "b") ∧ ¬ s.SpawnedFor 1 (ascii "a") := by
  have hrun : (exec (storeStep countedRandom) Store.init staleRecordRun).passes (fun s =>
      s.attachments.contains (ascii "a", 1) && s.servers[1]?.map ServerProc.session == some (ascii "b")) = true := by
    decide +kernel
  obtain ⟨s, hs, htest⟩ := Outcome.passes_iff.1 hrun
  simp only [Bool.and_eq_true, beq_iff_eq, List.contains_iff_mem] at htest
  obtain ⟨v, hv, hsession⟩ := Option.map_eq_some_iff.1 htest.2
  refine ⟨s, hs, htest.1, ⟨v, hv, hsession⟩, ?_⟩
  rintro ⟨w, hw, hother⟩
  rw [hv] at hw
  cases hw
  rw [hsession] at hother
  revert hother
  decide

end ZeroPty
