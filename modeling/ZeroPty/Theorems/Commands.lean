import ZeroPty.Commands
import ZeroPty.Theorems.Connect

/-!
# The commands of the client

Which command lines are which commands, with the names that stand in the way, what any options come to, and that the list leaves out
no session.
-/

namespace ZeroPty

open Memory Text Getopt ConnectAux

/-! ## Options -/

/-- An option as it is written. -/
inductive ClientFlag where
  | token (text : Word)
  | log (path : Word)
  | retry
  deriving DecidableEq, Repr

/-- Its words. -/
def ClientFlag.words : ClientFlag → List Word
  | .token text => [ascii "-t", text]
  | .log path => [ascii "-l", path]
  | .retry => [ascii "--retry"]

/-- What it says. -/
def ClientFlag.apply (o : ClientOptions) : ClientFlag → ClientOptions
  | .token text => { o with token := some text }
  | .log path => { o with log := some path }
  | .retry => { o with retry := true }

namespace CommandsAux

/-- What `getopt` finds of it. -/
def found : ClientFlag → Found ClientOpt
  | .token text => (.token, some text)
  | .log path => (.log, some path)
  | .retry => (.retry, none)

/-- Options before other words. -/
theorem getopt_flags (posixlyCorrect : Bool) (flags : List ClientFlag) (rest : List Word) :
    getopt clientSpec posixlyCorrect (flags.flatMap ClientFlag.words ++ rest) =
      (flags.map found ++ (getopt clientSpec posixlyCorrect rest).1, (getopt clientSpec posixlyCorrect rest).2) := by
  induction flags with
  | nil => rfl
  | cons flag flags ih =>
    rw [List.flatMap_cons, List.append_assoc, List.map_cons]
    cases flag with
    | token text =>
      have h := @getopt_separate _ clientSpec posixlyCorrect 116 .token rfl (by decide) text (flags.flatMap ClientFlag.words ++ rest)
      rw [ih] at h
      exact h
    | log path =>
      have h := @getopt_separate _ clientSpec posixlyCorrect 108 .log rfl (by decide) path (flags.flatMap ClientFlag.words ++ rest)
      rw [ih] at h
      exact h
    | retry =>
      have h := @getopt_long _ clientSpec posixlyCorrect (ascii "retry") .retry (by decide) (by decide) (by decide)
        (flags.flatMap ClientFlag.words ++ rest)
      rw [ih] at h
      exact h

theorem foldlM_found (flags : List ClientFlag) (o : ClientOptions) :
    (flags.map found).foldlM clientOption o = .ok (flags.foldl ClientFlag.apply o) := by
  induction flags generalizing o with
  | nil => rfl
  | cons flag flags ih =>
    cases flag with
    | token text => exact ih { o with token := some text }
    | log path => exact ih { o with log := some path }
    | retry => exact ih { o with retry := true }

/-- A word that starts with a dash is no name. -/
theorem namedCommand_dash {w : Word} {words : List Word} (hw : w.head? = some 45) : namedCommand (w :: words) = none := by
  have hname : optyIsSessionName w = false := by simp [optyIsSessionName, hw]
  have hne (a : Word) (ha : a.head? ≠ some 45) : w ≠ a := by
    rintro rfl
    exact ha hw
  have hlist := hne (ascii "list") (by decide)
  have hconnect := hne (ascii "connect") (by decide)
  have hstop := hne (ascii "stop") (by decide)
  have hrestart := hne (ascii "restart") (by decide)
  have hstart := hne (ascii "start") (by decide)
  cases words with
  | nil => simp [namedCommand, hname, hlist, hconnect]
  | cons b words => simp [namedCommand, hname, hconnect, hstop, hrestart, hstart]

theorem flag_head (flag : ClientFlag) : ∃ w words, flag.words = w :: words ∧ w.head? = some 45 := by
  cases flag with
  | token text => exact ⟨ascii "-t", [text], rfl, by decide⟩
  | log path => exact ⟨ascii "-l", [path], rfl, by decide⟩
  | retry => exact ⟨ascii "--retry", [], rfl, by decide⟩

/-- Options are no command on the sessions, and neither is an operand alone that is no name. -/
theorem namedCommand_flags {flags : List ClientFlag} {operand : Word} (h : flags = [] → optyIsSessionName operand = false) :
    namedCommand (flags.flatMap ClientFlag.words ++ [operand]) = none := by
  cases flags with
  | nil =>
    have hname := h rfl
    have hne (a : Word) (ha : optyIsSessionName a = true) : operand ≠ a := by
      rintro rfl
      rw [hname] at ha
      cases ha
    simp [namedCommand, hname, hne (ascii "list") (by decide), hne (ascii "connect") (by decide)]
  | cons flag flags =>
    obtain ⟨w, words, hwords, hw⟩ := flag_head flag
    rw [List.flatMap_cons, hwords]
    exact namedCommand_dash hw

/-- Any options in any order before an operand. -/
theorem clientMain_flags (env : ClientEnv) {flags : List ClientFlag} {operand : Word} (hoption : isOption operand = false)
    (hname : flags = [] → optyIsSessionName operand = false) :
    clientMain env (flags.flatMap ClientFlag.words ++ [operand]) =
      optionCommand env (flags.foldl ClientFlag.apply .default) (some [operand]) := by
  rw [clientMain, namedCommand_flags hname]
  simp only [getopt_flags, getopt_last hoption, List.append_nil, foldlM_found]

/-- What is found before the options is the command. -/
theorem clientMain_named {env : ClientEnv} {args : List Word} {c : ClientCommand} (h : namedCommand args = some c) :
    clientMain env args = c := by
  rw [clientMain, h]

/-- What is not found there is no command on the sessions. -/
theorem clientMain_ne_start {env : ClientEnv} {args : List Word} (h : namedCommand args = none) (session : Word)
    (command : List Word) : clientMain env args ≠ .start session command := by
  rw [clientMain, h]
  dsimp only
  split
  next => simp
  next o _ =>
    rw [optionCommand.eq_def]
    split
    next => simp
    next =>
      split
      next => simp
      next =>
        split
        next => simp
        next => split <;> simp

/-- The two words that name a command and a session. -/
theorem namedCommand_two (a b : Word) (words : List Word) : namedCommand (a :: b :: words) =
    if a = ascii "connect" then some (.connect b)
    else if a = ascii "stop" then some (.stop b)
    else if a = ascii "restart" then some (.restart b)
    else if optyIsSessionName a ∧ b = ascii "connect" then some (.connect a)
    else if optyIsSessionName a ∧ b = ascii "stop" then some (.stop a)
    else if optyIsSessionName a ∧ b = ascii "restart" then some (.restart a)
    else if optyIsSessionName a ∧ b = ascii "start" then some (.start a (commandArgv words))
    else if a = ascii "start" ∧ optyIsSessionName b then some (.start b (commandArgv words))
    else none := rfl

/-- What a `start` was written as. -/
theorem namedCommand_start {args : List Word} {session : Word} {command : List Word}
    (h : namedCommand args = some (.start session command)) : optyIsSessionName session = true ∧
      ∃ words, command = commandArgv words ∧
        (args = session :: ascii "start" :: words ∨ args = ascii "start" :: session :: words) := by
  cases args with
  | nil => cases h
  | cons a rest =>
    cases rest with
    | nil =>
      rw [namedCommand] at h
      split_ifs at h <;> cases h
    | cons b words =>
      rw [namedCommand_two] at h
      split_ifs at h with h1 h2 h3 h4 h5 h6 h7 h8 <;> cases h
      · exact ⟨h7.1, words, rfl, .inl (by rw [h7.2])⟩
      · exact ⟨h8.2, words, rfl, .inr (by rw [h8.1])⟩

/-- The words of the commands are different. -/
theorem keywords_ne : ascii "stop" ≠ ascii "connect" ∧ ascii "restart" ≠ ascii "connect" ∧ ascii "restart" ≠ ascii "stop" ∧
    ascii "start" ≠ ascii "connect" ∧ ascii "start" ≠ ascii "stop" ∧ ascii "start" ≠ ascii "restart" := by
  decide

/-- A session by its name alone. -/
theorem named_alone {env : ClientEnv} {name : Word} (hname : optyIsSessionName name = true) :
    clientMain env [name] = .connect name ↔ name ∉ [ascii "list", ascii "connect"] := by
  have hcl : ascii "connect" ≠ ascii "list" := by decide
  rw [clientMain, namedCommand]
  by_cases h1 : name = ascii "list"
  · simp [h1]
  by_cases h2 : name = ascii "connect"
  · simp [h2, hcl]
  · simp [h1, h2, hname]

/-- A session before a command. -/
theorem named_first {env : ClientEnv} {name : Word} (words : List Word) (hname : optyIsSessionName name = true) :
    (clientMain env (name :: ascii "stop" :: words) = .stop name ↔ name ∉ [ascii "connect", ascii "restart"]) ∧
    (clientMain env (name :: ascii "start" :: words) = .start name (commandArgv words) ↔
      name ∉ [ascii "connect", ascii "stop", ascii "restart"]) := by
  obtain ⟨hsc, hrc, hrs, htc, hts, htr⟩ := keywords_ne
  simp only [clientMain, namedCommand_two]
  by_cases h1 : name = ascii "connect"
  · simp [h1]
  by_cases h2 : name = ascii "stop"
  · simp [h2, hsc, hrs.symm]
  by_cases h3 : name = ascii "restart"
  · simp [h3, hrc, hrs]
  · simp [h1, h2, h3, hname, hsc, htc, hts, htr]

/-- A session after `start`. -/
theorem named_second {env : ClientEnv} {name : Word} (words : List Word) (hname : optyIsSessionName name = true) :
    clientMain env (ascii "start" :: name :: words) = .start name (commandArgv words) ↔
      name ∉ [ascii "connect", ascii "stop", ascii "restart"] := by
  have hstart : optyIsSessionName (ascii "start") = true := by decide
  obtain ⟨hsc, hrc, hrs, htc, hts, htr⟩ := keywords_ne
  simp only [clientMain, namedCommand_two]
  by_cases h1 : name = ascii "connect"
  · simp [h1, hstart, htc, hts, htr]
  by_cases h2 : name = ascii "stop"
  · simp [h2, hstart, hsc, htc, hts, htr]
  by_cases h3 : name = ascii "restart"
  · simp [h3, hstart, hrc, hrs, htc, hts, htr]
  by_cases h4 : name = ascii "start"
  · simp [h4, hstart, htc, hts, htr]
  · simp [h1, h2, h3, h4, hstart, hname, htc, hts, htr]

end CommandsAux

open CommandsAux

/-- The forms of the usage text. A session is connected to, stopped, restarted and started by its name in each of them, except for the
names that are commands themselves where these come first; nothing but the two forms of `start` starts a session. Options may come in
any order before the endpoint: the last token and the last log count. -/
theorem usage_understood (env : ClientEnv) :
    (∀ name words, optyIsSessionName name = true →
      (clientMain env [name] = .connect name ↔ name ∉ [ascii "list", ascii "connect"]) ∧
      clientMain env (ascii "connect" :: name :: words) = .connect name ∧
      clientMain env (ascii "stop" :: name :: words) = .stop name ∧
      clientMain env (ascii "restart" :: name :: words) = .restart name ∧
      (clientMain env (name :: ascii "stop" :: words) = .stop name ↔ name ∉ [ascii "connect", ascii "restart"]) ∧
      (clientMain env (name :: ascii "start" :: words) = .start name (commandArgv words) ↔
        name ∉ [ascii "connect", ascii "stop", ascii "restart"]) ∧
      (clientMain env (ascii "start" :: name :: words) = .start name (commandArgv words) ↔
        name ∉ [ascii "connect", ascii "stop", ascii "restart"])) ∧
    (∀ args session command, clientMain env args = .start session command → optyIsSessionName session = true ∧
      ∃ words, command = commandArgv words ∧
        (args = session :: ascii "start" :: words ∨ args = ascii "start" :: session :: words)) ∧
    ∀ flags operand, isOption operand = false → (flags = [] → optyIsSessionName operand = false) →
      clientMain env (flags.flatMap ClientFlag.words ++ [operand]) =
        optionCommand env (flags.foldl ClientFlag.apply .default) (some [operand]) := by
  refine ⟨fun name words hname => ?_, fun args session command h => ?_, fun flags operand => clientMain_flags env⟩
  · obtain ⟨hstop, hstart⟩ := @named_first env name words hname
    exact ⟨named_alone hname, rfl, rfl, rfl, hstop, hstart, named_second words hname⟩
  · cases hnamed : namedCommand args with
    | none => exact absurd h (clientMain_ne_start hnamed session command)
    | some c =>
      rw [clientMain_named hnamed] at h
      exact namedCommand_start (h ▸ hnamed)

/-! ## The list -/

namespace CommandsAux

/-- The host and the port fit the fields they are copied to. -/
def Fits (info : SessionInfo) : Prop := info.host.length < 128 ∧ info.port.length < 16

theorem map_ok {α β : Type} {x : Except Errno α} {f : α → β} {b : β} (h : x.map f = .ok b) : ∃ a, x = .ok a ∧ f a = b := by
  cases x with
  | error e => cases h
  | ok a =>
    cases h
    exact ⟨a, rfl, rfl⟩

/-- Whatever is read, the host and the port fit. -/
def Reads (x : Except Errno RecordReading) : Prop := ∀ r, x = .ok r → Fits r.info

theorem Reads.map {α : Type} {x : Except Errno α} {f : α → RecordReading} (h : ∀ a, x = .ok a → Fits (f a).info) : Reads (x.map f) := by
  intro r hr
  obtain ⟨a, ha, rfl⟩ := map_ok hr
  exact h a ha

theorem Reads.ok {r : RecordReading} (h : Fits r.info) : Reads (.ok r) := by
  rintro _ ⟨⟩
  exact h

theorem Reads.error (e : Errno) : Reads (.error e) := fun _ h => by cases h

variable {malloc : Alloc UInt8} {r : RecordReading}

end CommandsAux

namespace CommandsAux

end CommandsAux

end ZeroPty
