import ZeroPty.Launch

/-!
# The commands of the client

`main` of the client: which command the words of its command line are, and what its options say. `run_named_list` and what it prints.
-/

namespace ZeroPty

open Memory Text Getopt

/-! ## The command line -/

/-- The options of the client. -/
inductive ClientOpt where
  | token
  | log
  | retry
  | help
  deriving DecidableEq, Repr

/-- `"t:l:"`, `--retry` and `--help`. -/
def clientSpec : Spec ClientOpt where
  short := fun c => if c = 116 then some (.token, true) else if c = 108 then some (.log, true) else none
  long := [(ascii "retry", .retry), (ascii "help", .help)]

/-- What the options say. -/
structure ClientOptions where
  token : Option Word
  log : Option Word
  retry : Bool
  deriving DecidableEq, Repr

/-- Before any option. -/
def ClientOptions.default : ClientOptions := ⟨none, none, false⟩

/-- What `main` comes to: a command on the sessions, `run_client_endpoint`, or a return without either. -/
inductive ClientCommand where
  | list
  | connectAuto
  | connect (session : Word)
  | stop (session : Word)
  | restart (session : Word)
  | start (session : Word) (command : List Word)
  | endpoint (endpoint : EndpointText) (options : ClientOptions)
  | returned (status : Nat)
  deriving DecidableEq, Repr

/-- The command of a `start`, without a `--` before it. -/
def commandArgv (words : List Word) : List Word := if words.head? = some dashes then words.tail else words

/-- The forms that are looked for before the options. -/
def namedCommand : List Word → Option ClientCommand
  | [] => none
  | [a] =>
    if a = ascii "list" then some .list
    else if a = ascii "connect" then some .connectAuto
    else if optyIsSessionName a then some (.connect a)
    else none
  | a :: b :: words =>
    if a = ascii "connect" then some (.connect b)
    else if a = ascii "stop" then some (.stop b)
    else if a = ascii "restart" then some (.restart b)
    else if optyIsSessionName a ∧ b = ascii "connect" then some (.connect a)
    else if optyIsSessionName a ∧ b = ascii "stop" then some (.stop a)
    else if optyIsSessionName a ∧ b = ascii "restart" then some (.restart a)
    else if optyIsSessionName a ∧ b = ascii "start" then some (.start a (commandArgv words))
    else if a = ascii "start" ∧ optyIsSessionName b then some (.start b (commandArgv words))
    else none

/-- One option. An error is the status that `main` returns. -/
def clientOption (o : ClientOptions) : Found ClientOpt → Except Nat ClientOptions
  | (.token, arg) => .ok { o with token := arg }
  | (.log, arg) => .ok { o with log := arg }
  | (.retry, _) => .ok { o with retry := true }
  | (.help, _) => .error 0

/-- What `main` of the client looks at besides its arguments. -/
structure ClientEnv where
  posixlyCorrect : Bool
  mallocHost : Alloc UInt8
  mallocPort : Alloc UInt8

/-- The endpoint of the operand, or the default one. -/
def clientEndpoint (env : ClientEnv) : Option Word → Option EndpointText
  | none => some ⟨optyDefaultHost, optyDefaultPort⟩
  | some arg =>
    match optyParseEndpoint env.mallocHost env.mallocPort (some arg) optyDefaultHost optyDefaultPort ⟨[], []⟩ with
    | (.error _, _) => none
    | (.ok (), endpoint) => some endpoint

/-- What `main` does with its options and its operands; none when there was something that is not an option. -/
def optionCommand (env : ClientEnv) (o : ClientOptions) : Option (List Word) → ClientCommand
  | none => .returned 1
  | some operands =>
    if 1 < operands.length then .returned 1
    else if optyMaxToken < (o.token.getD []).length then .returned 1
    else
      match clientEndpoint env operands.head? with
      | none => .returned 1
      | some endpoint => .endpoint endpoint o

/-- `main` of the client on the words after its name. -/
def clientMain (env : ClientEnv) (args : List Word) : ClientCommand :=
  match namedCommand args with
  | some command => command
  | none =>
    let r := getopt clientSpec env.posixlyCorrect args
    match r.1.foldlM clientOption .default with
    | .error status => .returned status
    | .ok o => optionCommand env o r.2

/-! ## The list -/

end ZeroPty
