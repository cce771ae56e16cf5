import Rehome.Migration.Entity

/-! # Arguments of the command line

A command with its operands, and options. The options that all commands have may stand in front of the
command or behind it, where they go before those in front; each may be given once in either place. After
a double dash all arguments are operands. Arguments are checked from left to right, so that one that asks
for help does so only if those in front of it are in order. -/

namespace Rehome

inductive CommandName where
  | migrateCard
  | migrateDashboard
  | labels
  | relabel
  | checkConfig
deriving DecidableEq, Repr

def CommandName.ofText? (s : String) : Option CommandName :=
  [("migrate-card", .migrateCard), ("migrate-dashboard", .migrateDashboard), ("labels", .labels),
   ("relabel", .relabel), ("check-config", .checkConfig)].lookup s

def isId (s : String) : Bool := (Ident.parseExact s : Except _ CardId).toOption.isSome

def isKind (s : String) : Bool := s = "card" ∨ s = "dashboard"

/-- May a text be the next operand of a command, behind those given so far? -/
def CommandName.takes (operands : List String) (next : String) : CommandName → Bool
  | .migrateCard | .migrateDashboard => isId next
  | .labels | .relabel =>
    match operands with
    | [] => isKind next
    | [_] => isId next
    | _ => false
  | .checkConfig => false

/-- Can help be given on these topics? There may be one, the name of a command. -/
def areTopics : List String → Bool
  | [] => true
  | [topic] => topic = "help" ∨ (CommandName.ofText? topic).isSome
  | _ => false

inductive Command where
  | migrateCards (ids : List CardId)
  | migrateDashboards (ids : List DashboardId)
  | labels (entity : Entity)
  | relabel (entity : Entity) (replacements : String)
  | checkConfig
deriving DecidableEq, Repr

/-- The options that all commands have, as far as they are given. -/
structure Options where
  config : Option String
  verbose : Bool
  logJson : Bool
  dryRun : Bool
deriving DecidableEq, Repr

namespace Options

def none : Options := ⟨Option.none, false, false, false⟩

/-- The options in front of a command together with those behind it. -/
def combine (front behind : Options) : Options where
  config := behind.config.or front.config
  verbose := behind.verbose || front.verbose
  logJson := behind.logJson || front.logJson
  dryRun := behind.dryRun || front.dryRun

/-- The file of the configuration. -/
def configFile (o : Options) : String := o.config.getD "dashmig.yml"

end Options

/-- A command with the options it is run with. -/
structure Invocation where
  options : Options
  command : Command
deriving DecidableEq, Repr

/-- Why arguments are no invocation. -/
inductive Halt where
  | usage
  | version
  | help
deriving DecidableEq, Repr

namespace Invocation

/-- Options that have a value. -/
inductive ValueOption where
  | config
  | replacements
deriving DecidableEq, Repr

/-- What has been read of the arguments. -/
structure Reading where
  /-- The options in front of the command. -/
  front : Options
  command : Option CommandName
  /-- The options where the reading is: in front of the command, or behind it. -/
  options : Options
  replacements : Option String
  operands : List String
  /-- The option whose value is next. -/
  pending : Option ValueOption
  /-- Are all arguments to come operands? -/
  operandsOnly : Bool
  /-- What help is asked for, if the command is to give help. -/
  topics : Option (List String)

namespace Reading

def start : Reading := ⟨.none, none, .none, none, [], none, false, none⟩

variable (r : Reading)

/-- Takes the value of an option. -/
def withValue (option : ValueOption) (value : String) : Except Halt Reading :=
  let r := { r with pending := none }
  if value = "" then .error .usage
  else match option, r.options.config, r.replacements with
    | .config, none, _ => .ok { r with options := { r.options with config := some value } }
    | .replacements, _, none => .ok { r with replacements := some value }
    | _, _, _ => .error .usage

/-- Takes an option whose value may stand behind it in the same argument. -/
def withOption (option : ValueOption) : Option String → Except Halt Reading
  | some value => r.withValue option value
  | none => .ok { r with pending := some option }

def withVerbose : Except Halt Reading :=
  if r.options.verbose then .error .usage
  else .ok { r with options := { r.options with verbose := true } }

def withLogJson : Except Halt Reading :=
  if r.options.logJson then .error .usage
  else .ok { r with options := { r.options with logJson := true } }

def withDryRun : Except Halt Reading :=
  if r.options.dryRun then .error .usage
  else .ok { r with options := { r.options with dryRun := true } }

/-- The version is shown in front of a command only. -/
def version : Except Halt Reading := .error (if r.command.isNone then .version else .usage)

/-- Takes an option that starts with two dashes. -/
def withLong (name : String) (value : Option String) : Except Halt Reading :=
  match name, value with
  | "config", value => r.withOption .config value
  | "replacements", value =>
    if r.command = some .relabel then r.withOption .replacements value else .error .usage
  | "verbose", none => r.withVerbose
  | "log-json", none => r.withLogJson
  | "dry-run", none => r.withDryRun
  | "version", none => r.version
  | "help", none => .error .help
  | _, _ => .error .usage

/-- Takes options of one letter that stand behind one dash; the value of one takes the rest. -/
def withLetters (r : Reading) : List Char → Except Halt Reading
  | [] => .ok r
  | 'v' :: rest => do withLetters (← r.withVerbose) rest
  | ['c'] => r.withOption .config none
  | 'c' :: '=' :: value | 'c' :: value => r.withOption .config (some (String.ofList value))
  | 'V' :: _ => r.version
  | 'h' :: _ => .error .help
  | _ => .error .usage

/-- Takes the name of the command, or an operand of it. -/
def withOperand (text : String) : Except Halt Reading :=
  match r.command with
  | some name =>
    if name.takes r.operands text then .ok { r with operands := r.operands ++ [text] }
    else .error .usage
  | none =>
    if r.operandsOnly then .error .usage
    else if text = "help" then .ok { r with topics := some [] }
    else match CommandName.ofText? text with
      | some name => .ok { r with front := r.options, command := some name, options := .none }
      | none => .error .usage

/-- Takes one argument that is not a topic of help. -/
def withArgument (argument : String) : Except Halt Reading :=
  if r.operandsOnly then r.withOperand argument
  else match argument.toList, r.pending with
    | '-' :: _ :: _, some _ => .error .usage
    | ['-', '-'], none => .ok { r with operandsOnly := true }
    | '-' :: '-' :: cs, none =>
      r.withLong (String.ofList (cs.takeWhile (· ≠ '='))) (match cs.dropWhile (· ≠ '=') with
        | [] => none
        | _ :: value => some (String.ofList value))
    | '-' :: c :: cs, none => r.withLetters (c :: cs)
    | _, some option => r.withValue option argument
    | _, none => r.withOperand argument

/-- Takes one argument. -/
def step (argument : String) : Except Halt Reading :=
  match r.topics with
  | some topics => .ok { r with topics := some (topics ++ [argument]) }
  | none => r.withArgument argument

/-- The ids that operands denote; there must be one. -/
def ids? {kind : IdentKind} (operands : List String) : Option (List (Ident kind)) :=
  if operands.isEmpty then none else operands.mapM fun s => (Ident.parseExact s).toOption

/-- The entity that two operands denote. -/
def entity? : List String → Option Entity
  | ["card", id] => (Ident.parseExact id).toOption.map Entity.card
  | ["dashboard", id] => (Ident.parseExact id).toOption.map Entity.dashboard
  | _ => none

/-- The command that has been read. -/
def command? : Option Command := do
  match ← r.command with
  | .migrateCard => return .migrateCards (← ids? r.operands)
  | .migrateDashboard => return .migrateDashboards (← ids? r.operands)
  | .labels => return .labels (← entity? r.operands)
  | .relabel => return .relabel (← entity? r.operands) (← r.replacements)
  | .checkConfig => if r.operands.isEmpty then return .checkConfig else none

def finish : Except Halt Invocation :=
  match r.topics, r.pending, r.command? with
  | some topics, _, _ => .error (if areTopics topics then .help else .usage)
  | none, none, some command => .ok ⟨r.front.combine r.options, command⟩
  | _, _, _ => .error .usage

end Reading

/-- The invocation that arguments denote. -/
def parse (arguments : List String) : Except Halt Invocation := do
  (← arguments.foldlM Reading.step .start).finish

end Invocation

end Rehome
