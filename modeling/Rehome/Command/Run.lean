import Rehome.Command.Arguments
import Rehome.Config.Load

/-! # Running commands

A command loads the configuration, prepares a session and sends its requests. What goes wrong is told
with what was being done at the time. -/

namespace Rehome

/-- What a run leaves: an exit code, lines for the output, and a line for the error if there is one. -/
structure Outcome where
  code : Nat
  output : List String
  error : Option String
deriving DecidableEq, Repr

/-- The messages of a failure, from what was being done down to the first cause. -/
abbrev Failure := List String

def Failure.text (f : Failure) : String := "error: " ++ ": ".intercalate f

namespace Command

variable {m : Type → Type} [Monad m] {ρ : Type} [Remote ρ]
variable (read : String → m (Except FileError String)) (connect : Config → ρ)

/-- Tells an error of the configuration with what was being done. -/
def configuring {α : Type} (task : String) (act : ExceptT ConfigError m α) : ExceptT Failure m α :=
  ExceptT.mk do return (← act.run).mapError fun e => task :: e.message :: e.causes

/-- Tells an error of a session with what was being done. -/
def migrating {μ α : Type} (task : String) (act : Migrating ρ μ α) :
    ExceptT Failure (StateM (Session ρ μ)) α :=
  ExceptT.mk do return (← act.run).mapError fun e => task :: e.message :: e.causes

/-- Reads the replacements of labels. -/
def replacements (path : String) : ExceptT Failure m (List (String × String)) :=
  ExceptT.mk do
    let result ← Format.readFile read (fun _ n => n.textMap) path
    return result.mapError fun e => s!"reading replacements {path}" :: e.message :: e.causes

/-- Runs an action in the session of a configuration. -/
def inSession {α : Type} (c : Config)
    (act : ExceptT Failure (StateM (Session ρ ProviderClient)) α) : ExceptT Failure m α := do
  let session ← configuring "preparing migration session" (c.session read (connect c))
  ExceptT.mk (pure (act.run.run session).1)

/-- The loaded configuration, as lines. -/
def summary (c : Config) (mapping : Mapping) (translator : Option (Translator ProviderClient)) :
    List String :=
  let language := match translator with
    | some t => s!"{t.language.name} ({t.onMiss.name} on miss)"
    | none => "off"
  [s!"server:          {c.server.baseUrl}",
   s!"target database: {mapping.database}",
   s!"tables mapped:   {mapping.tables.tableCount}",
   s!"columns mapped:  {mapping.tables.columnCount}",
   s!"cards:           {mapping.moves.cards.length}",
   s!"dashboards:      {mapping.moves.dashboards.length}",
   s!"translation:     {language}",
   s!"dry run:         {c.dryRun}"]

/-- Carries out a command with a loaded configuration, and answers the lines of its output. -/
def execute (c : Config) : Command → ExceptT Failure m (List String)
  | .migrateCards ids => inSession read connect c do
    ids.forM fun id => migrating s!"migrating card {id}" (Migrating.migrateCard id)
    return []
  | .migrateDashboards ids => inSession read connect c do
    ids.forM fun id => migrating s!"migrating dashboard {id}" (Migrating.migrateDashboard id)
    return []
  | .labels entity => inSession read connect c do
    migrating s!"collecting labels of {entity}" (Migrating.collectLabels entity)
  | .relabel entity path => do
    let table ← replacements read path
    inSession read connect c do
      let count ← migrating s!"relabelling {entity}" (Migrating.relabel entity table)
      return [s!"{count} label(s) replaced on {entity}"]
  | .checkConfig => do
    let mapping ← configuring "building schema mapping" (c.mapping read)
    let translator ← configuring "building translator" (c.labelTranslator read)
    return summary c mapping translator

/-- Carries out an invocation. -/
def invoke (i : Invocation) : ExceptT Failure m (List String) := do
  let path := i.options.configFile
  let c ← configuring s!"loading configuration {path}" (Config.load read path)
  execute read connect { c with dryRun := c.dryRun || i.options.dryRun } i.command

/-- How the program is called. -/
def usage : List String :=
  ["Migrate cards and dashboards to a new database schema",
   "",
   "Usage: dashmig [OPTIONS] <COMMAND>",
   "",
   "Commands:",
   "  migrate-card <IDS>...       Migrate cards, and every card they depend on",
   "  migrate-dashboard <IDS>...  Migrate dashboards and the cards they place",
   "  labels <KIND> <ID>          Print the labels of a card or dashboard, one per line",
   "  relabel --replacements <FILE> <KIND> <ID>",
   "                              Replace labels of a card or dashboard",
   "  check-config                Load and validate the run configuration",
   "",
   "Options:",
   "  -c, --config <FILE>  Run configuration (YAML or JSON), by default dashmig.yml",
   "  -v, --verbose        Debug logging",
   "      --log-json       Log as JSON lines",
   "      --dry-run        Migrate without pushing anything",
   "  -h, --help           Print help",
   "  -V, --version        Print version"]

/-- Runs the program with arguments. -/
def run (arguments : List String) : m Outcome := do
  match Invocation.parse arguments with
  | .error .usage => return ⟨2, [], some "error: unexpected arguments; see --help"⟩
  | .error .version => return ⟨0, ["dashmig 0.1.0"], none⟩
  | .error .help => return ⟨0, usage, none⟩
  | .ok i =>
    match ← (invoke read connect i).run with
    | .ok lines => return ⟨0, lines, none⟩
    | .error failure => return ⟨1, [], some failure.text⟩

end Command

end Rehome
