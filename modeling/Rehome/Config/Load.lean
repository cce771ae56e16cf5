import Rehome.Config.Basic
import Rehome.Config.Error
import Rehome.Document.Terms
import Rehome.Migration.Client
import Rehome.Migration.Session
import Rehome.Translator.Client

/-! # Loading configurations

What a configuration describes is built from it and from the files that it names. Files are read through
a function that is passed in; their paths are relative to the file of the configuration. -/

namespace Rehome

variable {m : Type → Type} [Monad m]

/-- Runs an action that may fail, its errors taken for errors of a configuration. -/
def ConfigError.wrapping {ε α : Type} (wrap : ε → ConfigError) (act : m (Except ε α)) :
    ExceptT ConfigError m α :=
  ExceptT.mk do return (← act).mapError wrap

/-! ## Translators -/

namespace TranslatorConfig

variable (read : String → m (Except FileError String)) (c : TranslatorConfig)

/-- The dictionary that is named, or an empty one. -/
def terms : ExceptT ConfigError m TermDictionary :=
  match c.termsFile with
  | none => return .empty
  | some path => ConfigError.wrapping .label (TermDictionary.readFile read path)

/-- The provider that is named; there must be one if one is to be asked. -/
def provider : Except ConfigError (Option ProviderClient) :=
  match c.providerUrl with
  | some url => .ok (some (.new url c.apiKey))
  | none => if c.onMiss = .askProvider then .error .missingProvider else .ok none

def translator : ExceptT ConfigError m (Translator ProviderClient) := do
  let terms ← c.terms read
  let t := ((Translator.new c.language c.onMiss).withTerms terms c.caseExpand).withRetryDelay
    (1000 * c.retryDelay)
  match ← ConfigError.wrapping id (pure c.provider) with
  | some provider => return t.withProvider provider
  | none => return t

end TranslatorConfig

namespace Config

variable (read : String → m (Except FileError String))

/-! ## Files -/

/-- Makes the files of a configuration relative to a directory. -/
def below (directory : String) (c : Config) : Config :=
  { c with
    tablesFile := c.tablesFile.map (Path.join directory)
    translator := c.translator.map fun t =>
      { t with termsFile := t.termsFile.map (Path.join directory) } }

/-- The configuration in a file. -/
def load (path : String) : ExceptT ConfigError m Config := do
  let c ← ConfigError.wrapping .mapping (Format.readFile read Config.ofNode? path)
  match Path.parent? path with
  | some directory => return c.below directory
  | none => return c

/-! ## What is built -/

variable (c : Config)

/-- The equivalent tables as they are listed. -/
def tablesSpec : ExceptT ConfigError m TablesSpec :=
  match c.tables, c.tablesFile with
  | some _, some _ => throw .ambiguousTables
  | none, none => throw .missingTables
  | some spec, none => return spec
  | none, some path => ConfigError.wrapping .mapping (Format.readFile read TablesSpec.ofNode? path)

def equivalences : ExceptT ConfigError m EquivalenceTable := do
  let spec ← c.tablesSpec read
  ConfigError.wrapping .mapping (pure (EquivalenceTable.ofSpec spec))

def mapping : ExceptT ConfigError m Mapping := do
  return ⟨c.database, ← c.equivalences read, .ofSpec c.overrides, c.moves⟩

/-- The translator, if labels are translated. -/
def labelTranslator : ExceptT ConfigError m (Option (Translator ProviderClient)) :=
  match c.translator with
  | none => return none
  | some t => some <$> t.translator read

def client : Client := .new c.server.baseUrl c.server.sessionToken

/-- A session on an installation. -/
def session {ρ : Type} (remote : ρ) : ExceptT ConfigError m (Session ρ ProviderClient) := do
  let session : Session ρ ProviderClient := (Session.new (← c.mapping read) remote).withDryRun c.dryRun
  match ← c.labelTranslator read with
  | some translator => return session.withTranslator translator
  | none => return session

end Config

end Rehome
