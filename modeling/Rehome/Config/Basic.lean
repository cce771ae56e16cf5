import Rehome.Document.Mapping

/-! # Configurations

A configuration describes a run: the installation and the database that queries go to, the mapping, and
how labels are translated. -/

namespace Rehome

/-- The installation to migrate on. -/
structure ServerConfig where
  baseUrl : String
  sessionToken : Option String
deriving DecidableEq, Repr

/-- How labels are translated. -/
structure TranslatorConfig where
  language : Language
  onMiss : OnMiss
  /-- The file of a term dictionary. -/
  termsFile : Option String
  /-- Are other spellings of the terms known too? -/
  caseExpand : Bool
  /-- The pause before a provider is asked again, in seconds. -/
  retryDelay : Nat
  providerUrl : Option String
  apiKey : Option String
deriving DecidableEq, Repr

structure Config where
  server : ServerConfig
  database : DatabaseId
  /-- The equivalent tables, if they are given in place. -/
  tables : Option TablesSpec
  /-- The file of the equivalent tables. -/
  tablesFile : Option String
  moves : Moves
  overrides : OverridesSpec
  translator : Option TranslatorConfig
  dryRun : Bool
deriving DecidableEq, Repr

/-- A configuration for a language, with all else as it is by default. -/
def TranslatorConfig.new (language : Language) : TranslatorConfig :=
  ⟨language, .keep, none, false, 5, none, none⟩

/-- A configuration with its tables given in place, and all else as it is by default. -/
def Config.new (server : ServerConfig) (database : DatabaseId) (tables : TablesSpec) : Config :=
  ⟨server, database, some tables, none, .none, ⟨[], []⟩, none, false⟩

/-! ## Reading -/

def Language.choices : List (String × Language) := [("en", .en), ("fr", .fr)]

def OnMiss.choices : List (String × OnMiss) :=
  [OnMiss.fail, .keep, .askProvider].map fun o => (o.key, o)

/-- A number of at most 64 bits. -/
def Node.word? (n : Node) : Option Nat := n.nat?.filter (· < Nat.pow 2 64)

def ServerConfig.ofNode? (format : Format) (n : Node) : Option ServerConfig := do
  let [url, token] ← n.fields? format ["base_url", "session_token"] | none
  return ⟨← Node.required Node.text? url, ← Node.optional Node.text? token⟩

def TranslatorConfig.ofNode? (format : Format) (n : Node) : Option TranslatorConfig := do
  let [language, onMiss, terms, expand, delay, url, key] ← n.fields? format
    ["language", "on_miss", "terms_file", "case_expand", "retry_delay_secs", "provider_url", "api_key"]
    | none
  return {
    language := ← Node.required (Node.choice? format Language.choices) language
    onMiss := ← Node.withDefault .keep (Node.choice? format OnMiss.choices) onMiss
    termsFile := ← Node.optional Node.text? terms
    caseExpand := ← Node.withDefault false Node.bool? expand
    retryDelay := ← Node.withDefault 5 Node.word? delay
    providerUrl := ← Node.optional Node.text? url
    apiKey := ← Node.optional Node.text? key }

def Config.ofNode? (format : Format) (n : Node) : Option Config := do
  let [server, database, tables, file, moves, overrides, translator, dryRun] ← n.fields? format
    ["server", "db_target", "schema", "schema_file", "transformations", "personalization",
     "translation", "dry_run"] | none
  return {
    server := ← Node.required (ServerConfig.ofNode? format) server
    database := ← Node.required Node.id? database
    tables := ← Node.optional (TablesSpec.ofNode? format) tables
    tablesFile := ← Node.optional Node.text? file
    moves := ← Node.withDefault .none (Moves.ofNode? format) moves
    overrides := ← Node.withDefault ⟨[], []⟩ (OverridesSpec.ofNode? format) overrides
    translator := ← Node.optional (TranslatorConfig.ofNode? format) translator
    dryRun := ← Node.withDefault false Node.bool? dryRun }

/-! ## Writing -/

def ServerConfig.toJson (s : ServerConfig) : Json :=
  .obj [("base_url", .str s.baseUrl), ("session_token", .ofOption Json.str s.sessionToken)]

def TranslatorConfig.toJson (t : TranslatorConfig) : Json :=
  .obj [("language", .str t.language.code), ("on_miss", .str t.onMiss.key),
    ("terms_file", .ofOption Json.str t.termsFile), ("case_expand", .bool t.caseExpand),
    ("retry_delay_secs", .int t.retryDelay), ("provider_url", .ofOption Json.str t.providerUrl),
    ("api_key", .ofOption Json.str t.apiKey)]

def Config.toJson (c : Config) : Json :=
  .obj [("server", c.server.toJson), ("db_target", c.database.toJson),
    ("schema", .ofOption TablesSpec.toJson c.tables),
    ("schema_file", .ofOption Json.str c.tablesFile),
    ("transformations", c.moves.toJson), ("personalization", c.overrides.toJson),
    ("translation", .ofOption TranslatorConfig.toJson c.translator), ("dry_run", .bool c.dryRun)]

end Rehome
