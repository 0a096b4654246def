import Screener.Market.Template
import Screener.Seed
import Screener.Text.Blank
import Screener.Yaml.Reader

namespace Screener

namespace Settings

structure Server where
  host : String
  port : UInt16
  /-- A star allows any origin. -/
  origins : List String
deriving DecidableEq

structure Storage where
  database : String
  source : SeedSource
  seedFile : Option String
  /-- A template with a place for the symbol. -/
  quoteAddress : Option String
  fetchTimeout : UInt64
  queryTimeout : UInt64
deriving DecidableEq

structure Model where
  name : String
  base : Option String
  temperature : Extended .single
  timeout : UInt64
deriving DecidableEq

structure Logging where
  level : String
  format : String
  output : String
  directory : String
deriving DecidableEq

end Settings

structure Settings where
  server : Settings.Server
  storage : Settings.Storage
  model : Settings.Model
  logging : Settings.Logging
deriving DecidableEq

namespace Settings

def Server.standard : Server :=
  ⟨"127.0.0.1", 8000, ["http://localhost:5173", "http://localhost:3000"]⟩

def Storage.standard : Storage :=
  ⟨"data/stocks.duckdb", .fixture, some "data/stocks.json", none, 10, 10⟩

def Storage.inMemory (s : Storage) : Bool := s.database = ":memory:"

def standardTemperature : Extended .single := .ofRounded false (Binary.ofDecimal? false 1 (-1))

def Model.standard : Model := ⟨"gpt-4o-mini", none, standardTemperature, 30⟩

def Logging.standard : Logging := ⟨"info", "pretty", "stdout", "./logs"⟩

def standard : Settings := ⟨.standard, .standard, .standard, .standard⟩

inductive Error where
  | missingFile
  | notYaml
  | illTyped (key : String)
  | repeatedKey (key : String)
  | missingVariable (name : String)
  | noTimeout (key : String)
  | noQuoteAddress
deriving DecidableEq

def Error.message : Error → String
  | missingFile => "Failed to read config file: No such file or directory (os error 2)"
  | notYaml => "Failed to parse YAML: the text is no document"
  | illTyped key => "Failed to parse YAML: " ++ key ++ " has another type"
  | repeatedKey key => "Failed to parse YAML: " ++ key ++ " is set twice"
  | missingVariable name => "Missing required environment variable: " ++ name
  | noTimeout key => "Invalid configuration: " ++ key ++ " must be greater than 0"
  | noQuoteAddress => "Invalid configuration: storage.quote_url with a " ++
      Market.Template.placeholder ++ " placeholder is required for the quote_api provider"

/-! The file -/

/-- A key and what its value does to the settings that hold it. -/
structure Key (σ : Type) where
  name : String
  put : Yaml.Node → σ → Except Error σ

/-- A key whose value is read by `read?`. -/
def Key.of {σ α : Type} (name : String) (read? : Yaml.Node → Option α) (set : α → σ → σ) : Key σ :=
  ⟨name, fun node s => match read? node with
    | some a => .ok (set a s)
    | none => .error (.illTyped name)⟩

/-- Settings changed by the entries of a map. Other keys are passed over; known ones stand once. -/
def putEntries {σ : Type} (keys : List (Key σ)) :
    List String → List (Yaml.Node × Yaml.Node) → σ → Except Error σ
  | _, [], s => .ok s
  | seen, (key, value) :: rest, s =>
    match key.text? with
    | none => .error (.illTyped "")
    | some name =>
      match keys.find? (·.name = name) with
      | none => putEntries keys seen rest s
      | some k =>
        if seen.contains name then .error (.repeatedKey name)
        else do putEntries keys (name :: seen) rest (← k.put value s)

/-- Settings changed by a map. -/
def putMap {σ : Type} (name : String) (keys : List (Key σ)) (node : Yaml.Node) (s : σ) :
    Except Error σ :=
  match node.entries? with
  | some entries => putEntries keys [] entries s
  | none => .error (.illTyped name)

def port? (n : Yaml.Node) : Option UInt16 := (n.whole? UInt16.size).map UInt16.ofNat

def seconds? (n : Yaml.Node) : Option UInt64 := (n.whole? UInt64.size).map UInt64.ofNat

def serverKeys : List (Key Server) := [
  .of "host" Yaml.Node.text? fun v s => { s with host := v },
  .of "port" port? fun v s => { s with port := v },
  .of "cors_origins" Yaml.Node.texts? fun v s => { s with origins := v }]

def storageKeys : List (Key Storage) := [
  .of "database" Yaml.Node.text? fun v s => { s with database := v },
  .of "provider" (fun n => n.text?.bind SeedSource.ofName?) fun v s => { s with source := v },
  .of "seed_file" Yaml.Node.optionalText? fun v s => { s with seedFile := v },
  .of "quote_url" Yaml.Node.optionalText? fun v s => { s with quoteAddress := v },
  .of "fetch_timeout_secs" seconds? fun v s => { s with fetchTimeout := v },
  .of "query_timeout_secs" seconds? fun v s => { s with queryTimeout := v }]

def modelKeys : List (Key Model) := [
  .of "model" Yaml.Node.text? fun v s => { s with name := v },
  .of "api_base" Yaml.Node.optionalText? fun v s => { s with base := v },
  .of "temperature" (Yaml.Node.float? .single) fun v s => { s with temperature := v },
  .of "timeout_secs" seconds? fun v s => { s with timeout := v }]

def loggingKeys : List (Key Logging) := [
  .of "level" Yaml.Node.text? fun v s => { s with level := v },
  .of "format" Yaml.Node.text? fun v s => { s with format := v },
  .of "output" Yaml.Node.text? fun v s => { s with output := v },
  .of "directory" Yaml.Node.text? fun v s => { s with directory := v }]

/-- What a section leaves out has its default. -/
def sections : List (Key Settings) := [
  ⟨"server", fun n s => do .ok { s with server := ← putMap "server" serverKeys n .standard }⟩,
  ⟨"storage", fun n s => do .ok { s with storage := ← putMap "storage" storageKeys n .standard }⟩,
  ⟨"llm", fun n s => do .ok { s with model := ← putMap "llm" modelKeys n .standard }⟩,
  ⟨"logging", fun n s => do .ok { s with logging := ← putMap "logging" loggingKeys n .standard }⟩]

def ofDocument (document : Yaml.Node) : Except Error Settings :=
  putMap "" sections document standard

/-! The environment -/

/-- The values of variables; one without a value is not set. -/
abbrev Environment := String → Option String

/-- A decimal number that fits, with or without a plus sign. -/
def portOfText? (s : String) : Option UInt16 :=
  let ds := match s.toList with
    | '+' :: ds => ds
    | ds => ds
  if ds ≠ [] ∧ ds.all isDigit ∧ natOfDigits ds < UInt16.size then
    some (UInt16.ofNat (natOfDigits ds))
  else none

def Server.override (env : Environment) (s : Server) : Server where
  host := (env "STOCKQL_SERVER_HOST").getD s.host
  port := ((env "STOCKQL_SERVER_PORT").bind portOfText?).getD s.port
  origins := s.origins

def Storage.override (env : Environment) (s : Storage) : Storage where
  database := (env "STOCKQL_DATABASE").getD s.database
  source := ((env "STOCKQL_SEED_PROVIDER").bind SeedSource.ofName?).getD s.source
  seedFile := (env "STOCKQL_SEED_FILE").or s.seedFile
  quoteAddress := (env "STOCKQL_QUOTE_URL").or s.quoteAddress
  fetchTimeout := s.fetchTimeout
  queryTimeout := s.queryTimeout

def Model.override (env : Environment) (m : Model) : Model where
  name := (env "LLM_MODEL").getD m.name
  base := (env "LLM_API_BASE").or m.base
  temperature := m.temperature
  timeout := m.timeout

def Logging.override (env : Environment) (l : Logging) : Logging where
  level := (env "RUST_LOG").getD l.level
  format := (env "LOG_FORMAT").getD l.format
  output := (env "LOG_OUTPUT").getD l.output
  directory := (env "LOG_DIR").getD l.directory

/-- Variables go before what the file says. -/
def override (env : Environment) (s : Settings) : Settings where
  server := s.server.override env
  storage := s.storage.override env
  model := s.model.override env
  logging := s.logging.override env

/-! Checks -/

def timeouts (s : Settings) : List (String × UInt64) :=
  [("llm.timeout_secs", s.model.timeout), ("storage.query_timeout_secs", s.storage.queryTimeout),
    ("storage.fetch_timeout_secs", s.storage.fetchTimeout)]

/-- Refuses settings with which every request would fail; the first fault counts. -/
def check (s : Settings) : Except Error Settings :=
  match s.timeouts.find? (·.2 = 0) with
  | some (key, _) => .error (.noTimeout key)
  | none =>
    if s.storage.source = .quoteApi ∧ ¬ s.storage.quoteAddress.any Market.Template.hasPlace then
      .error .noQuoteAddress
    else .ok s

def loadDocument (env : Environment) (document : Yaml.Node) : Except Error Settings := do
  check ((← ofDocument document).override env)

/-- The settings of a file, given its contents if there is one, and an environment. -/
def load (env : Environment) : Option String → Except Error Settings
  | none => .error .missingFile
  | some contents =>
    match Yaml.Node.ofText? contents with
    | some document => loadDocument env document
    | none => .error .notYaml

/-- As `load`, but without a file everything has its default. -/
def loadOrStandard (env : Environment) : Option String → Except Error Settings
  | none => check (standard.override env)
  | some contents => load env (some contents)

def keyVariable : String := "OPENAI_API_KEY"

def apiKey (env : Environment) : Except Error String :=
  match env keyVariable with
  | some key => if Text.isBlankText key then .error (.missingVariable keyVariable) else .ok key
  | none => .error (.missingVariable keyVariable)

end Settings

end Screener
