import Mathlib.Control.Monad.Basic
import Screener.Proofs.Settings.Faults
import Screener.Proofs.Settings.Keys

namespace Screener

namespace Settings

variable {σ α : Type}

/-- A variable, and the values that its text may be read as. -/
structure Variable (α : Type) where
  name : String
  Reads : String → α → Prop

namespace Variable

def text (name : String) : Variable String := ⟨name, fun t v => v = t⟩

def optionalText (name : String) : Variable (Option String) := ⟨name, fun t v => v = some t⟩

/-- A number of sixteen bits in decimal digits; a plus sign may precede them. -/
def port (name : String) : Variable UInt16 where
  name := name
  Reads t p := ∃ ds, (t.toList = ds ∨ t.toList = '+' :: ds) ∧ ds ≠ [] ∧
    (∀ c ∈ ds, isDigit c = true) ∧ natOfDigits ds = p.toNat

def source (name : String) : Variable SeedSource where
  name := name
  Reads t a := t = "fixture" ∧ a = .fixture ∨ t = "quote_api" ∧ a = .quoteApi

end Variable

/-- A setting of a section: its key in the file and what the value is read as, and the variable that
goes before the file, if there is one. -/
structure Setting (σ : Type) where
  {Value : Type}
  key : String
  read? : Yaml.Node → Option Value
  override? : Option (Variable Value)
  get : σ → Value

def Server.settings : List (Setting Server) := [
  ⟨"host", Yaml.Node.text?, some (.text "STOCKQL_SERVER_HOST"), host⟩,
  ⟨"port", port?, some (.port "STOCKQL_SERVER_PORT"), port⟩,
  ⟨"cors_origins", Yaml.Node.texts?, none, origins⟩]

def Storage.settings : List (Setting Storage) := [
  ⟨"database", Yaml.Node.text?, some (.text "STOCKQL_DATABASE"), database⟩,
  ⟨"provider", fun n => n.text?.bind SeedSource.ofName?, some (.source "STOCKQL_SEED_PROVIDER"),
    source⟩,
  ⟨"seed_file", Yaml.Node.optionalText?, some (.optionalText "STOCKQL_SEED_FILE"), seedFile⟩,
  ⟨"quote_url", Yaml.Node.optionalText?, some (.optionalText "STOCKQL_QUOTE_URL"), quoteAddress⟩,
  ⟨"fetch_timeout_secs", seconds?, none, fetchTimeout⟩,
  ⟨"query_timeout_secs", seconds?, none, queryTimeout⟩]

def Model.settings : List (Setting Model) := [
  ⟨"model", Yaml.Node.text?, some (.text "LLM_MODEL"), name⟩,
  ⟨"api_base", Yaml.Node.optionalText?, some (.optionalText "LLM_API_BASE"), base⟩,
  ⟨"temperature", Yaml.Node.float? .single, none, temperature⟩,
  ⟨"timeout_secs", seconds?, none, timeout⟩]

def Logging.settings : List (Setting Logging) := [
  ⟨"level", Yaml.Node.text?, some (.text "RUST_LOG"), level⟩,
  ⟨"format", Yaml.Node.text?, some (.text "LOG_FORMAT"), format⟩,
  ⟨"output", Yaml.Node.text?, some (.text "LOG_OUTPUT"), output⟩,
  ⟨"directory", Yaml.Node.text?, some (.text "LOG_DIR"), directory⟩]

structure Section where
  {Part : Type}
  name : String
  get : Settings → Part
  settings : List (Setting Part)

namespace Section

def all : List Section := [
  ⟨"server", server, Server.settings⟩, ⟨"storage", storage, Storage.settings⟩,
  ⟨"llm", model, Model.settings⟩, ⟨"logging", logging, Logging.settings⟩]

end Section

section

variable {key : String} {readNode? : Yaml.Node → Option α} {get : σ → α} {env : Environment}
  {old : α}

end

section

variable {key name : String} {env : Environment}

end

end Settings

end Screener
