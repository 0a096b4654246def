namespace Screener.Logging

inductive Format where
  | pretty
  | json
  | compact
deriving DecidableEq

def Format.ofName : String → Format
  | "json" => json
  | "compact" => compact
  | _ => pretty

inductive Output where
  | stdout
  | file
  | both
deriving DecidableEq

def Output.ofName : String → Output
  | "file" => file
  | "both" => both
  | _ => stdout

end Screener.Logging
