import Screener.Json.Value
import Screener.Text.Shown

namespace Screener.Json

def fourHex (n : Nat) : List Char :=
  let ds := Text.hexDigits n
  List.replicate (4 - ds.length) '0' ++ ds

def escape : Char → List Char
  | '"' => ['\\', '"']
  | '\\' => ['\\', '\\']
  | '\x08' => ['\\', 'b']
  | '\x0c' => ['\\', 'f']
  | '\n' => ['\\', 'n']
  | '\r' => ['\\', 'r']
  | '\t' => ['\\', 't']
  | c => if c.toNat < 0x20 then ['\\', 'u'] ++ fourHex c.toNat else [c]

def writeString (s : String) : List Char := '"' :: s.toList.flatMap escape ++ ['"']

def writeInt (n : Int) : List Char :=
  if n < 0 then '-' :: digitsOf n.natAbs else digitsOf n.natAbs

def writeFloat (x : Double) : List Char := x.render .json

def separate : List (List Char) → List Char
  | [] => []
  | [t] => t
  | t :: rest => t ++ ',' :: separate rest

def bracket (texts : List (List Char)) : List Char := '[' :: separate texts ++ [']']

def brace (texts : List (List Char)) : List Char := '{' :: separate texts ++ ['}']

def writeEntry (key : String) (value : List Char) : List Char := writeString key ++ ':' :: value

mutual

def write : Json → List Char
  | null => "null".toList
  | bool true => "true".toList
  | bool false => "false".toList
  | int n => writeInt n
  | float x => writeFloat x
  | string s => writeString s
  | array items => bracket (writeItems items)
  | object entries => brace (writeEntries entries)

def writeItems : List Json → List (List Char)
  | [] => []
  | v :: rest => write v :: writeItems rest

def writeEntries : List (String × Json) → List (List Char)
  | [] => []
  | (k, v) :: rest => writeEntry k (write v) :: writeEntries rest

end

def text (v : Json) : String := String.ofList v.write

end Screener.Json
