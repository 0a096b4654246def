import Screener.Text.Lower

namespace Screener.Sql

/-- Some end of the text, the whole and nothing included, satisfies `p`. -/
def anySuffix (p : List Char → Bool) : List Char → Bool
  | [] => p []
  | c :: cs => p (c :: cs) || anySuffix p cs

/-- `%` stands for any characters, `_` for one, and a character after `escape` for itself. -/
def like (escape : Char) : List Char → List Char → Bool
  | [], text => text.isEmpty
  | [p], text =>
    if p = escape then false
    else if p = '%' then true
    else match text with
      | [t] => p = '_' || p = t
      | _ => false
  | p :: q :: pattern, text =>
    if p = escape then
      match text with
      | t :: text => q = t && like escape pattern text
      | [] => false
    else if p = '%' then anySuffix (like escape (q :: pattern)) text
    else match text with
      | t :: text => (p = '_' || p = t) && like escape (q :: pattern) text
      | [] => false

def ilike (escape : Char) (pattern text : List Char) : Bool :=
  like escape (Text.lowerChars pattern) (Text.lowerChars text)

end Screener.Sql
