namespace Screener.Market.Template

def placeholder : String := "\x7bsymbol\x7d"

def occursIn (part : List Char) : List Char → Bool
  | [] => part.isEmpty
  | c :: cs => part.isPrefixOf (c :: cs) || occursIn part cs

def hasPlace (template : String) : Bool := occursIn placeholder.toList template.toList

/-- Every occurrence of `old`, from the left, gives way to `new`; `skip` characters of the last one
are still to pass. -/
def replaceChars (old new : List Char) : Nat → List Char → List Char
  | _, [] => []
  | skip + 1, _ :: cs => replaceChars old new skip cs
  | 0, c :: cs =>
    if old.isPrefixOf (c :: cs) then new ++ replaceChars old new (old.length - 1) cs
    else c :: replaceChars old new 0 cs

def address (template symbol : String) : String :=
  String.ofList (replaceChars placeholder.toList symbol.toList 0 template.toList)

end Screener.Market.Template
