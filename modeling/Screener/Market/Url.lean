namespace Screener.Market

structure Url where
  origin : String
  target : String
deriving DecidableEq

namespace Url

def hexUpper (n : Nat) : Char := ("0123456789ABCDEF".toList)[n]?.getD '0'

def percent (b : UInt8) : List Char :=
  ['%', hexUpper (b.toNat / 16), hexUpper (b.toNat % 16)]

def encodeChar (mustEncode : Char → Bool) (c : Char) : List Char :=
  if c.toNat < 0x20 || 0x7E < c.toNat || mustEncode c then
    (String.singleton c).toUTF8.toList.flatMap percent
  else [c]

def inPath (c : Char) : Bool := c ∈ [' ', '"', '#', '<', '>', '?', '\x60', '{', '}']

def inQuery (c : Char) : Bool := c ∈ [' ', '"', '#', '<', '>', '\x27']

def parts (cs : List Char) : List (List Char) := cs.splitOn '/'

def isDot (p : List Char) : Bool := p == ['.'] || p.map Char.toLower == "%2e".toList

def isDotDot (p : List Char) : Bool :=
  let l := p.map Char.toLower
  l == "..".toList || l == ".%2e".toList || l == "%2e.".toList || l == "%2e%2e".toList

def walk : List (List Char) → List (List Char) → List (List Char)
  | done, [] => done
  | done, [p] =>
    if isDotDot p then done.dropLast ++ [[]] else if isDot p then done ++ [[]] else done ++ [p]
  | done, p :: ps =>
    if isDotDot p then walk done.dropLast ps else if isDot p then walk done ps
    else walk (done ++ [p]) ps

def sentPath (cs : List Char) : List Char :=
  match cs.map fun c => if c = '\\' then '/' else c with
  | '/' :: rest => (walk [] (parts rest)).flatMap fun p => '/' :: p.flatMap (encodeChar inPath)
  | _ => ['/']

def isSpaceOrControl (c : Char) : Bool := c.toNat ≤ 0x20

def isHostChar (c : Char) : Bool :=
  0x20 < c.toNat && !(c ∈ ['#', '/', '<', '>', '?', '@', '[', '\\', ']', '^', '|', '%', '{', '}'])

def ofText? (s : String) : Option Url :=
  let cs := (s.toList.dropWhile isSpaceOrControl).reverse.dropWhile isSpaceOrControl |>.reverse
  let cs := cs.filter fun c => !(c ∈ ['\t', '\n', '\r'])
  let (scheme, rest) := cs.span (· ≠ ':')
  let scheme := String.ofList (scheme.map Char.toLower)
  if scheme ≠ "http" ∧ scheme ≠ "https" then none
  else
    match rest with
    | ':' :: rest =>
      let rest := rest.dropWhile fun c => c = '/' || c = '\\'
      let (host, rest) := rest.span fun c => !(c ∈ ['/', '\\', '?', '#'])
      if host.isEmpty || !host.all isHostChar then none
      else
        let (path, rest) := rest.span fun c => !(c ∈ ['?', '#'])
        let query := match rest with
          | '?' :: q => '?' :: (q.takeWhile (· ≠ '#')).flatMap (encodeChar inQuery)
          | _ => []
        some ⟨scheme ++ "://" ++ String.ofList (host.map Char.toLower),
          String.ofList (sentPath path ++ query)⟩
    | _ => none

end Url

end Screener.Market
