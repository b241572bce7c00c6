import CoreWarden.Http.Authority
import CoreWarden.Text.Utf8

/-!
Request targets: a path, and a query after a question mark. A target may be written with a scheme and
an authority in front, which do not matter here, or be an authority alone, without a path. Percent
escapes are resolved in a part of a path only if its bytes are UTF-8, and in a query in any case.
-/
namespace CoreWarden.Http

structure Target where
  path : List Char
  query : List Char

namespace Target

/-- The characters that must not stand unescaped in a path, and those that must not in a query. -/
def isForbiddenInPath (c : Char) : Bool :=
  c.toNat ≤ 0x20 || c.toNat == 0x7F || c == '<' || c == '>' || c == '\x60'

def isForbiddenInQuery (c : Char) : Bool :=
  c.toNat ≤ 0x20 || c.toNat == 0x7F || c == '"' || c == '<' || c == '>'

/-- A path with a query. A fragment is no part of the target and is not looked at. -/
def ofPath? (s : List Char) : Option Target :=
  let s := s.takeWhile (· ≠ '#')
  let path := s.takeWhile (· ≠ '?')
  let query := (s.dropWhile (· ≠ '?')).drop 1
  if path.any isForbiddenInPath || query.any isForbiddenInQuery then none else some ⟨path, query⟩

def isSchemeChar (c : Char) : Bool := c.isAlphanum || ['+', '-', '.', '~'].contains c

/-- The scheme of a text that begins with one, and what follows it. -/
def scheme? (s : List Char) : Option (List Char × List Char) :=
  match s.dropWhile isSchemeChar with
  | ':' :: '/' :: '/' :: rest => some (s.takeWhile isSchemeChar, rest)
  | _ => none

/-- The greatest length of a scheme, and that of a whole target in bytes. -/
def maxScheme : Nat := 64

def maxLength : Nat := 65534

/-- A target with a scheme has an authority; without a path it leads to the root. -/
def ofAbsolute? (scheme s : List Char) : Option Target :=
  let authority := s.takeWhile (!Authority.isEnd ·)
  if maxScheme < scheme.length || authority.isEmpty || !Authority.isValid authority then none
  else (ofPath? (s.dropWhile (!Authority.isEnd ·))).map fun t =>
    if t.path.isEmpty then { t with path := ['/'] } else t

def parse? (s : String) : Option Target :=
  if maxLength < s.utf8ByteSize then none
  else match s.toList with
    | [] => none
    | ['*'] => some ⟨['*'], []⟩
    | '/' :: rest => ofPath? ('/' :: rest)
    | s =>
      match scheme? s with
      | some (scheme, rest) => ofAbsolute? scheme rest
      | none => if Authority.isValid s then some ⟨[], []⟩ else none

def hex? (c : Char) : Option UInt8 :=
  if '0' ≤ c && c ≤ '9' then some (UInt8.ofNat (c.toNat - 48))
  else if 'a' ≤ c && c ≤ 'f' then some (UInt8.ofNat (c.toNat - 87))
  else if 'A' ≤ c && c ≤ 'F' then some (UInt8.ofNat (c.toNat - 55))
  else none

/-- The bytes of a text with its percent escapes resolved; a percent sign that begins no escape
stands for itself. -/
def bytes : List Char → List UInt8
  | '%' :: a :: b :: rest =>
    match hex? a, hex? b with
    | some x, some y => (x * 16 + y) :: bytes rest
    | _, _ => 0x25 :: bytes (a :: b :: rest)
  | c :: rest => Text.Utf8.encode (String.singleton c) ++ bytes rest
  | [] => []
termination_by s => s.length

def splitOn (sep : Char) : List Char → List (List Char)
  | [] => [[]]
  | c :: rest =>
    if c = sep then [] :: splitOn sep rest
    else match splitOn sep rest with
      | part :: parts => (c :: part) :: parts
      | [] => [[c]]

/-- A piece of a query: a plus sign is a blank, and broken characters are replaced. -/
def unescape (s : List Char) : List Char :=
  Text.Utf8.decodeLossy (bytes (s.map fun c => if c = '+' then ' ' else c))

def pairs (t : Target) : List (List Char × List Char) :=
  ((splitOn '&' t.query).filter (· ≠ [])).map fun part =>
    (unescape (part.takeWhile (· ≠ '=')), unescape ((part.dropWhile (· ≠ '=')).drop 1))

end Target

end CoreWarden.Http
