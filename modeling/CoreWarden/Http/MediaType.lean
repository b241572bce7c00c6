/-! Media types with their parameters, as the header fields of messages name them. -/
namespace CoreWarden.Http.MediaType

/-- The characters of a token. -/
def isToken (c : Char) : Bool :=
  ('a' ≤ c && c ≤ 'z') || ('A' ≤ c && c ≤ 'Z') || ('0' ≤ c && c ≤ '9') ||
    ['!', '#', '$', '%', '&', '\'', '*', '+', '-', '.', '^', '_', '\x60', '|', '~'].contains c

def isQuotable (c : Char) : Bool := 31 < c.toNat && c.toNat != 127

/-- A quoted parameter value after its opening quote, and what follows its closing quote. A value has
at least one character, so a quote in front of all others does not close it; a backslash is a
character like any other. -/
def quoted? : List Char → Option (List Char × List Char)
  | [] => none
  | c :: rest =>
    let value := c :: rest.takeWhile (· != '"')
    match rest.dropWhile (· != '"') with
    | _ :: after => if value.all isQuotable then some (value, after) else none
    | [] => none

abbrev Parameter := List Char × List Char

/-- Parameters after a semicolon: names with values, blanks in front of a name or behind a quoted
value. A value without quotes is empty only at the end of everything. -/
def parameters? : Nat → List Char → Option (List Parameter)
  | 0, _ => none
  | fuel + 1, s =>
    match s.dropWhile (· == ' ') with
    | [] => some []
    | s =>
      let name := s.takeWhile isToken
      match s.dropWhile isToken with
      | '=' :: '"' :: rest => do
        let (value, rest) ← quoted? rest
        match name, rest.dropWhile (· == ' ') with
        | [], _ => none
        | name, [] => return [(name, value)]
        | name, ';' :: rest => return (name, value) :: (← parameters? fuel rest)
        | _, _ => none
      | '=' :: rest =>
        let value := rest.takeWhile isToken
        match name, rest.dropWhile isToken with
        | [], _ => none
        | name, [] => some [(name, value)]
        | name, ';' :: rest =>
          if value.isEmpty then none else (parameters? fuel rest).map ((name, value) :: ·)
        | _, _ => none
      | _ => none

/-- Cuts a subtype at its last plus sign, unless that stands in front of everything. -/
def splitSuffix (s : List Char) : List Char × Option (List Char) :=
  if (s.drop 1).contains '+' then
    let suffix := (s.reverse.takeWhile (· != '+')).reverse
    (s.take (s.length - suffix.length - 1), some suffix)
  else (s, none)

end CoreWarden.Http.MediaType

namespace CoreWarden.Http

structure MediaType where
  type : List Char
  subtype : List Char
  suffix : Option (List Char)
  parameters : List MediaType.Parameter

namespace MediaType

def parse? (s : String) : Option MediaType :=
  let s := s.toList
  let type := (s.takeWhile isToken).map Char.toLower
  match s.dropWhile isToken with
  | '/' :: rest =>
    let whole := (rest.takeWhile isToken).map Char.toLower
    let (subtype, suffix) := splitSuffix whole
    if type.isEmpty then none
    else match rest.dropWhile isToken with
      | [] => some ⟨type, subtype, suffix, []⟩
      | ';' :: rest =>
        if whole.isEmpty then none
        else (parameters? (rest.length + 1) rest).map fun ps =>
          ⟨type, subtype, suffix, ps.map fun p => (p.1.map Char.toLower, p.2)⟩
      | _ => none
  | _ => none

/-- An application type that is `json` in front of its suffix or in the suffix. -/
def isJson (m : MediaType) : Bool :=
  let json := "json".toList
  m.type == "application".toList && (m.subtype == json || m.suffix == some json)

def charset? (m : MediaType) : Option (List Char) := m.parameters.lookup "charset".toList

end MediaType

end CoreWarden.Http
