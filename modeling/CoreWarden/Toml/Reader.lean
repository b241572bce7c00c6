import CoreWarden.Toml.Scalar
import CoreWarden.Toml.Table
import CoreWarden.Toml.Text

/-!
Reading TOML. `read?` turns a text into the tree that the same data has in JSON; a moment in time
becomes a record with a member of its own.
-/
namespace CoreWarden.Toml

open Json (Tree)

/-- How many arrays and tables may be written inside one another, and how many parts a key may have. -/
def maxNesting : Nat := 80

def skipSpace (s : List Char) : List Char := s.dropWhile isSpace

def skipLines? : (inComment : Bool) → List Char → Option (List Char)
  | _, [] => some []
  | _, '\r' :: '\n' :: rest => skipLines? false rest
  | true, c :: rest =>
    if c = '\n' then skipLines? false rest else if isPlain c then skipLines? true rest else none
  | false, c :: rest =>
    if isSpace c || c == '\n' then skipLines? false rest
    else if c = '#' then skipLines? true rest
    else some (c :: rest)

def endLine? (s : List Char) : Option (List Char) :=
  match match skipSpace s with
    | '#' :: rest => rest.dropWhile isPlain
    | rest => rest with
  | [] => some []
  | rest => afterLineEnd? rest

/-! ### Keys -/

def isBare (c : Char) : Bool := c.isAlphanum || c == '_' || c == '-'

def simpleKey? : List Char → Option (String × List Char)
  | '"' :: rest => (Text.basic? rest).map fun (s, rest) => (String.ofList s, rest)
  | '\'' :: rest => (Text.literal? rest).map fun (s, rest) => (String.ofList s, rest)
  | s =>
    match s.takeWhile isBare with
    | [] => none
    | key => some (String.ofList key, s.dropWhile isBare)

def path? : (fuel : Nat) → List Char → Option (List String × List Char)
  | 0, _ => none
  | fuel + 1, s => do
    let (key, s) ← simpleKey? s
    match skipSpace s with
    | '.' :: rest =>
      let (path, rest) ← path? fuel (skipSpace rest)
      return (key :: path, rest)
    | rest => return ([key], rest)

def key? (s : List Char) : Option (List String × List Char) :=
  (path? (s.length + 1) s).filter fun (path, _) => path.length ≤ maxNesting

/-! ### Values -/

mutual

/-- A value at the front of a text, with `room` for that many arrays and tables inside one another.
Each call uses up fuel. -/
def value? : (fuel room : Nat) → List Char → Option (Tree × List Char)
  | 0, _, _ => none
  | fuel + 1, room, s =>
    match s with
    | '"' :: _ => (Text.read? s).map fun (s, rest) => (.string (s.map .char), rest)
    | '\'' :: _ => (Text.read? s).map fun (s, rest) => (.string (s.map .char), rest)
    | '[' :: rest =>
      match room with
      | 0 => none
      | room + 1 => (items? fuel room rest).map fun (items, rest) => (.array items, rest)
    | '{' :: rest =>
      match room with
      | 0 => none
      | room + 1 => (pairs? fuel room [] rest).map fun (members, rest) => (members.tree, rest)
    | s =>
      let (word, rest) := Scalar.split s
      (Scalar.read? word).map fun tree => (tree, rest)

/-- The items of an array and the closing bracket. A comma may stand behind the last item. -/
def items? : (fuel room : Nat) → List Char → Option (List Tree × List Char)
  | 0, _, _ => none
  | fuel + 1, room, s => do
    match ← skipLines? false s with
    | ']' :: rest => return ([], rest)
    | s =>
      let (item, s) ← value? fuel room s
      match ← skipLines? false s with
      | ']' :: rest => return ([item], rest)
      | ',' :: rest =>
        let (items, rest) ← items? fuel room rest
        return (item :: items, rest)
      | _ => none

/-- The members of a table that is written as a value and the closing brace. Line ends and comments may
stand around keys and values, and a comma behind the last member. -/
def pairs? : (fuel room : Nat) → Members → List Char → Option (Members × List Char)
  | 0, _, _, _ => none
  | fuel + 1, room, members, s => do
    match ← skipLines? false s with
    | '}' :: rest => return (members, rest)
    | s =>
      let (path, s) ← key? s
      let '=' :: s ← skipLines? false s | none
      let (tree, s) ← value? fuel room (← skipLines? false s)
      let members ← members.define path (.value tree)
      match ← skipLines? false s with
      | '}' :: rest => return (members, rest)
      | ',' :: rest => pairs? fuel room members rest
      | _ => none

end

/-! ### Lines -/

/-- What has been read so far: all tables, and the way to the one that is open. -/
structure Progress where
  root : Members
  path : List String

namespace Progress

def start : Progress := ⟨[], []⟩

def enter? (p : Progress) (path : List String) (begin : String → Members → Option Members) :
    Option Progress :=
  match path.getLast? with
  | none => none
  | some key => (p.root.modify path.dropLast (begin key)).map fun root => ⟨root, path⟩

def line? (p : Progress) (s : List Char) : Option (Progress × List Char) := do
  match skipSpace s with
  | '[' :: '[' :: rest =>
    let (path, rest) ← key? (skipSpace rest)
    let ']' :: ']' :: rest := rest | none
    return (← p.enter? path Members.openNext, ← endLine? rest)
  | '[' :: rest =>
    let (path, rest) ← key? (skipSpace rest)
    let ']' :: rest := rest | none
    return (← p.enter? path Members.openTable, ← endLine? rest)
  | [] => return (p, [])
  | c :: rest =>
    if c = '#' ∨ (afterLineEnd? (c :: rest)).isSome then return (p, ← endLine? (c :: rest))
    else
      let (path, rest) ← key? (c :: rest)
      let '=' :: rest := rest | none
      let (tree, rest) ← value? (2 * rest.length + 2) maxNesting (skipSpace rest)
      let root ← p.root.modify p.path (Members.define path (.value tree))
      return (⟨root, p.path⟩, ← endLine? rest)

/-- Reads line by line. Every line uses up a character. -/
def lines? : (fuel : Nat) → Progress → List Char → Option Progress
  | _, p, [] => some p
  | 0, _, _ => none
  | fuel + 1, p, s => do
    let (p, rest) ← p.line? s
    lines? fuel p rest

end Progress

/-- A byte order mark in front of a text does not belong to it. -/
def dropMark : List Char → List Char
  | c :: rest => if c = '\uFEFF' then rest else c :: rest
  | [] => []

def read? (s : List Char) : Option Tree :=
  let s := dropMark s
  (Progress.start.lines? (s.length + 1) s).map fun p => p.root.tree

end CoreWarden.Toml
