import CoreWarden.Json.Syntax
import CoreWarden.Rehearsal.Shell.Session

/-!
What words become: marks, which tell what was quoted and what may be split, the fields they are split
into, and the patterns they stand for; and sums.
-/
namespace CoreWarden.Shell

inductive Mark where
  | char (quoted splits : Bool) (c : Char)
  /-- Makes a field even if nothing else is in it. -/
  | keep
  /-- The end of a field. -/
  | border

namespace Mark

def text (ms : List Mark) : Octets := ms.filterMap fun
  | char _ _ c => some c
  | keep => none
  | border => some ' '

def quote (s : Octets) : List Mark := s.map (char true false)

/-- What an expansion yields. -/
def yield (quoted : Bool) (s : Octets) : List Mark := s.map (char quoted !quoted)

/-- Lets everything be split that is not quoted. -/
def loosen (ms : List Mark) : List Mark := ms.map fun
  | char quoted _ c => .char quoted (!quoted) c
  | m => m

/-- Of the characters that divide fields blanks count only between fields. -/
def fields (separators : Octets) : (field : Option (List Mark)) → List Mark → List (List Mark)
  | field, [] => field.toList
  | field, border :: rest => field.toList ++ fields separators none rest
  | field, keep :: rest => fields separators (some (field.getD [])) rest
  | field, char quoted splits c :: rest =>
    if splits && separators.contains c then
      (if c.isWhitespace then field.toList else [field.getD []]) ++ fields separators none rest
    else fields separators (some (field.getD [] ++ [char quoted splits c])) rest

/-- Whether a character is in a set, written as members and ranges. -/
def among (c : Char) : Octets → Bool
  | first :: '-' :: last :: rest => first ≤ c && c ≤ last || among c rest
  | member :: rest => member == c || among c rest
  | [] => false

def fits : (fuel : Nat) → List Mark → Octets → Bool
  | 0, _, _ => false
  | _, [], s => s.isEmpty
  | fuel + 1, char false _ '*' :: rest, s =>
    fits fuel rest s || !s.isEmpty && fits fuel (char false false '*' :: rest) (s.drop 1)
  | fuel + 1, char quoted _ c :: rest, s =>
    match s with
    | [] => false
    | d :: s =>
      let set := text (rest.takeWhile fun
        | char false _ ']' => false
        | _ => true)
      if quoted then c == d && fits fuel rest s
      else if c = '?' then fits fuel rest s
      else if c = '[' && set.length < rest.length then
        (if set.head? = some '!' then !among d (set.drop 1) else among d set) &&
          fits fuel (rest.drop (set.length + 1)) s
      else c == d && fits fuel rest s
  | fuel + 1, _ :: rest, s => fits fuel rest s

/-- Cuts off what the pattern stands for, at the front or at the back. -/
def cut (front longest : Bool) (pattern : List Mark) (s : Octets) : Octets :=
  let ends := List.range (s.length + 1)
  let found := (if front == longest then ends.reverse else ends).find? fun n =>
    fits (pattern.length + s.length + 1) pattern (if front then s.take n else s.drop n)
  match found with
  | some n => if front then s.drop n else s.take n
  | none => s

end Mark

/-! ### Sums -/

abbrev Sum := StateT (List (Octets × Octets)) (Except String)

namespace Sum

/-- The value of digits in base ten, or in base eight or sixteen by their beginning. -/
def natural (s : Octets) : Nat :=
  let (base, digits) := match s with
    | '0' :: 'x' :: digits => (16, digits)
    | '0' :: digits => (8, digits)
    | digits => (10, digits)
  digits.foldl (fun n c => base * n + (Json.hexDigit? c).getD 0) 0

def integer : Octets → Int
  | '-' :: digits => -natural digits
  | digits => natural digits

def truth (b : Bool) : Int := if b then 1 else 0

def bitwise (f : Nat → Nat → Nat) (a b : Int) : Int :=
  (Int64.ofNat (f (Int64.ofInt a).toUInt64.toNat (Int64.ofInt b).toUInt64.toNat)).toInt

/-- The operators by rank; one that begins like another stands behind it. -/
def operations : List (String × Nat × (Int → Int → Int)) :=
  [("||", 1, fun a b => truth (a != 0 || b != 0)), ("&&", 2, fun a b => truth (a != 0 && b != 0)),
    ("==", 6, fun a b => truth (a == b)), ("!=", 6, fun a b => truth (a != b)),
    ("<=", 7, fun a b => truth (a ≤ b)), (">=", 7, fun a b => truth (a ≥ b)),
    ("<<", 8, fun a b => a * Nat.pow 2 b.toNat), (">>", 8, fun a b => a / Nat.pow 2 b.toNat),
    ("|", 3, bitwise Nat.lor), ("^", 4, bitwise Nat.xor), ("&", 5, bitwise Nat.land),
    ("<", 7, fun a b => truth (a < b)), (">", 7, fun a b => truth (a > b)),
    ("+", 9, (· + ·)), ("-", 9, (· - ·)), ("*", 10, (· * ·)), ("/", 10, Int.tdiv), ("%", 10, Int.tmod)]

def apply (name : String) (a b : Int) : Sum Int := do
  if b = 0 && (name = "/" || name = "%") then throw "division by zero"
  return ((operations.lookup name).map fun (_, f) => f a b).getD b

def skip (s : Octets) : Octets := s.dropWhile Char.isWhitespace

mutual

/-- A sum of operators of a rank or a higher one, and what follows. -/
def sum : (fuel : Nat) → (rank : Nat) → Octets → Sum (Int × Octets)
  | 0, _, s => return (0, s)
  | fuel + 1, rank, s => do
    let (a, rest) ← operand fuel (skip s)
    climb fuel rank a (skip rest)

def operand : (fuel : Nat) → Octets → Sum (Int × Octets)
  | 0, s => return (0, s)
  | fuel + 1, s => do
    let signed (f : Int → Int) (rest : Octets) : Sum (Int × Octets) := do
      let (a, rest) ← operand fuel (skip rest)
      return (f a, rest)
    match s with
    | '(' :: rest =>
      let (a, rest) ← sum fuel 0 rest
      return (a, rest.drop 1)
    | '-' :: rest => signed (-·) rest
    | '+' :: rest => signed id rest
    | '!' :: rest => signed (fun a => truth (a == 0)) rest
    | '~' :: rest => signed (fun a => -a - 1) rest
    | _ =>
      let name := s.takeWhile isNameChar
      let rest := skip (s.drop name.length)
      if name.isEmpty then throw "expecting primary"
      if !isName name then return (natural name, rest)
      let value := integer (((← get).lookup name).getD [])
      match Octets.front? ["==", "+=", "-=", "*=", "/=", "%=", "="] rest with
      | none | some ("==", _) => return (value, rest)
      | some (operator, rest) =>
        let (b, rest) ← sum fuel 0 rest
        let b ← apply (String.ofList (operator.toList.take (operator.length - 1))) value b
        modify fun settings => (name, (toString b).toList) :: settings.filter (·.1 != name)
        return (b, rest)

def climb : (fuel : Nat) → (rank : Nat) → Int → Octets → Sum (Int × Octets)
  | 0, _, a, s => return (a, s)
  | fuel + 1, rank, a, s => do
    match Octets.front? (operations.map (·.1)) s with
    | some (name, rest) =>
      if ((operations.lookup name).map (·.1)).getD 0 < rank then return (a, s)
      let (b, rest) ← sum fuel (((operations.lookup name).map (·.1)).getD 0 + 1) rest
      climb fuel rank (← apply name a b) rest
    | none =>
      if rank != 0 || s.head? != some '?' then return (a, s)
      let (b, rest) ← sum fuel 0 (s.drop 1)
      let (c, rest) ← sum fuel 0 (rest.drop 1)
      return (if a != 0 then b else c, rest)

end

end Sum

/-- The value of a sum, after the variables that it sets are set. -/
def Action.sum (expression : Octets) : Action Int := do
  let s ← get
  match (Sum.sum (8 * expression.length + 8) 0 expression).run s.settings with
  | .ok ((n, []), settings) =>
    set { s with settings }
    return (Int64.ofInt n).toInt
  | .ok _ => refuse "expecting EOF"
  | .error message => refuse message
where
  refuse (message : String) : Action Int :=
    fail ("arithmetic expression: ".toList ++ message.toList ++ ": \"".toList ++ expression ++ ['"'])

end CoreWarden.Shell
