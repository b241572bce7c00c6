import CoreWarden.Json.Syntax
import CoreWarden.Time.Date

/-!
The values of TOML that are written as a word: truth values, integers in four bases, floats and
moments in time.
-/
namespace CoreWarden.Toml

open Json (Numeral Tree digit? hexDigit?)

namespace Scalar

def isWordChar (c : Char) : Bool :=
  c.isAlphanum || c == '_' || c == '+' || c == '-' || c == '.' || c == ':'

/-- Digits, between any two of which an underscore may stand. -/
def grouped? (value? : Char → Option Nat) : List Char → Option (List Nat)
  | [] => none
  | [c] => (value? c).map ([·])
  | c :: '_' :: rest => do return (← value? c) :: (← grouped? value? rest)
  | c :: rest => do return (← value? c) :: (← grouped? value? rest)

def sign : List Char → Bool × List Char
  | '-' :: rest => (true, rest)
  | '+' :: rest => (false, rest)
  | s => (false, s)

def whole? (s : List Char) : Option (List Nat) :=
  match grouped? digit? s with
  | some (0 :: _ :: _) => none
  | found => found

def ofDigits (base : Nat) (digits : List Nat) : Nat := digits.foldl (base * · + ·) 0

/-- The least and the greatest integer that can be written: signed or unsigned, of 128 bits. -/
def inRange (n : Int) : Bool := -0x80000000000000000000000000000000 ≤ n && n < 0x100000000000000000000000000000000

def integerTree (n : Int) : Tree :=
  .number ⟨n < 0, (Nat.toDigits 10 n.natAbs).filterMap digit?, none, none⟩

def based? (base : Nat) (s : List Char) : Option Int := do
  let digits ← grouped? (fun c => (hexDigit? c).filter (· < base)) s
  return ofDigits base digits

/-- An integer with a sign in base ten, or one without in the base that its second letter names. -/
def number? : List Char → Option Int
  | '0' :: 'x' :: rest => based? 16 rest
  | '0' :: 'o' :: rest => based? 8 rest
  | '0' :: 'b' :: rest => based? 2 rest
  | s => do
    let (negative, s) := sign s
    let n : Int := ofDigits 10 (← whole? s)
    return if negative then -n else n

def integer? (s : List Char) : Option Tree :=
  ((number? s).filter inRange).map integerTree

def decimal? (s : List Char) : Option (List Nat × Option (List Nat) × Option (Bool × List Nat)) := do
  let isMark (c : Char) : Bool := c == 'e' || c == 'E'
  let (mantissa, power) := (s.takeWhile (!isMark ·), s.dropWhile (!isMark ·))
  let (front, back) := (mantissa.takeWhile (· != '.'), mantissa.dropWhile (· != '.'))
  let front ← whole? front
  let back ← match back with
    | [] => some none
    | _ :: back => (grouped? digit? back).map some
  let power ← match power with
    | [] => some none
    | _ :: power =>
      let (negative, power) := sign power
      (grouped? digit? power).map fun ds => some (negative, ds)
  if back.isNone && power.isNone then none else return (front, back, power)

/-- Whether a decimal lies beyond all finite doubles: from halfway between the greatest one and the
next power of two on. -/
def overflows (digits : List Nat) (exponent : Int) : Bool :=
  let digits := digits.dropWhile (· == 0)
  let bound := Nat.pow 2 1024 - Nat.pow 2 970
  if digits.isEmpty then false
  else if (digits.length : Int) + exponent < 300 then false
  else if 400 < (digits.length : Int) + exponent then true
  else
    let n := ofDigits 10 digits
    if 0 ≤ exponent then bound ≤ n * Nat.pow 10 exponent.toNat
    else bound * Nat.pow 10 (-exponent).toNat ≤ n

/-- A numeral beyond all numbers: it stands for a float without a decimal and fits nowhere. -/
def beyond : Tree := .number ⟨false, [1], none, some (false, [9, 9, 9])⟩

def float? (s : List Char) : Option Tree := do
  let (negative, s) := sign s
  if s = ['i', 'n', 'f'] ∨ s = ['n', 'a', 'n'] then return beyond
  else
    let (front, back, power) ← decimal? s
    let exponent : Int := match power with
      | none => 0
      | some (true, ds) => -(ofDigits 10 ds : Int)
      | some (false, ds) => ofDigits 10 ds
    if overflows (front ++ back.getD []) (exponent - (back.getD []).length) then none
    else return .number ⟨negative, front, some (back.getD [0]), power⟩

/-! ### Moments -/

def pair? : List Char → Option (Nat × List Char)
  | a :: b :: rest => do return (10 * (← digit? a) + (← digit? b), rest)
  | _ => none

def expect? (c : Char) : List Char → Option (List Char)
  | d :: rest => if d = c then some rest else none
  | [] => none

def date? (s : List Char) : Option (List Char) := do
  let (century, s) ← pair? s
  let (year, s) ← pair? s
  let s ← expect? '-' s
  let (month, s) ← pair? s
  let s ← expect? '-' s
  let (day, s) ← pair? s
  let _ ← Time.Date.of? (100 * century + year) month day
  return s

/-- The seconds of a time of day and their fraction; the sixtieth second is a leap second. -/
def seconds? (s : List Char) : Option (List Char) := do
  let (second, s) ← pair? s
  if 60 < second then none
  else match s with
    | '.' :: rest =>
      let after := rest.dropWhile (digit? · |>.isSome)
      if after.length < rest.length then return after else none
    | s => return s

def time? (s : List Char) : Option (List Char) := do
  let (hour, s) ← pair? s
  let s ← expect? ':' s
  let (minute, s) ← pair? s
  if 23 < hour ∨ 59 < minute then none
  else match s with
    | ':' :: rest => seconds? rest
    | s => return s

/-- An offset from universal time, or none at all, up to the end of the word. -/
def endsWithOffset : List Char → Bool
  | [] => true
  | [c] => c == 'Z' || c == 'z'
  | c :: rest =>
    (c == '+' || c == '-') &&
      match (do
        let (hour, s) ← pair? rest
        let s ← expect? ':' s
        let (minute, s) ← pair? s
        return (hour, minute, s) : Option (Nat × Nat × List Char)) with
      | some (hour, minute, s) => hour ≤ 23 && minute ≤ 59 && s.isEmpty
      | none => false

def isMoment (s : List Char) : Bool :=
  match date? s with
  | some [] => true
  | some (c :: rest) =>
    (c == 'T' || c == 't' || c == ' ') &&
      match time? rest with
      | some rest => endsWithOffset rest
      | none => false
  | none => time? s == some []

/-- A moment is a record of its own kind: none of its members is known to another record. -/
def momentTree (s : List Char) : Tree := .object [(['$'].map .char, .string (s.map .char))]

def read? (word : List Char) : Option Tree :=
  if word = ['t', 'r', 'u', 'e'] then some (.bool true)
  else if word = ['f', 'a', 'l', 's', 'e'] then some (.bool false)
  else if isMoment word then some (momentTree word)
  else integer? word <|> float? word

/-- Takes a word off the front of a text. A date may be followed by a time after a single blank. -/
def split (s : List Char) : List Char × List Char :=
  let (word, rest) := (s.takeWhile isWordChar, s.dropWhile isWordChar)
  match rest with
  | ' ' :: c :: _ =>
    if date? word = some [] ∧ (digit? c).isSome then
      (word ++ ' ' :: (rest.drop 1).takeWhile isWordChar, (rest.drop 1).dropWhile isWordChar)
    else (word, rest)
  | _ => (word, rest)

end Scalar

end CoreWarden.Toml
