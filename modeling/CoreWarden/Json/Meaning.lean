import CoreWarden.Json.Syntax
import CoreWarden.Json.Value

/-!
The meaning of JSON syntax: the number a numeral stands for, the text of a string, the value of a
tree. A tree has a value when its numbers are in range, its strings are texts and it nests no deeper
than the room it is given. `Value.ofText?` reads a whole text.
-/
namespace CoreWarden.Json

/-- How many arrays and objects may stand inside one another. -/
def maxNesting : Nat := 127

namespace Numeral

/-- A significand of 64 bits, and the power of ten it has to be multiplied by. -/
structure Parts where
  significand : Nat
  exponent : Int
  deriving DecidableEq

def limit : Nat := 0x10000000000000000

/-- Takes digits in front of the point while they fit; each of the rest counts as a factor ten. -/
def takeWhole : Nat → List Nat → Parts
  | n, [] => ⟨n, 0⟩
  | n, d :: ds => if n * 10 + d < limit then takeWhole (n * 10 + d) ds else ⟨n, (d :: ds).length⟩

/-- Takes digits after the point while they fit; the rest is dropped. -/
def takeFraction : Parts → List Nat → Parts
  | p, [] => p
  | p, d :: ds =>
    if p.significand * 10 + d < limit then takeFraction ⟨p.significand * 10 + d, p.exponent - 1⟩ ds
    else p

def exponentLimit : Nat := 0x80000000

def exponentValue? : Nat → List Nat → Option Nat
  | n, [] => some n
  | n, d :: ds => if n * 10 + d < exponentLimit then exponentValue? (n * 10 + d) ds else none

def tenTo (n : Nat) : Float := Float.ofScientific 1 false n

/-- Divides by a power of ten, at most `10 ^ 308` at a time. -/
def divide : Nat → Float → Nat → Float
  | 0, f, _ => f
  | fuel + 1, f, n =>
    if n ≤ 308 then f / tenTo n
    else if f == 0 then f
    else divide fuel (f / tenTo 308) (n - 308)

/-- The float for a significand and an exponent: the nearest float to the significand, scaled by one
operation. It has no value when that overflows. -/
def scale? (p : Parts) : Option Float :=
  let f := (UInt64.ofNat p.significand).toFloat
  if p.exponent < 0 then some (divide 4 f (-p.exponent).toNat)
  else if p.exponent ≤ 308 then
    let scaled := f * tenTo p.exponent.toNat
    if scaled.isInf then none else some scaled
  else if f == 0 then some f
  else none

def signed (negative : Bool) (f : Float) : Number := .float (if negative then -f else f).toBits

/-- The number of a numeral. Without point and exponent it is an integer if that fits into 64 bits;
minus zero is a float. -/
def number? (n : Numeral) : Option Number :=
  let whole := takeWhole 0 n.whole
  match n.fraction, n.exponent with
  | none, none =>
    if whole.exponent = 0 then
      if n.negative then
        if whole.significand = 0 ∨ 0x8000000000000000 < whole.significand then
          some (signed true (UInt64.ofNat whole.significand).toFloat)
        else some (.int (-whole.significand))
      else some (.int whole.significand)
    else (scale? whole).map (signed n.negative)
  | fraction, exponent =>
    let parts := takeFraction whole (fraction.getD [])
    match exponent with
    | none => (scale? parts).map (signed n.negative)
    | some (negative, ds) =>
      match exponentValue? 0 ds with
      | some e =>
        let e : Int := if negative then parts.exponent - e else parts.exponent + e
        (scale? ⟨parts.significand, e⟩).map (signed n.negative)
      | none =>
        if parts.significand ≠ 0 ∧ ¬negative then none else some (signed n.negative 0)

end Numeral

namespace Tree

mutual

/-- The value of a tree, if it has one within `room` levels of nesting. Of members with equal keys
the last counts. -/
def meaning? (room : Nat) : Tree → Option Value
  | .null => some .null
  | .bool b => some (.bool b)
  | .number n => n.number?.map .number
  | .string pieces => (Piece.text? pieces).map fun s => .string (String.ofList s)
  | .array items =>
    match room with
    | 0 => none
    | room + 1 => (itemMeanings? room items).map .array
  | .object members =>
    match room with
    | 0 => none
    | room + 1 => (memberMeanings? room [] members).map .object

def itemMeanings? (room : Nat) : List Tree → Option (List Value)
  | [] => some []
  | item :: items => do
    let item ← meaning? room item
    let items ← itemMeanings? room items
    return item :: items

def memberMeanings? (room : Nat) (found : List (String × Value)) :
    List (List Piece × Tree) → Option (List (String × Value))
  | [] => some found
  | (key, value) :: members => do
    let key ← Piece.text? key
    let value ← meaning? room value
    memberMeanings? room (Value.put (String.ofList key) value found) members

end

end Tree

/-- The value of a text that holds one JSON value and nothing else. -/
def Value.ofText? (s : String) : Option Value :=
  (Tree.read? s.toList).bind (Tree.meaning? maxNesting)

end CoreWarden.Json
