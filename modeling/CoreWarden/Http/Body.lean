import CoreWarden.Json.Meaning

/-!
Request bodies that are records with one field. The text is read from front to back and the first
fault decides: a text that is not well formed up to there, or one that is but does not fit.
-/
namespace CoreWarden.Http

open Json (Tree Piece skipSpace)

inductive BodyFault where
  /-- The text is not well formed. -/
  | malformed
  /-- The text is well formed so far and has no place for what it says. -/
  | unfitting
  deriving DecidableEq

namespace Body

abbrev Read (α : Type) := List Char → Except BodyFault (α × List Char)

def orMalformed : Option α → Except BodyFault α
  | some a => .ok a
  | none => .error .malformed

/-- A value of another type than expected. One that is not well formed shows that first; what stands
inside an array or an object is not looked at. -/
def otherType (s : List Char) : BodyFault :=
  match s with
  | '[' :: _ => .unfitting
  | '{' :: _ => .unfitting
  | s =>
    match Tree.value? 2 s with
    | none => .malformed
    | some (tree, _) => if (tree.meaning? 0).isSome then .unfitting else .malformed

def text : Read String := fun s => do
  let (pieces, rest) ← orMalformed (Piece.read? s)
  let chars ← orMalformed (Piece.text? pieces)
  return (String.ofList chars, rest)

def string : Read String := fun s =>
  match skipSpace s with
  | '"' :: rest => text rest
  | s => .error (otherType s)

def bool : Read Bool := fun s =>
  match skipSpace s with
  | 't' :: rest => do return (true, ← orMalformed (Tree.keyword? ['r', 'u', 'e'] rest))
  | 'f' :: rest => do return (false, ← orMalformed (Tree.keyword? ['a', 'l', 's', 'e'] rest))
  | s => .error (otherType s)

def members (name : String) (value : Read α) (found : Option α) : Nat → Read α
  | 0, _ => .error .malformed
  | fuel + 1, s =>
    match skipSpace s with
    | '"' :: rest => do
      let (key, rest) ← text rest
      if key = name ∧ found.isSome then .error .unfitting
      else
        match skipSpace rest with
        | ':' :: rest => do
          let (found, rest) ←
            if key = name then (value rest).map fun (a, rest) => (some a, rest)
            else (orMalformed (Tree.value? (2 * rest.length + 2) rest)).map fun (_, rest) => (found, rest)
          match skipSpace rest with
          | ',' :: rest => members name value found fuel rest
          | '}' :: rest =>
            match found with
            | some a => return (a, rest)
            | none => .error .unfitting
          | _ => .error .malformed
        | _ => .error .malformed
    | _ => .error .malformed

/-- A record with the one field `name`, as an object or as an array. -/
def record (name : String) (value : Read α) : Read α := fun s =>
  match skipSpace s with
  | '{' :: rest =>
    match skipSpace rest with
    | '}' :: _ => .error .unfitting
    | rest => members name value none (rest.length + 1) rest
  | '[' :: rest =>
    match skipSpace rest with
    | ']' :: _ => .error .unfitting
    | rest => do
      let (a, rest) ← value rest
      match skipSpace rest with
      | ']' :: rest => return (a, rest)
      | _ => .error .malformed
  | s => .error (otherType s)

def read (name : String) (value : Read α) (s : List Char) : Except BodyFault α := do
  let (a, rest) ← record name value s
  if skipSpace rest = [] then return a else .error .malformed

end Body

end CoreWarden.Http
