import CoreWarden.Json.Meaning

/-!
Reading domain types out of JSON trees. A record is an object of named members, in which unknown
members are passed over without asking for their meaning, or an array of its fields in order; a
choice without data is its name, or an object with that name and `null`; a choice with a tag is a
record that has the name under the tag, or an array that begins with it.
-/
namespace CoreWarden.Json

/-- Whether a field may be left out: never, only where it is named, or also at the end of an array. -/
inductive Presence where
  | required
  | nullable
  | defaulted
  deriving DecidableEq

/-- A type that can be read out of a tree. `room` is the number of levels that may still be
entered. -/
class Decode (α : Type) where
  decode? : (room : Nat) → Tree → Option α

export Decode (decode?)

namespace Tree

def text? : Tree → Option String
  | .string pieces => (Piece.text? pieces).map String.ofList
  | _ => none

def keyed? (members : List (List Piece × Tree)) : Option (List (String × Tree)) :=
  members.mapM fun (key, value) => (Piece.text? key).map fun key => (String.ofList key, value)

/-- The member under `name`: none is allowed unless it is required, two are not. -/
def member? (members : List (String × Tree)) (field : String × Presence) : Option (Option Tree) :=
  match members.filter (·.1 == field.1) with
  | [] => if field.2 = .required then none else some none
  | [(_, value)] => some (some value)
  | _ => none

/-- Lays the items of an array along the fields. -/
def positional? : List (String × Presence) → List Tree → Option (List (Option Tree))
  | [], [] => some []
  | [], _ :: _ => none
  | (_, presence) :: fields, [] =>
    if presence = .defaulted then (positional? fields []).map (none :: ·) else none
  | _ :: fields, item :: items => (positional? fields items).map (some item :: ·)

/-- The fields of a record, each with what is written for it. -/
def fields? (spec : List (String × Presence)) : Tree → Option (List (Option Tree))
  | .object members => do
    let members ← keyed? members
    spec.mapM (member? members)
  | .array items => positional? spec items
  | _ => none

/-- Reads a record inside one level of nesting. -/
def record? (spec : List (String × Presence)) (read : Nat → List (Option Tree) → Option α)
    (room : Nat) (tree : Tree) : Option α :=
  match room with
  | 0 => none
  | room + 1 => (fields? spec tree).bind (read room)

def choice? (room : Nat) : Tree → Option String
  | .string pieces => (Piece.text? pieces).map String.ofList
  | .object [(key, .null)] => if room = 0 then none else (Piece.text? key).map String.ofList
  | _ => none

/-- The name under the tag of a choice with data, and the rest of the record. All parts of such a
record must have a meaning, whether they are used or not. -/
def tagged? (tag : String) (room : Nat) (tree : Tree) : Option (String × Tree) := do
  let _ ← meaning? room tree
  match tree with
  | .object members =>
    let found ← keyed? members
    match found.filter (·.1 == tag) with
    | [(_, name)] =>
      let rest := (members.zip found).filterMap fun (m, k) => if k.1 == tag then none else some m
      return (← name.text?, .object rest)
    | _ => none
  | .array (name :: items) => return (← name.text?, .array items)
  | _ => none

/-- The rest of a tagged choice that carries no data: an array must be used up. -/
def endsChoice : Tree → Bool
  | .array [] => true
  | .object _ => true
  | _ => false

end Tree

def field? [Decode α] (room : Nat) : Option Tree → Option α
  | none => none
  | some tree => decode? room tree

/-- A field with a value for its absence. -/
def fieldOr? [Decode α] (room : Nat) (absent : α) : Option Tree → Option α
  | none => some absent
  | some tree => decode? room tree

instance : Decode Value := ⟨Tree.meaning?⟩

instance : Decode String := ⟨fun _ tree => tree.text?⟩

instance : Decode Bool where
  decode? _
    | .bool b => some b
    | _ => none

/-- An integer within bounds; a float is none, even if it is whole. -/
def Tree.integer? (low high : Int) : Tree → Option Int
  | .number n =>
    match n.number? with
    | some (.int i) => if low ≤ i ∧ i ≤ high then some i else none
    | _ => none
  | _ => none

def Tree.natural? (limit : Nat) (tree : Tree) : Option Nat :=
  (tree.integer? 0 (limit - 1)).map Int.toNat

instance : Decode UInt16 := ⟨fun _ tree => (tree.natural? UInt16.size).map UInt16.ofNat⟩
instance : Decode UInt32 := ⟨fun _ tree => (tree.natural? UInt32.size).map UInt32.ofNat⟩
instance : Decode UInt64 := ⟨fun _ tree => (tree.natural? UInt64.size).map UInt64.ofNat⟩
instance : Decode Int32 := ⟨fun _ tree => (tree.integer? (-0x80000000) 0x7FFFFFFF).map Int32.ofInt⟩

instance [Decode α] : Decode (Option α) where
  decode? room
    | .null => some none
    | tree => (decode? room tree).map some

instance [Decode α] : Decode (List α) where
  decode? room
    | .array items =>
      match room with
      | 0 => none
      | room + 1 => items.mapM (decode? room)
    | _ => none

def ofText? [Decode α] (s : List Char) : Option α :=
  (Tree.read? s).bind (decode? maxNesting)

end CoreWarden.Json
