import CoreWarden.Json.Syntax
import CoreWarden.Json.Value

/-!
Tables under construction. A table can be named by its own header, come into being on the way to a
deeper header, be made by the dots of a key, or be written out as a value; how it came about decides
what may still be added to it. Nothing is ever defined twice.
-/
namespace CoreWarden.Toml

open Json (Piece Tree)
open Json.Value (lookup put)

inductive Origin where
  | header
  | passed
  | dotted
  deriving DecidableEq

inductive Item where
  /-- A value that is complete. -/
  | value (tree : Tree)
  | table (origin : Origin) (members : List (String × Item))
  /-- An array whose last table is still open. -/
  | tables (closed : List Tree) (last : List (String × Item))

abbrev Members := List (String × Item)

mutual

def Item.tree : Item → Tree
  | .value tree => tree
  | .table _ members => .object (memberTrees members)
  | .tables closed last => .array (closed ++ [.object (memberTrees last)])

def memberTrees : List (String × Item) → List (List Piece × Tree)
  | [] => []
  | (key, item) :: members => (key.toList.map .char, item.tree) :: memberTrees members

end

namespace Members

def tree (members : Members) : Tree := .object (memberTrees members)

/-- Defines a key with dots, seen from the table it stands in. Only tables made by dots can be
reached through dots; on the way to one, tables that were merely passed and the last table of an
array may be crossed. -/
def define : (path : List String) → Item → Members → Option Members
  | [], _, _ => none
  | [key], item, members =>
    match lookup key members with
    | none => some (put key item members)
    | some _ => none
  | key :: next :: path, item, members =>
    match lookup key members with
    | none => do return put key (.table .dotted (← define (next :: path) item [])) members
    | some (.table .dotted inner) => do
      return put key (.table .dotted (← define (next :: path) item inner)) members
    | some (.table .passed inner) =>
      if path.isEmpty then none
      else do return put key (.table .passed (← define (next :: path) item inner)) members
    | some (.tables closed last) =>
      if path.isEmpty then none
      else do return put key (.tables closed (← define (next :: path) item last)) members
    | some _ => none

def modify : (path : List String) → (Members → Option Members) → Members → Option Members
  | [], f, members => f members
  | key :: path, f, members =>
    match lookup key members with
    | none => do return put key (.table .passed (← modify path f [])) members
    | some (.table origin inner) => do return put key (.table origin (← modify path f inner)) members
    | some (.tables closed last) => do return put key (.tables closed (← modify path f last)) members
    | some (.value _) => none

/-- A header names a table that is new, or was only passed before. -/
def openTable (key : String) (members : Members) : Option Members :=
  match lookup key members with
  | none => some (put key (.table .header []) members)
  | some (.table .passed inner) => some (put key (.table .header inner) members)
  | some _ => none

/-- A header in double brackets begins the next table of an array. -/
def openNext (key : String) (members : Members) : Option Members :=
  match lookup key members with
  | none => some (put key (.tables [] []) members)
  | some (.tables closed last) => some (put key (.tables (closed ++ [tree last]) []) members)
  | some _ => none

end Members

end CoreWarden.Toml
