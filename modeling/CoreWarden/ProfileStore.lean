import CoreWarden.Profile

/-!
Stores of profiles, and the handles they are used by. A clone of a handle is another handle of the same
store: whatever is done by one of them is seen by all of them.
-/
namespace CoreWarden

/-- The stores that there are, and which of them stands behind each handle. -/
structure ProfileStores where
  lists : List ProfileList
  handles : List Nat
  deriving DecidableEq

namespace ProfileStores

def empty : ProfileStores := ⟨[], []⟩

inductive Operation where
  /-- A new store, with its first handle. -/
  | build (list : ProfileList)
  | clone (handle : Nat)
  | setCurrent (handle : Nat) (id : String)
  deriving DecidableEq

def list? (s : ProfileStores) (handle : Nat) : Option ProfileList :=
  s.handles[handle]?.bind (s.lists[·]?)

def answer? (s : ProfileStores) : Operation → Option (Except Error Unit)
  | .setCurrent handle id => (s.list? handle).map fun l => (l.setCurrent id).map fun _ => ()
  | _ => none

def apply (s : ProfileStores) : Operation → ProfileStores
  | .build list => ⟨s.lists ++ [list], s.handles ++ [s.lists.length]⟩
  | .clone handle => { s with handles := s.handles ++ s.handles[handle]?.toList }
  | .setCurrent handle id =>
    match s.handles[handle]? with
    | some store => { s with lists := s.lists.modify store fun l => (l.setCurrent id).toOption.getD l }
    | none => s

def run (s : ProfileStores) (ops : List Operation) : ProfileStores := ops.foldl apply s

end ProfileStores

end CoreWarden
