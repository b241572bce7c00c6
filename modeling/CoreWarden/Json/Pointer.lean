import CoreWarden.Json.Syntax
import CoreWarden.Json.Value

/-!
Pointers into JSON values: every part of a pointer stands behind a slash, and names a member of an
object or the place of an item in an array. A slash and a tilde inside a part are written as a tilde
and a digit.
-/
namespace CoreWarden.Json

namespace Pointer

def parts : List Char → List (List Char)
  | [] => [[]]
  | c :: rest =>
    if c = '/' then [] :: parts rest
    else match parts rest with
      | [] => [[c]]
      | part :: later => (c :: part) :: later

/-- Turns the two escapes back; any other tilde stands for itself. -/
def unescape : List Char → List Char
  | '~' :: '1' :: rest => '/' :: unescape rest
  | '~' :: '0' :: rest => '~' :: unescape rest
  | c :: rest => c :: unescape rest
  | [] => []

/-- The parts of a pointer. The empty pointer has none; any other begins with a slash. -/
def read? : List Char → Option (List String)
  | [] => some []
  | c :: rest => if c = '/' then some ((parts rest).map fun p => String.ofList (unescape p)) else none

/-- A place in an array: digits without a needless zero in front. -/
def index? (part : String) : Option Nat :=
  match part.toList with
  | [] => none
  | '0' :: _ :: _ => none
  | cs => cs.foldlM (fun n c => (digit? c).map (10 * n + ·)) 0

end Pointer

namespace Value

def follow? : List String → Value → Option Value
  | [], v => some v
  | part :: rest, .object members => (lookup part members).bind (follow? rest)
  | part :: rest, .array items => ((Pointer.index? part).bind (items[·]?)).bind (follow? rest)
  | _ :: _, _ => none

def pointer? (pointer : String) (v : Value) : Option Value :=
  (Pointer.read? pointer.toList).bind fun parts => v.follow? parts

def keys? : Value → Option (List String)
  | .object members => some ((members.map (·.1)).mergeSort (· ≤ ·))
  | _ => none

end Value

end CoreWarden.Json
