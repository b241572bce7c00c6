import CoreWarden.Decimal.Shortest
import CoreWarden.Toml.Text

/-!
Writing TOML: sections with a header each and a blank line between them. An array of two texts or
more stands on lines of its own.
-/
namespace CoreWarden.Toml

inductive Field where
  | text (value : String)
  | natural (value : Nat)
  | texts (items : List String)
  deriving DecidableEq

/-- A section, named by the bare keys that lead to it. A repeated one is the next table of an
array. -/
structure Section where
  path : List String
  repeated : Bool := false
  fields : List (String × Field)
  deriving DecidableEq

/-- Integers are signed and have 64 bits. -/
def integerLimit : Nat := 0x8000000000000000

namespace Field

def isWritable : Field → Bool
  | natural n => n < integerLimit
  | _ => true

def writeItem (s : String) : List Char := "    ".toList ++ Text.write s.toList ++ [',', '\n']

def write : Field → List Char
  | text s => Text.write s.toList
  | natural n => Decimal.digitChars n
  | texts [] => ['[', ']']
  | texts [s] => '[' :: (Text.write s.toList ++ [']'])
  | texts items => '[' :: '\n' :: (items.flatMap writeItem ++ [']'])

end Field

namespace Section

def header (s : Section) : List Char :=
  let path := (".".intercalate s.path).toList
  if s.repeated then ['[', '['] ++ path ++ [']', ']', '\n'] else '[' :: (path ++ [']', '\n'])

def writeField (field : String × Field) : List Char :=
  field.1.toList ++ [' ', '=', ' '] ++ field.2.write ++ ['\n']

def write (s : Section) : List Char := s.header ++ s.fields.flatMap writeField

def isWritable (s : Section) : Bool := s.fields.all (·.2.isWritable)

end Section

def write? (sections : List Section) : Option (List Char) :=
  if sections.all (·.isWritable) then some (List.intercalate ['\n'] (sections.map Section.write))
  else none

end CoreWarden.Toml
