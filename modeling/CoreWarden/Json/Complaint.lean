import CoreWarden.Json.Syntax

/-!
What is said when a text or a value does not fit: words, and the place where the reader of a text
stood, which is shown behind the words as `at line 3 column 7`. A complaint that is made up of a text
takes the place off its end.
-/
namespace CoreWarden.Json

/-- Line zero stands for no place at all. -/
structure Complaint where
  words : String
  line : Nat
  column : Nat
  deriving DecidableEq

namespace Complaint

/-- Takes a number of 64 bits off the end of a text that is given backwards. -/
def number? (s : List Char) : Option (Nat × List Char) :=
  match digits s with
  | ([], _) => none
  | (ds, rest) =>
    let n := ds.foldr (fun d n => 10 * n + d) 0
    if n < UInt64.size then some (n, rest) else none

/-- The place at the end of a text, and the words in front of it, all backwards. -/
def place? (s : List Char) : Option (Nat × Nat × List Char) := do
  let (column, s) ← number? s
  let s ← Tree.keyword? " column ".toList.reverse s
  let (line, s) ← number? s
  let s ← Tree.keyword? " at line ".toList.reverse s
  return (line, column, s)

def ofText (s : String) : Complaint :=
  match place? s.toList.reverse with
  | some (line, column, words) => ⟨String.ofList words.reverse, line, column⟩
  | none => ⟨s, 0, 0⟩

def text (c : Complaint) : String :=
  if c.line = 0 then c.words
  else c.words ++ " at line " ++ toString c.line ++ " column " ++ toString c.column

theorem text_of_line_eq_zero {c : Complaint} (h : c.line = 0) : c.text = c.words := if_pos h

end Complaint

end CoreWarden.Json
