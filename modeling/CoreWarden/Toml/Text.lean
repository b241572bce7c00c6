import CoreWarden.Json.Syntax

/-!
Strings of TOML: basic ones with escapes and literal ones without, each on one line or on several.
A string is written in the plainest style that can hold it.
-/
namespace CoreWarden.Toml

open Json (hexDigit?)

def isSpace (c : Char) : Bool := c == ' ' || c == '\t'

/-- A character that may stand in a comment or a string as it is. -/
def isPlain (c : Char) : Bool := c == '\t' || 0x20 ≤ c.toNat && c.toNat != 0x7F

def afterLineEnd? : List Char → Option (List Char)
  | '\n' :: rest => some rest
  | '\r' :: '\n' :: rest => some rest
  | _ => none

namespace Text

/-! ### Reading -/

/-- The character that a one-letter escape stands for. -/
def escaped? : Char → Option Char
  | 'b' => some '\x08'
  | 't' => some '\t'
  | 'n' => some '\n'
  | 'e' => some '\x1b'
  | 'f' => some '\x0c'
  | 'r' => some '\r'
  | '"' => some '"'
  | '\\' => some '\\'
  | _ => none

def ofCode? (digits : List Char) : Option Char := do
  let code ← digits.foldlM (fun n c => (hexDigit? c).map (16 * n + ·)) 0
  if code < 0xD800 ∨ 0xE000 ≤ code ∧ code < 0x110000 then return Char.ofNat code else none

def push (c : Char) (found : List Char × List Char) : List Char × List Char := (c :: found.1, found.2)

def basic? : List Char → Option (List Char × List Char)
  | [] => none
  | '"' :: rest => some ([], rest)
  | '\\' :: 'x' :: a :: b :: rest => do
    let code ← ofCode? [a, b]
    return push code (← basic? rest)
  | '\\' :: 'u' :: a :: b :: c :: d :: rest => do
    let code ← ofCode? [a, b, c, d]
    return push code (← basic? rest)
  | '\\' :: 'U' :: a :: b :: c :: d :: e :: f :: g :: h :: rest => do
    let code ← ofCode? [a, b, c, d, e, f, g, h]
    return push code (← basic? rest)
  | '\\' :: c :: rest => do
    let c ← escaped? c
    return push c (← basic? rest)
  | c :: rest => if isPlain c && c != '\\' then (basic? rest).map (push c) else none

/-- Up to two quotes in front of the closing ones belong to the string. -/
def closing (quote : Char) : List Char → List Char × List Char
  | a :: b :: rest =>
    if a = quote then if b = quote then ([a, b], rest) else ([a], b :: rest) else ([], a :: b :: rest)
  | [a] => if a = quote then ([a], []) else ([], [a])
  | [] => ([], [])

def endsLine (s : List Char) : Bool := (afterLineEnd? (s.dropWhile isSpace)).isSome

/-- A basic string on several lines, whose line ends are kept as they are. A backslash at the end of a
line takes away the blanks and line ends that follow it: these are being skipped. -/
def basicLines? : (skipping : Bool) → List Char → Option (List Char × List Char)
  | _, [] => none
  | _, '"' :: '"' :: '"' :: rest => some (closing '"' rest)
  | _, '\\' :: 'x' :: a :: b :: rest => do
    let code ← ofCode? [a, b]
    return push code (← basicLines? false rest)
  | _, '\\' :: 'u' :: a :: b :: c :: d :: rest => do
    let code ← ofCode? [a, b, c, d]
    return push code (← basicLines? false rest)
  | _, '\\' :: 'U' :: a :: b :: c :: d :: e :: f :: g :: h :: rest => do
    let code ← ofCode? [a, b, c, d, e, f, g, h]
    return push code (← basicLines? false rest)
  | _, '\\' :: c :: rest =>
    if endsLine (c :: rest) then basicLines? true rest
    else do
      let c ← escaped? c
      return push c (← basicLines? false rest)
  | skipping, '\r' :: '\n' :: rest =>
    if skipping then basicLines? true rest
    else (basicLines? false rest).map (push '\r' ∘ push '\n')
  | skipping, c :: rest =>
    if skipping && (isSpace c || c == '\n') then basicLines? true rest
    else if (isPlain c || c == '\n') && c != '\\' then (basicLines? false rest).map (push c)
    else none

def literal? : List Char → Option (List Char × List Char)
  | [] => none
  | c :: rest =>
    if c = '\'' then some ([], rest)
    else if isPlain c then (literal? rest).map (push c)
    else none

def literalLines? : List Char → Option (List Char × List Char)
  | [] => none
  | '\'' :: '\'' :: '\'' :: rest => some (closing '\'' rest)
  | '\r' :: '\n' :: rest => (literalLines? rest).map (push '\r' ∘ push '\n')
  | c :: rest => if isPlain c || c == '\n' then (literalLines? rest).map (push c) else none

/-- A line end right behind the opening quotes does not count. -/
def dropLineEnd (s : List Char) : List Char := (afterLineEnd? s).getD s

/-- A string of any style, from its opening quote on. -/
def read? : List Char → Option (List Char × List Char)
  | '"' :: '"' :: '"' :: rest => basicLines? false (dropLineEnd rest)
  | '"' :: rest => basic? rest
  | '\'' :: '\'' :: '\'' :: rest => literalLines? (dropLineEnd rest)
  | '\'' :: rest => literal? rest
  | _ => none

/-! ### Writing -/

inductive Style where
  | basic
  | literal
  | basicLines
  | literalLines
  deriving DecidableEq

/-- A control character that no style but an escape can hold. -/
def isControl (c : Char) : Bool := !isPlain c && c != '\n'

/-- The greatest number of times that `c` stands in a row. -/
def longestRun (c : Char) (run : Nat) : List Char → Nat
  | [] => run
  | d :: rest => if d = c then longestRun c (run + 1) rest else max run (longestRun c 0 rest)

/-- The first style, in the order of the cases, that needs no escapes; else escapes are used. -/
def style (s : List Char) : Style :=
  let lines := s.contains '\n'
  let slash := s.contains '\\'
  let escaping := if lines then Style.basicLines else .basic
  if s.any isControl then escaping
  else if !slash && !lines && !s.contains '"' then .basic
  else if !lines && !s.contains '\'' then .literal
  else if !slash && longestRun '"' 0 s ≤ 2 then .basicLines
  else if longestRun '\'' 0 s ≤ 2 then .literalLines
  else escaping

def hexChar (n : Nat) : Char := if n < 10 then Char.ofNat (n + 48) else Char.ofNat (n + 55)

/-- A character of a basic string, escaped where it has to be. -/
def writeChar (c : Char) : List Char :=
  if c = '"' then ['\\', '"']
  else if c = '\\' then ['\\', '\\']
  else if c = '\x08' then ['\\', 'b']
  else if c = '\t' then ['\\', 't']
  else if c = '\n' then ['\\', 'n']
  else if c = '\x0c' then ['\\', 'f']
  else if c = '\r' then ['\\', 'r']
  else if isPlain c then [c]
  else ['\\', 'u', '0', '0', hexChar (c.toNat / 16 % 16), hexChar (c.toNat % 16)]

/-- The content of a basic string on several lines: the third quote in a row is escaped. -/
def writeLines (run : Nat) : List Char → List Char
  | [] => []
  | c :: rest =>
    if c = '"' then
      if run = 2 then '\\' :: '"' :: writeLines 0 rest else '"' :: writeLines (run + 1) rest
    else if c = '\n' then '\n' :: writeLines 0 rest
    else writeChar c ++ writeLines 0 rest

/-- What stands between the opening quotes and the first character: a line end, if the string has
one. -/
def opening (s : List Char) : List Char := if s.contains '\n' then ['\n'] else []

def write (s : List Char) : List Char :=
  match style s with
  | .basic => '"' :: (s.flatMap writeChar ++ ['"'])
  | .literal => '\'' :: (s ++ ['\''])
  | .basicLines => ['"', '"', '"'] ++ opening s ++ writeLines 0 s ++ ['"', '"', '"']
  | .literalLines => ['\'', '\'', '\''] ++ opening s ++ s ++ ['\'', '\'', '\'']

end Text

end CoreWarden.Toml
