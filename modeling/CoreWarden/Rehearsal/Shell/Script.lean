import CoreWarden.Process
import CoreWarden.Text.Utf8

/-!
Scripts as commands, for the shell that stands in for the one of the system when the process manager is
rehearsed: the supervisor itself takes whatever runs its commands as a parameter.

A text is bytes, each as the character of its number; a word is kept as it is written, with its quotes,
until the command is run.
-/
namespace CoreWarden.Shell

abbrev Octets := List Char

namespace Octets

def ofString (s : String) : Octets := (Text.Utf8.encode s).map fun b => Char.ofNat b.toNat

def bytes (s : Octets) : Bytes := s.map fun c => UInt8.ofNat c.toNat

def text (s : Octets) : String := String.ofList s

/-- Which of some names a text begins with, and what follows. -/
def front? (names : List String) (s : Octets) : Option (String × Octets) :=
  (names.find? (·.toList.isPrefixOf s)).map fun name => (name, s.drop name.length)

end Octets

structure Redirection where
  stream : Nat
  operator : String
  target : Octets

inductive Command where
  | nothing
  | simple (line : Nat) (words : List Octets)
  | redirected (redirections : List Redirection) (c : Command)
  | pipeline (parts : List Command)
  | negation (c : Command)
  | both (first second : Command)
  | either (first second : Command)
  | sequence (first second : Command)
  | background (c : Command)
  | subshell (c : Command)
  | choice (condition yes no : Command)
  | loop (goal : Bool) (condition body : Command)
  | each (name : Octets) (words : List Octets) (body : Command)
  | selection (word : Octets) (branches : List (List Octets × Command))
  | definition (name : Octets) (body : Command)

def isBlank (c : Char) : Bool := c == ' ' || c == '\t'

def isNameChar (c : Char) : Bool := c.isAlphanum || c == '_'

def isName (s : Octets) : Bool := s.all isNameChar && s.head?.any (!·.isDigit)

/-! ### Tokens -/

/-- What is wrong if nothing closes a part of a word. -/
def unclosed (close : Char) : String :=
  match close with
  | ')' => "end of file unexpected (expecting \")\")"
  | '}' => "Missing '\x7d'"
  | '\x60' => "EOF in backquote substitution"
  | _ => "Unterminated quoted string"

/-- The raw text up to an open character that ends it, and the rest; `inside` is for text between double
quotes. -/
def scan : (fuel : Nat) → (inside : Bool) → (ends : Char → Bool) → Octets → Except String (Octets × Octets)
  | _, _, _, [] => .ok ([], [])
  | 0, _, _, s => .ok ([], s)
  | fuel + 1, inside, ends, '\\' :: c :: rest => do
    let (text, rest) ← scan fuel inside ends rest
    return (if c = '\n' then text else '\\' :: c :: text, rest)
  | fuel + 1, inside, ends, c :: rest => do
    let closed (opening : Nat) (inside : Bool) (close : Char) : Except String (Octets × Octets) := do
      let (body, after) ← if close = '\'' then .ok (rest.span (· != close))
        else scan fuel inside (· == close) (rest.drop opening)
      if after.isEmpty then throw (unclosed close)
      return (c :: rest.take opening ++ body ++ [close], after.drop 1)
    if ends c then return ([], c :: rest)
    let (part, rest) ← match c, rest with
      | '\x60', _ => closed 0 true c
      | '$', '{' :: _ => closed 1 inside '}'
      | '$', '(' :: _ => closed 1 false ')'
      | '(', _ => if ends ')' then closed 0 false ')' else .ok ([c], rest)
      | _, _ => if !inside && (c = '"' || c = '\'') then closed 0 true c else .ok ([c], rest)
    let (text, rest) ← scan fuel inside ends rest
    return (part ++ text, rest)

/-- The lines of a document up to its mark, and what follows. -/
def document (tabs : Bool) (mark : Octets) : (fuel : Nat) → Octets → Octets × Octets
  | 0, s | _, s@([]) => ([], s)
  | fuel + 1, s =>
    let line := s.takeWhile (· != '\n')
    let after := s.drop (line.length + 1)
    let line := if tabs then line.dropWhile (· == '\t') else line
    if line == mark then ([], after)
    else
      let (text, rest) := document tabs mark fuel after
      (line ++ '\n' :: text, rest)

/-- A piece of a script with its line. -/
abbrev Token := Nat × Octets

def operators : List String := ["&&", "||", ";;", "\n", ";", "&", "|", "(", ")"]

def redirectionOperators : List String := [">>", ">&", ">|", "<<-", "<<", "<&", "<", ">"]

def endsWord (c : Char) : Bool := " \t\n;&|<>()".toList.contains c

def fault (line : Nat) (message : String) : String := toString line ++ ": Syntax error: " ++ message

/-- The tokens of a script. The text of a document stands behind the operator that announces it. -/
def tokens : (fuel : Nat) → (line : Nat) → Octets → Except String (List Token)
  | 0, _, _ | _, _, [] => .ok []
  | fuel + 1, line, s@(c :: rest) => do
    let word (s : Octets) := (scan s.length false endsWord s).mapError (fault line)
    let digits := s.takeWhile Char.isDigit
    if isBlank c then tokens fuel line rest
    else if c = '\\' && rest.head? = some '\n' then tokens fuel (line + 1) (rest.drop 1)
    else if c = '#' then tokens fuel line (rest.dropWhile (· != '\n'))
    else match Octets.front? operators s, Octets.front? redirectionOperators (s.drop digits.length) with
      | some (name, rest), _ =>
        return (line, name.toList) :: (← tokens fuel (if c = '\n' then line + 1 else line) rest)
      | none, some (name, rest) =>
        if "<<".isPrefixOf name then
          let (raw, rest) ← word (rest.dropWhile isBlank)
          let mark := raw.filter fun c => c != '"' && c != '\'' && c != '\\'
          let (text, after) := document (name == "<<-") mark rest.length (rest.dropWhile (· != '\n') |>.drop 1)
          let announced := digits ++ (if mark == raw then "<<" else "<<'").toList
          return (line, announced) :: (line, text) ::
            (← tokens fuel line (rest.takeWhile (· != '\n') ++ '\n' :: after))
        else return (line, digits ++ name.toList) :: (← tokens fuel line rest)
      | none, none =>
        let (text, rest) ← word s
        return (line, text) :: (← tokens fuel (line + text.count '\n') rest)

/-! ### Grammar -/

abbrev Reader := StateT (List Token) (Except String)

namespace Reader

def next : Reader String := return (((← get).head?.map fun token => token.2.text).getD "")

def take : Reader Octets := modifyGet fun tokens => ((tokens.head?.map (·.2)).getD [], tokens.tail)

/-- Takes a token if it comes next. -/
def accept (name : String) : Reader Bool := do
  if (← next) == name then
    let _ ← take
    return true
  else return false

def line : Reader Nat := return (((← get).head?.map (·.1)).getD 1)

def closers : List String := ["", "then", "else", "elif", "fi", "do", "done", "esac", "\x7d", ")", ";;"]

def isOperator (token : String) : Bool := token.isEmpty || ";&|()\n".contains token.front

def isRedirection (token : String) : Bool := "<>".contains (token.dropWhile Char.isDigit).front

def refuse (expected : String := "") : Reader α := do
  let token ← next
  let name := if token == "" then "end of file" else if token == "\n" then "newline"
    else if isRedirection token then "redirection"
    else if isOperator token || closers.contains token then "\"" ++ token ++ "\"" else "word"
  throw (fault (← line) (name ++ " unexpected" ++
    if expected.isEmpty then "" else " (expecting \"" ++ expected ++ "\")"))

def expect (name : String) : Reader Unit := do
  if !(← accept name) then refuse name

def skipLines : (fuel : Nat) → Reader Unit
  | 0 => pure ()
  | fuel + 1 => do
    if ← accept "\n" then skipLines fuel

def words : (fuel : Nat) → Reader (List Octets)
  | 0 => return []
  | fuel + 1 => do
    let token ← next
    if isOperator token || isRedirection token then return []
    let w ← take
    return w :: (← words fuel)

def redirections : (fuel : Nat) → Reader (List Redirection)
  | 0 => return []
  | fuel + 1 => do
    if !isRedirection (← next) then return []
    let name ← take
    let digits := name.takeWhile Char.isDigit
    let operator := Octets.text (name.drop digits.length)
    if isOperator (← next) && !("<<".isPrefixOf operator) then refuse
    let target ← take
    let stream := (Octets.text digits).toNat?.getD (if operator.front == '<' then 0 else 1)
    return ⟨stream, operator, target⟩ :: (← redirections fuel)

def Command.redirect (rs : List Redirection) (c : Command) : Command :=
  if rs.isEmpty then c else .redirected rs c

/-- The words of a simple command, between which redirections may stand. -/
def simple : (fuel : Nat) → Reader (List Octets × List Redirection)
  | 0 => return ([], [])
  | fuel + 1 => do
    let ws ← words fuel
    let rs ← redirections fuel
    if rs.isEmpty then return (ws, [])
    let (ws', rs') ← simple fuel
    return (ws ++ ws', rs ++ rs')

mutual

def list : (fuel : Nat) → Reader Command
  | 0 => refuse
  | fuel + 1 => do
    skipLines fuel
    if closers.contains (← next) then return .nothing
    let c ← chain fuel (← pipeline fuel)
    if ← accept "&" then return .sequence (.background c) (← list fuel)
    else if (← accept ";") || (← accept "\n") then return .sequence c (← list fuel)
    else return c

def chain : (fuel : Nat) → Command → Reader Command
  | 0, _ => refuse
  | fuel + 1, c => do
    let link? := [("&&", Command.both), ("||", Command.either)].lookup (← next)
    match link? with
    | none => return c
    | some link =>
      let _ ← take
      skipLines fuel
      chain fuel (link c (← pipeline fuel))

def pipeline : (fuel : Nat) → Reader Command
  | 0 => refuse
  | fuel + 1 => do
    if ← accept "!" then return .negation (← pipeline fuel)
    match ← parts fuel with
    | [c] => return c
    | cs => return .pipeline cs

def parts : (fuel : Nat) → Reader (List Command)
  | 0 => refuse
  | fuel + 1 => do
    let c ← command fuel
    if ← accept "|" then
      skipLines fuel
      return c :: (← parts fuel)
    else return [c]

def command : (fuel : Nat) → Reader Command
  | 0 => refuse
  | fuel + 1 => do
    let line ← line
    let name ← next
    if closers.contains name then refuse
    if !(["(", "\x7b", "if", "while", "until", "for", "case"].contains name) then
      if isOperator name then refuse
      let (ws, rs) ← simple fuel
      if ws.length = 1 && rs.isEmpty && (← accept "(") then
        expect ")"
        skipLines fuel
        return .definition (ws.headD []) (← command fuel)
      else return Command.redirect rs (.simple line ws)
    let _ ← take
    let c ← match name with
      | "(" =>
        let c ← list fuel
        expect ")"
        pure (.subshell c)
      | "\x7b" =>
        let c ← list fuel
        expect "\x7d"
        pure c
      | "if" => choice fuel
      | "for" =>
        let x ← take
        if !isName x then throw (fault line "Bad for loop variable")
        skipLines fuel
        let ws ← if ← accept "in" then words fuel else pure ["\"$@\"".toList]
        let _ ← accept ";"
        pure (.each x ws (← body fuel))
      | "case" =>
        let w ← take
        skipLines fuel
        expect "in"
        pure (.selection w (← branches fuel))
      | _ =>
        let condition ← list fuel
        pure (.loop (name == "while") condition (← body fuel))
    return Command.redirect (← redirections fuel) c

def body : (fuel : Nat) → Reader Command
  | 0 => refuse
  | fuel + 1 => do
    skipLines fuel
    expect "do"
    let c ← list fuel
    expect "done"
    return c

def choice : (fuel : Nat) → Reader Command
  | 0 => refuse
  | fuel + 1 => do
    let condition ← list fuel
    expect "then"
    let yes ← list fuel
    if ← accept "elif" then return .choice condition yes (← choice fuel)
    let no ← if ← accept "else" then list fuel else pure .nothing
    expect "fi"
    return .choice condition yes no

def branches : (fuel : Nat) → Reader (List (List Octets × Command))
  | 0 => refuse
  | fuel + 1 => do
    skipLines fuel
    if ← accept "esac" then return []
    let _ ← accept "("
    let ps ← patterns fuel
    let c ← list fuel
    if ← accept ";;" then return (ps, c) :: (← branches fuel)
    else
      expect "esac"
      return [(ps, c)]

def patterns : (fuel : Nat) → Reader (List Octets)
  | 0 => refuse
  | fuel + 1 => do
    let p ← take
    if ← accept "|" then return p :: (← patterns fuel)
    else
      expect ")"
      return [p]

end

end Reader

def Command.ofScript (script : Octets) : Except String Command := do
  let found ← tokens (2 * script.length + 1) 1 script
  let (c, rest) ← (Reader.list (8 * found.length + 8)).run found
  if rest.isEmpty then return c else Prod.fst <$> (Reader.refuse : Reader Command).run rest

end CoreWarden.Shell
