import CoreWarden.Rehearsal.Shell.Printf

/-! The programs that do nothing but read and write. -/
namespace CoreWarden.Shell

structure Result where
  status : Nat := 0
  output : Octets := []
  complaints : List Octets := []

abbrev Tool := (arguments : List Octets) → (input : Octets) → Result

/-! ### Conditions -/

namespace Condition

def folders : List String :=
  ["/", "/bin", "/dev", "/etc", "/home", "/root", "/tmp", "/usr", "/usr/bin", "/var", "."]

def isFolder (path : Octets) : Bool := folders.contains (Octets.text path)

def isDevice (path : Octets) : Bool := ["/dev/null", "/dev/zero", "/dev/tty"].contains (Octets.text path)

def isProgram (path : Octets) : Bool := ["/bin/sh", "/usr/bin/env", "/bin/true"].contains (Octets.text path)

def isPlain (path : Octets) : Bool := isProgram path || Octets.text path == "/etc/passwd"

def unary? (operator : String) (s : Octets) : Option Bool :=
  match operator with
  | "-n" => some !s.isEmpty
  | "-z" => some s.isEmpty
  | "-d" => some (isFolder s)
  | "-c" => some (isDevice s)
  | "-f" => some (isPlain s)
  | "-x" => some (isFolder s || isProgram s)
  | "-s" => some (isFolder s || isPlain s)
  | "-e" | "-r" | "-w" => some (isFolder s || isDevice s || isPlain s)
  | "-b" | "-h" | "-L" | "-p" | "-S" | "-t" => some false
  | _ => none

def number (d : Dialect) (s : Octets) : Except Octets Int :=
  match (Octets.text (if s.head? = some '+' then s.drop 1 else s)).trimAscii.toString.toInt? with
  | some n => .ok n
  | none => .error (if d = .program then "invalid integer '".toList ++ s ++ ['\'']
      else "Illegal number: ".toList ++ s)

def binary? (d : Dialect) (a : Octets) (operator : String) (b : Octets) : Option (Except Octets Bool) :=
  let compared (f : Int → Int → Bool) : Option (Except Octets Bool) := some do
    return f (← number d a) (← number d b)
  match operator with
  | "=" => some (.ok (a == b))
  | "!=" => some (.ok (a != b))
  | "-eq" => compared (· == ·)
  | "-ne" => compared (· != ·)
  | "-lt" => compared (· < ·)
  | "-le" => compared (· ≤ ·)
  | "-gt" => compared (· > ·)
  | "-ge" => compared (· ≥ ·)
  | _ => none

/-- The words before and behind an operator that joins conditions. -/
def divide? (operator : String) (ws : List Octets) : Option (List Octets × List Octets) :=
  let front := (ws.drop 1).takeWhile (· != operator.toList)
  if front.length + 2 < ws.length && !front.isEmpty || front.isEmpty && ws.length = 3 && ws[1]? = some operator.toList
  then some (ws.take (front.length + 1), ws.drop (front.length + 2)) else none

def answer (d : Dialect) : (fuel : Nat) → List Octets → Except Octets Bool
  | 0, _ | _, [] => .ok false
  | _, [a] => .ok !a.isEmpty
  | fuel + 1, ws => do
    match ws with
    | [o, a] => if let some found := unary? (Octets.text o) a then return found
    | [a, o, b] => if let some found := binary? d a (Octets.text o) b then return ← found
    | _ => pure ()
    match divide? "-o" ws, divide? "-a" ws, ws with
    | some (front, back), _, _ => return (← answer d fuel front) || (← answer d fuel back)
    | _, some (front, back), _ => return (← answer d fuel front) && (← answer d fuel back)
    | _, _, ['!'] :: rest => return !(← answer d fuel rest)
    | _, _, ['('] :: rest =>
      if rest.getLast? = some [')'] then answer d fuel rest.dropLast else throw "closing paren expected".toList
    | _, _, _ => throw (ws.headD [] ++ ": unexpected operator".toList)

end Condition

namespace Tool

def test (d : Dialect) : Tool := fun ws _ =>
  match Condition.answer d (2 * ws.length + 2) ws with
  | .ok found => { status := if found then 0 else 1 }
  | .error message => { status := 2, complaints := [message] }

def bracket (d : Dialect) : Tool := fun ws input =>
  if ws.getLast? = some [']'] then test d ws.dropLast input
  else { status := 2, complaints := [(if d = .program then "missing ']'" else "missing ]").toList] }

/-! ### Output -/

def echo (d : Dialect) : Tool := fun ws _ =>
  let isFlag (w : Octets) : Bool := match d, w with
    | .builtin, w => w == ['-', 'n']
    | .program, '-' :: c :: letters => (c :: letters).all ['n', 'e', 'E'].contains
    | _, _ => false
  let flags : List Octets := match d with
    | .builtin => (ws.take 1).filter isFlag
    | .program => ws.takeWhile isFlag
  let text := [' '].intercalate (ws.drop flags.length)
  let (text, stopped) :=
    if d = .builtin || flags.any (fun w => w.contains 'e') then Printf.unescape d (text.length + 1) text
    else (text, false)
  { output := text ++ if stopped || flags.any (fun w => w.contains 'n') then [] else ['\n'] }

def printf (d : Dialect) : Tool := fun ws _ =>
  match ws.dropWhile (· == ['-', '-']) with
  | [] =>
    let (status, reason) := if d = .program then (1, "missing operand")
      else (2, "usage: printf format [arg ...]")
    { status, complaints := [reason.toList] }
  | format :: arguments =>
    let st := Printf.run d format (arguments.length + 1) { arguments }
    { status := if st.complaints.isEmpty then 0 else if st.stopped && d = .builtin then 2 else 1
      output := st.output
      complaints := st.complaints }

def cat : Tool := fun ws input =>
  let read (r : Result) (w : Octets) : Result :=
    if w == ['-'] then { r with output := r.output ++ input }
    else if Condition.isDevice w then r
    else
      let reason := if Condition.isFolder w then ": Is a directory" else ": No such file or directory"
      { r with status := 1, complaints := r.complaints ++ [w ++ reason.toList] }
  (if ws.isEmpty then [['-']] else ws).foldl read {}

def lines (s : Octets) : List Octets :=
  (s.foldr (fun c found =>
    match found with
    | [] => [[c]]
    | line :: rest => if c = '\n' then [c] :: line :: rest else (c :: line) :: rest) []).filter (!·.isEmpty)

/-- What lines or bytes are kept by a program that shows one end of a text. -/
def excerpt (keep : {α : Type} → Nat → List α → List α) : Tool := fun ws input =>
  let n := (Octets.text (ws.flatten.filter Char.isDigit)).toNat?.getD 10
  let input := if ws.contains "/dev/zero".toList then List.replicate n '\x00' else input
  { output := if ws.flatten.contains 'c' then keep n input else (keep n (lines input)).flatten }

def members : (fuel : Nat) → Octets → Octets
  | 0, _ | _, [] => []
  | fuel + 1, '\\' :: rest =>
    match Printf.escape? .builtin false rest with
    | some (c, rest) => c.getLast?.toList ++ members fuel rest
    | none => members fuel rest
  | fuel + 1, '[' :: ':' :: rest =>
    let name := Octets.text (rest.takeWhile Char.isAlpha)
    let kind := [("lower", Char.isLower), ("upper", Char.isUpper), ("digit", Char.isDigit),
      ("alpha", Char.isAlpha), ("alnum", Char.isAlphanum), ("space", Char.isWhitespace)].lookup name
    ((List.range 256).map Char.ofNat).filter (kind.getD fun _ => false) ++ members fuel (rest.drop (name.length + 2))
  | fuel + 1, a :: '-' :: b :: rest =>
    (List.range (b.toNat + 1 - a.toNat)).map (fun n => Char.ofNat (a.toNat + n)) ++ members fuel rest
  | fuel + 1, c :: rest => c :: members fuel rest

def squeeze (set : Octets) : Octets → Octets
  | a :: b :: rest => if a = b && set.contains a then squeeze set (b :: rest) else a :: squeeze set (b :: rest)
  | s => s

def translate : Tool := fun ws input =>
  let flags := (ws.takeWhile (·.head? == some '-')).flatten
  let sets := (ws.dropWhile (·.head? == some '-')).map fun w => members (w.length + 1) w
  let first := sets.getD 0 []
  let first := if flags.contains 'c' then ((List.range 256).map Char.ofNat).filter (!first.contains ·) else first
  let second := sets.getD 1 []
  let text := if flags.contains 'd' then input.filter (!first.contains ·)
    else if second.isEmpty then input
    else input.map fun c => ((first.idxOf? c).map fun n => second.getD n (second.getLastD c)).getD c
  { output := if flags.contains 's' then squeeze (if second.isEmpty then first else second) text else text }

def sequence : Tool := fun ws _ =>
  let n (w : Octets) : Int := Sum.integer w
  let (first, step, last) := match ws.map n with
    | [last] => (1, 1, last)
    | [first, last] => (first, 1, last)
    | [first, step, last] => (first, step, last)
    | _ => (1, 1, 0)
  let count := if step = 0 then 0 else ((last - first) / step + 1).toNat
  { output := (List.range count).flatMap fun k : Nat => (toString (first + k * step)).toList ++ ['\n'] }

def builtin? : String → Option Tool
  | ":" | "true" => some fun _ _ => {}
  | "false" => some fun _ _ => { status := 1 }
  | "echo" => some (echo .builtin)
  | "printf" => some (printf .builtin)
  | "test" => some (test .builtin)
  | "[" => some (bracket .builtin)
  | _ => none

/-- How many lines are written by a program that never stops by itself. -/
def enough : Nat := 5000

def program? : String → Option Tool
  | "true" | "sleep" => some fun _ _ => {}
  | "false" => some fun _ _ => { status := 1 }
  | "echo" => some (echo .program)
  | "printf" => some (printf .program)
  | "test" => some (test .program)
  | "[" => some (bracket .program)
  | "cat" => some cat
  | "tr" => some translate
  | "head" => some (excerpt List.take)
  | "tail" => some (excerpt fun n s => s.drop (s.length - n))
  | "seq" => some sequence
  | "yes" => some fun ws _ =>
    { output := (List.replicate enough ((if ws.isEmpty then ['y'] else [' '].intercalate ws) ++ ['\n'])).flatten }
  | "wc" => some fun ws input =>
    let n := if ws.head? = some ['-', 'l'] then input.count '\n' else input.length
    { output := (toString n).toList ++ ['\n'] }
  | _ => none

end Tool

end CoreWarden.Shell
