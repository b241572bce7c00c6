import CoreWarden.Rehearsal.Shell.Word

/-!
Formatted output, as the shell and the program of the same name write it. The format is used again as long
as arguments are left and it takes some.
-/
namespace CoreWarden.Shell

inductive Dialect where
  | builtin
  | program
  deriving DecidableEq

namespace Printf

def octal (digits : Nat) (s : Octets) : Octets × Octets :=
  let found := (s.take digits).takeWhile fun c => '0' ≤ c && c ≤ '7'
  ([Char.ofNat (Sum.natural ('0' :: found) % 256)], s.drop found.length)

def letters : List (Char × Char) :=
  [('a', '\x07'), ('b', '\x08'), ('f', '\x0c'), ('n', '\n'), ('r', '\r'), ('t', '\t'), ('v', '\x0b'), ('\\', '\\')]

/-- What a backslash and what follows it stand for, if not for an end of the output; `late` says that an
octal number begins with an extra zero. -/
def escape? (d : Dialect) (late : Bool) (s : Octets) : Option (Octets × Octets) :=
  match s with
  | [] => some (['\\'], [])
  | c :: rest =>
    match letters.lookup c with
    | some x => some ([x], rest)
    | none =>
      if c = 'c' && (late || d = .program) then none
      else if c = '0' && late then some (octal 3 rest)
      else if '0' ≤ c && c ≤ '7' then some (octal 3 s)
      else if d = .program && c = 'x' then
        let digits := (rest.take 2).takeWhile fun c => (Json.hexDigit? c).isSome
        some ([Char.ofNat (Sum.natural ('0' :: 'x' :: digits))], rest.drop digits.length)
      else if d = .program && c = '"' then some (['"'], rest)
      else some (['\\', c], rest)

/-- A text with its escapes carried out; whether it ends the output. -/
def unescape (d : Dialect) : (fuel : Nat) → Octets → Octets × Bool
  | 0, _ | _, [] => ([], false)
  | fuel + 1, '\\' :: rest =>
    match escape? d true rest with
    | none => ([], true)
    | some (text, rest) =>
      let (more, stopped) := unescape d fuel rest
      (text ++ more, stopped)
  | fuel + 1, c :: rest =>
    let (more, stopped) := unescape d fuel rest
    (c :: more, stopped)

/-! ### Numbers with a point -/

/-- The nearest whole number to a quotient, the even one of two. -/
def rounded (n d : Nat) : Nat :=
  let rest := 2 * (n % d)
  if d < rest || rest = d && n / d % 2 = 1 then n / d + 1 else n / d

def digits (least n : Nat) : Octets :=
  let ds := Nat.toDigits 10 n
  List.replicate (least - ds.length) '0' ++ ds

def pointed (places n : Nat) : Octets :=
  let ds := digits (places + 1) n
  ds.take (ds.length - places) ++ if places = 0 then [] else '.' :: ds.drop (ds.length - places)

/-- The value of an unsigned decimal number as a quotient. -/
def quotient (s : Octets) : Nat × Nat :=
  let whole := s.takeWhile Char.isDigit
  let rest := s.drop whole.length
  let places := if rest.head? = some '.' then (rest.drop 1).takeWhile Char.isDigit else []
  let mark := rest.dropWhile fun c => c == '.' || c.isDigit
  let e := ((Octets.text (mark.filter fun c => c == '-' || c.isDigit)).toInt?.getD 0) - places.length
  let n := (Octets.text (whole ++ places)).toNat?.getD 0
  if e < 0 then (n, Nat.pow 10 e.natAbs) else (n * Nat.pow 10 e.natAbs, 1)

/-- A quotient times a power of ten, rounded. -/
def scaled (n d : Nat) (e : Int) : Nat :=
  if e < 0 then rounded n (d * Nat.pow 10 e.natAbs) else rounded (n * Nat.pow 10 e.natAbs) d

/-- The exponent with which so many places stand behind the first digit. -/
def exponent (places n d : Nat) : Int :=
  let guess : Int := (Nat.toDigits 10 n).length - (Nat.toDigits 10 d).length
  if n = 0 then 0
  else if Nat.pow 10 (places + 1) ≤ scaled n d (places - guess) then guess + 1
  else if scaled n d (places - guess) < Nat.pow 10 places &&
      scaled n d (places + 1 - guess) < Nat.pow 10 (places + 1)
  then guess - 1
  else guess

def scientific (places n d : Nat) : Octets :=
  let e := exponent places n d
  pointed places (scaled n d (places - e)) ++ 'e' :: (if e < 0 then '-' else '+') :: digits 2 e.natAbs

def dropZeros (s : Octets) : Octets :=
  let body := s.takeWhile (· != 'e')
  (if body.contains '.' then ((body.reverse.dropWhile (· == '0')).dropWhile (· == '.')).reverse else body) ++
    s.drop body.length

def floating (letter : Char) (precision : Nat) (s : Octets) : Octets :=
  let (n, d) := quotient s
  match letter with
  | 'f' => pointed precision (scaled n d precision)
  | 'e' => scientific precision n d
  | _ =>
    let shown := max 1 precision
    let e := exponent (shown - 1) n d
    dropZeros (if e < -4 || shown ≤ e then scientific (shown - 1) n d
      else pointed (shown - 1 - e).toNat (scaled n d (shown - 1 - e)))

/-! ### Conversions -/

structure State where
  arguments : List Octets
  output : Octets := []
  complaints : List Octets := []
  stopped : Bool := false

structure Spec where
  flags : Octets := []
  width : Nat := 0
  precision : Option Nat := none

def Spec.pad (s : Spec) (zeros : Bool) (sign text : Octets) : Octets :=
  let missing := s.width - (sign ++ text).length
  if s.flags.contains '-' then sign ++ text ++ List.replicate missing ' '
  else if zeros && s.flags.contains '0' then sign ++ List.replicate missing '0' ++ text
  else List.replicate missing ' ' ++ sign ++ text

def Spec.sign (s : Spec) (negative : Bool) : Octets :=
  if negative then ['-'] else if s.flags.contains '+' then ['+'] else if s.flags.contains ' ' then [' '] else []

/-- A number of digits of some base, behind its sign or the mark of its base. -/
def Spec.whole (s : Spec) (letter : Char) (n : Int) : Octets :=
  let base := if letter = 'o' then 8 else if letter.toLower = 'x' then 16 else 10
  let signed := letter = 'd' || letter = 'i'
  let ds := Nat.toDigits base (if signed then n.natAbs else (n % Nat.pow 2 64).toNat)
  let mark := if s.flags.contains '#' && n != 0 then [(8, ['0']), (16, ['0', 'x'])].lookup base else none
  let text := s.pad s.precision.isNone (if signed then s.sign (n < 0) else mark.getD [])
    (List.replicate (s.precision.getD 0 - ds.length) '0' ++ ds)
  if letter = 'X' then text.map Char.toUpper else text

def State.take (st : State) : Octets × State :=
  (st.arguments.headD [], { st with arguments := st.arguments.drop 1 })

def State.write (st : State) (text : Octets) : State := { st with output := st.output ++ text }

def State.refuse (st : State) (message : Octets) : State :=
  { st with complaints := st.complaints ++ [message], stopped := true }

/-- The sign and the digits at the beginning of an argument, with a complaint if this is not all of it. A
quote in front of a character stands for its number. -/
def number (d : Dialect) (isDigit : Char → Bool) (a : Octets) : (Bool × Octets) × List Octets :=
  match a with
  | '\'' :: rest | '"' :: rest => ((false, (toString (rest.headD '\x00').toNat).toList), [])
  | _ =>
    let body := if a.head? = some '-' || a.head? = some '+' then a.drop 1 else a
    let found := if "0x".toList.isPrefixOf body then
        '0' :: 'x' :: (body.drop 2).takeWhile fun c => (Json.hexDigit? c).isSome
      else body.takeWhile isDigit
    let shown := if d = .program then '\'' :: a ++ ['\''] else a
    let complaint := if found.isEmpty then
        if d = .program then ": expected a numeric value" else ": expected numeric value"
      else if d = .program then ": value not completely converted" else ": not completely converted"
    let whole := a.isEmpty || found.length = body.length && found != []
    ((a.head? = some '-', found), if whole then [] else [shown ++ complaint.toList])

def amount (st : State) (s : Octets) : Octets × State × Octets :=
  match s with
  | '*' :: rest =>
    let (a, st) := st.take
    (a, st, rest)
  | s => (s.takeWhile Char.isDigit, st, s.dropWhile Char.isDigit)

def convert (d : Dialect) (st : State) (s : Octets) : State × Octets :=
  let flags := s.takeWhile ['-', '+', ' ', '0', '#'].contains
  let (width, st, rest) := amount st (s.drop flags.length)
  let (precision, st, rest) := match rest with
    | '.' :: rest =>
      let (p, st, rest) := amount st rest
      (some (Sum.integer p).toNat, st, rest)
    | rest => (none, st, rest)
  let flags := if width.head? = some '-' then '-' :: flags else flags
  let spec : Spec := ⟨flags, ((Octets.text width).toInt?.getD 0).natAbs, precision⟩
  let (a, next) := st.take
  let cut (text : Octets) : Octets := spec.pad false [] (text.take (precision.getD text.length))
  match rest with
  | 's' :: rest => (next.write (cut a), rest)
  | 'c' :: rest => (next.write (spec.pad false [] [a.headD '\x00']), rest)
  | 'b' :: rest =>
    let (text, stopped) := unescape d (a.length + 1) a
    ({ next.write (cut text) with stopped }, rest)
  | c :: rest =>
    if ['d', 'i', 'o', 'u', 'x', 'X'].contains c then
      let ((negative, ds), complaints) := number d Char.isDigit a
      let n : Int := Sum.natural ds
      ({ next.write (spec.whole c (if negative then -n else n)) with
        complaints := next.complaints ++ complaints }, rest)
    else if ['e', 'f', 'g'].contains c.toLower then
      let ((negative, ds), complaints) :=
        number d (fun c => c.isDigit || ['.', 'e', 'E', '-', '+'].contains c) a
      let text := spec.pad true (spec.sign negative) (floating c.toLower (precision.getD 6) ds)
      ({ next.write (if c.isUpper then text.map Char.toUpper else text) with
        complaints := next.complaints ++ complaints }, rest)
    else (st.refuse ('%' :: s.take (s.length - rest.length) ++
      (if d = .program then ": invalid conversion specification" else ": invalid directive").toList), rest)
  | [] => (st.refuse (if d = .program then '%' :: s ++ ": invalid conversion specification".toList
      else "missing format character".toList), [])

def pass (d : Dialect) : (fuel : Nat) → State → Octets → State
  | 0, st, _ | _, st, [] => st
  | fuel + 1, st, '\\' :: rest =>
    match escape? d false rest with
    | some (text, rest) => pass d fuel (st.write text) rest
    | none => { st with stopped := true }
  | fuel + 1, st, '%' :: '%' :: rest => pass d fuel (st.write ['%']) rest
  | fuel + 1, st, '%' :: rest =>
    let (st, rest) := convert d st rest
    if st.stopped then st else pass d fuel st rest
  | fuel + 1, st, c :: rest => pass d fuel (st.write [c]) rest

/-- Runs as long as arguments are taken. -/
def run (d : Dialect) (format : Octets) : (fuel : Nat) → State → State
  | 0, st => st
  | fuel + 1, st =>
    let after := pass d (format.length + 1) st format
    if after.stopped || after.arguments.isEmpty || after.arguments.length = st.arguments.length then after
    else run d format fuel after

end Printf

end CoreWarden.Shell
