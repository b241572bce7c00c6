import CoreWarden.Json.Record
import CoreWarden.Text.Blank
import CoreWarden.Time.Date

/-!
Instants in universal time, to the nanosecond. They are read in a relaxed form of RFC 3339 with any
offset from universal time, and written in universal time with as many digits after the second as
are needed: none, three, six or nine. A leap second is the sixtieth second of a minute: it is kept
as the fifty-ninth with a billion or more nanoseconds.
-/
namespace CoreWarden.Time

def secondsPerDay : Nat := 86400

def nanosPerSecond : Nat := 1000000000

structure Timestamp where
  date : Date
  second : Nat
  nano : Nat
  second_lt : second < secondsPerDay
  nano_lt : nano < 2 * nanosPerSecond
  deriving DecidableEq

namespace Timestamp

def of? (date : Date) (second nano : Nat) : Option Timestamp :=
  if h : second < secondsPerDay ∧ nano < 2 * nanosPerSecond then some ⟨date, second, nano, h.1, h.2⟩
  else none

/-- Moves a local time to universal time, given the offset in seconds (less than a day). -/
def atOffset? (date : Date) (second nano : Nat) (offset : Int) : Option Timestamp :=
  let moved : Int := second - offset
  if moved < 0 then do of? (← date.previous?) (moved + secondsPerDay).toNat nano
  else if moved < secondsPerDay then of? date moved.toNat nano
  else do of? (← date.next?) (moved - secondsPerDay).toNat nano

/-! ### Reading -/

open CoreWarden.Json (digit?)

def number? (most : Nat) (s : List Char) : Option (Nat × List Char) :=
  let ds := (s.take most).takeWhile (digit? · |>.isSome)
  if ds.isEmpty then none
  else some (ds.foldl (fun n c => 10 * n + (digit? c).getD 0) 0, s.drop ds.length)

def literal? (c : Char) : List Char → Option (List Char)
  | d :: rest => if d = c then some rest else none
  | [] => none

/-- A year has at most four digits unless it has a sign. -/
def year? (s : List Char) : Option (Int × List Char) :=
  match s with
  | '-' :: rest => (number? rest.length rest).map fun (n, rest) => (-(n : Int), rest)
  | '+' :: rest => (number? rest.length rest).map fun (n, rest) => ((n : Int), rest)
  | s => (number? 4 s).map fun (n, rest) => ((n : Int), rest)

/-- Nanoseconds from the digits after the point; those beyond the ninth are dropped. -/
def fraction? : List Char → Option (Nat × List Char)
  | '.' :: rest =>
    let ds := rest.takeWhile (digit? · |>.isSome)
    if ds.isEmpty then none
    else
      let kept := (ds.take 9).foldl (fun n c => 10 * n + (digit? c).getD 0) 0
      some (kept * Nat.pow 10 (9 - min 9 ds.length), rest.drop ds.length)
  | s => some (0, s)

def isSeparator (c : Char) : Bool := c == ':' || Text.isBlank c

def pair? (most : Nat) : List Char → Option (Nat × List Char)
  | a :: b :: rest => do
    let a ← digit? a
    let b ← digit? b
    if a ≤ most then return (10 * a + b, rest) else none
  | _ => none

/-- The offset from universal time in seconds: `Z`, `UTC`, or a sign with hours and minutes. -/
def offset? : List Char → Option (Int × List Char)
  | 'Z' :: rest => some (0, rest)
  | 'z' :: rest => some (0, rest)
  | s =>
    if (s.take 3).map Char.toUpper = ['U', 'T', 'C'] then some (0, s.drop 3)
    else match s with
      | sign :: rest => do
        let negative ← if sign = '+' then some false
          else if sign = '-' || sign = '\u2212' then some true else none
        let (hours, rest) ← pair? 9 rest
        let (minutes, rest) ← pair? 5 (rest.dropWhile isSeparator)
        let offset : Int := hours * 3600 + minutes * 60
        if offset < secondsPerDay then return (if negative then -offset else offset, rest) else none
      | [] => none

/-- A date, a separator, a time of day and an offset; blanks may stand in front of every part. -/
def parse? (s : List Char) : Option Timestamp := do
  let (year, s) ← year? (Text.trimStart s)
  let s ← literal? '-' (Text.trimStart s)
  let (month, s) ← number? 2 (Text.trimStart s)
  let s ← literal? '-' (Text.trimStart s)
  let (day, s) ← number? 2 (Text.trimStart s)
  let s ← match s with
    | c :: rest => if c = 'T' || c = 't' || c = ' ' then some rest else none
    | [] => none
  let (hour, s) ← number? 2 (Text.trimStart s)
  let s ← literal? ':' (Text.trimStart s)
  let (minute, s) ← number? 2 (Text.trimStart s)
  let s ← literal? ':' (Text.trimStart s)
  let (second, s) ← number? 2 (Text.trimStart s)
  let (nano, s) ← fraction? s
  let (offset, s) ← offset? (Text.trimStart s)
  if Text.trimStart s ≠ [] then none
  else if 23 < hour ∨ 59 < minute ∨ 60 < second then none
  else
    let date ← Date.of? year month day
    let (second, nano) := if second = 60 then (59, nano + nanosPerSecond) else (second, nano)
    atOffset? date (hour * 3600 + minute * 60 + second) nano offset

/-! ### Writing -/

def padded (width n : Nat) : List Char :=
  let ds := Nat.toDigits 10 n
  List.replicate (width - ds.length) '0' ++ ds

def writeYear (year : Int) : List Char :=
  if 0 ≤ year ∧ year ≤ 9999 then padded 4 year.toNat
  else (if year < 0 then '-' else '+') :: padded 4 year.natAbs

def writeFraction (nano : Nat) : List Char :=
  if nano = 0 then []
  else if nano % 1000000 = 0 then '.' :: padded 3 (nano / 1000000)
  else if nano % 1000 = 0 then '.' :: padded 6 (nano / 1000)
  else '.' :: padded 9 nano

def write (t : Timestamp) : List Char :=
  let leap := if t.nano < nanosPerSecond then 0 else 1
  writeYear t.date.year ++ '-' :: padded 2 t.date.month ++ '-' :: padded 2 t.date.day ++
    'T' :: padded 2 (t.second / 3600) ++ ':' :: padded 2 (t.second / 60 % 60) ++
    ':' :: padded 2 (t.second % 60 + leap) ++ writeFraction (t.nano - leap * nanosPerSecond) ++ ['Z']

def epoch : Timestamp := ⟨⟨1970, 1, 1, by decide, by decide, by decide⟩, 0, 0, by decide, by decide⟩

/-- A later instant; the last one of the calendar has none and stays. -/
def later (t : Timestamp) : Timestamp :=
  if h : t.nano + 1 < nanosPerSecond then ⟨t.date, t.second, t.nano + 1, t.second_lt, by omega⟩
  else if h : t.second + 1 < secondsPerDay then ⟨t.date, t.second + 1, 0, h, by decide⟩
  else match t.date.next? with
    | some date => ⟨date, 0, 0, by decide, by decide⟩
    | none => t

instance : Inhabited Timestamp := ⟨epoch⟩

end Timestamp

instance : Json.Encode Timestamp := ⟨fun t => .string (String.ofList t.write)⟩

instance : Json.Decode Timestamp :=
  ⟨fun _ tree => tree.text?.bind fun s => Timestamp.parse? s.toList⟩

end CoreWarden.Time
