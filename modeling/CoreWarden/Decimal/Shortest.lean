/-!
The shortest decimal of a double: of all decimals that lie in the interval of reals which round to
it, one with the fewest digits, and of those the nearest. A finite double is `m * 2 ^ q` with
natural `m`; the ends of its interval belong to it when `m` is even.
-/
namespace CoreWarden.Decimal

/-- A positive decimal `digits * 10 ^ exponent`. -/
structure Scaled where
  digits : Nat
  exponent : Int
  deriving DecidableEq

/-- A positive double `significand * 2 ^ exponent`. Below a power of two the next double is only
half as far away: `narrow` says that the interval is shorter on that side. -/
structure Binary where
  significand : Nat
  exponent : Int
  narrow : Bool
  deriving DecidableEq

namespace Binary

/-- The double with the given bits, if it is finite and not zero; the sign is left out. -/
def ofBits? (bits : UInt64) : Option Binary :=
  let fraction : Nat := bits.toNat % 0x10000000000000
  let exponent : Nat := bits.toNat / 0x10000000000000 % 0x800
  if exponent = 2047 then none
  else if exponent = 0 then
    if fraction = 0 then none else some ⟨fraction, -1074, false⟩
  else some ⟨0x10000000000000 + fraction, (exponent : Int) - 1075, fraction == 0 && exponent != 1⟩

structure Interval where
  low : Nat
  value : Nat
  high : Nat
  denominator : Nat

def interval (b : Binary) : Interval :=
  let unit := if 2 ≤ b.exponent then Nat.pow 2 (b.exponent - 2).toNat else 1
  let denominator := if b.exponent < 2 then Nat.pow 2 (2 - b.exponent).toNat else 1
  let below := if b.narrow then 1 else 2
  ⟨(4 * b.significand - below) * unit, 4 * b.significand * unit, (4 * b.significand + 2) * unit,
    denominator⟩

def onGrid (n d : Nat) (e : Int) : Nat × Nat :=
  if 0 ≤ e then (n, d * Nat.pow 10 e.toNat) else (n * Nat.pow 10 (-e).toNat, d)

/-- The point of the grid of step `10 ^ e` to be taken for the double, if a neighbour of the value
on that grid lies in the interval; a tie goes to the even one. -/
def pick? (b : Binary) (e : Int) : Option Nat :=
  let i := b.interval
  let (value, d) := onGrid i.value i.denominator e
  let (low, _) := onGrid i.low i.denominator e
  let (high, _) := onGrid i.high i.denominator e
  let inside (k : Nat) : Bool :=
    if b.significand % 2 = 0 then decide (low ≤ k * d ∧ k * d ≤ high) else decide (low < k * d ∧ k * d < high)
  let floor := value / d
  let down := inside floor && floor != 0
  let up := inside (floor + 1)
  if down && up then
    let rest := value % d
    if 2 * rest < d || (2 * rest == d && floor % 2 == 0) then some floor else some (floor + 1)
  else if down then some floor
  else if up then some (floor + 1)
  else none

/-- The exponent of the leading decimal digit of `n / d`, searched downwards from `e`. -/
def leading (n d : Nat) : Nat → Int → Int
  | 0, e => e
  | fuel + 1, e => let (n', d') := onGrid n d e; if d' ≤ n' then e else leading n d fuel (e - 1)

def search (b : Binary) (top : Int) : Nat → Nat → Option Scaled
  | 0, _ => none
  | fuel + 1, count =>
    let e := top - (count : Int) + 1
    match b.pick? e with
    | some k => some ⟨k, e⟩
    | none => search b top fuel (count + 1)

/-- Seventeen digits always tell doubles apart, and no exponent of ten passes 308. -/
def shortest (b : Binary) : Scaled :=
  let i := b.interval
  let top := leading i.value i.denominator 640 309
  (search b top 18 1).getD ⟨0, 0⟩

end Binary

def digitChars (n : Nat) : List Char := (Nat.toDigits 10 n)

def Scaled.trim : Nat → Scaled → Scaled
  | 0, s => s
  | fuel + 1, s => if s.digits % 10 = 0 && s.digits != 0 then trim fuel ⟨s.digits / 10, s.exponent + 1⟩ else s

/-- How a format writes a decimal: positionally for the point positions between `least` and `most`
(the number of digits in front of the point), else with an exponent. -/
structure PointFormat where
  least : Int
  most : Int

def zeros (n : Nat) : List Char := List.replicate n '0'

/-- A positional whole number keeps `.0`; one digit stands in front of the point before an exponent,
which is written without a plus sign. -/
def PointFormat.write (f : PointFormat) (s : Scaled) : List Char :=
  let s := s.trim 20
  let ds := digitChars s.digits
  let point : Int := ds.length + s.exponent
  if f.least ≤ point ∧ point ≤ f.most then
    if 0 ≤ s.exponent then ds ++ zeros s.exponent.toNat ++ ['.', '0']
    else if 0 < point then ds.take point.toNat ++ '.' :: ds.drop point.toNat
    else '0' :: '.' :: zeros (-point).toNat ++ ds
  else
    let mantissa := match ds with
      | [] => []
      | [d] => [d]
      | d :: rest => d :: '.' :: rest
    mantissa ++ 'e' :: (toString (point - 1)).toList

end CoreWarden.Decimal
