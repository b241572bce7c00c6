/-!
Reading bytes as UTF-16, in either order of the two bytes of a unit. Two surrogates that follow one
another as they should are one character; what is left of them alone becomes U+FFFD.
-/
namespace CoreWarden.Text.Utf16

inductive Order where
  | littleEndian
  | bigEndian
  deriving DecidableEq

def unit (order : Order) (first second : UInt8) : Nat :=
  match order with
  | .littleEndian => first.toNat + 256 * second.toNat
  | .bigEndian => 256 * first.toNat + second.toNat

def units (order : Order) : List UInt8 → List Nat × Bool
  | a :: b :: rest =>
    let (found, odd) := units order rest
    (unit order a b :: found, odd)
  | [_] => ([], true)
  | [] => ([], false)

def isHigh (unit : Nat) : Bool := 0xD800 ≤ unit && unit < 0xDC00

def isLow (unit : Nat) : Bool := 0xDC00 ≤ unit && unit < 0xE000

/-- The characters of the units. A high surrogate at the end and a byte left over are one broken
character together. -/
def characters (odd : Bool) : List Nat → List Char
  | [] => if odd then ['\uFFFD'] else []
  | [u] =>
    if isHigh u then ['\uFFFD']
    else (if isLow u then '\uFFFD' else Char.ofNat u) :: characters odd []
  | u :: v :: rest =>
    if isHigh u && isLow v then
      Char.ofNat (0x10000 + (u - 0xD800) * 0x400 + (v - 0xDC00)) :: characters odd rest
    else (if isHigh u || isLow u then '\uFFFD' else Char.ofNat u) :: characters odd (v :: rest)

def decodeLossy (order : Order) (bytes : List UInt8) : List Char :=
  let (found, odd) := units order bytes
  characters odd found

end CoreWarden.Text.Utf16
