import CoreWarden.Decimal.Shortest
import CoreWarden.Json.Value

/-!
Writing JSON values as text, without blanks between tokens. Strings escape the quote, the backslash
and the characters below U+0020, with the short escapes where there are any. Floats are written by
their shortest decimal.
-/
namespace CoreWarden.Json

namespace Number

/-- Floats are positional from `10 ^ -5` to below `10 ^ 16`. -/
def floatFormat : Decimal.PointFormat := ⟨-4, 16⟩

def writeFloat (bits : UInt64) : List Char :=
  let sign := if bits.toNat < 0x8000000000000000 then [] else ['-']
  match Decimal.Binary.ofBits? bits with
  | some b => sign ++ floatFormat.write b.shortest
  | none =>
    if bits.toNat / 0x10000000000000 % 0x800 = 0x7FF then ['n', 'u', 'l', 'l'] else sign ++ ['0', '.', '0']

def write : Number → List Char
  | .int i => if i < 0 then '-' :: Decimal.digitChars i.natAbs else Decimal.digitChars i.natAbs
  | .float bits => writeFloat bits

end Number

def hexChar (n : Nat) : Char := if n < 10 then Char.ofNat (n + 48) else Char.ofNat (n + 87)

def unicodeEscape (n : Nat) : List Char :=
  ['\\', 'u', hexChar (n / 4096 % 16), hexChar (n / 256 % 16), hexChar (n / 16 % 16), hexChar (n % 16)]

def writeChar (c : Char) : List Char :=
  if c = '"' then ['\\', '"']
  else if c = '\\' then ['\\', '\\']
  else if c = '\x08' then ['\\', 'b']
  else if c = '\x0c' then ['\\', 'f']
  else if c = '\n' then ['\\', 'n']
  else if c = '\r' then ['\\', 'r']
  else if c = '\t' then ['\\', 't']
  else if c.toNat < 0x20 then unicodeEscape c.toNat
  else [c]

def writeString (s : String) : List Char := '"' :: (s.toList.flatMap writeChar ++ ['"'])

namespace Value

mutual

def write : Value → List Char
  | .null => ['n', 'u', 'l', 'l']
  | .bool true => ['t', 'r', 'u', 'e']
  | .bool false => ['f', 'a', 'l', 's', 'e']
  | .number n => n.write
  | .string s => writeString s
  | .array items => '[' :: writeItems items
  | .object members => '{' :: writeMembers members

def writeItems : List Value → List Char
  | [] => [']']
  | [item] => write item ++ [']']
  | item :: items => write item ++ ',' :: writeItems items

def writeMembers : List (String × Value) → List Char
  | [] => ['}']
  | [(key, value)] => writeString key ++ ':' :: (write value ++ ['}'])
  | (key, value) :: members => writeString key ++ ':' :: (write value ++ ',' :: writeMembers members)

end

def render (v : Value) : String := String.ofList v.write

end Value

end CoreWarden.Json
