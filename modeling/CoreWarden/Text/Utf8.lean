/-!
Reading bytes as UTF-8. A byte sequence is cut into units: a character, or a longest run of bytes
that begins a character and does not complete it. Reading is strict where every unit has to be a
character, and lossy where a broken unit becomes U+FFFD.
-/
namespace CoreWarden.Text.Utf8

/-- What a leading byte announces: how many bytes follow, the bits it brings, and the range of the
byte right after it (the later ones range over 80..BF). -/
structure Lead where
  following : Nat
  bits : Nat
  low : UInt8
  high : UInt8

def lead? (b : UInt8) : Option Lead :=
  if 0xC2 ≤ b && b ≤ 0xDF then some ⟨1, b.toNat - 0xC0, 0x80, 0xBF⟩
  else if b == 0xE0 then some ⟨2, 0, 0xA0, 0xBF⟩
  else if b == 0xED then some ⟨2, 0xD, 0x80, 0x9F⟩
  else if 0xE1 ≤ b && b ≤ 0xEF then some ⟨2, b.toNat - 0xE0, 0x80, 0xBF⟩
  else if b == 0xF0 then some ⟨3, 0, 0x90, 0xBF⟩
  else if 0xF1 ≤ b && b ≤ 0xF3 then some ⟨3, b.toNat - 0xF0, 0x80, 0xBF⟩
  else if b == 0xF4 then some ⟨3, 4, 0x80, 0x8F⟩
  else none

/-- Reads the announced bytes; stops in front of the first that does not fit. -/
def follow : Nat → UInt8 → UInt8 → Nat → List UInt8 → Option Nat × List UInt8
  | 0, _, _, acc, rest => (some acc, rest)
  | _ + 1, _, _, _, [] => (none, [])
  | n + 1, low, high, acc, b :: rest =>
    if low ≤ b && b ≤ high then follow n 0x80 0xBF (acc * 64 + (b.toNat - 0x80)) rest
    else (none, b :: rest)

theorem follow_length_le (n : Nat) (low high : UInt8) (acc : Nat) (bytes : List UInt8) :
    (follow n low high acc bytes).2.length ≤ bytes.length := by
  induction n generalizing low high acc bytes with
  | zero => simp [follow]
  | succ n ih =>
    cases bytes with
    | nil => simp [follow]
    | cons b rest =>
      simp only [follow]
      split
      · exact Nat.le_succ_of_le (ih ..)
      · simp

/-- The first unit of a non-empty byte sequence, and what is left. -/
def unit (b : UInt8) (rest : List UInt8) : Option Char × List UInt8 :=
  if b < 0x80 then (some (Char.ofNat b.toNat), rest)
  else match lead? b with
    | none => (none, rest)
    | some l =>
      let (code, rest) := follow l.following l.low l.high l.bits rest
      (code.map Char.ofNat, rest)

theorem unit_length_le (b : UInt8) (rest : List UInt8) : (unit b rest).2.length ≤ rest.length := by
  unfold unit
  split
  · simp
  · split
    · simp
    · exact follow_length_le ..

def units : List UInt8 → List (Option Char)
  | [] => []
  | b :: rest => (unit b rest).1 :: units (unit b rest).2
termination_by bytes => bytes.length
decreasing_by exact Nat.lt_succ_of_le (unit_length_le b rest)

def decode? (bytes : List UInt8) : Option (List Char) := (units bytes).mapM id

/-- The text with U+FFFD in place of every broken unit. -/
def decodeLossy (bytes : List UInt8) : List Char := (units bytes).map (·.getD '\uFFFD')

def encode (s : String) : List UInt8 := s.toUTF8.toList

end CoreWarden.Text.Utf8
