import CoreWarden.Json.Printer
import CoreWarden.Json.Syntax

/-!
Strings written with their escapes and read again. Each character is read from what is written for it,
whether it stands for itself, or is escaped by a letter or by its code.
-/
namespace CoreWarden.Json

theorem hexDigit?_hexChar : ∀ n < 16, hexDigit? (hexChar n) = some n := by decide

namespace Piece

def found (c : Char) (rest : Option (List Piece × List Char)) : Option (List Piece × List Char) :=
  rest.map fun (pieces, rest) => (.char c :: pieces, rest)

/-- No character has the code of a surrogate. -/
theorem ofCode_toNat (c : Char) : ofCode c.toNat = .char c := by
  have hvalid : ¬(0xD800 ≤ c.toNat ∧ c.toNat < 0xE000) := by
    have h : c.toNat < 0xD800 ∨ 0xDFFF < c.toNat ∧ c.toNat < 0x110000 := c.valid
    omega
  rw [ofCode, if_neg (by simpa using hvalid), Char.ofNat_toNat]

theorem read?_letter {e c : Char} (he : escaped? e = some c) (hu : e ≠ 'u') (tail : List Char) :
    read? ('\\' :: e :: tail) = found c (read? tail) := by
  rw [read?]
  · rw [he]
    cases read? tail <;> rfl
  · intro _ _ _ _ _ h _
    exact hu h

theorem read?_code {c : Char} (h : c.toNat < 0x10000) (tail : List Char) :
    read? (unicodeEscape c.toNat ++ tail) = found c (read? tail) := by
  have hcode : c.toNat / 4096 % 16 * 4096 + c.toNat / 256 % 16 * 256 + c.toNat / 16 % 16 * 16 +
      c.toNat % 16 = c.toNat := by omega
  have hhex : ∀ n, hexDigit? (hexChar (n % 16)) = some (n % 16) :=
    fun n => hexDigit?_hexChar _ (Nat.mod_lt _ (by decide))
  simp only [unicodeEscape, List.cons_append, List.nil_append, read?, hhex]
  cases read? tail with
  | none => rfl
  | some p => simp [found, hcode, ofCode_toNat]

theorem read?_plain {c : Char} (hc : ¬c.toNat < 0x20) (hq : c ≠ '"') (hb : c ≠ '\\')
    (tail : List Char) : read? (c :: tail) = found c (read? tail) := by
  rw [read?]
  · rw [if_neg (by simp [hc, hb])]
    rfl
  · exact hq
  · intro _ _ _ _ _ h _
    exact hb h
  · intro _ _ h _
    exact hb h

/-- Each character is read from what is written for it. -/
theorem read?_writeChar (c : Char) (tail : List Char) :
    read? (writeChar c ++ tail) = found c (read? tail) := by
  have hletter : ∀ {e}, escaped? e = some c → e ≠ 'u' →
      read? (['\\', e] ++ tail) = found c (read? tail) := fun he hu => read?_letter he hu tail
  unfold writeChar
  repeat' split
  iterate 7
    · next h =>
      subst h
      exact hletter rfl (by decide)
  · next h => exact read?_code (by omega) tail
  · next hq hb _ _ _ _ _ h => exact read?_plain h hq hb tail

theorem read?_writeString (s : String) (rest : List Char) :
    read? (s.toList.flatMap writeChar ++ '"' :: rest) = some (s.toList.map .char, rest) := by
  induction s.toList with
  | nil => rfl
  | cons c cs ih =>
    rw [List.flatMap_cons, List.append_assoc, read?_writeChar, ih]
    rfl

theorem text?_map_char (cs : List Char) : text? (cs.map .char) = some cs := by
  induction cs with
  | nil => rfl
  | cons c cs ih => simp [text?, ih]

end Piece

end CoreWarden.Json
