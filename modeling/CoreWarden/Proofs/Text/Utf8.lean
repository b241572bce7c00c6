import CoreWarden.Text.Utf8
import Mathlib.Tactic.IntervalCases

/-!
Text written as UTF-8 and read again. Each character is one unit, whether it takes one byte or four,
and what follows it is left as it is.
-/
namespace CoreWarden.Text.Utf8

/-! ### Bytes -/

theorem toList_loop_eq (bytes : ByteArray) (i : Nat) (front : List UInt8) :
    ByteArray.toList.loop bytes i front = front.reverse ++ bytes.data.toList.drop i := by
  fun_induction ByteArray.toList.loop bytes i front with
  | case1 i front hlt ih =>
    have hlen : i < bytes.data.toList.length := by simpa using hlt
    have hget : bytes.get! i = bytes.data[i]! := by cases bytes; rfl
    rw [ih, List.drop_eq_getElem_cons hlen, hget, getElem!_pos bytes.data i hlt, List.reverse_cons,
      List.append_assoc]
    rfl
  | case2 i front hge =>
    rw [List.drop_eq_nil_of_le (by simpa using Nat.le_of_not_lt hge), List.append_nil]

theorem encode_eq (s : String) : encode s = s.toList.flatMap String.utf8EncodeChar := by
  change ByteArray.toList.loop s.toByteArray 0 [] = _
  rw [toList_loop_eq, ← String.utf8Encode_toList, List.utf8Encode, List.data_toByteArray]
  rfl

/-! ### The bytes of a character -/

theorem toNat_byte {n : Nat} (h : n < 256) : (UInt8.ofNat n).toNat = n := UInt8.toNat_ofNat_of_lt' h

theorem follow_byte (n : Nat) {low high : UInt8} (acc : Nat) {m : Nat} (rest : List UInt8)
    (hl : low.toNat ≤ m % 64 + 128) (hh : m % 64 + 128 ≤ high.toNat) :
    follow (n + 1) low high acc (UInt8.ofNat (m % 64 + 128) :: rest) =
      follow n 0x80 0xBF (acc * 64 + m % 64) rest := by
  have hbyte : (UInt8.ofNat (m % 64 + 128)).toNat = m % 64 + 128 := toNat_byte (by omega)
  have hin : low ≤ UInt8.ofNat (m % 64 + 128) ∧ UInt8.ofNat (m % 64 + 128) ≤ high := by
    rw [UInt8.le_iff_toNat_le, UInt8.le_iff_toNat_le, hbyte]
    exact ⟨hl, hh⟩
  rw [follow, if_pos (by simpa using hin), hbyte, Nat.add_sub_cancel]

theorem follow_later (n acc m : Nat) (rest : List UInt8) :
    follow (n + 1) 0x80 0xBF acc (UInt8.ofNat (m % 64 + 128) :: rest) =
      follow n 0x80 0xBF (acc * 64 + m % 64) rest := by
  refine follow_byte n acc rest ?_ ?_
  · change 128 ≤ m % 64 + 128
    omega
  · change m % 64 + 128 ≤ 191
    omega

theorem lead?_two {n : Nat} (hl : 2 ≤ n) (hh : n < 32) :
    lead? (UInt8.ofNat (n + 192)) = some ⟨1, n, 0x80, 0xBF⟩ := by
  interval_cases n <;> rfl

theorem lead?_three {n : Nat} (h : n < 16) : lead? (UInt8.ofNat (n + 224)) =
    some ⟨2, n, if n = 0 then 0xA0 else 0x80, if n = 0xD then 0x9F else 0xBF⟩ := by
  interval_cases n <;> rfl

theorem lead?_four {n : Nat} (h : n < 5) : lead? (UInt8.ofNat (n + 240)) =
    some ⟨3, n, if n = 0 then 0x90 else 0x80, if n = 4 then 0x8F else 0xBF⟩ := by
  interval_cases n <;> rfl

theorem unit_one {v : Nat} (h : v ≤ 127) (rest : List UInt8) :
    unit (UInt8.ofNat v) rest = (some (Char.ofNat v), rest) := by
  have hbyte : (UInt8.ofNat v).toNat = v := toNat_byte (by omega)
  have hlt : UInt8.ofNat v < 0x80 := by
    rw [UInt8.lt_iff_toNat_lt, hbyte]
    exact Nat.lt_succ_of_le h
  rw [unit, if_pos hlt, hbyte]

theorem unit_lead {n code : Nat} (hl : 128 ≤ n) (hh : n < 256) {l : Lead} {rest left : List UInt8}
    (hlead : lead? (UInt8.ofNat n) = some l)
    (hfollow : follow l.following l.low l.high l.bits rest = (some code, left)) :
    unit (UInt8.ofNat n) rest = (some (Char.ofNat code), left) := by
  have hge : ¬UInt8.ofNat n < 0x80 := by
    rw [UInt8.lt_iff_toNat_lt, toNat_byte hh]
    exact Nat.not_lt.mpr hl
  rw [unit, if_neg hge, hlead]
  simp only [hfollow, Option.map_some]

theorem unit_two {v : Nat} (hl : 127 < v) (hh : v ≤ 2047) (rest : List UInt8) :
    unit (UInt8.ofNat (v / 64 % 32 + 192)) (UInt8.ofNat (v % 64 + 128) :: rest) =
      (some (Char.ofNat v), rest) := by
  refine unit_lead (by omega) (by omega) (lead?_two (by omega) (by omega)) ?_
  have hcode : v / 64 % 32 * 64 + v % 64 = v := by omega
  rw [follow_later, hcode, follow]

theorem unit_three {v : Nat} (hl : 2047 < v) (hh : v ≤ 65535) (hs : v < 0xD800 ∨ 0xDFFF < v)
    (rest : List UInt8) :
    unit (UInt8.ofNat (v / 4096 % 16 + 224))
        (UInt8.ofNat (v / 64 % 64 + 128) :: UInt8.ofNat (v % 64 + 128) :: rest) =
      (some (Char.ofNat v), rest) := by
  refine unit_lead (by omega) (by omega) (lead?_three (by omega)) ?_
  have hcode : (v / 4096 % 16 * 64 + v / 64 % 64) * 64 + v % 64 = v := by omega
  rw [follow_byte, follow_later, hcode, follow]
  -- The code is neither written with a byte too many nor that of a surrogate.
  · dsimp only
    split
    · change 160 ≤ _
      omega
    · change 128 ≤ _
      omega
  · dsimp only
    split
    · change _ ≤ 159
      omega
    · change _ ≤ 191
      omega

theorem unit_four {v : Nat} (hl : 65535 < v) (hh : v < 0x110000) (rest : List UInt8) :
    unit (UInt8.ofNat (v / 262144 % 8 + 240)) (UInt8.ofNat (v / 4096 % 64 + 128) ::
        UInt8.ofNat (v / 64 % 64 + 128) :: UInt8.ofNat (v % 64 + 128) :: rest) =
      (some (Char.ofNat v), rest) := by
  refine unit_lead (by omega) (by omega) (lead?_four (by omega)) ?_
  have hcode : ((v / 262144 % 8 * 64 + v / 4096 % 64) * 64 + v / 64 % 64) * 64 + v % 64 = v := by omega
  rw [follow_byte, follow_later, follow_later, hcode, follow]
  · dsimp only
    split
    · change 144 ≤ _
      omega
    · change 128 ≤ _
      omega
  · dsimp only
    split
    · change _ ≤ 143
      omega
    · change _ ≤ 191
      omega

theorem unit_encodeChar (c : Char) (rest : List UInt8) :
    ∃ b tail, String.utf8EncodeChar c = b :: tail ∧ unit b (tail ++ rest) = (some c, rest) := by
  have hvalid : c.toNat < 0xD800 ∨ 0xDFFF < c.toNat ∧ c.toNat < 0x110000 := c.valid
  have hcode : Char.ofNat c.toNat = c := Char.ofNat_toNat c
  have hval : c.val.toNat = c.toNat := rfl
  rw [String.utf8EncodeChar, hval]
  generalize c.toNat = v at hvalid hcode
  subst hcode
  split
  · next hone => exact ⟨_, _, rfl, unit_one hone rest⟩
  · split
    · next htwo => exact ⟨_, _, rfl, unit_two (by omega) htwo rest⟩
    · split
      · next hthree => exact ⟨_, _, rfl, unit_three (by omega) hthree (by omega) rest⟩
      · next hfour => exact ⟨_, _, rfl, unit_four (by omega) (by omega) rest⟩

theorem units_cons {b : UInt8} {tail rest : List UInt8} {c : Char} (h : unit b tail = (some c, rest)) :
    units (b :: tail) = some c :: units rest := by
  rw [units, h]

theorem decode?_encode (s : String) : decode? (encode s) = some s.toList := by
  rw [encode_eq]
  induction s.toList with
  | nil => rw [List.flatMap_nil, decode?, units, List.mapM_nil, Option.pure_def]
  | cons c cs ih =>
    obtain ⟨b, tail, hbytes, hunit⟩ := unit_encodeChar c (cs.flatMap String.utf8EncodeChar)
    rw [List.flatMap_cons, hbytes, List.cons_append, decode?, units_cons hunit]
    rw [decode?] at ih
    simp [ih]

end CoreWarden.Text.Utf8
