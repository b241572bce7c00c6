import CoreWarden.Json.Meaning
import CoreWarden.Json.Printer

/-!
Numbers written in decimal and read again. A reader of digits takes the whole number if no digit
follows; an integer of 64 bits is read as the number that was written.
-/
namespace CoreWarden.Json

def digitValue (c : Char) : Nat := c.toNat - '0'.toNat

theorem digit?_eq (c : Char) : digit? c = if c.isDigit then some (digitValue c) else none := by
  unfold digit?
  rfl

def NoDigit (s : List Char) : Prop := ∀ c rest, s = c :: rest → c.isDigit = false

theorem noDigit_nil : NoDigit [] := by
  intro c rest h
  cases h

theorem noDigit_cons {c : Char} {s : List Char} (h : c.isDigit = false) : NoDigit (c :: s) := by
  rintro c' rest h'
  cases h'
  exact h

theorem digits_append {ds rest : List Char} (hd : ∀ c ∈ ds, c.isDigit = true) (hr : NoDigit rest) :
    digits (ds ++ rest) = (ds.map digitValue, rest) := by
  induction ds with
  | nil =>
    cases rest with
    | nil => rfl
    | cons c rest => simp [digits, digit?_eq, hr c rest rfl]
  | cons c ds ih =>
    obtain ⟨hc, hds⟩ := List.forall_mem_cons.mp hd
    simp [digits, digit?_eq, hc, ih hds]

theorem eq_zero_of_digitValue {c : Char} (hc : c.isDigit = true) (h : digitValue c = 0) : c = '0' := by
  have hle : '0'.toNat ≤ c.toNat := by
    simp only [Char.isDigit, Bool.and_eq_true, decide_eq_true_eq] at hc
    exact hc.1
  have hvalue : c.toNat = '0'.toNat := Nat.le_antisymm (Nat.sub_eq_zero_iff_le.mp h) hle
  exact Char.toNat_inj.mp hvalue

/-- Only zero is written with a zero at the front. -/
theorem eq_nil_of_toDigits {n : Nat} {rest : List Char} (h : Nat.toDigits 10 n = '0' :: rest) :
    rest = [] := by
  induction n using Nat.strongRecOn generalizing rest with
  | ind n ih =>
    by_cases hn : n < 10
    · rw [Nat.toDigits_of_lt_base hn] at h
      exact (List.cons.inj h).2.symm
    · rw [Nat.toDigits_of_base_le (by decide) (Nat.le_of_not_lt hn)] at h
      have hfront : ∃ rest', Nat.toDigits 10 (n / 10) = '0' :: rest' := by
        cases hq : Nat.toDigits 10 (n / 10) with
        | nil => exact absurd hq Nat.toDigits_ne_nil
        | cons c rest' =>
          rw [hq] at h
          exact ⟨rest', by rw [(List.cons.inj h).1]⟩
      -- The digits in front of the last one would be those of zero.
      obtain ⟨rest', hq⟩ := hfront
      have hzero : n / 10 = 0 := by
        have hvalue := Nat.ofDigitChars_ten_toDigits (n := n / 10)
        rw [hq, ih (n / 10) (by omega) hq] at hvalue
        exact hvalue.symm
      omega

theorem isDigit_of_mem_toDigits {n : Nat} {c : Char} (h : c ∈ Nat.toDigits 10 n) :
    c.isDigit = true :=
  Nat.isDigit_of_mem_toDigits (by decide) (by decide) h

namespace Numeral

def ofInt (i : Int) : Numeral :=
  ⟨decide (i < 0), (Nat.toDigits 10 i.natAbs).map digitValue, none, none⟩

/-- What may follow a value. -/
def Closed (s : List Char) : Prop := ∀ c rest, s = c :: rest → c = ',' ∨ c = ']' ∨ c = '}'

theorem closed_nil : Closed [] := by
  intro c rest h
  cases h

theorem closed_cons {c : Char} {s : List Char} (h : c = ',' ∨ c = ']' ∨ c = '}') :
    Closed (c :: s) := by
  rintro c' rest h'
  cases h'
  exact h

theorem Closed.noDigit {s : List Char} (h : Closed s) : NoDigit s := by
  intro c rest hs
  rcases h c rest hs with rfl | rfl | rfl <;> rfl

theorem fraction?_of_closed {s : List Char} (h : Closed s) : fraction? s = some (none, s) := by
  unfold fraction?
  split
  · next rest => rcases h _ _ rfl with hc | hc | hc <;> cases hc
  · rfl

theorem exponent?_of_closed {s : List Char} (h : Closed s) : exponent? s = some (none, s) := by
  cases s with
  | nil => rfl
  | cons c rest => rcases h c rest rfl with rfl | rfl | rfl <;> rfl

theorem whole?_toDigits (n : Nat) {rest : List Char} (hr : NoDigit rest) :
    whole? (Nat.toDigits 10 n ++ rest) = some ((Nat.toDigits 10 n).map digitValue, rest) := by
  have hall : ∀ c ∈ Nat.toDigits 10 n, c.isDigit = true := fun _ => isDigit_of_mem_toDigits
  rw [whole?, digits_append hall hr]
  generalize hds : Nat.toDigits 10 n = ds at hall
  match ds with
  | [] => exact absurd hds Nat.toDigits_ne_nil
  | [c] => simp
  | c :: c' :: ds =>
    have hc : digitValue c ≠ 0 := by
      intro hzero
      obtain rfl := eq_zero_of_digitValue (hall c List.mem_cons_self) hzero
      cases eq_nil_of_toDigits hds
    simp [hc]

theorem read?_write (i : Int) {rest : List Char} (hr : Closed rest) :
    read? ((Number.int i).write ++ rest) = some (ofInt i, rest) := by
  by_cases hi : i < 0
  · have hwrite : (Number.int i).write = '-' :: Nat.toDigits 10 i.natAbs := if_pos hi
    rw [hwrite, List.cons_append]
    simp [read?, whole?_toDigits _ hr.noDigit, fraction?_of_closed hr, exponent?_of_closed hr, ofInt, hi]
  · have hwrite : (Number.int i).write = Nat.toDigits 10 i.natAbs := if_neg hi
    have hsign : ∀ tail, Nat.toDigits 10 i.natAbs ++ rest ≠ '-' :: tail := by
      intro tail h
      cases hds : Nat.toDigits 10 i.natAbs with
      | nil => exact Nat.toDigits_ne_nil hds
      | cons c ds =>
        rw [hds] at h
        obtain rfl := (List.cons.inj h).1
        have hdigit := isDigit_of_mem_toDigits (hds ▸ List.mem_cons_self)
        cases hdigit
    rw [hwrite, read?]
    simp [whole?_toDigits _ hr.noDigit, fraction?_of_closed hr, exponent?_of_closed hr, ofInt, hi]
    exact hsign

theorem takeWhole_of_lt {ds : List Char} {n : Nat} (h : Nat.ofDigitChars 10 ds n < limit) :
    takeWhole n (ds.map digitValue) = ⟨Nat.ofDigitChars 10 ds n, 0⟩ := by
  induction ds generalizing n with
  | nil => rfl
  | cons c ds ih =>
    rw [Nat.ofDigitChars_cons, Nat.mul_comm] at h ⊢
    have hle : n * 10 + digitValue c ≤ Nat.ofDigitChars 10 ds (n * 10 + digitValue c) := by
      rw [Nat.ofDigitChars_eq_ofDigitChars_zero]
      exact Nat.le_add_right_of_le (Nat.le_mul_of_pos_left _ (Nat.pow_pos (by decide)))
    rw [List.map_cons, takeWhole, if_pos (Nat.lt_of_le_of_lt hle h)]
    exact ih h

theorem takeWhole_toDigits {n : Nat} (h : n < limit) :
    takeWhole 0 ((Nat.toDigits 10 n).map digitValue) = ⟨n, 0⟩ := by
  have hvalue : Nat.ofDigitChars 10 (Nat.toDigits 10 n) 0 = n := Nat.ofDigitChars_ten_toDigits
  rw [takeWhole_of_lt (by rwa [hvalue]), hvalue]

theorem number?_ofInt {i : Int} (h : (Number.int i).InRange) : (ofInt i).number? = some (.int i) := by
  obtain ⟨hlow, hhigh⟩ := h
  have hlt : i.natAbs < limit := by
    rw [limit]
    omega
  unfold number?
  simp only [ofInt, takeWhole_toDigits hlt, if_true, decide_eq_true_eq]
  split
  · next hi =>
    rw [if_neg (by omega)]
    simp only [Option.some.injEq, Number.int.injEq]
    omega
  · next hi =>
    simp only [Option.some.injEq, Number.int.injEq]
    omega

end Numeral

end CoreWarden.Json
