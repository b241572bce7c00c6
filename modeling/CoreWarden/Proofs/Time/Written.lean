import CoreWarden.Proofs.Json.Digits
import CoreWarden.Time.Timestamp
import Mathlib.Algebra.Group.Nat.Defs

/-!
Instants written and read again. Every instant that a text can name is read back from what is written for
it, leap seconds and years of any length included.
-/
namespace CoreWarden.Time

open Json (NoDigit digit? digit?_eq digitValue)

namespace Timestamp

/-! ### Numbers -/

theorem isSome_digit? (c : Char) : (digit? c).isSome = c.isDigit := by
  rw [digit?_eq]
  split <;> simp_all

theorem takeWhile_digits {ds rest : List Char} (hd : ∀ c ∈ ds, c.isDigit = true) (hr : NoDigit rest) :
    (ds ++ rest).takeWhile (digit? · |>.isSome) = ds := by
  rw [List.takeWhile_append_of_pos (fun c hc => (isSome_digit? c).trans (hd c hc))]
  cases rest with
  | nil => simp
  | cons c rest =>
    have hc : (digit? c).isSome = false := (isSome_digit? c).trans (hr c rest rfl)
    simp [hc]

theorem foldl_digits {ds : List Char} (hd : ∀ c ∈ ds, c.isDigit = true) (n : Nat) :
    ds.foldl (fun n c => 10 * n + (digit? c).getD 0) n = Nat.ofDigitChars 10 ds n := by
  induction ds generalizing n with
  | nil => rfl
  | cons c ds ih =>
    obtain ⟨hc, hds⟩ := List.forall_mem_cons.mp hd
    rw [List.foldl_cons, Nat.ofDigitChars_cons, ih hds, digit?_eq, if_pos hc]
    rfl

/-- A number is read if it has as many digits as it may have, or no digit follows. -/
theorem number?_append {most : Nat} {ds rest : List Char} (hne : ds ≠ [])
    (hd : ∀ c ∈ ds, c.isDigit = true) (hl : ds.length ≤ most) (hr : ds.length = most ∨ NoDigit rest) :
    number? most (ds ++ rest) = some (Nat.ofDigitChars 10 ds 0, rest) := by
  -- Either the digits fill all the room there is, or the character after them stops the reader.
  have hstop : NoDigit (rest.take (most - ds.length)) := by
    rcases hr with hr | hr
    · rw [hr, Nat.sub_self, List.take_zero]
      exact Json.noDigit_nil
    · intro c tail h
      cases rest with
      | nil => simp at h
      | cons c' rest =>
        cases hn : most - ds.length with
        | zero => simp [hn] at h
        | succ n =>
          rw [hn, List.take_succ_cons] at h
          exact (List.cons.inj h).1 ▸ hr c' rest rfl
  have hfound : ((ds ++ rest).take most).takeWhile (digit? · |>.isSome) = ds := by
    rw [List.take_append, List.take_of_length_le hl, takeWhile_digits hd hstop]
  rw [number?]
  simp only [hfound, List.isEmpty_iff, hne, if_false, foldl_digits hd, List.drop_left]

theorem isDigit_of_mem_padded {width n : Nat} {c : Char} (h : c ∈ padded width n) : c.isDigit = true := by
  rcases List.mem_append.mp h with h | h
  · rw [(List.mem_replicate.mp h).2]
    rfl
  · exact Json.isDigit_of_mem_toDigits h

theorem value_padded (width n : Nat) : Nat.ofDigitChars 10 (padded width n) 0 = n := by
  rw [padded, Nat.ofDigitChars_append, Nat.ofDigitChars_replicate_zero, Nat.mul_zero,
    Nat.ofDigitChars_ten_toDigits]

theorem length_padded {width n : Nat} (hw : 0 < width) (h : n < 10 ^ width) :
    (padded width n).length = width := by
  have hle := (Nat.length_toDigits_le_iff (b := 10) (by decide) hw).mpr h
  simp only [padded, List.length_append, List.length_replicate]
  omega

theorem padded_ne_nil (width n : Nat) : padded width n ≠ [] := by
  intro h
  exact Nat.toDigits_ne_nil (List.append_eq_nil_iff.mp h).2

theorem number?_padded {width n : Nat} (hw : 0 < width) (h : n < 10 ^ width) (rest : List Char) :
    number? width (padded width n ++ rest) = some (n, rest) := by
  have hlength := length_padded hw h
  have hall : ∀ c ∈ padded width n, c.isDigit = true := fun _ => isDigit_of_mem_padded
  rw [number?_append (padded_ne_nil width n) hall (Nat.le_of_eq hlength) (.inl hlength), value_padded]

/-! ### Parts -/

theorem isBlank_of_isDigit {c : Char} (h : c.isDigit = true) : Text.isBlank c = false := by
  simp only [Char.isDigit, Bool.and_eq_true, decide_eq_true_eq] at h
  have hlow : 48 ≤ c.toNat := h.1
  have hhigh : c.toNat ≤ 57 := h.2
  simp [Text.isBlank, Text.blankRanges]
  omega

theorem trimStart_of_not_blank {c : Char} (h : Text.isBlank c = false) (s : List Char) :
    Text.trimStart (c :: s) = c :: s := by
  rw [Text.trimStart_cons, h]
  rfl

theorem front_padded (width n : Nat) : ∃ c ds, padded width n = c :: ds ∧ c.isDigit = true := by
  cases h : padded width n with
  | nil => exact absurd h (padded_ne_nil width n)
  | cons c ds => exact ⟨c, ds, rfl, isDigit_of_mem_padded (h ▸ List.mem_cons_self)⟩

theorem trimStart_padded (width n : Nat) (rest : List Char) :
    Text.trimStart (padded width n ++ rest) = padded width n ++ rest := by
  obtain ⟨c, ds, h, hc⟩ := front_padded width n
  rw [h, List.cons_append, trimStart_of_not_blank (isBlank_of_isDigit hc)]

theorem trimStart_writeYear (year : Int) (rest : List Char) :
    Text.trimStart (writeYear year ++ rest) = writeYear year ++ rest := by
  unfold writeYear
  split
  · exact trimStart_padded ..
  · split <;> exact trimStart_of_not_blank (by decide) _

theorem year?_writeYear (year : Int) {rest : List Char} (hr : NoDigit rest) :
    year? (writeYear year ++ rest) = some (year, rest) := by
  have hsigned : ∀ n, number? (padded 4 n ++ rest).length (padded 4 n ++ rest) = some (n, rest) := by
    intro n
    rw [number?_append (padded_ne_nil 4 n) (fun _ => isDigit_of_mem_padded) (by simp) (.inr hr),
      value_padded]
  unfold writeYear
  split
  · next h =>
    have hread : number? 4 (padded 4 year.toNat ++ rest) = some (year.toNat, rest) :=
      number?_padded (by decide) (by omega) rest
    obtain ⟨c, ds, hfront, hc⟩ := front_padded 4 year.toNat
    rw [hfront, List.cons_append] at hread ⊢
    unfold year?
    split
    · next heq =>
      rw [(List.cons.inj heq).1] at hc
      cases hc
    · next heq =>
      rw [(List.cons.inj heq).1] at hc
      cases hc
    · simp only [hread, Option.map_some, Int.toNat_of_nonneg h.1]
  · split
    · simp only [List.cons_append, year?, hsigned, Option.map_some, Option.some.injEq, Prod.mk.injEq,
        and_true]
      omega
    · simp only [List.cons_append, year?, hsigned, Option.map_some, Option.some.injEq, Prod.mk.injEq,
        and_true]
      omega

theorem fraction?_padded {width n : Nat} (hw : 0 < width ∧ width ≤ 9) (h : n < 10 ^ width)
    {rest : List Char} (hr : NoDigit rest) :
    fraction? ('.' :: padded width n ++ rest) = some (n * 10 ^ (9 - width), rest) := by
  have hlength := length_padded hw.1 h
  have hall : ∀ c ∈ padded width n, c.isDigit = true := fun _ => isDigit_of_mem_padded
  have htake : (padded width n).take 9 = padded width n := List.take_of_length_le (by omega)
  rw [List.cons_append, fraction?]
  simp only [takeWhile_digits hall hr, List.isEmpty_iff, padded_ne_nil, if_false, htake,
    foldl_digits hall, value_padded, hlength, List.drop_left', Nat.min_eq_right hw.2]
  rfl

theorem fraction?_writeFraction {nano : Nat} (h : nano < nanosPerSecond) :
    fraction? (writeFraction nano ++ ['Z']) = some (nano, ['Z']) := by
  have hstop : NoDigit ['Z'] := Json.noDigit_cons rfl
  rw [nanosPerSecond] at h
  unfold writeFraction
  split
  · next hz =>
    rw [hz]
    rfl
  · split
    · rw [fraction?_padded (by decide) (by omega) hstop]
      simp only [Option.some.injEq, Prod.mk.injEq, and_true]
      omega
    · split
      · rw [fraction?_padded (by decide) (by omega) hstop]
        simp only [Option.some.injEq, Prod.mk.injEq, and_true]
        omega
      · rw [fraction?_padded (by decide) (by omega) hstop]
        simp

theorem atOffset?_zero (t : Timestamp) : atOffset? t.date t.second t.nano 0 = some t := by
  have hday : ¬(t.second : Int) < 0 ∧ (t.second : Int) < secondsPerDay :=
    ⟨by omega, Int.ofNat_lt.mpr t.second_lt⟩
  simp [atOffset?, hday, of?, t.second_lt, t.nano_lt]

theorem daysInMonth_le (year : Int) (month : Nat) : daysInMonth year month ≤ 31 := by
  unfold daysInMonth
  split
  · split <;> decide
  all_goals decide

/-! ### Instants as they are written -/

/-- Only the last second of a minute is a leap second. -/
def LeapsLast (t : Timestamp) : Prop := t.nano < nanosPerSecond ∨ t.second % 60 = 59

/-- The second and the nanoseconds that are written stand for those of the instant. -/
theorem write_eq {t : Timestamp} (h : t.LeapsLast) : ∃ second nano, second ≤ 60 ∧ nano < nanosPerSecond ∧
    (if second = 60 then (59, nano + nanosPerSecond) else (second, nano)) = (t.second % 60, t.nano) ∧
    t.write = writeYear t.date.year ++ '-' :: padded 2 t.date.month ++ '-' :: padded 2 t.date.day ++
      'T' :: padded 2 (t.second / 3600) ++ ':' :: padded 2 (t.second / 60 % 60) ++
      ':' :: padded 2 second ++ writeFraction nano ++ ['Z'] := by
  by_cases hleap : t.nano < nanosPerSecond
  · refine ⟨t.second % 60, t.nano, by omega, hleap, if_neg (by omega), ?_⟩
    simp only [write, hleap, if_true, Nat.add_zero, Nat.zero_mul, Nat.sub_zero]
  · have hlast : t.second % 60 = 59 := h.resolve_left hleap
    have hlt : t.nano - nanosPerSecond < nanosPerSecond :=
      Nat.sub_lt_left_of_lt_add (Nat.le_of_not_lt hleap) (Nat.two_mul _ ▸ t.nano_lt)
    refine ⟨60, t.nano - nanosPerSecond, Nat.le_refl 60, hlt, ?_, ?_⟩
    · rw [if_pos rfl, hlast, Nat.sub_add_cancel (Nat.le_of_not_lt hleap)]
    · simp only [write, hleap, if_false, hlast, Nat.one_mul]

theorem number?_trimStart {n : Nat} (h : n < 100) (rest : List Char) :
    number? 2 (Text.trimStart (padded 2 n ++ rest)) = some (n, rest) := by
  rw [trimStart_padded, number?_padded (by decide) h]

theorem parse?_write_of_leapsLast {t : Timestamp} (h : t.LeapsLast) : parse? t.write = some t := by
  have hday : t.second < 86400 := t.second_lt
  have hmonth := t.date.month_mem
  have hmonthDay : t.date.day ≤ 31 := Nat.le_trans t.date.day_mem.2 (daysInMonth_le ..)
  have hdash : ∀ s, literal? '-' (Text.trimStart ('-' :: s)) = some s := fun s => rfl
  have hcolon : ∀ s, literal? ':' (Text.trimStart (':' :: s)) = some s := fun s => rfl
  obtain ⟨second, nano, hsecond, hnano, hmoved, hwrite⟩ := write_eq h
  have hsum : t.second / 3600 * 3600 + t.second / 60 % 60 * 60 + t.second % 60 = t.second := by omega
  simp only [List.append_assoc, List.cons_append] at hwrite
  rw [hwrite, parse?, trimStart_writeYear]
  -- One part of the text after the other is read.
  refine Option.bind_eq_some_iff.mpr ⟨_, year?_writeYear _ (Json.noDigit_cons rfl), ?_⟩
  refine Option.bind_eq_some_iff.mpr ⟨_, hdash _, ?_⟩
  refine Option.bind_eq_some_iff.mpr ⟨_, number?_trimStart (by omega) _, ?_⟩
  refine Option.bind_eq_some_iff.mpr ⟨_, hdash _, ?_⟩
  refine Option.bind_eq_some_iff.mpr ⟨_, number?_trimStart (by omega) _, ?_⟩
  refine (if_pos rfl).trans (Option.bind_eq_some_iff.mpr ⟨_, rfl, ?_⟩)
  refine Option.bind_eq_some_iff.mpr ⟨_, number?_trimStart (by omega) _, ?_⟩
  refine Option.bind_eq_some_iff.mpr ⟨_, hcolon _, ?_⟩
  refine Option.bind_eq_some_iff.mpr ⟨_, number?_trimStart (by omega) _, ?_⟩
  refine Option.bind_eq_some_iff.mpr ⟨_, hcolon _, ?_⟩
  refine Option.bind_eq_some_iff.mpr ⟨_, number?_trimStart (by omega) _, ?_⟩
  refine Option.bind_eq_some_iff.mpr ⟨_, fraction?_writeFraction hnano, ?_⟩
  refine Option.bind_eq_some_iff.mpr ⟨(0, []), rfl, ?_⟩
  refine (if_neg (fun hne => hne rfl)).trans ((if_neg (by omega)).trans ?_)
  refine Option.bind_eq_some_iff.mpr ⟨_, t.date.of?_self, ?_⟩
  dsimp only
  rw [hmoved, hsum]
  exact atOffset?_zero t

/-! ### Instants as they are read -/

theorem foldl_digits_lt (ds : List Char) (n : Nat) :
    ds.foldl (fun n c => 10 * n + (digit? c).getD 0) n < 10 ^ ds.length * (n + 1) := by
  induction ds generalizing n with
  | nil => simp
  | cons c ds ih =>
    have hc : (digit? c).getD 0 ≤ 9 := by
      rw [digit?_eq]
      split
      · next h =>
        simp only [Char.isDigit, Bool.and_eq_true, decide_eq_true_eq] at h
        have hhigh : c.toNat ≤ 57 := h.2
        have hzero : '0'.toNat = 48 := rfl
        simp only [Option.getD_some, digitValue, hzero]
        omega
      · exact Nat.zero_le 9
    calc ds.foldl (fun n c => 10 * n + (digit? c).getD 0) (10 * n + (digit? c).getD 0)
      _ < 10 ^ ds.length * (10 * n + (digit? c).getD 0 + 1) := ih _
      _ ≤ 10 ^ ds.length * (10 * (n + 1)) := Nat.mul_le_mul_left _ (by omega)
      _ = 10 ^ (c :: ds).length * (n + 1) := by rw [List.length_cons, Nat.pow_succ, Nat.mul_assoc]

theorem fraction?_lt {s rest : List Char} {nano : Nat} (h : fraction? s = some (nano, rest)) :
    nano < nanosPerSecond := by
  unfold fraction? at h
  split at h
  · next tail =>
    generalize tail.takeWhile (digit? · |>.isSome) = ds at h
    dsimp only at h
    split at h
    · cases h
    · cases h
      have hkept := foldl_digits_lt (ds.take 9) 0
      rw [List.length_take, Nat.zero_add, Nat.mul_one] at hkept
      have hsplit : 10 ^ min 9 ds.length * 10 ^ (9 - min 9 ds.length) = nanosPerSecond := by
        rw [← Nat.pow_add, Nat.add_sub_cancel' (Nat.min_le_left ..)]
        rfl
      exact hsplit ▸ Nat.mul_lt_mul_of_pos_right hkept (Nat.pow_pos (by decide))
  · cases h
    decide

/-- Offsets are whole minutes, less than a day. -/
theorem offset?_minutes {s rest : List Char} {offset : Int} (h : offset? s = some (offset, rest)) :
    offset % 60 = 0 ∧ offset ≤ secondsPerDay := by
  unfold offset? at h
  split at h
  · cases h
    exact ⟨rfl, by decide⟩
  · cases h
    exact ⟨rfl, by decide⟩
  · split at h
    · cases h
      exact ⟨rfl, by decide⟩
    · split at h
      · next sign tail _ _ _ =>
        have hread : ∀ negative : Bool, ((pair? 9 tail).bind fun hours =>
            (pair? 5 (hours.2.dropWhile isSeparator)).bind fun minutes =>
              if (hours.1 * 3600 + minutes.1 * 60 : Int) < secondsPerDay then
                some (if negative then -(hours.1 * 3600 + minutes.1 * 60 : Int)
                  else hours.1 * 3600 + minutes.1 * 60, minutes.2)
              else none) = some (offset, rest) → offset % 60 = 0 ∧ offset ≤ secondsPerDay := by
          intro negative h
          obtain ⟨hours, -, h⟩ := Option.bind_eq_some_iff.mp h
          obtain ⟨minutes, -, h⟩ := Option.bind_eq_some_iff.mp h
          split at h
          · cases h
            split <;> omega
          · cases h
        simp only [Option.bind_eq_bind] at h
        split at h
        · exact hread false h
        · split at h
          · exact hread true h
          · cases h
      · cases h

theorem eq_of_of? {date : Date} {second nano : Nat} {t : Timestamp} (h : of? date second nano = some t) :
    t.second = second ∧ t.nano = nano := by
  unfold of? at h
  split at h
  · cases h
    exact ⟨rfl, rfl⟩
  · cases h

/-- Whole minutes leave the second of the minute alone. -/
theorem second_of_atOffset? {date : Date} {second nano : Nat} {offset : Int} {t : Timestamp}
    (ho : offset % 60 = 0 ∧ offset ≤ secondsPerDay) (h : atOffset? date second nano offset = some t) :
    t.second % 60 = second % 60 ∧ t.nano = nano := by
  unfold atOffset? at h
  dsimp only at h
  rw [secondsPerDay] at h ho
  split at h
  · obtain ⟨date', -, h⟩ := Option.bind_eq_some_iff.mp h
    obtain ⟨hsecond, hnano⟩ := eq_of_of? h
    exact ⟨by omega, hnano⟩
  · split at h
    · obtain ⟨hsecond, hnano⟩ := eq_of_of? h
      exact ⟨by omega, hnano⟩
    · obtain ⟨date', -, h⟩ := Option.bind_eq_some_iff.mp h
      obtain ⟨hsecond, hnano⟩ := eq_of_of? h
      exact ⟨by omega, hnano⟩

theorem leapsLast_of_parse? {s : List Char} {t : Timestamp} (h : parse? s = some t) : t.LeapsLast := by
  rw [parse?] at h
  obtain ⟨year, -, h⟩ := Option.bind_eq_some_iff.mp h
  obtain ⟨_, -, h⟩ := Option.bind_eq_some_iff.mp h
  obtain ⟨month, -, h⟩ := Option.bind_eq_some_iff.mp h
  obtain ⟨_, -, h⟩ := Option.bind_eq_some_iff.mp h
  obtain ⟨⟨day, _⟩, -, h⟩ := Option.bind_eq_some_iff.mp h
  dsimp only at h
  split at h
  · split at h
    · obtain ⟨_, -, h⟩ := Option.bind_eq_some_iff.mp h
      obtain ⟨hour, -, h⟩ := Option.bind_eq_some_iff.mp h
      obtain ⟨_, -, h⟩ := Option.bind_eq_some_iff.mp h
      obtain ⟨minute, -, h⟩ := Option.bind_eq_some_iff.mp h
      obtain ⟨_, -, h⟩ := Option.bind_eq_some_iff.mp h
      obtain ⟨second, -, h⟩ := Option.bind_eq_some_iff.mp h
      obtain ⟨fraction, hfraction, h⟩ := Option.bind_eq_some_iff.mp h
      obtain ⟨offset, hoffset, h⟩ := Option.bind_eq_some_iff.mp h
      split at h
      · cases h
      · split at h
        · cases h
        · obtain ⟨date, -, h⟩ := Option.bind_eq_some_iff.mp h
          obtain ⟨hsecond, hnano⟩ := second_of_atOffset? (offset?_minutes hoffset) h
          split at hsecond
          · exact .inr (by omega)
          · next hleap =>
            rw [if_neg hleap] at hnano
            exact .inl (hnano ▸ fraction?_lt hfraction)
    · cases h
  · cases h

/-- An instant that a text names. -/
def Readable (t : Timestamp) : Prop := ∃ s, parse? s = some t

theorem parse?_write {t : Timestamp} (h : t.Readable) : parse? t.write = some t := by
  obtain ⟨s, hs⟩ := h
  exact parse?_write_of_leapsLast (leapsLast_of_parse? hs)

end Timestamp

end CoreWarden.Time
