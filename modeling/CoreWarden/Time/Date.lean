/-!
Calendar days of the proleptic Gregorian calendar, in a range of years wide enough for every
timestamp that is exchanged. Main statement: the day after the day before a day is that day.
-/
namespace CoreWarden.Time

def isLeap (year : Int) : Bool := year % 4 == 0 && (year % 100 != 0 || year % 400 == 0)

def daysInMonth (year : Int) (month : Nat) : Nat :=
  match month with
  | 2 => if isLeap year then 29 else 28
  | 4 | 6 | 9 | 11 => 30
  | _ => 31

def leastYear : Int := -262143

def greatestYear : Int := 262142

structure Date where
  year : Int
  month : Nat
  day : Nat
  year_mem : leastYear ≤ year ∧ year ≤ greatestYear
  month_mem : 1 ≤ month ∧ month ≤ 12
  day_mem : 1 ≤ day ∧ day ≤ daysInMonth year month
  deriving DecidableEq

namespace Date

def of? (year : Int) (month day : Nat) : Option Date :=
  if h : (leastYear ≤ year ∧ year ≤ greatestYear) ∧ (1 ≤ month ∧ month ≤ 12) ∧
      (1 ≤ day ∧ day ≤ daysInMonth year month) then
    some ⟨year, month, day, h.1, h.2.1, h.2.2⟩
  else none

theorem of?_self (d : Date) : of? d.year d.month d.day = some d := by
  simp [of?, d.year_mem, d.month_mem, d.day_mem]

theorem eq_of_of? {year : Int} {month day : Nat} {d : Date} (h : of? year month day = some d) :
    d.year = year ∧ d.month = month ∧ d.day = day := by
  unfold of? at h
  split at h
  · cases h
    exact ⟨rfl, rfl, rfl⟩
  · cases h

def next? (d : Date) : Option Date :=
  if d.day < daysInMonth d.year d.month then of? d.year d.month (d.day + 1)
  else if d.month < 12 then of? d.year (d.month + 1) 1
  else of? (d.year + 1) 1 1

def previous? (d : Date) : Option Date :=
  if 1 < d.day then of? d.year d.month (d.day - 1)
  else if 1 < d.month then of? d.year (d.month - 1) (daysInMonth d.year (d.month - 1))
  else of? (d.year - 1) 12 31

theorem next?_of_previous? {d e : Date} (h : d.previous? = some e) : e.next? = some d := by
  have hd := d.day_mem
  have hm := d.month_mem
  unfold previous? at h
  split at h
  · obtain ⟨hy, hmo, hda⟩ := eq_of_of? h
    have : e.day < daysInMonth e.year e.month := by rw [hy, hmo, hda]; omega
    rw [next?, if_pos this, hy, hmo, hda, Nat.sub_add_cancel (by omega), of?_self]
  · have hday : d.day = 1 := by omega
    split at h
    · obtain ⟨hy, hmo, hda⟩ := eq_of_of? h
      have h₁ : ¬e.day < daysInMonth e.year e.month := by rw [hy, hmo, hda]; omega
      have h₂ : e.month < 12 := by omega
      rw [next?, if_neg h₁, if_pos h₂, hy, hmo, Nat.sub_add_cancel (by omega), ← hday, of?_self]
    · have hmonth : d.month = 1 := by omega
      obtain ⟨hy, hmo, hda⟩ := eq_of_of? h
      have h₁ : ¬e.day < daysInMonth e.year e.month := by rw [hmo, hda]; simp [daysInMonth]
      have h₂ : ¬e.month < 12 := by omega
      rw [next?, if_neg h₁, if_neg h₂, hy, Int.sub_add_cancel]
      have := of?_self d
      rwa [hday, hmonth] at this

end Date

end CoreWarden.Time
