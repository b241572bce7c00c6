/-!
A clock that asks for a run at every multiple of its period. A run that is taken late makes it skip
the moments it has missed: it goes on with the first one after the run was taken.
-/
namespace CoreWarden

structure Ticker where
  period : Nat
  /-- The moment of the next run. -/
  due : Nat
  deriving DecidableEq

namespace Ticker

/-- A run taken at most this much late does not count as late, in milliseconds. -/
def tolerance : Nat := 5

/-- A ticker that begins at `first`. There is none without a period. -/
def start? (period first : Nat) : Option Ticker := if period = 0 then none else some ⟨period, first⟩

/-- A run is taken at `now`. -/
def take (t : Ticker) (now : Nat) : Ticker :=
  if t.due + tolerance < now then { t with due := now + t.period - (now - t.due) % t.period }
  else { t with due := t.due + t.period }

theorem lt_due_take {t : Ticker} {now : Nat} (hp : 0 < t.period) (hd : t.due ≤ now) :
    t.due < (t.take now).due := by
  unfold take
  split
  · have := Nat.mod_lt (now - t.due) hp
    simp only
    omega
  · simp only
    omega

end Ticker

end CoreWarden
