/-! How long a pause lasts. A pause that is asked to be longer than all others lasts thirty years. -/
namespace CoreWarden.Time

/-- Thirty years of 365 days, in milliseconds. -/
def longestPause : Nat := 30 * 365 * 24 * 60 * 60 * 1000

/-- When a pause ends that begins at `now`. -/
def pauseEnd (now delay : Nat) : Nat := now + min delay longestPause

theorem le_pauseEnd (now delay : Nat) : now ≤ pauseEnd now delay := Nat.le_add_right ..

theorem pauseEnd_of_le {delay : Nat} (now : Nat) (h : delay ≤ longestPause) :
    pauseEnd now delay = now + delay := by
  rw [pauseEnd, Nat.min_eq_left h]

end CoreWarden.Time
