import CoreWarden.Probe

/-!
The course of a whole health wait: what becomes of it when each request meets a given reaction of
the core. The reaction may depend on when the request is made and on what went before.
-/
namespace CoreWarden.Probe

inductive Reaction where
  | answers (delay : Nat) (result : Except Error Version)
  | collapses (delay : Nat)
  | silent

inductive Ending where
  | finished (result : Except Error Unit)
  /-- The core broke down in a request. -/
  | collapsed

/-- The end of a health wait, when it came, and when the requests were made, counted from its
beginning. -/
structure Course where
  ending : Ending
  elapsed : Nat
  calls : List Nat

/-- What a request comes to that is made at `now` and given up at `limit`: the moment and the signal
to the wait, or none if the core breaks down. An answer at the limit counts. -/
def outcome (attempt now limit : Nat) : Reaction → Nat × Option Signal
  | .answers delay result =>
    if now + delay ≤ limit then (now + delay, some (.answer attempt (.version result)))
    else (limit, some .timeUp)
  | .collapses delay => if now + delay ≤ limit then (now + delay, none) else (limit, some .timeUp)
  | .silent => (limit, some .timeUp)

/-- The course from the request with number `attempt` on, if it comes to an end within so many
requests. -/
def courseFrom (pace : Pace) (react : σ → Nat → Reaction × σ) :
    Nat → σ → (attempt now : Nat) → Option Course
  | 0, _, _, _ => none
  | fuel + 1, env, attempt, now =>
    let limit := Time.pauseEnd now (pace.maxWait - now)
    let (reaction, env) := react env now
    match outcome attempt now limit reaction with
    | (moment, none) => some ⟨.collapsed, moment, [now]⟩
    | (moment, some signal) =>
      match (asking 0 attempt limit).resume pace moment signal with
      | .done result => some ⟨.finished result, moment, [now]⟩
      | .waiting probe _ =>
        (courseFrom pace react fuel env (attempt + 1) probe.due).map fun course =>
          { course with calls := now :: course.calls }

/-- More requests than a wait makes in which time passes. -/
def mostRequests (pace : Pace) : Nat := pace.maxWait + 2

/-- The course of a whole wait. There is none if it goes on forever without time passing. -/
def course? (pace : Pace) (react : σ → Nat → Reaction × σ) (env : σ) : Option Course :=
  courseFrom pace react (mostRequests pace) env 1 0

end CoreWarden.Probe
