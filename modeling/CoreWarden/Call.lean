import CoreWarden.Conflict
import CoreWarden.Profile
import CoreWarden.Proxy

/-!
Calls to the collaborators of the controller: the core, the process manager and the profile store.
A call that was begun may be answered with a result, or break down, or never be heard of again.
-/
namespace CoreWarden

inductive Request where
  /-- Asks the core for its version. -/
  | version
  /-- Tells the core to switch to a profile. -/
  | switch (configId : String)
  | proxies
  | config
  /-- Asks the process manager for the processes of the core. -/
  | status
  | restart
  /-- Asks the profile store for its list. -/
  | list
  /-- Tells the profile store which profile is current. -/
  | store (configId : String)
  deriving DecidableEq

inductive Answer where
  | version (result : Except Error Version)
  | switch (result : Except Error Unit)
  | proxies (result : Except Error ProxySnapshot)
  | config (result : Except Error Json.Value)
  | status (result : Except Error StatusReport)
  | restart (result : Except Error Unit)
  | list (result : Except Error ProfileList)
  | store (result : Except Error Unit)
  /-- The collaborator broke down and took the work that called it along. -/
  | collapsed

inductive Signal where
  /-- The call begun under this number is answered. -/
  | answer (slot : Nat) (answer : Answer)
  /-- The time it was waiting for has come. -/
  | timeUp

/-- Where a piece of work stands after a signal: at another point, having begun some calls, each
under a number of its own, or at its end. -/
inductive Progress (φ ρ : Type) where
  | waiting (phase : φ) (asks : List (Nat × Request))
  | done (result : ρ)

def Progress.map (f : φ → ψ) : Progress φ ρ → Progress ψ ρ
  | .waiting phase asks => .waiting (f phase) asks
  | .done result => .done result

end CoreWarden
