import CoreWarden.Controller.Shared
import CoreWarden.Outcome

/-!
A reconciliation: the profiles and the proxies are fetched side by side, and then compared with what
is known. A profile that was made current elsewhere is taken over only if both fetches succeeded, so
that it is never mixed with old proxy data; a fetch that failed counts as a change.
-/
namespace CoreWarden

/-- The two fetches of a reconciliation, each with its result once there is one. -/
structure Tick where
  profiles : Option (Except Error ProfileList)
  proxies : Option (Except Error ProxySnapshot)

namespace Tick

def start : Tick := ⟨none, none⟩

def awaits (t : Tick) : List (Nat × Request) :=
  (if t.profiles.isNone then [(0, .list)] else []) ++ if t.proxies.isNone then [(1, .proxies)] else []

def resume (t : Tick) : Signal → Tick
  | .answer 0 (.list result) => { t with profiles := t.profiles.or (some result) }
  | .answer 1 (.proxies result) => { t with proxies := t.proxies.or (some result) }
  | _ => t

def results? (t : Tick) : Option (Except Error ProfileList × Except Error ProxySnapshot) :=
  match t.profiles, t.proxies with
  | some profiles, some proxies => some (profiles, proxies)
  | _, _ => none

structure Finding where
  /-- The shape of the groups, if the proxies were fetched. -/
  shape : Option GroupShape
  /-- The current profile of the store, if it is to be taken over. -/
  reported : Option String
  outcome : TickOutcome
  deriving DecidableEq

/-- Compares the results with the shape seen last and the profile that is current. -/
def finding (observed : Option GroupShape) (state : SyncState) (profiles : Except Error ProfileList)
    (proxies : Except Error ProxySnapshot) : Finding :=
  match profiles, proxies with
  | .ok list, .ok snapshot =>
    let shape := snapshot.groupShape
    let moved := observed.any (· ≠ shape)
    let switched := list.current.any state.differs
    ⟨some shape, list.current, if moved || switched then .changed else .unchanged⟩
  | _, .ok snapshot => ⟨some snapshot.groupShape, none, .fetchFailed⟩
  | _, .error _ => ⟨none, none, .fetchFailed⟩

end Tick

end CoreWarden
