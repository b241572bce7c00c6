import CoreWarden.Cache
import CoreWarden.Probe
import CoreWarden.SyncState

/-!
What all the work of a controller shares: the time, the observable state and the cache, and the
steps that several kinds of work are made of.
-/
namespace CoreWarden

open Time (Timestamp)

structure Shared where
  timings : Timings
  /-- The time in milliseconds. -/
  now : Nat
  /-- What the clock on the wall shows. -/
  wall : Timestamp
  state : SyncState
  cache : Cache

namespace Shared

def initial (timings : Timings) (currentConfig : Option String) : Shared where
  timings := timings
  now := 0
  wall := .epoch
  state := .initial timings currentConfig
  cache := .empty

def onState (f : SyncState → SyncState) (s : Shared) : Shared := { s with state := f s.state }

def pace (s : Shared) : Probe.Pace :=
  ⟨s.timings.healthProbeInterval.toNat, s.timings.healthProbeMaxWait.toNat⟩

def check (s : Shared) (result : Except Error StatusReport) : ConflictReport × Shared :=
  let report := ConflictReport.ofStatus result
  (report, s.onState (·.applyConflict report))

def recordSuccess (s : Shared) : Shared := s.onState (·.recordSuccess s.now s.wall)

def startRefresh (s : Shared) : Refresh × Shared :=
  let (refresh, cache) := Refresh.start true CacheKey.all s.cache
  (refresh, { s with cache })

def resumeRefresh (s : Shared) (refresh : Refresh) : Signal → Refresh × Shared
  | .answer slot answer =>
    match answer.fetched? with
    | some result =>
      let (refresh, cache) := refresh.settle slot result s.cache s.wall
      (refresh, { s with cache })
    | none => (refresh, s)
  | .timeUp => (refresh, s)

end Shared

end CoreWarden
