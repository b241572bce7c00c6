import CoreWarden.Rehearsal

/-!
Rehearsals of the cache alone: one operation at a time in a scripted world, each to its end. The
fetches of a refresh are begun in the order of the keys and answered in the order of time; one that
breaks down takes the others along.
-/
namespace CoreWarden

open Time (Timestamp)

structure CacheRehearsal where
  world : World
  now : Nat
  wall : Timestamp
  cache : Cache
  /-- Whether anybody fetches at all. -/
  hasFetchers : Bool
  log : List Logged

namespace CacheRehearsal

def initial (world : World) (hasFetchers : Bool) : CacheRehearsal :=
  ⟨world, 0, .epoch, .empty, hasFetchers, []⟩

inductive Step where
  | get (key : CacheKey)
  | entry (key : CacheKey)
  | invalidate (key : CacheKey)
  | refetch (key : CacheKey)
  | set (key : CacheKey) (value : Json.Value)
  | refresh (keys : List CacheKey)
  | world (change : World.Change)
  | invalidKey (name : String)
  | unusable

inductive Outcome where
  | nothing
  | stored
  | value (value : Option Json.Value)
  | entry (entry : Option CacheEntry)
  | existed (found : Bool)
  | fetched (result : Except Error Json.Value)
  | report (report : RefreshReport)
  | collapsed
  /-- A call was never heard of again. -/
  | pending
  | invalidKey (name : String)
  | unusable

structure Fetch where
  slot : Nat
  request : Request
  behavior : Behavior
  due : Nat

def Fetch.collapsesAtOnce (f : Fetch) : Bool := f.behavior.collapses && f.behavior.pause == 0

def begin (r : CacheRehearsal) (slot : Nat) (request : Request) : Fetch × CacheRehearsal :=
  let (behavior, world) := r.world.place r.now request
  (⟨slot, request, behavior, r.now + behavior.pause⟩,
    { r with world, log := r.log ++ [⟨r.now, request⟩] })

/-- Begins fetches one after the other, until one breaks down at once. -/
def beginAll (r : CacheRehearsal) : List (Nat × Request) → List Fetch × CacheRehearsal
  | [] => ([], r)
  | (slot, request) :: asks =>
    let (fetch, r) := r.begin slot request
    if fetch.collapsesAtOnce then ([fetch], r)
    else
      let (fetches, r) := r.beginAll asks
      (fetch :: fetches, r)

/-- Lets the fetches be answered in their order. -/
def answerAll (r : CacheRehearsal) (refresh : Refresh) : List Fetch → Outcome × CacheRehearsal
  | [] => (if refresh.isDone then .report refresh.report else .pending, r)
  | f :: fetches =>
    match r.world.answer? f.request f.behavior with
    | none => answerAll r refresh fetches
    | some (.collapsed, world) => (.collapsed, { r with world, now := f.due })
    | some (answer, world) =>
      let r := { r with world, now := f.due }
      match answer.fetched? with
      | some result =>
        let (refresh, cache) := refresh.settle f.slot result r.cache r.wall
        answerAll { r with cache } refresh fetches
      | none => answerAll r refresh fetches

def refresh (r : CacheRehearsal) (keys : List CacheKey) : Outcome × CacheRehearsal :=
  let (refresh, cache) := Refresh.start r.hasFetchers keys r.cache
  let (fetches, r) := { r with cache }.beginAll refresh.asks
  r.answerAll refresh (fetches.mergeSort fun f g => decide (f.due ≤ g.due))

def refetch (r : CacheRehearsal) (key : CacheKey) : Outcome × CacheRehearsal :=
  if r.hasFetchers then
    let (f, r) := r.begin 0 key.request
    match r.world.answer? f.request f.behavior with
    | none => (.pending, r)
    | some (.collapsed, world) => (.collapsed, { r with world, now := f.due })
    | some (answer, world) =>
      let r := { r with world, now := f.due }
      match answer.fetched? with
      | some (.ok value) => (.fetched (.ok value), { r with cache := r.cache.set key value r.wall })
      | some (.error e) => (.fetched (.error e), r)
      | none => (.pending, r)
  else (.fetched (.error key.noFetcher), r)

def takeStep (r : CacheRehearsal) : Step → Outcome × CacheRehearsal
  | .get key => (.value (r.cache.value? key), r)
  | .entry key => (.entry (r.cache.find? key), r)
  | .invalidate key =>
    (.existed (r.cache.find? key).isSome, { r with cache := r.cache.invalidate key })
  | .refetch key => r.refetch key
  | .set key value => (.stored, { r with cache := r.cache.set key value r.wall })
  | .refresh keys => r.refresh keys
  | .world change => (.nothing, { r with world := r.world.change r.now change })
  | .invalidKey name => (.invalidKey name, r)
  | .unusable => (.unusable, r)

structure Report where
  time : Nat
  outcome : Outcome
  calls : List Logged
  cache : Cache

def reports (r : CacheRehearsal) : List Step → List Report
  | [] => []
  | step :: steps =>
    let (outcome, r) := { r with wall := r.wall.later, log := [] }.takeStep step
    ⟨r.now, outcome, r.log, r.cache⟩ :: reports r steps

end CacheRehearsal

end CoreWarden
