import CoreWarden.Call
import CoreWarden.Time.Timestamp

/-!
The cache of derived data. An entry that is invalidated keeps its value and is marked stale until a
new value is stored. A refresh marks the listed entries stale and fetches them side by side; that
some of the fetches fail is part of its report and no failure of the refresh.
-/
namespace CoreWarden

open Json (Encode Decode encode Tree Value)
open Time (Timestamp)

inductive CacheKey where
  | profiles
  | proxies
  | clashConfig
  deriving DecidableEq, Inhabited

namespace CacheKey

def all : List CacheKey := [profiles, proxies, clashConfig]

def name : CacheKey → String
  | profiles => "profiles"
  | proxies => "proxies"
  | clashConfig => "clash-config"

def ofName? (s : String) : Option CacheKey := all.find? (·.name == s)

theorem ofName?_name (k : CacheKey) : ofName? k.name = some k := by
  cases k <;> decide

/-- What is said of a name that is no key. -/
def invalidMessage (s : String) : String := "Invalid cache key: " ++ s

def request : CacheKey → Request
  | profiles => .list
  | proxies => .proxies
  | clashConfig => .config

def noFetcher (k : CacheKey) : Error := .notFound ("缓存键 " ++ k.name ++ " 的取数函数")

end CacheKey

instance : Encode CacheKey := ⟨fun k => .string k.name⟩

instance : Decode CacheKey := ⟨fun room tree => (tree.choice? room).bind CacheKey.ofName?⟩

structure CacheEntry where
  value : Value
  updatedAt : Timestamp
  /-- Invalidated, and not fetched again since. -/
  stale : Bool

instance : Encode CacheEntry where
  encode e := .object
    [("value", e.value), ("updated_at", encode e.updatedAt), ("stale", encode e.stale)]

structure Cache where
  profiles : Option CacheEntry
  proxies : Option CacheEntry
  clashConfig : Option CacheEntry

namespace Cache

def empty : Cache := ⟨none, none, none⟩

def find? (c : Cache) : CacheKey → Option CacheEntry
  | .profiles => c.profiles
  | .proxies => c.proxies
  | .clashConfig => c.clashConfig

def put (c : Cache) (key : CacheKey) (entry : Option CacheEntry) : Cache :=
  match key with
  | .profiles => { c with profiles := entry }
  | .proxies => { c with proxies := entry }
  | .clashConfig => { c with clashConfig := entry }

@[simp] theorem find?_put (c : Cache) (key other : CacheKey) (entry : Option CacheEntry) :
    (c.put key entry).find? other = if other = key then entry else c.find? other := by
  cases key <;> cases other <;> rfl

def value? (c : Cache) (key : CacheKey) : Option Value := (c.find? key).map CacheEntry.value

def set (c : Cache) (key : CacheKey) (value : Value) (wall : Timestamp) : Cache :=
  c.put key (some ⟨value, wall, false⟩)

def invalidate (c : Cache) (key : CacheKey) : Cache :=
  c.put key ((c.find? key).map ({ · with stale := true }))

end Cache

/-- What a fetch for the cache brought, if the call was one that fetches. -/
def Answer.fetched? : Answer → Option (Except Error Value)
  | .list r => some (r.map encode)
  | .proxies r => some (r.map encode)
  | .config r => some r
  | _ => none

/-- What became of a refresh: the keys fetched, and those that failed with their reasons, each in
the order in which they were listed. -/
structure RefreshReport where
  refreshed : List CacheKey
  failed : List (CacheKey × String)

def RefreshReport.isComplete (r : RefreshReport) : Bool := r.failed.isEmpty

/-- A refresh in progress: the listed keys, each with the result of its fetch once there is one. -/
structure Refresh where
  fetches : List (CacheKey × Option (Except Error Unit))

namespace Refresh

/-- Marks the listed keys stale and begins to fetch; without a fetcher a key fails at once. -/
def start (hasFetcher : Bool) (keys : List CacheKey) (cache : Cache) : Refresh × Cache :=
  (⟨keys.map fun k => (k, if hasFetcher then none else some (.error k.noFetcher))⟩,
    keys.foldl Cache.invalidate cache)

/-- The calls to be made, by position. -/
def asks (r : Refresh) : List (Nat × Request) :=
  (r.fetches.zipIdx.filter (·.1.2.isNone)).map fun f => (f.2, f.1.1.request)

def settle (r : Refresh) (slot : Nat) (result : Except Error Value) (cache : Cache)
    (wall : Timestamp) : Refresh × Cache :=
  match r.fetches[slot]? with
  | some (key, none) =>
    (⟨r.fetches.set slot (key, some (result.map fun _ => ()))⟩,
      match result with
      | .ok value => cache.set key value wall
      | .error _ => cache)
  | _ => (r, cache)

def isDone (r : Refresh) : Bool := r.fetches.all (·.2.isSome)

def report (r : Refresh) : RefreshReport where
  refreshed := r.fetches.filterMap fun
    | (key, some (.ok _)) => some key
    | _ => none
  failed := r.fetches.filterMap fun
    | (key, some (.error e)) => some (key, e.message)
    | _ => none

end Refresh

end CoreWarden
