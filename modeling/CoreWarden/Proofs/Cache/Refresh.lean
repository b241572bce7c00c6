import CoreWarden.Proofs.Controller.Entries

/-!
A refresh from its beginning to its end. It marks the listed keys stale, fetches once for each place in
the list, and takes the answers in the order in which they come. Its report goes through the list in its
order; each entry holds what was stored last, and in which order the fetches of different keys are
answered does not matter.
-/
namespace CoreWarden

open Json (Value)
open Time (Timestamp)

/-- The end of a fetch: what it brings, and what the clock on the wall shows when it is answered. -/
structure Arrival where
  result : Except Error Value
  wall : Timestamp

def Arrival.Fails (a : Arrival) : Prop := ∃ e, a.result = .error e

/-- What is seen of an entry, apart from the moment at which it was stored. -/
def CacheEntry.shown (e : CacheEntry) : Value × Bool := (e.value, e.stale)

theorem CacheEntry.marked_marked (e : CacheEntry) : e.marked.marked = e.marked := rfl

namespace Cache

theorem find?_invalidate (cache : Cache) (key other : CacheKey) : (cache.invalidate key).find? other =
    if other = key then (cache.find? other).map CacheEntry.marked else cache.find? other := by
  rw [invalidate, find?_put]
  split
  · next h => rw [h]; rfl
  · rfl

/-- The listed entries are marked, also those that are listed more than once. -/
theorem find?_invalidateAll (cache : Cache) (keys : List CacheKey) (key : CacheKey) :
    (keys.foldl invalidate cache).find? key =
      if key ∈ keys then (cache.find? key).map CacheEntry.marked else cache.find? key := by
  induction keys generalizing cache with
  | nil => rfl
  | cons first keys ih =>
    rw [List.foldl_cons, ih, find?_invalidate]
    by_cases hfirst : key = first <;> by_cases hkeys : key ∈ keys <;>
      simp [hfirst, hkeys, Function.comp_def, CacheEntry.marked_marked]

theorem find?_set (cache : Cache) (key other : CacheKey) (value : Value) (wall : Timestamp) :
    (cache.set key value wall).find? other =
      if other = key then some ⟨value, wall, false⟩ else cache.find? other :=
  cache.find?_put ..

end Cache

namespace Refresh

variable {hasFetcher : Bool} {keys : List CacheKey} {cache : Cache} {ends : Nat → Arrival}
  {done order : List Nat} {slot : Nat} {key : CacheKey}

/-- Takes in the answers to the fetches in these places, one after the other. -/
def settleAll (ends : Nat → Arrival) (begun : Refresh × Cache) (order : List Nat) : Refresh × Cache :=
  order.foldl (fun stage slot => stage.1.settle slot (ends slot).result stage.2 (ends slot).wall) begun

/-- How the fetch in a place of the list ends. -/
def outcome (hasFetcher : Bool) (ends : Nat → Arrival) (place : CacheKey × Nat) : Except Error Value :=
  if hasFetcher then (ends place.2).result else .error place.1.noFetcher

def failure? : Except Error Value → Option String
  | .error e => some e.message
  | .ok _ => none

def answered (hasFetcher : Bool) (keys : List CacheKey) (ends : Nat → Arrival) (done : List Nat) :
    Refresh :=
  ⟨keys.zipIdx.map fun place => (place.1,
    if hasFetcher && place.2 ∉ done then none
    else some ((outcome hasFetcher ends place).map fun _ => ()))⟩

/-- What a refresh has made of an entry when the fetches in some places are answered. -/
inductive EntryAfter (keys : List CacheKey) (ends : Nat → Arrival) (done : List Nat) (key : CacheKey)
    (before : Option CacheEntry) : Option CacheEntry → Prop
  /-- What was brought last is fresh. -/
  | stored {earlier slot later value} (h : done = earlier ++ slot :: later)
      (hkey : keys[slot]? = some key) (hvalue : (ends slot).result = .ok value)
      (hlater : ∀ i ∈ later, keys[i]? = some key → (ends i).Fails) :
      EntryAfter keys ends done key before (some ⟨value, (ends slot).wall, false⟩)
  /-- As long as nothing is brought, what was there is marked stale. -/
  | marked (hlisted : key ∈ keys) (hnone : ∀ i ∈ done, keys[i]? = some key → (ends i).Fails) :
      EntryAfter keys ends done key before (before.map CacheEntry.marked)
  | untouched (hlisted : key ∉ keys) : EntryAfter keys ends done key before before

/-! ### The beginning -/

theorem fst_start : (start hasFetcher keys cache).1 = answered hasFetcher keys ends [] := by
  have hplaces : keys.map (fun key => (key, if hasFetcher then none else some (.error key.noFetcher))) =
      keys.zipIdx.map fun place => (place.1,
        if hasFetcher then none else some (Except.error (α := Unit) place.1.noFetcher)) := by
    conv_lhs => rw [← List.zipIdx_map_fst 0 keys, List.map_map]
    rfl
  rw [start, answered, hplaces]
  cases hasFetcher <;> rfl

theorem asks_start : (start hasFetcher keys cache).1.asks =
    if hasFetcher then keys.zipIdx.map fun place => (place.2, place.1.request) else [] := by
  cases hasFetcher with
  | false => simp [asks, start, List.zipIdx_map, List.filter_map, Function.comp_def]
  | true => simp [asks, start, List.zipIdx_map, List.filter_map, Function.comp_def]

theorem slots_start : (start hasFetcher keys cache).1.asks.map Prod.fst =
    if hasFetcher then List.range keys.length else [] := by
  rw [asks_start]
  cases hasFetcher with
  | false => rfl
  | true => simp [Function.comp_def, List.zipIdx_map_snd, List.range_eq_range']

/-! ### One answer after the other -/

theorem getElem?_answered : (answered hasFetcher keys ends done).fetches[slot]? =
    keys[slot]?.map fun key => (key, if hasFetcher && slot ∉ done then none
      else some ((outcome hasFetcher ends (key, slot)).map fun _ => ())) := by
  simp [answered, List.getElem?_zipIdx, Function.comp_def]

theorem settle_answered (hkey : keys[slot]? = some key) (hnew : slot ∉ done) (cache : Cache)
    (wall : Timestamp) :
    (answered true keys ends done).settle slot (ends slot).result cache wall =
      (answered true keys ends (done ++ [slot]), match (ends slot).result with
        | .ok value => cache.set key value wall
        | .error _ => cache) := by
  have hopen : (answered true keys ends done).fetches[slot]? = some (key, none) := by
    simp [getElem?_answered, hkey, hnew]
  have hfetches : (answered true keys ends done).fetches.set slot
      (key, some ((ends slot).result.map fun _ => ())) =
      (answered true keys ends (done ++ [slot])).fetches := by
    refine List.ext_getElem? fun i => ?_
    rw [List.getElem?_set, getElem?_answered, getElem?_answered]
    obtain ⟨hlt, -⟩ := List.getElem?_eq_some_iff.mp hopen
    by_cases hi : slot = i
    · subst hi
      simp [hlt, hkey, outcome]
    · simp [hi, Ne.symm hi]
  generalize (ends slot).result = result at hfetches ⊢
  cases result <;> simp only [settle, hopen, hfetches]

theorem settleAll_concat (ends : Nat → Arrival) (begun : Refresh × Cache) (done : List Nat)
    (slot : Nat) : settleAll ends begun (done ++ [slot]) =
      (settleAll ends begun done).1.settle slot (ends slot).result (settleAll ends begun done).2
        (ends slot).wall := by
  simp [settleAll]

/-- Places whose fetches can be answered, each once. -/
structure Answerable (hasFetcher : Bool) (keys : List CacheKey) (done : List Nat) : Prop where
  nodup : done.Nodup
  asked : ∀ slot ∈ done, hasFetcher = true ∧ slot < keys.length

theorem Answerable.concat (h : Answerable hasFetcher keys (done ++ [slot])) :
    Answerable hasFetcher keys done ∧ hasFetcher = true ∧ slot < keys.length ∧ slot ∉ done := by
  obtain ⟨hnodup, hasked⟩ := h
  obtain ⟨hnodup, -, hnew⟩ := List.nodup_append.mp hnodup
  obtain ⟨hdone, hslot⟩ := List.forall_mem_append.mp hasked
  obtain ⟨hfetcher, hlt⟩ := hslot slot (List.mem_singleton.mpr rfl)
  refine ⟨⟨hnodup, hdone⟩, hfetcher, hlt, fun hmem => ?_⟩
  exact hnew slot hmem slot (List.mem_singleton.mpr rfl) rfl

theorem fst_settleAll (h : Answerable hasFetcher keys done) (ends : Nat → Arrival) (cache : Cache) :
    (settleAll ends (start hasFetcher keys cache) done).1 = answered hasFetcher keys ends done := by
  induction done using List.reverseRecOn with
  | nil => exact fst_start
  | append_singleton done slot ih =>
    obtain ⟨hdone, rfl, hlt, hnew⟩ := h.concat
    rw [settleAll_concat, ih hdone, settle_answered (List.getElem?_eq_getElem hlt) hnew]

theorem EntryAfter.concat {before after : Option CacheEntry}
    (h : EntryAfter keys ends done key before after)
    (hfails : keys[slot]? = some key → (ends slot).Fails) :
    EntryAfter keys ends (done ++ [slot]) key before after := by
  have hlast : ∀ i ∈ [slot], keys[i]? = some key → (ends i).Fails := by simpa using hfails
  cases h with
  | @stored earlier s later value hdone hkey hvalue hlater =>
    have hsplit : done ++ [slot] = earlier ++ s :: (later ++ [slot]) := by
      rw [hdone, List.append_assoc, List.cons_append]
    exact .stored hsplit hkey hvalue (List.forall_mem_append.mpr ⟨hlater, hlast⟩)
  | marked hlisted hnone => exact .marked hlisted (List.forall_mem_append.mpr ⟨hnone, hlast⟩)
  | untouched hlisted => exact .untouched hlisted

theorem entryAfter_settleAll (h : Answerable hasFetcher keys done) (ends : Nat → Arrival)
    (cache : Cache) (key : CacheKey) : EntryAfter keys ends done key (cache.find? key)
      ((settleAll ends (start hasFetcher keys cache) done).2.find? key) := by
  induction done using List.reverseRecOn with
  | nil =>
    have hbegun : (settleAll ends (start hasFetcher keys cache) []).2.find? key = _ :=
      cache.find?_invalidateAll keys key
    rw [hbegun]
    split
    · next hlisted => exact .marked hlisted (by simp)
    · next hlisted => exact .untouched hlisted
  | append_singleton done slot ih =>
    obtain ⟨hdone, rfl, hlt, hnew⟩ := h.concat
    have hkey : keys[slot]? = some keys[slot] := List.getElem?_eq_getElem hlt
    rw [settleAll_concat, fst_settleAll hdone, settle_answered hkey hnew]
    cases hresult : (ends slot).result with
    | error e => exact (ih hdone).concat fun _ => ⟨e, hresult⟩
    | ok value =>
      dsimp only
      rw [Cache.find?_set]
      split
      · next hsame => exact .stored rfl (hsame ▸ hkey) hresult (by simp)
      · next hother =>
        refine (ih hdone).concat fun hat => ?_
        exact absurd (Option.some.inj (hat.symm.trans hkey)) hother

/-! ### The end -/

theorem answerable_of_perm (h : order.Perm ((start hasFetcher keys cache).1.asks.map Prod.fst)) :
    Answerable hasFetcher keys order ∧ (hasFetcher = true → ∀ slot < keys.length, slot ∈ order) := by
  rw [slots_start] at h
  cases hasFetcher with
  | false =>
    obtain rfl : order = [] := h.eq_nil
    exact ⟨⟨List.nodup_nil, by simp⟩, by simp⟩
  | true =>
    refine ⟨⟨h.nodup_iff.mpr List.nodup_range, fun slot hslot => ⟨rfl, ?_⟩⟩, fun _ slot hlt => ?_⟩
    · exact List.mem_range.mp (h.mem_iff.mp hslot)
    · exact h.mem_iff.mpr (List.mem_range.mpr hlt)

theorem Answerable.of_prefix (h : Answerable hasFetcher keys order) (hdone : done <+: order) :
    Answerable hasFetcher keys done :=
  ⟨hdone.sublist.nodup h.nodup, fun slot hslot => h.asked slot (hdone.subset hslot)⟩

theorem fetches_answered (hall : hasFetcher = true → ∀ slot < keys.length, slot ∈ order) :
    (answered hasFetcher keys ends order).fetches = keys.zipIdx.map fun place =>
      (place.1, some ((outcome hasFetcher ends place).map fun _ => ())) := by
  refine List.map_congr_left fun place hplace => ?_
  have hlt : place.2 < keys.length := List.snd_lt_of_mem_zipIdx hplace
  have hanswered : (hasFetcher && decide (place.2 ∉ order)) = false := by
    cases hasFetcher with
    | false => rfl
    | true => simpa using hall rfl place.2 hlt
  rw [hanswered]
  rfl

theorem report_answered (ends : Nat → Arrival) (hall : hasFetcher = true → ∀ slot < keys.length, slot ∈ order) :
    let refresh := answered hasFetcher keys ends order
    let failed (place : CacheKey × Nat) := failure? (outcome hasFetcher ends place)
    refresh.isDone = true ∧
      refresh.report.refreshed = (keys.zipIdx.filter fun place => (failed place).isNone).map Prod.fst ∧
      refresh.report.failed = keys.zipIdx.filterMap fun place => (failed place).map (place.1, ·) := by
  intro refresh failed
  have hfetches : refresh.fetches = _ := fetches_answered hall
  refine ⟨?_, ?_, ?_⟩
  · rw [isDone, hfetches]
    simp
  · have hplaces : (keys.zipIdx.filter fun place => (failed place).isNone).map Prod.fst =
        keys.zipIdx.filterMap fun place => if (failed place).isNone then some place.1 else none := by
      rw [← List.filterMap_eq_map, List.filterMap_filter]
      rfl
    simp only [report, hfetches, List.filterMap_map]
    rw [hplaces]
    refine List.filterMap_congr fun place _ => ?_
    cases hout : outcome hasFetcher ends place <;> simp [failed, hout, Except.map, failure?]
  · simp only [report, hfetches, List.filterMap_map]
    refine List.filterMap_congr fun place _ => ?_
    cases hout : outcome hasFetcher ends place <;> simp [failed, hout, Except.map, failure?]

/-- Which places have failed does not depend on the moments at which the fetches are answered. -/
theorem outcome_congr {ends' : Nat → Arrival} (h : ∀ slot, (ends' slot).result = (ends slot).result) :
    outcome hasFetcher ends' = outcome hasFetcher ends := by
  funext place
  rw [outcome, outcome, h]

/-- If no key is listed twice, an entry shows the same in whichever order the fetches are answered. -/
theorem EntryAfter.shown_eq {ends' : Nat → Arrival} {order' : List Nat}
    {before after after' : Option CacheEntry} (hkeys : keys.Nodup)
    (hends : ∀ slot, (ends' slot).result = (ends slot).result) (horder : order'.Perm order)
    (h : EntryAfter keys ends order key before after)
    (h' : EntryAfter keys ends' order' key before after') :
    after'.map CacheEntry.shown = after.map CacheEntry.shown := by
  have hmem : ∀ {slot : Nat} {key}, keys[slot]? = some key → key ∈ keys := List.mem_of_getElem?
  cases h with
  | @stored earlier slot later value hdone hkey hvalue hlater =>
    have hslot : slot ∈ order := hdone ▸ List.mem_append_right _ (.head _)
    cases h' with
    | @stored earlier' slot' later' value' hdone' hkey' hvalue' hlater' =>
      -- The key has one place in the list, so both have stored what was brought for that place.
      obtain ⟨hlt, -⟩ := List.getElem?_eq_some_iff.mp hkey
      obtain rfl : slot = slot' := (List.getElem?_inj hlt hkeys).mp (hkey.trans hkey'.symm)
      obtain rfl : value' = value := by simpa [hends, hvalue] using hvalue'.symm
      rfl
    | marked hlisted hnone =>
      obtain ⟨e, he⟩ := hnone slot (horder.mem_iff.mpr hslot) hkey
      simp [hends, hvalue] at he
    | untouched hlisted => exact absurd (hmem hkey) hlisted
  | marked hlisted hnone =>
    cases h' with
    | @stored earlier' slot' later' value' hdone' hkey' hvalue' hlater' =>
      have hslot' : slot' ∈ order := horder.mem_iff.mp (hdone' ▸ List.mem_append_right _ (.head _))
      obtain ⟨e, he⟩ := hnone slot' hslot' hkey'
      simp [← hends, hvalue'] at he
    | marked => rfl
    | untouched hnot => exact absurd hlisted hnot
  | untouched hlisted =>
    cases h' with
    | stored _ hkey' => exact absurd (hmem hkey') hlisted
    | marked hlisted' => exact absurd hlisted' hlisted
    | untouched => rfl

/-- A refresh marks the entries of the listed keys stale before it begins to fetch, and leaves the others
alone; it fetches once for each place in the list, if there is a fetcher. In whichever order the fetches
are answered, and after each answer: an entry holds, fresh, what was brought last for its key, and as
long as nothing was brought what it held before, stale if the key is listed. When all are answered the
refresh is done; its report has each place in the list, in the order of the list, under the keys refreshed
or, with the text of its own failure, under those that failed. If no key is listed twice, neither the
report nor what the entries show depends on the order of the answers. -/
theorem refresh_and_cache_agree (hasFetcher : Bool) (keys : List CacheKey) (cache : Cache)
    (ends : Nat → Arrival) {order : List Nat}
    (horder : order.Perm ((start hasFetcher keys cache).1.asks.map Prod.fst)) :
    let begun := start hasFetcher keys cache
    let ended := settleAll ends begun order
    let places := keys.zipIdx
    let failed (place : CacheKey × Nat) := failure? (outcome hasFetcher ends place)
    (∀ key, begun.2.find? key =
      if key ∈ keys then (cache.find? key).map CacheEntry.marked else cache.find? key) ∧
    begun.1.asks = (if hasFetcher then places.map fun place => (place.2, place.1.request) else []) ∧
    (∀ done, done <+: order → ∀ key,
      EntryAfter keys ends done key (cache.find? key) ((settleAll ends begun done).2.find? key)) ∧
    ended.1.isDone = true ∧
    ended.1.report.refreshed = (places.filter fun place => (failed place).isNone).map Prod.fst ∧
    ended.1.report.failed = (places.filterMap fun place => (failed place).map (place.1, ·)) ∧
    (keys.Nodup → ∀ ends' order', (∀ slot, (ends' slot).result = (ends slot).result) →
      order'.Perm order →
      (settleAll ends' begun order').1.report = ended.1.report ∧
      ∀ key, ((settleAll ends' begun order').2.find? key).map CacheEntry.shown =
        (ended.2.find? key).map CacheEntry.shown) := by
  intro begun ended places failed
  obtain ⟨hanswerable, hall⟩ := answerable_of_perm horder
  have hended : ended.1 = answered hasFetcher keys ends order := fst_settleAll hanswerable ends cache
  obtain ⟨hdone, hrefreshed, hfailed⟩ := report_answered ends hall
  refine ⟨cache.find?_invalidateAll keys, asks_start, fun done hprefix key => ?_, hended ▸ hdone,
    hended ▸ hrefreshed, hended ▸ hfailed, fun hkeys ends' order' hends horder' => ?_⟩
  · exact entryAfter_settleAll (hanswerable.of_prefix hprefix) ends cache key
  · obtain ⟨hanswerable', hall'⟩ := answerable_of_perm (horder'.trans horder)
    have hended' : (settleAll ends' begun order').1 = answered hasFetcher keys ends' order' :=
      fst_settleAll hanswerable' ends' cache
    obtain ⟨-, hrefreshed', hfailed'⟩ := report_answered ends' hall'
    rw [outcome_congr hends] at hrefreshed' hfailed'
    refine ⟨?_, fun key => ?_⟩
    · rw [hended, hended']
      exact congrArg₂ RefreshReport.mk (hrefreshed'.trans hrefreshed.symm) (hfailed'.trans hfailed.symm)
    · exact (entryAfter_settleAll hanswerable ends cache key).shown_eq hkeys hends horder'
        (entryAfter_settleAll hanswerable' ends' cache key)

/-- A key that is listed twice: its first fetch is answered last, and the one between them fails. -/
theorem refresh_and_cache_agree_listed_twice :
    let keys : List CacheKey := [.profiles, .proxies, .profiles]
    let cache := Cache.empty.set .proxies .null .epoch
    let ends (slot : Nat) : Arrival :=
      ⟨if slot = 1 then .error (.network "refused") else .ok (.int slot), .epoch⟩
    [2, 1, 0].Perm ((start true keys cache).1.asks.map Prod.fst) ∧
      (settleAll ends (start true keys cache) [2, 1, 0]).1.isDone = true ∧
      (settleAll ends (start true keys cache) [2, 1, 0]).1.report.refreshed = [.profiles, .profiles] := by
  intro keys cache ends
  have horder : [2, 1, 0].Perm ((start true keys cache).1.asks.map Prod.fst) := by decide
  obtain ⟨-, -, -, hdone, hrefreshed, -⟩ := refresh_and_cache_agree true keys cache ends horder
  exact ⟨horder, hdone, hrefreshed.trans (by decide)⟩

end Refresh

end CoreWarden
