import CoreWarden.Proofs.Cache.Refresh
import CoreWarden.Rehearsal.Cache

/-!
Operations on one cache that overlap. Entries are stored and marked in the order in which that happens;
when a fetch began is recorded nowhere. So a fetch that is answered after an invalidation makes the entry
fresh, whenever it began, and what is answered last stays.
-/
namespace CoreWarden

open Json (Value)
open Time (Timestamp)

theorem CacheEntry.stale_of_marked {found : Option CacheEntry} {entry : CacheEntry}
    (h : found.map CacheEntry.marked = some entry) : entry.stale = true := by
  obtain ⟨before, -, rfl⟩ := Option.map_eq_some_iff.mp h
  rfl

/-- A cache in use: what it holds, and the calls made on it that fetch, over or not. A fetch on its own is
a refresh of one key that marks nothing. -/
structure CacheUse where
  cache : Cache
  hasFetchers : Bool
  calls : List Refresh

namespace CacheUse

inductive Operation where
  | set (key : CacheKey) (value : Value) (wall : Timestamp)
  | invalidate (key : CacheKey)
  | refetch (key : CacheKey)
  | refresh (keys : List CacheKey)
  /-- A fetch is answered, the one in this place of this call. -/
  | answer (call slot : Nat) (result : Except Error Value) (wall : Timestamp)

def apply (u : CacheUse) : Operation → CacheUse
  | .set key value wall => { u with cache := u.cache.set key value wall }
  | .invalidate key => { u with cache := u.cache.invalidate key }
  | .refetch key =>
    { u with calls := u.calls ++ [(Refresh.start u.hasFetchers [key] u.cache).1] }
  | .refresh keys =>
    let (refresh, cache) := Refresh.start u.hasFetchers keys u.cache
    { u with cache, calls := u.calls ++ [refresh] }
  | .answer call slot result wall =>
    match u.calls[call]? with
    | some refresh =>
      let (refresh, cache) := refresh.settle slot result u.cache wall
      { u with cache, calls := u.calls.set call refresh }
    | none => u

def run (u : CacheUse) (ops : List Operation) : CacheUse := ops.foldl apply u

/-- A fetch for the key is under way, in this place of this call. -/
def Awaits (u : CacheUse) (key : CacheKey) (call slot : Nat) : Prop :=
  ∃ refresh, u.calls[call]? = some refresh ∧ refresh.fetches[slot]? = some (key, none)

inductive Stores (u : CacheUse) (key : CacheKey) (value : Value) (wall : Timestamp) : Operation → Prop
  | set : Stores u key value wall (.set key value wall)
  | answer {call slot} (h : u.Awaits key call slot) :
      Stores u key value wall (.answer call slot (.ok value) wall)

inductive Marks (key : CacheKey) : Operation → Prop
  | invalidate : Marks key (.invalidate key)
  | refresh {keys} (h : key ∈ keys) : Marks key (.refresh keys)

variable {u : CacheUse} {ops later : List Operation} {op : Operation} {key : CacheKey} {value : Value}
  {wall : Timestamp} {call slot : Nat}

@[simp] theorem run_nil (u : CacheUse) : u.run [] = u := rfl

@[simp] theorem run_cons (u : CacheUse) (op : Operation) (ops : List Operation) :
    u.run (op :: ops) = (u.apply op).run ops := rfl

@[simp] theorem run_append (u : CacheUse) (ops later : List Operation) :
    u.run (ops ++ later) = (u.run ops).run later :=
  List.foldl_append

/-! ### One operation -/

theorem apply_answer {refresh : Refresh} (hcall : u.calls[call]? = some refresh)
    (hfetch : refresh.fetches[slot]? = some (key, none)) (result : Except Error Value) :
    u.apply (.answer call slot result wall) =
      { u with
        cache := match result with
          | .ok value => u.cache.set key value wall
          | .error _ => u.cache
        calls := u.calls.set call ⟨refresh.fetches.set slot (key, some (result.map fun _ => ()))⟩ } := by
  cases result <;> simp only [apply, hcall, Refresh.settle, hfetch]

theorem apply_answer_of_not_awaits (h : ∀ key, ¬ u.Awaits key call slot)
    (result : Except Error Value) : u.apply (.answer call slot result wall) = u := by
  rw [apply]
  split
  · next refresh hcall =>
    have hsettle : refresh.settle slot result u.cache wall = (refresh, u.cache) := by
      unfold Refresh.settle
      split
      · next key hfetch => exact absurd ⟨refresh, hcall, hfetch⟩ (h key)
      · rfl
    have hset : u.calls.set call refresh = u.calls := by
      obtain ⟨hlt, rfl⟩ := List.getElem?_eq_some_iff.mp hcall
      exact List.set_getElem_self hlt
    simp only [hsettle, hset]
  · rfl

theorem find?_of_stores (h : u.Stores key value wall op) :
    (u.apply op).cache.find? key = some ⟨value, wall, false⟩ := by
  cases h with
  | set => simp [apply, Cache.find?_set]
  | answer h =>
    obtain ⟨refresh, hcall, hfetch⟩ := h
    simp [apply_answer hcall hfetch, Cache.find?_set]

theorem find?_of_marks (h : Marks key op) :
    (u.apply op).cache.find? key = (u.cache.find? key).map CacheEntry.marked := by
  cases h with
  | invalidate => simp [apply, Cache.find?_invalidate]
  | @refresh keys h => simp [apply, Refresh.start, Cache.find?_invalidateAll, h]

theorem find?_of_quiet (hstores : ∀ value wall, ¬ u.Stores key value wall op) (hmarks : ¬ Marks key op) :
    (u.apply op).cache.find? key = u.cache.find? key := by
  cases op with
  | set other value wall =>
    have hother : key ≠ other := by
      rintro rfl
      exact hstores value wall .set
    simp [apply, Cache.find?_set, hother]
  | invalidate other =>
    have hother : key ≠ other := by
      rintro rfl
      exact hmarks .invalidate
    simp [apply, Cache.find?_invalidate, hother]
  | refetch other => rfl
  | refresh keys =>
    have hlisted : key ∉ keys := fun h => hmarks (.refresh h)
    simp [apply, Refresh.start, Cache.find?_invalidateAll, hlisted]
  | answer call slot result wall =>
    by_cases hawaits : ∃ other, u.Awaits other call slot
    · obtain ⟨other, refresh, hcall, hfetch⟩ := hawaits
      rw [apply_answer hcall hfetch]
      cases result with
      | error e => rfl
      | ok value =>
        have hother : key ≠ other := by
          rintro rfl
          exact hstores value wall (.answer ⟨refresh, hcall, hfetch⟩)
        simp [Cache.find?_set, hother]
    · rw [apply_answer_of_not_awaits (not_exists.mp hawaits)]

/-- A fetch is answered by an operation. -/
inductive Answers (call slot : Nat) : Operation → Prop
  | intro {result wall} : Answers call slot (.answer call slot result wall)

theorem getElem?_fetches_start {keys : List CacheKey} {cache : Cache} :
    (Refresh.start u.hasFetchers keys cache).1.fetches[slot]? = some (key, none) ↔
      u.hasFetchers = true ∧ keys[slot]? = some key := by
  cases u.hasFetchers <;> simp [Refresh.start]

theorem awaits_append {refresh : Refresh} {cache : Cache} :
    { u with cache, calls := u.calls ++ [refresh] : CacheUse }.Awaits key call slot ↔
      u.Awaits key call slot ∨
        call = u.calls.length ∧ refresh.fetches[slot]? = some (key, none) := by
  unfold Awaits
  by_cases hcall : call < u.calls.length
  · simp [List.getElem?_append_left hcall, Nat.ne_of_lt hcall]
  · have hnone : u.calls[call]? = none := List.getElem?_eq_none (Nat.le_of_not_lt hcall)
    by_cases hnew : call = u.calls.length
    · subst hnew
      simp
    · have hnone' : (u.calls ++ [refresh])[call]? = none := by
        refine List.getElem?_eq_none ?_
        rw [List.length_append, List.length_singleton]
        omega
      simp [hnone, hnone', hnew]

theorem awaits_answer_iff {call' slot' : Nat} {result : Except Error Value} :
    (u.apply (.answer call' slot' result wall)).Awaits key call slot ↔
      u.Awaits key call slot ∧ ¬ (call = call' ∧ slot = slot') := by
  by_cases hawaits : ∃ other, u.Awaits other call' slot'
  · obtain ⟨other, refresh, hcall, hfetch⟩ := hawaits
    obtain ⟨hlt, hget⟩ := List.getElem?_eq_some_iff.mp hcall
    obtain ⟨hlt', hget'⟩ := List.getElem?_eq_some_iff.mp hfetch
    rw [apply_answer hcall hfetch]
    unfold Awaits
    by_cases hsame : call = call'
    · subst hsame
      by_cases hslot : slot = slot'
      · subst hslot
        simp [hlt, hlt']
      · simp [hlt, hget, hslot, Ne.symm hslot]
    · simp [hsame, Ne.symm hsame]
  · rw [apply_answer_of_not_awaits (not_exists.mp hawaits)]
    refine ⟨fun h => ⟨h, ?_⟩, And.left⟩
    rintro ⟨rfl, rfl⟩
    exact hawaits ⟨key, h⟩

/-- Which fetches are under way after an operation: those before it that it does not answer, and those
that it begins. -/
theorem awaits_apply_iff : (u.apply op).Awaits key call slot ↔
    u.Awaits key call slot ∧ ¬ Answers call slot op ∨
      call = u.calls.length ∧ u.hasFetchers = true ∧
        (op = .refetch key ∧ slot = 0 ∨ ∃ keys, op = .refresh keys ∧ keys[slot]? = some key) := by
  have hno : ∀ {op : Operation}, (∀ result wall, op ≠ .answer call slot result wall) →
      ¬ Answers call slot op := by
    rintro _ h ⟨⟩
    exact h _ _ rfl
  cases op with
  | set | invalidate => simp [apply, Awaits, hno]
  | refetch other =>
    rw [apply, awaits_append, getElem?_fetches_start]
    simp [hno, List.getElem?_singleton, and_comm]
  | refresh keys =>
    rw [apply, awaits_append, getElem?_fetches_start]
    simp [hno]
  | answer call' slot' result wall =>
    have hanswers : Answers call slot (.answer call' slot' result wall) ↔
        call = call' ∧ slot = slot' := by
      constructor
      · rintro ⟨⟩
        exact ⟨rfl, rfl⟩
      · rintro ⟨rfl, rfl⟩
        exact .intro
    rw [awaits_answer_iff, hanswers]
    simp

theorem Awaits.lt (h : u.Awaits key call slot) : call < u.calls.length := by
  obtain ⟨refresh, hcall, -⟩ := h
  exact (List.getElem?_eq_some_iff.mp hcall).1

theorem length_calls_le (u : CacheUse) (op : Operation) :
    u.calls.length ≤ (u.apply op).calls.length := by
  cases op with
  | set | invalidate => exact Nat.le_refl _
  | refetch | refresh => simp [apply]
  | answer call slot result wall =>
    rw [apply]
    split
    · simp
    · exact Nat.le_refl _

/-! ### Where the operations are made -/

theorem apply_refresh_all (s : Shared) (calls : List Refresh) :
    (CacheUse.mk s.cache true calls).apply (.refresh CacheKey.all) =
      ⟨s.startRefresh.2.cache, true, calls ++ [s.startRefresh.1]⟩ := rfl

theorem apply_answer_shared {s : Shared} {calls : List Refresh} {refresh : Refresh} {answer : Answer}
    {result : Except Error Value} (hcall : calls[call]? = some refresh)
    (hfetched : answer.fetched? = some result) :
    let resumed := s.resumeRefresh refresh (.answer slot answer)
    (CacheUse.mk s.cache true calls).apply (.answer call slot result s.wall) =
      ⟨resumed.2.cache, true, calls.set call resumed.1⟩ := by
  simp only [Shared.resumeRefresh, hfetched, apply, hcall]

def ofStep? (wall : Timestamp) : CacheRehearsal.Step → Option Operation
  | .invalidate key => some (.invalidate key)
  | .refetch key => some (.refetch key)
  | .set key value => some (.set key value wall)
  | .refresh keys => some (.refresh keys)
  | .get _ | .entry _ | .world _ | .invalidKey _ | .unusable => none

theorem cache_beginAll (r : CacheRehearsal) (asks : List (Nat × Request)) :
    (r.beginAll asks).2.cache = r.cache := by
  induction asks generalizing r with
  | nil => rfl
  | cons ask asks ih =>
    simp only [CacheRehearsal.beginAll]
    split
    · rfl
    · exact ih _

theorem cache_answerAll (r : CacheRehearsal) {refresh : Refresh} {calls : List Refresh}
    (hcall : calls[call]? = some refresh) (hasFetchers : Bool) (fetches : List CacheRehearsal.Fetch) :
    ∃ answers, (∀ op ∈ answers, ∃ slot, Answers call slot op) ∧
      (r.answerAll refresh fetches).2.cache =
        ((CacheUse.mk r.cache hasFetchers calls).run answers).cache := by
  induction fetches generalizing r refresh calls with
  | nil => exact ⟨[], by simp, rfl⟩
  | cons f fetches ih =>
    rw [CacheRehearsal.answerAll]
    split
    · exact ih _ hcall
    · exact ⟨[], by simp, rfl⟩
    · next answer world _ _ =>
      split
      · next result hfetched =>
        have hlt : call < calls.length := (List.getElem?_eq_some_iff.mp hcall).1
        let settled := refresh.settle f.slot result r.cache r.wall
        have hsettled : (calls.set call settled.1)[call]? = some settled.1 := List.getElem?_set_self hlt
        obtain ⟨answers, hanswers, hcache⟩ :=
          ih { r with world, now := f.due, cache := settled.2 } hsettled
        refine ⟨.answer call f.slot result r.wall :: answers,
          List.forall_mem_cons.mpr ⟨⟨f.slot, .intro⟩, hanswers⟩, hcache.trans ?_⟩
        simp only [run_cons, apply, hcall, settled]
      · exact ih _ hcall

theorem cache_refetch (r : CacheRehearsal) (key : CacheKey) (calls : List Refresh) :
    ∃ answers, (∀ op ∈ answers, ∃ slot, Answers calls.length slot op) ∧
      (r.refetch key).2.cache =
        ((CacheUse.mk r.cache r.hasFetchers calls).run (.refetch key :: answers)).cache := by
  have hcache : (r.begin 0 key.request).2.cache = r.cache := rfl
  unfold CacheRehearsal.refetch
  split
  · next hfetchers =>
    generalize r.begin 0 key.request = begun at hcache
    obtain ⟨f, r'⟩ := begun
    dsimp only at hcache ⊢
    rw [← hcache]
    split
    · exact ⟨[], by simp, rfl⟩
    · exact ⟨[], by simp, rfl⟩
    · split
      · next value _ =>
        have hfetch : (Refresh.start r.hasFetchers [key] r'.cache).1.fetches[0]? = some (key, none) := by
          simp [Refresh.start, hfetchers]
        let asked := (CacheUse.mk r'.cache r.hasFetchers calls).apply (.refetch key)
        have hanswer : asked.apply (.answer calls.length 0 (.ok value) r'.wall) = _ :=
          apply_answer List.getElem?_concat_length hfetch (.ok value)
        exact ⟨[.answer calls.length 0 (.ok value) r'.wall], by simpa using ⟨0, .intro⟩,
          congrArg cache hanswer.symm⟩
      · exact ⟨[], by simp, rfl⟩
      · exact ⟨[], by simp, rfl⟩
  · exact ⟨[], by simp, rfl⟩

/-- A step of a rehearsal uses the cache: it makes its operation, and the fetches are answered that this
begins. -/
theorem cache_takeStep (r : CacheRehearsal) (step : CacheRehearsal.Step) (calls : List Refresh) :
    ∃ answers, (∀ op ∈ answers, ∃ slot, Answers calls.length slot op) ∧
      (r.takeStep step).2.cache = ((CacheUse.mk r.cache r.hasFetchers calls).run
        ((ofStep? r.wall step).toList ++ answers)).cache := by
  cases step with
  | get | entry | world | invalidKey | unusable | invalidate | set => exact ⟨[], by simp, rfl⟩
  | refetch key => exact cache_refetch r key calls
  | refresh keys =>
    let begun := Refresh.start r.hasFetchers keys r.cache
    let asked := ({ r with cache := begun.2 } : CacheRehearsal).beginAll begun.1.asks
    have hcache : asked.2.cache = begun.2 := cache_beginAll _ _
    have hbegun : (calls ++ [begun.1])[calls.length]? = some begun.1 := List.getElem?_concat_length
    obtain ⟨answers, hanswers, hend⟩ := cache_answerAll asked.2 hbegun r.hasFetchers
      (asked.1.mergeSort fun f g => decide (f.due ≤ g.due))
    rw [hcache] at hend
    exact ⟨answers, hanswers, hend⟩

/-! ### A run -/

/-- Of the fetches begun so far those stay under way that are not answered. -/
theorem awaits_run_iff (hbegun : call < u.calls.length) : (u.run ops).Awaits key call slot ↔
    u.Awaits key call slot ∧ ∀ op ∈ ops, ¬ Answers call slot op := by
  induction ops generalizing u with
  | nil => simp
  | cons op ops ih =>
    rw [run_cons, ih (Nat.lt_of_lt_of_le hbegun (u.length_calls_le op)), awaits_apply_iff]
    simp [Nat.ne_of_lt hbegun, and_assoc]

/-- Nothing is stored under the key. -/
def Keeps (u : CacheUse) (key : CacheKey) (ops : List Operation) : Prop :=
  ∀ earlier op, earlier ++ [op] <+: ops → ∀ value wall, ¬ (u.run earlier).Stores key value wall op

theorem Keeps.concat (h : u.Keeps key ops) (hlast : ∀ value wall, ¬ (u.run ops).Stores key value wall op) :
    u.Keeps key (ops ++ [op]) := by
  intro earlier op' hprefix
  rcases List.prefix_concat_iff.mp hprefix with hall | hprefix
  · obtain ⟨rfl, hop⟩ := List.append_inj' hall rfl
    obtain rfl := List.singleton_inj.mp hop
    exact hlast
  · exact h earlier op' hprefix

/-- What operations have left under a key: the value stored last, or what was there if nothing was stored;
it is stale if it was marked since. -/
inductive Left (u : CacheUse) (key : CacheKey) (ops : List Operation) : Option CacheEntry → Prop
  | stored {earlier op later value wall stale} (h : ops = earlier ++ op :: later)
      (hstores : (u.run earlier).Stores key value wall op)
      (hlast : (u.run (earlier ++ [op])).Keeps key later)
      (hstale : stale = true ↔ ∃ op ∈ later, Marks key op) : Left u key ops (some ⟨value, wall, stale⟩)
  | marked (hnone : u.Keeps key ops) (hmarks : ∃ op ∈ ops, Marks key op) :
      Left u key ops ((u.cache.find? key).map CacheEntry.marked)
  | untouched (hnone : u.Keeps key ops) (hmarks : ∀ op ∈ ops, ¬ Marks key op) :
      Left u key ops (u.cache.find? key)

theorem Left.concat {found found' : Option CacheEntry} (h : u.Left key ops found)
    (hstores : ∀ value wall, ¬ (u.run ops).Stores key value wall op)
    (hmarks : Marks key op → found' = found.map CacheEntry.marked)
    (hquiet : ¬ Marks key op → found' = found) : u.Left key (ops ++ [op]) found' := by
  cases h with
  | @stored earlier op' later value wall stale hops hstored hlast hstale =>
    subst hops
    have hlast' : (u.run (earlier ++ [op'])).Keeps key (later ++ [op]) :=
      hlast.concat (by simpa using hstores)
    by_cases hmark : Marks key op
    · rw [hmarks hmark]
      exact .stored (by simp) hstored hlast'
        (iff_of_true rfl ⟨op, List.mem_append_right _ (List.mem_singleton.mpr rfl), hmark⟩)
    · rw [hquiet hmark]
      refine .stored (by simp) hstored hlast' (hstale.trans ?_)
      simp [or_and_right, exists_or, hmark]
  | marked hnone hsome =>
    have hsome' : ∃ op' ∈ ops ++ [op], Marks key op' := by
      obtain ⟨op', hop', hmark⟩ := hsome
      exact ⟨op', List.mem_append_left _ hop', hmark⟩
    have hfound : found' = (u.cache.find? key).map CacheEntry.marked := by
      by_cases hmark : Marks key op
      · rw [hmarks hmark, Option.map_map]
        rfl
      · exact hquiet hmark
    rw [hfound]
    exact .marked (hnone.concat hstores) hsome'
  | untouched hnone hall =>
    by_cases hmark : Marks key op
    · rw [hmarks hmark]
      exact .marked (hnone.concat hstores)
        ⟨op, List.mem_append_right _ (List.mem_singleton.mpr rfl), hmark⟩
    · rw [hquiet hmark]
      exact .untouched (hnone.concat hstores)
        (List.forall_mem_append.mpr ⟨hall, by simpa using hmark⟩)

theorem left_run (u : CacheUse) (key : CacheKey) (ops : List Operation) :
    u.Left key ops ((u.run ops).cache.find? key) := by
  -- The last operation decides: it stores, and all before it is forgotten, or it marks or does nothing.
  induction ops using List.reverseRecOn with
  | nil => exact .untouched (by simp [Keeps]) (by simp)
  | append_singleton ops op ih =>
    rw [run_append, run_cons, run_nil]
    by_cases hstores : ∃ value wall, (u.run ops).Stores key value wall op
    · obtain ⟨value, wall, hstores⟩ := hstores
      rw [find?_of_stores hstores]
      exact .stored rfl hstores (by simp [Keeps]) (by simp)
    · have hnone : ∀ value wall, ¬ (u.run ops).Stores key value wall op := by simpa using hstores
      exact ih.concat hnone find?_of_marks (find?_of_quiet hnone)

theorem stored_of_fresh {mark : Operation} {entry : CacheEntry} (hmark : Marks key mark)
    (hentry : (u.run (mark :: ops)).cache.find? key = some entry) (hfresh : entry.stale = false) :
    ∃ earlier op later, ops = earlier ++ op :: later ∧
      (u.run (mark :: earlier)).Stores key entry.value entry.updatedAt op ∧
      (u.run (mark :: earlier ++ [op])).Keeps key later ∧ ∀ op ∈ later, ¬ Marks key op := by
  have hleft : (u.apply mark).Left key ops (some entry) := hentry ▸ left_run (u.apply mark) key ops
  have hmarked : (u.apply mark).cache.find? key = _ := find?_of_marks hmark
  generalize hfound : some entry = found at hleft
  cases hleft with
  | @stored earlier op later value wall stale hops hstores hlast hstale =>
    obtain rfl := Option.some.inj hfound
    refine ⟨earlier, op, later, hops, hstores, hlast, fun op' hop' hmark' => ?_⟩
    exact absurd (hstale.mpr ⟨op', hop', hmark'⟩) (by simp [show stale = false from hfresh])
  | marked =>
    have hstale := CacheEntry.stale_of_marked hfound.symm
    rw [hfresh] at hstale
    cases hstale
  | untouched =>
    have hstale := CacheEntry.stale_of_marked (hmarked.symm.trans hfound.symm)
    rw [hfresh] at hstale
    cases hstale

theorem find?_of_answered (h : u.Awaits key call slot) (hops : ∀ op ∈ ops, ¬ Answers call slot op)
    (value : Value) (wall : Timestamp) :
    (u.run (ops ++ [.answer call slot (.ok value) wall])).cache.find? key = some ⟨value, wall, false⟩ ∧
      ∀ result other later, ¬ (u.run (ops ++ .answer call slot result wall :: later)).Awaits
        other call slot := by
  refine ⟨?_, fun result other later hlater => ?_⟩
  · have hawaits : (u.run ops).Awaits key call slot := (awaits_run_iff h.lt).mpr ⟨h, hops⟩
    rw [run_append, run_cons, run_nil]
    exact find?_of_stores (.answer hawaits)
  · obtain ⟨-, hnone⟩ := (awaits_run_iff h.lt).mp hlater
    exact hnone _ (List.mem_append_right _ (.head _)) .intro

/-- However operations on a cache overlap: an entry holds what was stored last and is stale if it was
marked since. If it is fresh after it was marked it was stored since, by `set` or by the answer of a fetch;
that fetch began after the mark, or with it, unless it was under way when the mark was made. An answer is
stored whenever it comes, and only once. -/
theorem stored_since_mark (u : CacheUse) (key : CacheKey) {earlier later : List Operation}
    {mark : Operation} {entry : CacheEntry} (hmark : Marks key mark)
    (hentry : (u.run (earlier ++ mark :: later)).cache.find? key = some entry)
    (hfresh : entry.stale = false) :
    (∀ ops, u.Left key ops ((u.run ops).cache.find? key)) ∧
    (∃ between op rest, later = between ++ op :: rest ∧
      (u.run (earlier ++ mark :: between)).Stores key entry.value entry.updatedAt op ∧
      (u.run (earlier ++ mark :: between ++ [op])).Keeps key rest ∧ (∀ op ∈ rest, ¬ Marks key op) ∧
      ∀ call slot, Answers call slot op →
        (u.run earlier).calls.length ≤ call ∨ (u.run earlier).Awaits key call slot) ∧
    ∀ ops call slot, (u.run ops).Awaits key call slot →
      ∀ waiting, (∀ op ∈ waiting, ¬ Answers call slot op) → ∀ value wall,
        (u.run (ops ++ waiting ++ [.answer call slot (.ok value) wall])).cache.find? key =
          some ⟨value, wall, false⟩ ∧
        ∀ result other rest, ¬ (u.run (ops ++ waiting ++ .answer call slot result wall :: rest)).Awaits
          other call slot := by
  refine ⟨left_run u key, ?_, fun ops call slot hawaits waiting hwaiting value wall => ?_⟩
  · rw [run_append] at hentry
    obtain ⟨between, op, rest, hlater, hstores, hlast, hrest⟩ := stored_of_fresh hmark hentry hfresh
    refine ⟨between, op, rest, hlater, ?_, ?_, hrest, fun call slot hanswers => ?_⟩
    · rwa [run_append]
    · rwa [List.append_assoc, run_append]
    · refine (Nat.lt_or_ge call (u.run earlier).calls.length).symm.imp_right fun hbegun => ?_
      cases hanswers
      cases hstores with
      | answer hawaits => exact ((awaits_run_iff hbegun).mp hawaits).1
  · simp only [List.append_assoc, u.run_append ops]
    exact find?_of_answered hawaits hwaiting value wall

/-- The answer of a fetch that was under way when the entry was marked. -/
theorem stored_since_mark_by_earlier_fetch :
    let u : CacheUse := ⟨Cache.empty, true, []⟩
    let earlier : List Operation := [.set .profiles (.int 1) .epoch, .refetch .profiles]
    let later : List Operation := [.answer 0 0 (.ok (.int 2)) .epoch]
    Marks .profiles (.invalidate .profiles) ∧
      (u.run (earlier ++ .invalidate .profiles :: later)).cache.find? .profiles =
        some ⟨.int 2, .epoch, false⟩ ∧
      (u.run earlier).Awaits .profiles 0 0 := by
  intro u earlier later
  have hmark : Marks .profiles (.invalidate .profiles) := .invalidate
  have hentry : (u.run (earlier ++ .invalidate .profiles :: later)).cache.find? .profiles =
    some ⟨.int 2, .epoch, false⟩ := rfl
  obtain ⟨-, ⟨between, op, rest, hlater, -, -, -, hfetch⟩, -⟩ :=
    stored_since_mark u .profiles hmark hentry rfl
  have hop : op = .answer 0 0 (.ok (.int 2)) .epoch := by
    rcases List.append_eq_singleton_iff.mp hlater.symm with ⟨-, h⟩ | ⟨-, h⟩
    · exact (List.cons.inj h).1
    · cases h
  exact ⟨hmark, hentry, (hfetch 0 0 (hop ▸ .intro)).resolve_left (by decide)⟩

/-- A fetch that began before an invalidation makes the entry fresh again; and of two fetches the one that
began first stores over what the other has brought. -/
theorem late_answers_stored :
    let u : CacheUse := ⟨Cache.empty.set .profiles (.int 1) .epoch, true, []⟩
    let invalidated : List Operation := [.refetch .profiles, .invalidate .profiles]
    let overtaken : List Operation :=
      [.refetch .profiles, .refetch .profiles, .answer 1 0 (.ok (.int 3)) .epoch]
    let late : Operation := .answer 0 0 (.ok (.int 2)) .epoch
    (u.run [.refetch .profiles]).Awaits .profiles 0 0 ∧
      ¬ (u.run [.refetch .profiles]).Awaits .profiles 1 0 ∧
      (u.run invalidated).cache.find? .profiles = some ⟨.int 1, .epoch, true⟩ ∧
      (u.run (invalidated ++ [late])).cache.find? .profiles = some ⟨.int 2, .epoch, false⟩ ∧
      (u.run overtaken).cache.find? .profiles = some ⟨.int 3, .epoch, false⟩ ∧
      (u.run (overtaken ++ [late])).cache.find? .profiles = some ⟨.int 2, .epoch, false⟩ := by
  intro u invalidated overtaken late
  have hfirst : (u.run [.refetch .profiles]).Awaits .profiles 0 0 := ⟨_, rfl, rfl⟩
  have hsecond : ¬ (u.run [.refetch .profiles]).Awaits .profiles 1 0 := by
    rintro ⟨refresh, hcall, -⟩
    cases hcall
  exact ⟨hfirst, hsecond, rfl, rfl, rfl, rfl⟩

end CacheUse

end CoreWarden
