import CoreWarden.Proofs.Controller.Renewal
import CoreWarden.Proofs.Controller.SourceOfTruth

/-!
What becomes of the entries of the cache. An event keeps an entry, marks it stale because a refresh of
the whole cache begins, or stores what a fetch has brought.
-/
namespace CoreWarden

open Controller (Hears Act)
open Json (Value)
open Time (Timestamp)

/-- The entry as a refresh that begins leaves it. -/
def CacheEntry.marked (e : CacheEntry) : CacheEntry := { e with stale := true }

theorem Cache.find?_startRefresh (s : Shared) (key : CacheKey) :
    s.startRefresh.2.cache.find? key = (s.cache.find? key).map CacheEntry.marked := by
  cases key <;> rfl

namespace Refresh

variable {refresh : Refresh} {slot : Nat} {result : Except Error Value} {cache : Cache}
  {wall : Time.Timestamp}

theorem mem_asks_iff {request : Request} : (slot, request) ∈ refresh.asks ↔
    ∃ key, refresh.fetches[slot]? = some (key, none) ∧ request = key.request := by
  constructor
  · intro h
    obtain ⟨⟨⟨key, found⟩, position⟩, hmem, heq⟩ := List.mem_map.mp h
    obtain ⟨hat, hnone⟩ := List.mem_filter.mp hmem
    obtain ⟨rfl, rfl⟩ := Prod.mk.inj heq
    obtain rfl : found = none := Option.isNone_iff_eq_none.mp hnone
    exact ⟨key, List.mk_mem_zipIdx_iff_getElem?.mp hat, rfl⟩
  · rintro ⟨key, hat, rfl⟩
    refine List.mem_map.mpr ⟨((key, none), slot), ?_, rfl⟩
    exact List.mem_filter.mpr ⟨List.mk_mem_zipIdx_iff_getElem?.mpr hat, rfl⟩

theorem asks_settle_subset : (refresh.settle slot result cache wall).1.asks ⊆ refresh.asks := by
  rintro ⟨position, request⟩ h
  unfold settle at h
  split at h
  · next key hat =>
    obtain ⟨other, hother, rfl⟩ := mem_asks_iff.mp h
    rw [List.getElem?_set] at hother
    split at hother
    · split at hother <;> simp at hother
    · exact mem_asks_iff.mpr ⟨other, hother, rfl⟩
  · exact h

theorem find?_settle (refresh : Refresh) (slot : Nat) (result : Except Error Value) (cache : Cache)
    (wall : Timestamp) (key : CacheKey) :
    (refresh.settle slot result cache wall).2.find? key = cache.find? key ∨
      ∃ value, result = .ok value ∧ (slot, key.request) ∈ refresh.asks ∧
        (refresh.settle slot result cache wall).2.find? key = some ⟨value, wall, false⟩ := by
  unfold settle
  split
  · next key' hat =>
    cases result with
    | error e => exact .inl rfl
    | ok value =>
      by_cases hkey : key = key'
      · subst hkey
        refine .inr ⟨value, rfl, mem_asks_iff.mpr ⟨key, hat, rfl⟩, ?_⟩
        simp [Cache.set]
      · exact .inl (by simp [Cache.set, hkey])
  · exact .inl rfl

end Refresh

namespace Shared

variable {s : Shared} {refresh : Refresh} {signal : Signal}

theorem asks_resumeRefresh_subset : (s.resumeRefresh refresh signal).1.asks ⊆ refresh.asks := by
  unfold resumeRefresh
  split
  · split
    · exact Refresh.asks_settle_subset
    · exact List.Subset.refl _
  · exact List.Subset.refl _

theorem find?_resumeRefresh (s : Shared) (refresh : Refresh) (signal : Signal) (key : CacheKey) :
    (s.resumeRefresh refresh signal).2.cache.find? key = s.cache.find? key ∨
      ∃ slot answer value, signal = .answer slot answer ∧ answer.fetched? = some (.ok value) ∧
        (slot, key.request) ∈ refresh.asks ∧
        (s.resumeRefresh refresh signal).2.cache.find? key = some ⟨value, s.wall, false⟩ := by
  unfold resumeRefresh
  split
  · next slot answer =>
    split
    · next result hfetched =>
      rcases refresh.find?_settle slot result s.cache s.wall key with
        hkept | ⟨value, rfl, hasked, hstored⟩
      · exact .inl hkept
      · exact .inr ⟨slot, answer, value, rfl, hfetched, hasked, hstored⟩
    · exact .inl rfl
  · exact .inl rfl

end Shared

namespace Work

/-- Whether the core is waited for before the cache is refreshed; a recovery that finds no conflict
does not wait. -/
def waits : Work → Bool
  | recover _ (.refreshing _) => false
  | _ => true

/-- Why a workflow begins to refresh the cache: its health wait or its check is over, or it is a switch
that has told the profile store. -/
inductive Ready (signal : Signal) : Bool → Work → Prop
  | healthy {slot version w} (ha : signal = .answer slot (.version (.ok version)))
      (hs : (slot, .version) ∈ w.awaits) : Ready signal true w
  | checked {result w} (ha : signal = .answer 0 (.status result)) (hs : (0, .status) ∈ w.awaits) :
      Ready signal false w
  | stored {id conflictRemaining} : Ready signal true (.switch id (.storing conflictRemaining))

inductive Writes (s : Shared) (signal : Signal) (w w' : Work) : Cache → List (Nat × Request) → Prop
  | nothing {asks} (hs : w'.stage = w.stage ∨ w'.stage = .failed) (hw : w'.waits = w.waits) :
      Writes s signal w w' s.cache asks
  | begins (hs : w.stage = .before) (hs' : w'.stage = .renewing s.startRefresh.1)
      (hr : Ready signal w'.waits w) : Writes s signal w w' s.startRefresh.2.cache s.startRefresh.1.asks
  | settles {refresh asks} (hs : w.stage = .renewing refresh)
      (hs' : w'.stage = .renewing (s.resumeRefresh refresh signal).1 ∨ w'.stage = .renewed)
      (hw : w'.waits = w.waits) : Writes s signal w w' (s.resumeRefresh refresh signal).2.cache asks

theorem Writes.of_resumeRefresh {s t : Shared} {signal : Signal} {w w' : Work}
    {refresh refresh' : Refresh} {asks : List (Nat × Request)}
    (h : s.resumeRefresh refresh signal = (refresh', t)) (hs : w.stage = .renewing refresh)
    (hs' : w'.stage = .renewing refresh') (hw : w'.waits = w.waits) :
    Writes s signal w w' t.cache asks := by
  obtain ⟨rfl, rfl⟩ : (s.resumeRefresh refresh signal).1 = refresh' ∧
      (s.resumeRefresh refresh signal).2 = t := by simp [h]
  exact .settles hs (.inl hs') hw

end Work

/-! ### Each workflow -/

namespace Reload

variable {s s' : Shared} {phase phase' : Reload} {signal : Signal} {asks : List (Nat × Request)}

theorem writes (h : resume s phase signal = (s', .waiting phase' asks)) :
    Work.Writes s signal (.reload phase) (.reload phase') s'.cache asks := by
  revert h
  fun_cases resume s phase signal <;> intro h
  case case3 =>
    cases h
    exact .nothing (.inl rfl) rfl
  case case4 probe =>
    generalize hp : probe.resume s.pace s.now signal = progress at h
    fun_cases probed s progress <;> cases h
    case case1 => exact .nothing (.inl rfl) rfl
    case case3 =>
      obtain ⟨slot, version, ha, hslot⟩ := Probe.answered_of_done hp
      refine .begins rfl rfl (.healthy ha ?_)
      simp [Work.awaits, awaits, hslot]
  case case5 refresh refresh' t hr =>
    unfold refreshed at h
    split at h <;> cases h
    exact .of_resumeRefresh hr rfl rfl rfl
  all_goals cases h
  all_goals exact .nothing (.inl rfl) rfl

theorem cache_of_done {result : Except Error Unit} (h : resume s phase signal = (s', .done result)) :
    s'.cache = s.cache ∧ result ≠ .ok () ∨
      ∃ refresh, phase = .refreshing refresh ∧ s'.cache = (s.resumeRefresh refresh signal).2.cache := by
  revert h
  fun_cases resume s phase signal <;> intro h
  case case2 =>
    cases h
    exact .inl ⟨rfl, by simp⟩
  case case4 probe =>
    generalize probe.resume s.pace s.now signal = progress at h
    fun_cases probed s progress <;> cases h
    exact .inl ⟨rfl, by simp⟩
  case case5 refresh refresh' t hr =>
    unfold refreshed at h
    split at h <;> cases h
    exact .inr ⟨refresh, rfl, by rw [hr]; rfl⟩
  all_goals cases h

end Reload

namespace Recovery

variable {s s' : Shared} {attempt : UInt32} {phase phase' : Recovery} {signal : Signal}
  {asks : List (Nat × Request)}

theorem writes_reloading {reload reload' : Reload} {cache : Cache}
    (h : Work.Writes s signal (.reload reload) (.reload reload') cache asks) :
    Work.Writes s signal (.recover attempt (.reloading reload)) (.recover attempt (.reloading reload'))
      cache asks := by
  cases h with
  | nothing hs hw => exact .nothing hs hw
  | begins hs hs' hr =>
    refine .begins hs hs' ?_
    cases hr with
    | healthy ha hslot => exact .healthy ha hslot
  | settles hs hs' hw => exact .settles hs hs' hw

theorem writes (h : resume s attempt phase signal = (s', .waiting phase' asks)) :
    Work.Writes s signal (.recover attempt phase) (.recover attempt phase') s'.cache asks := by
  revert h
  fun_cases resume s attempt phase signal <;> intro h
  case case1 result report t hcheck hc =>
    cases h
    obtain rfl := Shared.check_eq hcheck
    exact .nothing (.inl rfl) rfl
  case case2 result report t hcheck hc refresh t' hr =>
    cases h
    obtain rfl := Shared.check_eq hcheck
    cases hr
    exact .begins rfl rfl (.checked rfl (by simp [Work.awaits, awaits]))
  case case3 reload =>
    generalize hr : reload.resume s signal = step at h
    fun_cases reloaded step <;> cases h
    · exact writes_reloading (Reload.writes hr)
    · rcases Reload.cache_of_done hr with ⟨-, hne⟩ | ⟨refresh, rfl, hcache⟩
      · exact absurd rfl hne
      · exact hcache ▸ .settles rfl (.inr rfl) rfl
  case case5 refresh refresh' t hr =>
    unfold refreshed at h
    split at h <;> cases h
    exact .of_resumeRefresh hr rfl rfl rfl
  all_goals cases h
  all_goals exact .nothing (.inl rfl) rfl

theorem cache_of_done {result : Except Error RecoveryOutcome}
    (h : resume s attempt phase signal = (s', .done result)) :
    s'.cache = s.cache ∧ (∀ n reloaded, result = .ok (.recovered n reloaded) →
        phase = .rechecking ∧ reloaded = true) ∨
      ∃ refresh, phase.stage = .renewing refresh ∧
        s'.cache = (s.resumeRefresh refresh signal).2.cache ∧
        ∀ n reloaded, result = .ok (.recovered n reloaded) →
          phase = .refreshing refresh ∧ reloaded = false := by
  revert h
  fun_cases resume s attempt phase signal <;> intro h
  case case3 reload =>
    generalize hr : reload.resume s signal = step at h
    fun_cases reloaded step <;> cases h
    rcases Reload.cache_of_done hr with ⟨hcache, -⟩ | ⟨refresh, rfl, hcache⟩
    · exact .inl ⟨hcache, by simp⟩
    · exact .inr ⟨refresh, rfl, hcache, by simp⟩
  case case4 result =>
    cases h
    exact .inl ⟨rfl, by simp⟩
  case case5 refresh refresh' t hr =>
    unfold refreshed at h
    split at h <;> cases h
    exact .inr ⟨refresh, rfl, by rw [hr]; rfl, by simp⟩
  all_goals cases h

end Recovery

namespace Switch

variable {s s' : Shared} {id : String} {phase phase' : Switch} {signal : Signal}
  {asks : List (Nat × Request)}

theorem writes_probed {progress : Progress Probe (Except Error Unit)} {w : Work}
    (hw : w.stage = .before ∧ w.waits = true)
    (h : probed s id progress = (s', .waiting phase' asks)) :
    Work.Writes s signal w (.switch id phase') s'.cache asks := by
  revert h
  fun_cases probed s id progress <;> intro h <;> cases h
  case case2 => exact .nothing (.inr rfl) hw.2.symm
  all_goals exact .nothing (.inl hw.1.symm) hw.2.symm

theorem writes (h : resume s id phase signal = (s', .waiting phase' asks)) :
    Work.Writes s signal (.switch id phase) (.switch id phase') s'.cache asks := by
  revert h
  fun_cases resume s id phase signal <;> intro h
  case case1 result report t hcheck hc | case2 result report t hcheck hc
    | case10 result report t hcheck =>
    cases h
    obtain rfl := Shared.check_eq hcheck
    exact .nothing (.inl rfl) rfl
  case case7 =>
    cases h
    exact .nothing (.inr rfl) rfl
  case case8 | case9 => exact writes_probed ⟨rfl, rfl⟩ h
  case case11 remaining result refresh t hr =>
    cases h
    cases hr
    exact .begins rfl rfl .stored
  case case12 remaining refresh refresh' t hr =>
    unfold refreshed at h
    split at h <;> cases h
    exact .of_resumeRefresh hr rfl rfl rfl
  all_goals cases h
  all_goals exact .nothing (.inl rfl) rfl

theorem cache_of_done {result : Except Error SwitchOutcome}
    (h : resume s id phase signal = (s', .done result)) :
    s'.cache = s.cache ∧ (∀ outcome, result ≠ .ok outcome) ∨
      ∃ refresh, phase.stage = .renewing refresh ∧
        s'.cache = (s.resumeRefresh refresh signal).2.cache := by
  have hprobed : ∀ progress, (probed s id progress).2 ≠ .done result := by
    intro progress
    fun_cases probed s id progress <;> simp [fail]
  revert h
  fun_cases resume s id phase signal <;> intro h
  case case8 | case9 => exact absurd (congrArg Prod.snd h) (hprobed _)
  case case12 remaining refresh refresh' t hr =>
    unfold refreshed at h
    split at h <;> cases h
    exact .inr ⟨refresh, rfl, by rw [hr]; rfl⟩
  case case13 =>
    cases h
    exact .inl ⟨rfl, by simp⟩
  all_goals cases h

end Switch

/-! ### All work -/

/-- Whether the health wait was part of a workflow that has ended well. -/
def Result.waited? : Result → Option Bool
  | switch (.ok (.switched ..)) => some true
  | reload (.ok ()) => some true
  | recover (.ok (.recovered _ reloaded)) => some reloaded
  | _ => none

namespace Work

variable {s s' : Shared} {w w' : Work} {signal : Signal}

theorem Advance.writes {asks : List (Nat × Request)} (h : w.Advance s signal s' w' asks) :
    w.Writes s signal w' s'.cache asks := by
  cases h with
  | switch h => exact Switch.writes h
  | reload h => exact Reload.writes h
  | recover h => exact Recovery.writes h
  | reconcile => exact .nothing (.inl rfl) rfl
  | refresh h => exact .of_resumeRefresh h rfl rfl rfl

inductive Closes (s : Shared) (signal : Signal) (w : Work) : Cache → Prop
  | nothing : Closes s signal w s.cache
  | settles {refresh} (hs : w.stage = .renewing refresh) :
      Closes s signal w (s.resumeRefresh refresh signal).2.cache
  | refetches {key answer value} (hw : w = .refetch key) (ha : signal = .answer 0 answer)
      (hf : answer.fetched? = some (.ok value)) : Closes s signal w (s.cache.set key value s.wall)

theorem Ending.closes {result : Option Result} (h : w.Ending s signal s' result) :
    w.Closes s signal s'.cache := by
  cases h with
  | switch h =>
    rcases Switch.cache_of_done h with ⟨hcache, -⟩ | ⟨refresh, hs, hcache⟩
    · exact hcache ▸ .nothing
    · exact hcache ▸ .settles hs
  | @reload phase _ _ result h =>
    unfold Controller.reloadEnded at h
    split at h
    · next t e hstep =>
      cases h
      rcases Reload.cache_of_done hstep with ⟨hcache, -⟩ | ⟨refresh, rfl, hcache⟩
      · exact hcache ▸ .nothing
      · exact hcache ▸ .settles rfl
    · rcases Reload.cache_of_done h with ⟨hcache, -⟩ | ⟨refresh, rfl, hcache⟩
      · exact hcache ▸ .nothing
      · exact hcache ▸ .settles rfl
  | recover h =>
    rcases Recovery.cache_of_done h with ⟨hcache, -⟩ | ⟨refresh, hs, hcache, -⟩
    · exact hcache ▸ .nothing
    · exact hcache ▸ .settles hs
  | check | notRefetched => exact .nothing
  | refetched hf => exact .refetches rfl rfl hf
  | @refresh refresh _ refresh' _ h hd =>
    obtain rfl : (s.resumeRefresh refresh signal).2 = s' := congrArg Prod.snd h
    exact .settles rfl

theorem Ending.stage_of_waited? {result : Result} {waited : Bool}
    (h : w.Ending s signal s' (some result)) (hr : result.waited? = some waited) :
    w.waits = waited ∧ w.isDetached = true ∧
      (w.stage = .renewed ∨ ∃ refresh, w.stage = .renewing refresh) := by
  cases h with
  | @switch id phase _ _ result h =>
    cases result with
    | error e => cases hr
    | ok outcome =>
      obtain ⟨remaining, refresh, rfl⟩ := Switch.refreshing_of_done h
      cases outcome <;> cases hr
      exact ⟨rfl, rfl, .inr ⟨refresh, rfl⟩⟩
  | @reload phase _ _ result h =>
    cases result with
    | error e => cases hr
    | ok =>
      cases hr
      have hstep : Reload.resume s phase signal = (s', .done (.ok ())) := by
        unfold Controller.reloadEnded at h
        split at h
        · cases h
        · exact h
      obtain ⟨refresh, rfl, -⟩ := Reload.renews_of_done hstep
      exact ⟨rfl, rfl, .inr ⟨refresh, rfl⟩⟩
  | @recover attempt phase _ _ result h =>
    match result with
    | .error e => cases hr
    | .ok .alreadyRecovering => cases hr
    | .ok (.recovered n reloaded) =>
      obtain rfl : reloaded = waited := Option.some.inj hr
      rcases Recovery.cache_of_done h with ⟨-, hend⟩ | ⟨refresh, -, -, hend⟩
      · obtain ⟨rfl, rfl⟩ := hend n reloaded rfl
        exact ⟨rfl, rfl, .inl rfl⟩
      · obtain ⟨rfl, rfl⟩ := hend n reloaded rfl
        exact ⟨rfl, rfl, .inr ⟨refresh, rfl⟩⟩
  | check | refetched | notRefetched => cases hr

theorem awaits_of_stage {refresh : Refresh} (h : w.stage = .renewing refresh) :
    w.awaits = refresh.asks := by
  cases w with
  | switch id phase => cases phase <;> cases h; rfl
  | reload phase => cases phase <;> cases h; rfl
  | recover attempt phase =>
    cases phase with
    | reloading reload => cases reload <;> cases h; rfl
    | refreshing => cases h; rfl
    | checking | rechecking => cases h
  | refresh => cases h; rfl
  | check | reconcile | refetch => cases h

end Work

namespace Controller

/-- A fetch for the cache brings the data of a key. -/
def Brings (c : Controller) (e : Event) (r : Running) (slot : Nat) (key : CacheKey) (value : Value) :
    Prop :=
  ∃ answer, e = .answer r.id slot answer ∧ answer.fetched? = some (.ok value) ∧
    c.find? r.id = some r ∧ (slot, key.request) ∈ r.work.awaits ∧
    ((∃ refresh, r.work.stage = .renewing refresh) ∨ r.work = .refetch key)

/-- What an event makes of the entry of a key. -/
inductive EntryFate (c : Controller) (e : Event) (key : CacheKey) : Option CacheEntry → Prop
  | kept : EntryFate c e key (c.cache.find? key)
  | marked : EntryFate c e key ((c.cache.find? key).map CacheEntry.marked)
  | brought {r slot value} (h : Brings c e r slot key value) :
      EntryFate c e key (some ⟨value, c.shared.wall, false⟩)

variable {c : Controller} {e : Event} {key : CacheKey}

theorem entryFate_of_cache {c' : Controller} (h : c'.cache = c.cache) :
    EntryFate c e key (c'.cache.find? key) :=
  h ▸ .kept

theorem cache_conclude (c : Controller) (f : Tick.Finding) : (c.conclude f).cache = c.cache := by
  refine conclude_induction (P := fun c' => c'.cache = c.cache) rfl ?_ ?_ ?_
  · intro c₁ id h₁
    exact h₁
  · intro c₁ h₁
    exact h₁
  · intro c₁ wall h₁
    exact h₁

theorem cache_changeVisibility (c : Controller) (visible : Bool) :
    (c.changeVisibility visible).cache = c.cache := by
  obtain ⟨c₁, slot, rfl | rfl, hc⟩ := c.changeVisibility_eq visible <;> rw [hc] <;> rfl

theorem entryFate_of_resumeRefresh {r : Running} {signal : Signal} {refresh : Refresh}
    (hs : Hears c r e signal) (hstage : r.work.stage = .renewing refresh) :
    EntryFate c e key ((c.shared.resumeRefresh refresh signal).2.cache.find? key) := by
  rcases c.shared.find?_resumeRefresh refresh signal key with
    hkept | ⟨slot, answer, value, rfl, hfetched, hasked, hstored⟩
  · exact hkept ▸ .kept
  · rw [hstored]
    cases hs with
    | answer hr =>
      refine .brought (r := r) ⟨answer, rfl, hfetched, hr, ?_, .inl ⟨refresh, hstage⟩⟩
      exact Work.awaits_of_stage hstage ▸ hasked

theorem entryFate_of_resumed {r : Running} {signal : Signal} {out : Controller × List Output}
    (hs : Hears c r e signal) (h : Resumed c r signal out) :
    EntryFate c e key (out.1.cache.find? key) := by
  cases h with
  | nothing => exact .kept
  | @advance s' work asks ha =>
    have hwrites := ha.writes
    change EntryFate c e key (s'.cache.find? key)
    generalize s'.cache = cache at hwrites
    cases hwrites with
    | nothing => exact .kept
    | begins =>
      rw [Cache.find?_startRefresh]
      exact .marked
    | settles hstage => exact entryFate_of_resumeRefresh hs hstage
  | @ending s' result he =>
    have hcloses := he.closes
    change EntryFate c e key (s'.cache.find? key)
    generalize s'.cache = cache at hcloses
    cases hcloses with
    | nothing => exact .kept
    | settles hstage => exact entryFate_of_resumeRefresh hs hstage
    | @refetches key' answer value hw ha hf =>
      subst ha
      rw [Cache.set, Cache.find?_put]
      split
      · next hkey =>
        subst hkey
        cases hs with
        | answer hr =>
          exact .brought (r := r) ⟨answer, rfl, hf, hr, by simp [hw, Work.awaits], .inr hw⟩
      · exact .kept
  | conclusion => exact entryFate_of_cache (c.cache_conclude _)

theorem entryFate_of_act {out : Controller × List Output} (h : Act c e out) (key : CacheKey) :
    EntryFate c e key (out.1.cache.find? key) := by
  cases h with
  | nothing | refused | exhausted | skippedCall | droppedRefresh | detached | abandoned | shutDown
    | expired | passed => exact .kept
  | skippedTick ho | joins ho =>
    obtain ⟨hs, -, -, -⟩ := ho.frame
    have hcache := congrArg Shared.cache hs
    exact entryFate_of_cache hcache
  | begins ho hi hw =>
    cases hw with
    | switch | reload | recover | tick => exact .kept
    | refresh =>
      have hmarked := Cache.find?_startRefresh
        (c.shared.onState (·.modify (·.withActivity .reconciling))) key
      have hfate : EntryFate c (.wake .debounce) key ((c.cache.find? key).map CacheEntry.marked) := .marked
      exact hmarked ▸ hfate
  | resumed hs ho => exact entryFate_of_resumed hs ho
  | @collapsed r =>
    have hcache := congrArg Shared.cache (c.shared_stopTicker r.origin)
    exact entryFate_of_cache hcache
  | started =>
    have hcache := congrArg Shared.cache c.shared_startBackground
    exact entryFate_of_cache hcache
  | visibility visible => exact entryFate_of_cache (c.cache_changeVisibility visible)

end Controller

namespace Turn

def Brings (t : Turn) (r : Running) (slot : Nat) (key : CacheKey) (value : Value) : Prop :=
  Controller.Brings t.before t.event r slot key value

/-- An entry that is fresh after a turn was there before, or is what the turn has brought. -/
theorem fresh_or_brought {t : Turn} {key : CacheKey} {entry : CacheEntry}
    (h : t.after.cache.find? key = some entry) (hfresh : entry.stale = false) :
    t.before.cache.find? key = some entry ∨ ∃ r slot, t.Brings r slot key entry.value := by
  have hfate := Controller.entryFate_of_act (Controller.act_step t.before t.event) key
  change Controller.EntryFate t.before.later t.event key (t.after.cache.find? key) at hfate
  rw [h] at hfate
  generalize hentry : some entry = found at hfate
  cases hfate with
  | kept => exact .inl rfl
  | marked =>
    obtain ⟨old, -, rfl⟩ := Option.map_eq_some_iff.mp hentry.symm
    cases hfresh
  | @brought r slot value hbrings =>
    obtain rfl := Option.some.inj hentry
    exact .inr ⟨r, slot, hbrings⟩

end Turn

end CoreWarden
