import CoreWarden.Proofs.Controller.Coherence
import CoreWarden.Proofs.Controller.Detection

/-!
What is in the cache: under each key the value that was stored last, marked stale if a refresh of the
whole cache has begun since. A value is stored when the fetch behind it is answered, and nothing else
changes an entry or takes it away.
-/
namespace CoreWarden

open Controller (Hears Act Brings)
open Json (Value)
open Time (Timestamp)

theorem CacheKey.request_injective {key key' : CacheKey} (h : key.request = key'.request) :
    key = key' := by
  cases key <;> cases key' <;> first | rfl | cases h

theorem Refresh.find?_settle_of_mem {refresh : Refresh} {slot : Nat} {key : CacheKey} (value : Value)
    (cache : Cache) (wall : Timestamp) (h : (slot, key.request) ∈ refresh.asks) :
    (refresh.settle slot (.ok value) cache wall).2.find? key = some ⟨value, wall, false⟩ := by
  obtain ⟨key', hat, hrequest⟩ := mem_asks_iff.mp h
  obtain rfl := CacheKey.request_injective hrequest
  simp [settle, hat, Cache.set]

/-! ### Refreshes -/

@[simp] theorem Switch.cache_refreshed (s : Shared) (id : String) (remaining : Bool)
    (refresh : Refresh) : (refreshed s id remaining refresh).1.cache = s.cache := by
  unfold refreshed
  split <;> rfl

@[simp] theorem Reload.cache_refreshed (s : Shared) (refresh : Refresh) :
    (refreshed s refresh).1.cache = s.cache := by
  unfold refreshed
  split <;> rfl

@[simp] theorem Recovery.cache_refreshed (s : Shared) (attempt : UInt32) (refresh : Refresh) :
    (refreshed s attempt refresh).1.cache = s.cache := by
  unfold refreshed
  split <;> rfl

@[simp] theorem Recovery.cache_reloaded (step : Shared × Reload.Step) :
    (reloaded step).1.cache = step.1.cache := by
  unfold reloaded
  split <;> rfl

namespace Controller

variable {c : Controller} {e : Event} {r : Running} {key : CacheKey} {signal : Signal}

@[simp] theorem cache_reloadEnded (step : Shared × Reload.Step) :
    (reloadEnded step).1.cache = step.1.cache := by
  unfold reloadEnded
  split <;> rfl

@[simp] theorem cache_proceed (c : Controller) (r : Running) (point : φ → Work) (result : ρ → Result)
    (step : Shared × Progress φ ρ) : (c.proceed r point result step).1.cache = step.1.cache := by
  obtain ⟨s, progress⟩ := step
  cases progress <;> rfl

theorem cache_resume_of_renewing {refresh : Refresh} (h : r.work.stage = .renewing refresh)
    (signal : Signal) :
    (c.resume r signal).1.cache = (c.shared.resumeRefresh refresh signal).2.cache := by
  unfold resume
  cases hw : r.work with
  | switch id phase =>
    rw [hw] at h
    cases phase <;> cases h
    simp [Switch.resume]
  | reload phase =>
    rw [hw] at h
    cases phase <;> cases h
    simp [Reload.resume]
  | recover attempt phase =>
    rw [hw] at h
    cases phase with
    | refreshing =>
      cases h
      simp [Recovery.resume]
    | reloading reload =>
      cases reload <;> cases h
      simp [Recovery.resume, Reload.resume]
    | checking | rechecking => cases h
  | refresh =>
    rw [hw] at h
    cases h
    dsimp only
    split <;> rfl
  | check | reconcile | refetch =>
    rw [hw] at h
    cases h

theorem find?_of_brings {slot : Nat} {value : Value} (h : Brings c.later e r slot key value) :
    (c.step e).1.cache.find? key = some ⟨value, c.later.shared.wall, false⟩ := by
  obtain ⟨answer, rfl, hfetched, hr, ha, hwork⟩ := h
  have hne : answer ≠ .collapsed := by
    rintro rfl
    cases hfetched
  rw [step_of_hears (.answer hr ha hne)]
  rcases hwork with ⟨refresh, hstage⟩ | hw
  · rw [cache_resume_of_renewing hstage, Shared.resumeRefresh, hfetched]
    exact Refresh.find?_settle_of_mem value _ _ (Work.awaits_of_stage hstage ▸ ha)
  · have hslot : slot = 0 := by
      rw [hw] at ha
      exact (Prod.mk.inj (List.mem_singleton.mp ha)).1
    subst hslot
    have hresume : (c.later.resume r (.answer 0 answer)).1.cache =
        c.later.cache.set key value c.later.shared.wall := by
      unfold resume
      simp only [hw, hfetched]
      rfl
    rw [hresume]
    simp [Cache.set]

def Fetches (c : Controller) (n : Nat) : Prop :=
  ∃ r ∈ c.running, r.id = n ∧ ∃ refresh, r.work.stage = .renewing refresh

/-- What work that renews the cache hears leaves the entry alone, unless it brings its data. -/
theorem find?_resumeRefresh_of_not_brings {refresh : Refresh} (hs : Hears c r e signal)
    (hstage : r.work.stage = .renewing refresh) (hb : ∀ r slot value, ¬ Brings c e r slot key value) :
    (c.shared.resumeRefresh refresh signal).2.cache.find? key = c.cache.find? key := by
  rcases c.shared.find?_resumeRefresh refresh signal key with
    hkept | ⟨slot, answer, value, rfl, hfetched, hasked, -⟩
  · exact hkept
  · cases hs with
    | answer hr =>
      have ha : (slot, key.request) ∈ r.work.awaits := Work.awaits_of_stage hstage ▸ hasked
      exact absurd ⟨answer, rfl, hfetched, hr, ha, .inl ⟨refresh, hstage⟩⟩ (hb r slot value)

theorem find?_of_resumed (hn : c.Numbered) {out : Controller × List Output} (hs : Hears c r e signal)
    (h : Resumed c r signal out) (hb : ∀ r slot value, ¬ Brings c e r slot key value)
    (hf : ∀ n, out.1.Fetches n → c.Fetches n) : out.1.cache.find? key = c.cache.find? key := by
  cases h with
  | nothing => rfl
  | @advance s' work asks ha =>
    have hwrites := ha.writes
    change s'.cache.find? key = _
    generalize s'.cache = cache at hwrites
    cases hwrites with
    | nothing => rfl
    | begins hbefore hrenewing =>
      have hr := mem_of_find? hs.find?
      obtain ⟨r₀, hr₀, hid, refresh, hstage⟩ :=
        hf r.id ⟨_, mem_replaceWork (c := { c with shared := s' }) hr work, rfl, _, hrenewing⟩
      obtain rfl := hn.eq_of_id hr₀ hr hid
      cases hbefore.symm.trans hstage
    | settles hstage => exact find?_resumeRefresh_of_not_brings hs hstage hb
  | @ending s' result he =>
    have hcloses := he.closes
    change s'.cache.find? key = _
    generalize s'.cache = cache at hcloses
    cases hcloses with
    | nothing => rfl
    | settles hstage => exact find?_resumeRefresh_of_not_brings hs hstage hb
    | @refetches key' answer value hw ha hfetched =>
      subst ha
      rw [Cache.set, Cache.find?_put]
      split
      · next hkey =>
        subst hkey
        cases hs with
        | answer hr =>
          exact absurd ⟨answer, rfl, hfetched, hr, by simp [hw, Work.awaits], .inr hw⟩ (hb r 0 value)
      · rfl
  | conclusion => exact congrArg (·.find? key) (c.cache_conclude _)

theorem find?_of_act (hn : c.Numbered) {out : Controller × List Output} (h : Act c e out)
    (hb : ∀ r slot value, ¬ Brings c e r slot key value) (hf : ∀ n, out.1.Fetches n → c.Fetches n) :
    out.1.cache.find? key = c.cache.find? key := by
  cases h with
  | nothing | refused | exhausted | skippedCall | droppedRefresh | detached | abandoned | shutDown
    | expired | passed => rfl
  | skippedTick ho | joins ho =>
    obtain ⟨hs, -, -, -⟩ := ho.frame
    exact congrArg (·.cache.find? key) hs
  | begins ho hi hw =>
    cases hw with
    | switch | reload | recover | tick => rfl
    | refresh =>
      obtain ⟨-, -, hid, -⟩ := ho.frame
      obtain ⟨r, hr, hnew, -⟩ := hf _ ⟨_, List.mem_append_right _ (List.mem_singleton.mpr rfl), rfl, _, rfl⟩
      exact absurd (hn.ids_lt r hr) (by rw [hnew, hid]; exact Nat.lt_irrefl _)
  | resumed hs ho => exact find?_of_resumed hn hs ho hb hf
  | @collapsed r =>
    exact congrArg (·.cache.find? key) (c.shared_stopTicker r.origin)
  | started => exact congrArg (·.cache.find? key) c.shared_startBackground
  | visibility visible => exact congrArg (·.find? key) (c.cache_changeVisibility visible)

end Controller

namespace Turn

open Controller

def Stores (t : Turn) (key : CacheKey) (value : Value) : Prop := ∃ r slot, t.Brings r slot key value

def Marks (t : Turn) : Prop := ∃ n, t.after.Fetches n ∧ ¬ t.before.Fetches n

variable {timings : Timings} {t : Turn} {key : CacheKey}

theorem find?_of_stores {value : Value} (h : t.Stores key value) :
    t.after.cache.find? key = some ⟨value, t.before.later.shared.wall, false⟩ := by
  obtain ⟨r, slot, hbrings⟩ := h
  exact find?_of_brings hbrings

theorem find?_of_opening (hs : t.before.Sound timings) (hi : t.before.later.state.activity = .idle)
    (he : t.event = .wake .debounce) {r : Running} (hr : r ∈ t.after.running)
    (hnew : r.id = t.before.nextId) :
    t.after.cache.find? key = (t.before.cache.find? key).map CacheEntry.marked := by
  by_cases hfires : t.Fires
  · have henter : { t.before.later with debounce := .empty }.state.enter .reconciling = _ :=
      SyncState.enter_of_idle _ _ hi
    have hafter : t.after = t.before.later.startDebounced.1 := congrArg Prod.fst (step_of_fires hfires)
    rw [hafter]
    simp only [startDebounced, henter]
    exact Cache.find?_startRefresh _ key
  · rw [step_of_not_fires he hfires] at hr
    exact absurd (hs.ids_lt r hr) (hnew ▸ Nat.lt_irrefl _)

theorem find?_of_marks (hs : t.before.Sound timings) (h : t.Marks) :
    t.after.cache.find? key = (t.before.cache.find? key).map CacheEntry.marked := by
  obtain ⟨n, ⟨r, hr, rfl, refresh, hstage⟩, hnone⟩ := h
  have hsource := source_of_turn hs hr
  generalize t.outputs = outputs at hsource
  cases hsource with
  | @kept r₀ _ _ hr₀ => exact absurd ⟨r₀, hr₀, rfl, refresh, hstage⟩ hnone
  | joined onset haside =>
    generalize t.event = e at haside
    cases haside <;> cases hstage
  | opened onset hi hopening =>
    refine find?_of_opening hs hi ?_ hr rfl
    generalize t.event = e at hopening
    cases hopening <;> first | rfl | cases hstage
  | @advanced r₀ signal s' work asks hears ha => 
    have hcache : t.after.cache = s'.cache := congrArg cache (step_of_advance hears ha)
    have hwrites := ha.writes
    rw [hcache]
    generalize s'.cache = cache at hwrites
    cases hwrites with
    | nothing hs' =>
      rcases hs' with hsame | hfailed
      · exact absurd ⟨r₀, mem_of_find? hears.find?, rfl, refresh, hsame.symm.trans hstage⟩ hnone
      · cases hfailed.symm.trans hstage
    | begins => exact Cache.find?_startRefresh _ key
    | settles hs => exact absurd ⟨r₀, mem_of_find? hears.find?, rfl, _, hs⟩ hnone

theorem find?_of_quiet (hs : t.before.Sound timings) (hstores : ∀ value, ¬ t.Stores key value)
    (hmarks : ¬ t.Marks) : t.after.cache.find? key = t.before.cache.find? key := by
  refine find?_of_act hs.later.toNumbered (act_step t.before t.event) ?_ ?_
  · exact fun r slot value hbrings => hstores value ⟨r, slot, hbrings⟩
  · intro n hafter
    by_contra hbefore
    exact hmarks ⟨n, hafter, hbefore⟩

end Turn

/-! ### Over a run -/

/-- The entry that the turns so far have left under a key: the value that was stored last, marked stale
if a refresh has begun since. -/
def LastStored (key : CacheKey) (past : List Turn) : Option CacheEntry → Prop
  | some entry => ∃ earlier u later, past = earlier ++ u :: later ∧ u.Stores key entry.value ∧
      u.before.later.shared.wall = entry.updatedAt ∧ (∀ v ∈ later, ∀ value, ¬ v.Stores key value) ∧
      (entry.stale = true ↔ ∃ v ∈ later, v.Marks)
  | none => ∀ u ∈ past, ∀ value, ¬ u.Stores key value

namespace LastStored

variable {timings : Timings} {key : CacheKey} {past : List Turn} {t : Turn}

theorem snoc {found found' : Option CacheEntry} (h : LastStored key past found)
    (hstores : ∀ value, ¬ t.Stores key value) (hm : t.Marks → found' = found.map CacheEntry.marked)
    (hq : ¬ t.Marks → found' = found) : LastStored key (past ++ [t]) found' := by
  cases found with
  | none =>
    have hnone : found' = none := by
      by_cases hmarks : t.Marks
      · exact hm hmarks
      · exact hq hmarks
    rw [hnone]
    intro u hu
    rcases List.mem_append.mp hu with hu | hu
    · exact h u hu
    · exact List.mem_singleton.mp hu ▸ hstores
  | some entry =>
    obtain ⟨earlier, u, later, rfl, hstored, hwall, hrest, hstale⟩ := h
    have hrest' : ∀ v ∈ later ++ [t], ∀ value, ¬ v.Stores key value :=
      List.forall_mem_append.mpr ⟨hrest, by simpa using hstores⟩
    by_cases hmarks : t.Marks
    · rw [hm hmarks]
      exact ⟨earlier, u, later ++ [t], by simp, hstored, hwall, hrest',
        iff_of_true rfl (exists_mem_last hmarks)⟩
    · rw [hq hmarks]
      refine ⟨earlier, u, later ++ [t], by simp, hstored, hwall, hrest', hstale.trans ?_⟩
      simp [or_and_right, exists_or, hmarks]

theorem turn (hs : t.before.Sound timings) (h : LastStored key past (t.before.cache.find? key)) :
    LastStored key (past ++ [t]) (t.after.cache.find? key) := by
  by_cases hstores : ∃ value, t.Stores key value
  · obtain ⟨value, hvalue⟩ := hstores
    rw [Turn.find?_of_stores hvalue]
    exact ⟨past, t, [], rfl, hvalue, rfl, by simp, by simp⟩
  · have hnone := not_exists.mp hstores
    exact h.snoc hnone (Turn.find?_of_marks hs) (Turn.find?_of_quiet hs hnone)

/-- All along a run there is under each key what was stored last. -/
theorem run (timings : Timings) (currentConfig : Option String) (es : List Event) (key : CacheKey) :
    let c := Controller.initial timings currentConfig
    LastStored key (c.turns es) ((c.run es).1.cache.find? key) := by
  intro c
  refine (Controller.turns_induction (P := fun past c' => c'.Sound timings ∧
    LastStored key past (c'.cache.find? key)) ⟨Controller.sound_initial timings currentConfig, ?_⟩ ?_ es).2
  · have hempty : (Controller.initial timings currentConfig).cache.find? key = none := by
      cases key <;> rfl
    rw [hempty]
    intro u hu
    cases hu
  · rintro past t ⟨hs, h⟩
    exact ⟨hs.step t.event, h.turn hs⟩

end LastStored

end CoreWarden
