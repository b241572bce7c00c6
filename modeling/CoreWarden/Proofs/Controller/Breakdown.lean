import CoreWarden.Proofs.Controller.Admission
import CoreWarden.Proofs.Controller.Bystander
import CoreWarden.Proofs.Controller.LastStored

/-!
A collaborator that breaks down takes the workflow that called it along. The workflow is then gone with
all its calls, and its activity is given back; nothing else is changed, so that everything goes on as if
the workflow had been given up there.
-/
namespace CoreWarden

open Controller (Hears Touched)

def Work.failed (e : Error) : Work → Result
  | switch .. => .switch (.error e)
  | reload _ => .reload (.error e)
  | recover .. => .recover (.error e)
  | _ => .collapsed

theorem Controller.collapsed_of_isDetached {w : Work} (h : w.isDetached = true) :
    ∃ message, collapsed w = w.failed (.internal message) := by
  cases w with
  | switch | reload | recover => exact ⟨_, rfl⟩
  | check | reconcile | refetch | refresh => cases h

/-! ### What a workflow that has not ended has changed -/

/-- What lies between two snapshots leaves the profile that is current, and enters only failures in the
history. -/
structure Snapshot.Uncommitted (s s' : Snapshot) : Prop where
  currentConfig : s'.currentConfig = s.currentConfig
  history : ∃ failures : List HistoryEntry, (∀ e ∈ failures, e.success = false) ∧
    s'.history <:+ s.history ++ failures

namespace Snapshot.Uncommitted

variable {s s₁ s₂ : Snapshot}

theorem of_eq (hc : s₁.currentConfig = s.currentConfig) (hh : s₁.history = s.history) :
    s.Uncommitted s₁ :=
  ⟨hc, [], by simp, by simp [hh]⟩

theorem failure {e : HistoryEntry} {limit : Nat} (he : e.success = false)
    (hc : s₁.currentConfig = s.currentConfig) (hh : s₁.history = (s.pushHistory e limit).history) :
    s.Uncommitted s₁ := by
  refine ⟨hc, [e], by simpa using he, ?_⟩
  rw [hh]
  exact List.drop_suffix _ _

theorem trans (h₁ : s.Uncommitted s₁) (h₂ : s₁.Uncommitted s₂) : s.Uncommitted s₂ := by
  obtain ⟨hc₁, failures₁, hfailed₁, hsuffix₁⟩ := h₁
  obtain ⟨hc₂, failures₂, hfailed₂, hsuffix₂⟩ := h₂
  refine ⟨hc₂.trans hc₁, failures₁ ++ failures₂, List.forall_mem_append.mpr ⟨hfailed₁, hfailed₂⟩, ?_⟩
  rw [← List.append_assoc]
  exact hsuffix₂.trans (List.suffix_append_self_iff.mpr hsuffix₁)

end Snapshot.Uncommitted

theorem Work.Advance.uncommitted {s s' : Shared} {w w' : Work} {signal : Signal}
    {asks : List (Nat × Request)} (h : w.Advance s signal s' w' asks) :
    s.state.snapshot.Uncommitted s'.state.snapshot := by
  have hc := h.currentConfig
  cases h with
  | switch h =>
    have heffect := (Switch.effect h).1
    generalize s'.state = state at heffect hc
    cases heffect with
    | none | check => exact .of_eq hc rfl
    | failure e => exact .failure (e := ⟨_, _, false⟩) rfl hc rfl
  | reload h =>
    have heffect := (Reload.effect h).1
    generalize s'.state = state at heffect hc
    cases heffect with
    | none => exact .of_eq hc rfl
  | recover h =>
    exact .of_eq hc (Recovery.effect h).1.history
  | reconcile => exact .of_eq hc rfl
  | refresh h =>
    obtain ⟨cache, rfl⟩ := Shared.resumeRefresh_eq h
    exact .of_eq hc rfl

theorem SyncState.uncommitted_expire (s : SyncState) (now : Nat) :
    s.snapshot.Uncommitted (s.expire now).snapshot := by
  unfold expire
  split
  · rw [snapshot_resetAttempts]
    exact .of_eq rfl rfl
  · exact .of_eq rfl rfl

theorem Controller.Touched.uncommitted {c : Controller} {e : Event} {state : SyncState} {cache : Cache}
    (h : Touched c e state cache) : c.snapshot.Uncommitted state.snapshot := by
  cases h with
  | nothing | checked | fetched | skipped | shutDown => exact .of_eq rfl rfl
  | exhausted =>
    rw [SyncState.snapshot_setError]
    exact .of_eq rfl rfl
  | expired => exact SyncState.uncommitted_expire _ _

theorem Controller.Opening.uncommitted {s s' : Shared} {e : Event} {work : Work}
    (h : Opening s e work s') : s.state.snapshot.Uncommitted s'.state.snapshot := by
  cases h with
  | switch | reload =>
    rw [Shared.state_onState, SyncState.snapshot_setError]
    exact .of_eq rfl rfl
  | recover | tick | refresh => exact .of_eq rfl rfl

namespace Turn

variable {timings : Timings} {t : Turn} {r r' : Running}

theorem uncommitted_of_goesOn (h : t.GoesOn r r') : t.before.snapshot.Uncommitted t.after.snapshot := by
  cases h with
  | advances hears ha => exact ha.uncommitted
  | stays hw ht => exact ht.uncommitted

end Turn

def UncommittedSince (past : List Turn) (n : Nat) (shown : Snapshot) : Prop :=
  ∃ earlier entry later, past = earlier ++ entry :: later ∧ entry.BeginsWork n ∧
    entry.before.snapshot.Uncommitted shown

theorem UncommittedSince.snoc {past : List Turn} {n : Nat} {t : Turn} {shown : Snapshot}
    (h : UncommittedSince past n t.before.snapshot) (ht : t.before.snapshot.Uncommitted shown) :
    UncommittedSince (past ++ [t]) n shown := by
  obtain ⟨earlier, entry, later, rfl, hbegins, hshown⟩ := h
  exact ⟨earlier, entry, later ++ [t], by simp, hbegins, hshown.trans ht⟩

namespace Controller

variable {timings : Timings} {past : List Turn} {t : Turn}

/-- No workflow that goes on has committed anything. -/
def Pending (past : List Turn) (c : Controller) : Prop :=
  ∀ r ∈ c.running, r.work.isDetached = true → UncommittedSince past r.id c.snapshot

theorem pending_turn (hs : t.before.Sound timings) (h : t.before.Pending past) :
    t.after.Pending (past ++ [t]) := by
  intro r hr hd
  rcases Turn.workflow_of_turn hs hr hd with ⟨r₀, hr₀, hid, hd₀, hgoes⟩ | ⟨hbegins, hopening⟩
  · rw [hid]
    exact (h r₀ hr₀ hd₀).snoc (Turn.uncommitted_of_goesOn hgoes)
  · exact ⟨past, t, [], rfl, hbegins, hopening.uncommitted⟩

theorem pending_run (timings : Timings) (currentConfig : Option String) (es : List Event) :
    let c := initial timings currentConfig
    (c.run es).1.Sound timings ∧ (c.run es).1.Pending (c.turns es) := by
  intro c
  refine turns_induction (P := fun past c' => c'.Sound timings ∧ c'.Pending past)
    ⟨sound_initial timings currentConfig, fun r hr => by cases hr⟩ ?_ es
  rintro past t ⟨hs, h⟩
  exact ⟨hs.step t.event, pending_turn hs h⟩

/-! ### The breakdown -/

theorem Exclusive.drop_holder {c : Controller} {r : Running} (h : c.Exclusive) (hr : r ∈ c.running)
    (ha : r.work.activity?.isSome = true) : c.drop (·.id == r.id) =
      { c with running := c.running.filter (!·.id == r.id) }.onState (·.leave c.state.activity) := by
  obtain ⟨a, ha⟩ := Option.isSome_iff_exists.mp ha
  have hactivity : c.state.activity = a := h.activity_of_mem hr ha
  have hmem : a ∈ (c.running.filter (·.id == r.id)).filterMap (·.work.activity?) :=
    List.mem_filterMap.mpr ⟨r, List.mem_filter.mpr ⟨hr, by simp⟩, ha⟩
  have hdropped : (c.running.filter (·.id == r.id)).filterMap (·.work.activity?) = [a] := by
    rcases h.guards_drop (·.id == r.id) with ⟨hd, -⟩ | ⟨hd, -⟩
    · rw [hd] at hmem
      cases hmem
    · have hne : c.snapshot.activity ≠ .idle := h.activity_of_mem hr ha ▸ Work.activity?_ne_idle ha
      rw [hd, h.guards_eq, Activity.held_of_ne_idle hne]
      exact congrArg (fun a => [a]) hactivity
  rw [Controller.drop, hdropped, hactivity]
  rfl

def broken (c : Controller) (n : Nat) : Controller :=
  { c with running := c.running.filter (!·.id == n) }.onState (·.leave c.state.activity)

theorem step_of_breaksDown {r : Running} (hs : t.before.Sound timings) (hr : r ∈ t.before.running)
    (hd : r.work.isDetached = true) (h : t.BreaksDown r.id) :
    t.before.step t.event = (t.before.later.broken r.id, report r (collapsed r.work)) := by
  obtain ⟨request, slot, r₀, hevent, hfind, hawait⟩ := h
  obtain rfl := hs.eq_of_id (mem_of_find? hfind) hr (id_of_find? hfind)
  obtain ⟨awaits, horigin⟩ := hs.attended r₀ hr hd
  have hstop : t.before.later.stopTicker r₀.origin = t.before.later := by rw [horigin]; rfl
  rw [hevent, step_of_collapsed hfind hawait, collapse, hstop,
    hs.later.drop_holder hr (Work.activity?_of_isDetached hd)]
  rfl

theorem snapshot_broken (c : Controller) (n : Nat) :
    (c.broken n).snapshot = c.snapshot.withActivity .idle :=
  c.state.snapshot_leave_self

theorem gone_run {c : Controller} {n : Nat} (hs : c.Sound timings) (hn : n < c.nextId)
    (hgone : ∀ r ∈ c.running, r.id ≠ n) (es : List Event) :
    (c.run es).1.Sound timings ∧ ∀ r ∈ (c.run es).1.running, r.id ≠ n := by
  have hrun := run_induction (P := fun d => d.Sound timings ∧ n < d.nextId ∧
    ∀ r ∈ d.running, r.id ≠ n) ⟨hs, hn, hgone⟩ ?_ es
  · exact ⟨hrun.1, hrun.2.2⟩
  · rintro d e ⟨hs, hn, hgone⟩
    exact ⟨hs.step e, Nat.lt_of_lt_of_le hn (nextId_le_of_turn ⟨d, e⟩),
      Chronicled.gone_after (t := ⟨d, e⟩) hs hn hgone⟩

theorem step_of_gone {c : Controller} {n : Nat} (hgone : ∀ r ∈ c.running, r.id ≠ n) (slot : Nat)
    (answer : Answer) : c.step (.answer n slot answer) = (c.later, []) := by
  have hnone : c.later.find? n = none := by
    rw [find?, List.find?_eq_none]
    intro r hr
    simpa using hgone r hr
  change c.later.takeAnswer n slot answer = _
  rw [takeAnswer, hnone]

/-- In every run, whichever call of a switch, a reload or a recovery breaks down: the caller is told of an
internal error. The workflow is gone, its activity is given back, and nothing else has changed. It has
not changed which profile is current, nor entered a success in the history. Every entry of the cache
is as it was: its value is the one stored last, and it is stale if it was marked after that. Every call is
taken as every controller takes it that shows the same. And so it stays: whatever happens later, the
workflow does not come back, answers to its calls are not heard, under each key of the cache there is
what was stored last, and each call is admitted or refused as the snapshot of the moment says. -/
theorem breakdown_is_contained (timings : Timings) (currentConfig : Option String) (es : List Event)
    (e : Event) {r : Running} :
    let c := initial timings currentConfig
    let t : Turn := ⟨(c.run es).1, e⟩
    r ∈ t.before.running → r.work.isDetached = true → t.BreaksDown r.id →
    (∃ message, t.outputs = report r (r.work.failed (.internal message))) ∧
    t.after = t.before.later.broken r.id ∧
    t.after.snapshot = t.before.snapshot.withActivity .idle ∧
    UncommittedSince (c.turns es) r.id t.after.snapshot ∧
    t.after.cache = t.before.cache ∧
    (∀ key, LastStored key (c.turns es) (t.after.cache.find? key)) ∧
    (∀ c' : Controller, c'.shared.timings = timings → c'.snapshot = t.after.snapshot →
      ∀ call, ∃ a, t.after.Takes call a ∧ c'.Takes call a) ∧
    ∀ es', let d := (t.after.run es').1
      d.Sound timings ∧ (∀ r' ∈ d.running, r'.id ≠ r.id) ∧
      (∀ slot answer, d.step (.answer r.id slot answer) = (d.later, [])) ∧
      (∀ key, LastStored key (c.turns (es ++ e :: es')) (d.cache.find? key)) ∧
      ∀ call, d.Takes call (call.admission timings d.snapshot) := by
  intro c t hr hd hbreaks
  obtain ⟨hs, hpending⟩ := pending_run timings currentConfig es
  have hstep := step_of_breaksDown hs hr hd hbreaks
  have hafter : t.after = t.before.later.broken r.id := congrArg Prod.fst hstep
  have hsnapshot : t.after.snapshot = t.before.snapshot.withActivity .idle := by
    rw [hafter]
    exact snapshot_broken _ _
  have hcache : t.after.cache = t.before.cache := by
    rw [hafter]
    rfl
  have hsound : t.after.Sound timings := hs.step e
  have hgone : ∀ r' ∈ t.after.running, r'.id ≠ r.id := by
    rw [hafter]
    intro r' hr'
    simpa using (List.mem_filter.mp hr').2
  refine ⟨?_, hafter, hsnapshot, ?_, hcache, ?_, ?_, ?_⟩
  · obtain ⟨message, hmessage⟩ := collapsed_of_isDetached hd
    exact ⟨message, hmessage ▸ congrArg Prod.snd hstep⟩
  · obtain ⟨earlier, entry, later, hpast, hbegins, huncommitted⟩ := hpending r hr hd
    refine ⟨earlier, entry, later, hpast, hbegins, huncommitted.trans ?_⟩
    rw [hsnapshot]
    exact .of_eq rfl rfl
  · intro key
    rw [hcache]
    exact LastStored.run timings currentConfig es key
  · intro c' ht hshown call
    exact takes_alike (ht.trans hsound.timings_eq.symm) hshown call
  · intro es' d
    have hn : r.id < t.after.nextId :=
      Nat.lt_of_lt_of_le (hs.ids_lt r hr) (nextId_le_of_turn t)
    obtain ⟨hsound', hgone'⟩ := gone_run hsound hn hgone es'
    have hrun : (c.run (es ++ e :: es')).1 = d := c.run_append es (e :: es')
    refine ⟨hsound', hgone', step_of_gone hgone', ?_, ?_⟩
    · intro key
      rw [← hrun]
      exact LastStored.run timings currentConfig (es ++ e :: es') key
    · intro call
      have htakes := d.takes call
      rwa [hsound'.timings_eq] at htakes

def halfRecovery : List Event :=
  [.call .recover, .answer 0 0 (.status (.error .notConfigured)), .answer 0 1 (.proxies (.ok ⟨⟨[]⟩⟩))]

def halfFetched : Running :=
  ⟨0, .caller true, .recover 1 (.refreshing ⟨[(.profiles, none), (.proxies, some (.ok ())),
    (.clashConfig, none)]⟩)⟩

theorem breakdown_of_halfFetched :
    let c := ((initial Timings.standard (some "a")).run halfRecovery).1
    let t : Turn := ⟨c, .answer 0 0 .collapsed⟩
    halfFetched ∈ c.running ∧ halfFetched.work.isDetached = true ∧ t.BreaksDown halfFetched.id ∧
      (∃ message, t.outputs = [.ended 0 (.recover (.error (.internal message)))]) ∧
      t.after.snapshot = c.snapshot.withActivity .idle ∧
      (t.after.cache.find? .proxies).any (!·.stale) = true := by
  intro c t
  have hrunning : c.running = [halfFetched] := by rfl
  have hr : halfFetched ∈ c.running := by
    rw [hrunning]
    exact List.mem_singleton.mpr rfl
  have hfind : c.find? 0 = some halfFetched := by
    rw [find?, hrunning]
    rfl
  have hbreaks : t.BreaksDown halfFetched.id :=
    ⟨.list, 0, halfFetched, rfl, hfind, List.mem_cons_self⟩
  obtain ⟨htold, -, hsnapshot, -, hcache, -⟩ := breakdown_is_contained Timings.standard (some "a")
    halfRecovery (.answer 0 0 .collapsed) (r := halfFetched) hr rfl hbreaks
  refine ⟨hr, rfl, hbreaks, htold, hsnapshot, ?_⟩
  have hfresh : (c.cache.find? .proxies).any (!·.stale) = true := by decide +kernel
  exact hcache ▸ hfresh

end Controller

end CoreWarden
