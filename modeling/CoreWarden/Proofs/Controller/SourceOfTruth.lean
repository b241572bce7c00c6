import CoreWarden.Proofs.Controller.CurrentConfig

/-!
The source of truth moves only on proof. A switch that is past its request has the core's consent, a
pause and an answer of the core behind it, with nothing in between that could move the core again; a
reconciliation has asked the profile store after the last commit.
-/
namespace CoreWarden

open Time (pauseEnd)
open Controller (Hears Source)

/-- Whether a call can move the core to another profile. -/
def Request.moves : Request → Bool
  | switch _ | restart => true
  | _ => false

theorem Request.isCommand_of_moves {q : Request} (h : q.moves = true) : q.isCommand = true := by
  cases q <;> simp_all [moves, isCommand]

theorem Request.moves_of_not_isCommand {q : Request} (h : q.isCommand = false) : q.moves = false := by
  cases q <;> simp_all [moves, isCommand]

theorem Probe.moves_awaits {probe : Probe} {a : Nat × Request} (h : a ∈ probe.awaits) :
    a.2.moves = false := by
  cases probe <;> simp_all [awaits, Request.moves]

namespace Turn

/-- Nobody tells the core to switch or the process manager to restart it. -/
def Quiet (t : Turn) : Prop := ∀ id request, t.Asks id request → request.moves = false

/-- The one who holds the activity, and waits for nothing that moves the core, has not begun such a
call; nor has anybody else. -/
theorem quiet_of_mem {t : Turn} (h : t.after.Exclusive) {r : Running} (hr : r ∈ t.after.running)
    (hw : r.work.activity?.isSome) (ha : ∀ a ∈ r.work.awaits, a.2.moves = false) : t.Quiet := by
  rintro id request ⟨slot, hm⟩
  obtain ⟨r', hr', -, ha'⟩ := Controller.awaited_of_act (Controller.act_step t.before t.event) hm
  cases hq : request.moves with
  | false => rfl
  | true =>
    have hcommand : request ∈ r'.work.commands :=
      List.mem_filter.mpr ⟨List.mem_map_of_mem ha', Request.isCommand_of_moves hq⟩
    have hw' : r'.work.activity?.isSome := by
      cases hn : r'.work.activity? with
      | none => simp [Work.commands_eq_nil hn] at hcommand
      | some a => rfl
    obtain rfl := h.eq_of_activity? hr hr' hw hw'
    exact absurd (ha _ ha') (by simp [hq])

end Turn

/-- The core has consented to a switch, `rest` after that is over by `moment`, and nothing has moved
the core since. -/
def Accepted (rest : Nat → Nat) (n : Nat) (id : String) (moment : Nat) : List Turn → Prop :=
  Since (fun _ u => u.Answers n (.switch id) (.switch (.ok ())) ∧ rest u.now ≤ moment) Turn.Quiet

/-- The core has consented to a switch and then, at the end of `rest` or later, has answered the same
workflow with its version; nothing has moved the core since the consent. -/
def Proven (rest : Nat → Nat) (n : Nat) (id : String) : List Turn → Prop :=
  Since (fun earlier v => (∃ version, v.Answers n .version (.version (.ok version))) ∧
    Accepted rest n id v.now earlier) Turn.Quiet

theorem Proven.exists_le {rest : Nat → Nat} {n : Nat} {id : String} {past : List Turn}
    (h : Proven rest n id past) : ∃ u ∈ past, ∃ v ∈ past, rest u.now ≤ v.now := by
  obtain ⟨earlier, v, later, rfl, ⟨-, earliest, u, between, rfl, ⟨-, hle⟩, -⟩, -⟩ := h
  exact ⟨u, by simp, v, by simp, hle⟩

/-- The profile store was asked for its list and no switch has committed since. -/
def AskedSinceCommit (n : Nat) : List Turn → Prop :=
  Since (fun _ u => u.Asks n .list) fun u => ∀ r id, ¬ u.Commits r id

theorem Accepted.mono {rest : Nat → Nat} {n : Nat} {id : String} {moment moment' : Nat}
    {past : List Turn} (h : Accepted rest n id moment past) (hm : moment ≤ moment') :
    Accepted rest n id moment' past :=
  Since.mono h fun _ _ hu => ⟨hu.1, Nat.le_trans hu.2 hm⟩

def Switch.Evidence (grace now n : Nat) (id : String) (past : List Turn) : Switch → Prop
  | pausing wake => Accepted (pauseEnd · grace) n id wake past
  | probing _ => Accepted (pauseEnd · grace) n id now past
  | confirming | storing _ | refreshing .. => Proven (pauseEnd · grace) n id past
  | checking | restarting | resolving _ | rechecking | switching | reporting _ => True

/-- The results that a reconciliation has are answers to its calls. -/
structure Tick.Fetched (n : Nat) (past : List Turn) (t : Tick) : Prop where
  profiles : ∀ result, t.profiles = some result → ∃ u ∈ past, u.Answers n .list (.list result)
  proxies : ∀ result, t.proxies = some result → ∃ u ∈ past, u.Answers n .proxies (.proxies result)

def Work.Evidence (grace now n : Nat) (past : List Turn) : Work → Prop
  | switch id phase => phase.Evidence grace now n id past
  | reconcile tick => tick.Fetched n past ∧ AskedSinceCommit n past
  | _ => True

theorem Switch.Evidence.snoc {grace now now' n : Nat} {id : String} {past : List Turn} {t : Turn}
    {phase : Switch} (h : phase.Evidence grace now n id past) (hn : now ≤ now')
    (hq : (∀ a ∈ phase.awaits id, a.2.moves = false) → t.Quiet) :
    phase.Evidence grace now' n id (past ++ [t]) := by
  cases phase with
  | pausing wake => exact Since.snoc h (hq (by simp [awaits]))
  | probing probe =>
    have ha : Accepted (pauseEnd · grace) n id now past := h
    exact Since.snoc (ha.mono hn) (hq fun _ => Probe.moves_awaits)
  | confirming => exact Since.snoc h (hq (by simp [awaits, Request.moves]))
  | storing remaining => exact Since.snoc h (hq (by simp [awaits, Request.moves]))
  | refreshing remaining refresh =>
    refine Since.snoc h (hq ?_)
    intro a ha
    exact Request.moves_of_not_isCommand (Refresh.isCommand_asks ha)
  | checking | restarting | resolving | rechecking | switching | reporting => trivial

theorem Probe.failed_ne_ok (pace : Pace) (started attempt now : Nat) (e : Error) :
    failed pace started attempt now e ≠ .done (.ok ()) := by
  fun_cases failed pace started attempt now e <;> simp

theorem Probe.answered_of_done {pace : Pace} {now : Nat} {probe : Probe} {signal : Signal}
    (h : probe.resume pace now signal = .done (.ok ())) :
    ∃ slot version, signal = .answer slot (.version (.ok version)) ∧
      probe.awaits = [(slot, .version)] := by
  revert h
  fun_cases Probe.resume pace now probe signal <;> intro h
  case case1 slot version => exact ⟨_, _, rfl, rfl⟩
  case case2 | case4 => exact absurd h (failed_ne_ok _ _ _ _ _)
  all_goals cases h

section

variable {grace now' : Nat} {past : List Turn} {t : Turn} {r : Running} {s s' : Shared} {id : String}
  {phase' : Switch} {signal : Signal} {asks : List (Nat × Request)}

theorem Switch.evidence_resume {phase : Switch} (hw : r.work = .switch id phase)
    (hs : Hears t.before.later r t.event signal) (hnow : s.now = t.now)
    (hgrace : s.timings.switchGrace.toNat = grace) (hn : t.now ≤ now')
    (hq : (∀ a ∈ phase'.awaits id, a.2.moves = false) → t.Quiet)
    (h : phase.Evidence grace t.now r.id id past)
    (hr : resume s id phase signal = (s', .waiting phase' asks)) :
    phase'.Evidence grace now' r.id id (past ++ [t]) := by
  revert hr
  fun_cases resume s id phase signal <;> intro hr
  case case6 =>
    cases hr
    obtain ⟨request, ha, hanswer⟩ := hs.answers
    have hrequest : request = .switch id := by simpa [hw, Work.awaits, awaits] using ha
    refine Since.last ⟨hrequest ▸ hanswer, ?_⟩
    simp [hnow, hgrace]
  case case8 wake =>
    cases hr
    obtain ⟨due, hdue, hle⟩ := hs.due
    obtain rfl : wake = due := by simpa [hw, Work.due?, due?] using hdue
    have ha : Accepted (pauseEnd · grace) r.id id wake past := h
    exact Since.snoc (ha.mono (Nat.le_trans hle hn))
      (hq (by simp [awaits, Probe.awaits, Request.moves]))
  case case9 probe =>
    have ha : Accepted (pauseEnd · grace) r.id id t.now past := h
    generalize hp : probe.resume s.pace s.now signal = progress at hr
    fun_cases probed s id progress <;> cases hr
    case case1 => exact Since.snoc (ha.mono hn) (hq fun _ => Probe.moves_awaits)
    case case2 => trivial
    case case3 =>
      obtain ⟨slot, version, rfl, hslot⟩ := Probe.answered_of_done hp
      obtain ⟨request, hm, hanswer⟩ := hs.answers
      have hrequest : request = .version := by simpa [hw, Work.awaits, awaits, hslot] using hm
      exact Since.last ⟨⟨version, hrequest ▸ hanswer⟩, ha⟩
  case case10 =>
    cases hr
    exact Since.snoc h (hq (by simp [awaits, Request.moves]))
  case case11 remaining result refresh u hu =>
    cases hr
    have hp : (refreshing remaining refresh).Evidence grace t.now r.id id past := h
    exact hp.snoc hn hq
  case case12 remaining refresh refresh' u hu =>
    have hp : (refreshing remaining refresh').Evidence grace t.now r.id id past := h
    unfold refreshed at hr
    split at hr <;> cases hr
    exact hp.snoc hn hq
  case case14 =>
    cases hr
    exact h.snoc hn hq
  case case13 => cases hr
  all_goals
    cases hr
    trivial

end

theorem Tick.Fetched.mono {n : Nat} {past past' : List Turn} {tick : Tick} (h : tick.Fetched n past)
    (hp : past ⊆ past') : tick.Fetched n past' where
  profiles result hr := by
    obtain ⟨u, hu, ha⟩ := h.profiles result hr
    exact ⟨u, hp hu, ha⟩
  proxies result hr := by
    obtain ⟨u, hu, ha⟩ := h.proxies result hr
    exact ⟨u, hp hu, ha⟩

theorem Tick.fetched_resume {past : List Turn} {t : Turn} {r : Running} {tick : Tick}
    {signal : Signal} (hw : r.work = .reconcile tick) (hs : Hears t.before.later r t.event signal)
    (h : tick.Fetched r.id past) : (tick.resume signal).Fetched r.id (past ++ [t]) := by
  have hpast : tick.Fetched r.id (past ++ [t]) := h.mono (List.subset_append_left _ _)
  fun_cases Tick.resume tick signal with
  | case1 result =>
    refine ⟨?_, hpast.proxies⟩
    intro result' hr
    cases hp : tick.profiles with
    | some known =>
      obtain rfl : known = result' := by simpa [hp] using hr
      exact hpast.profiles _ hp
    | none =>
      obtain rfl : result = result' := by simpa [hp] using hr
      obtain ⟨request, ha, hanswer⟩ := hs.answers
      have hrequest : request = .list := by
        simpa [hw, Work.awaits, awaits, hp, apply_ite (_ ∈ ·)] using ha
      exact ⟨t, by simp, hrequest ▸ hanswer⟩
  | case2 result =>
    refine ⟨hpast.profiles, ?_⟩
    intro result' hr
    cases hp : tick.proxies with
    | some known =>
      obtain rfl : known = result' := by simpa [hp] using hr
      exact hpast.proxies _ hp
    | none =>
      obtain rfl : result = result' := by simpa [hp] using hr
      obtain ⟨request, ha, hanswer⟩ := hs.answers
      have hrequest : request = .proxies := by
        simpa [hw, Work.awaits, awaits, hp, apply_ite (_ ∈ ·)] using ha
      exact ⟨t, by simp, hrequest ▸ hanswer⟩
  | case3 => exact hpast

/-- While a reconciliation is going on no switch commits. -/
theorem Turn.not_commits {t : Turn} (h : t.before.Exclusive) {r : Running} {tick : Tick}
    (hr : r ∈ t.before.running) (hw : r.work = .reconcile tick) (r' : Running) (id : String) :
    ¬ t.Commits r' id := by
  rintro ⟨phase, signal, s', remaining, hw', hs, -⟩
  exact h.not_switch_of_tick hr hw (Controller.mem_of_find? hs.find?) id phase hw'

theorem Work.Evidence.snoc {grace now now' n : Nat} {past : List Turn} {t : Turn} {w : Work}
    (h : w.Evidence grace now n past) (hn : now ≤ now')
    (hq : w.activity?.isSome → (∀ a ∈ w.awaits, a.2.moves = false) → t.Quiet)
    (hc : ∀ tick, w = .reconcile tick → ∀ r id, ¬ t.Commits r id) :
    w.Evidence grace now' n (past ++ [t]) := by
  cases w with
  | switch id phase => exact Switch.Evidence.snoc h hn (hq rfl)
  | reconcile tick => exact ⟨h.1.mono (List.subset_append_left _ _), h.2.snoc (hc tick rfl)⟩
  | _ => trivial

namespace Controller

def Founded (grace : Nat) (past : List Turn) (c : Controller) : Prop :=
  ∀ r ∈ c.running, r.work.Evidence grace c.now r.id past

theorem founded_turn {timings : Timings} {past : List Turn} {t : Turn} (hs : t.before.Sound timings)
    (h : t.before.Founded timings.switchGrace.toNat past) :
    t.after.Founded timings.switchGrace.toNat (past ++ [t]) := by
  intro r hr
  have hn : t.now ≤ t.after.now := (time_of_act (act_step t.before t.event)).2
  have hq := Turn.quiet_of_mem (hs.step t.event).toExclusive hr
  have hsource := source_of_turn hs hr
  generalize ho : t.outputs = outputs at hsource
  cases hsource with
  | @kept r₀ origin outputs hr₀ =>
    exact Work.Evidence.snoc (h r₀ hr₀) hn hq fun tick hw => Turn.not_commits hs.toExclusive hr₀ hw
  | opened onset hi hw =>
    generalize t.event = e at hw
    cases hw with
    | switch | reload | recover | refresh => trivial
    | tick =>
      refine ⟨⟨by simp [Tick.start], by simp [Tick.start]⟩, Since.last ⟨0, ?_⟩⟩
      rw [ho]
      simp [Work.awaits, Tick.awaits, Tick.start]
  | joined onset hw =>
    generalize t.event = e at hw
    cases hw <;> trivial
  | @advanced r₀ signal s' work asks hears ha =>
    have hr₀ : r₀ ∈ t.before.running := mem_of_find? hears.find?
    have hevidence := h r₀ hr₀
    generalize hw : r₀.work = w at ha
    rw [hw] at hevidence
    cases ha with
    | switch hresume =>
      have hgrace := congrArg (·.switchGrace.toNat) hs.later.timings_eq
      exact Switch.evidence_resume (r := r₀) (s := t.before.later.shared) hw hears rfl hgrace hn
        (hq rfl) hevidence hresume
    | reconcile =>
      exact ⟨Tick.fetched_resume (r := r₀) hw hears hevidence.1,
        hevidence.2.snoc (Turn.not_commits hs.toExclusive hr₀ hw)⟩
    | reload | recover | refresh => trivial

theorem founded_run (timings : Timings) (currentConfig : Option String) (es : List Event) :
    let c := initial timings currentConfig
    (c.run es).1.Sound timings ∧ (c.run es).1.Founded timings.switchGrace.toNat (c.turns es) := by
  refine turns_induction (P := fun past c => c.Sound timings ∧ c.Founded _ past) ?_ ?_ es
  · exact ⟨sound_initial timings currentConfig, by simp [Founded, initial]⟩
  · rintro past t ⟨hs, hf⟩
    exact ⟨hs.step t.event, founded_turn hs hf⟩

end Controller

namespace Turn

/-- The profile that is current stays, or a switch with its proof behind it commits, or a
reconciliation takes over what the store has said after the last commit. -/
def MovesOnProof (rest : Nat → Nat) (past : List Turn) (t : Turn) : Prop :=
  t.after.snapshot.currentConfig = t.before.snapshot.currentConfig ∨
    (∃ r id, t.Commits r id ∧ t.after.snapshot.currentConfig = some id ∧ Proven rest r.id id past) ∨
    ∃ r list proxies id, t.Concludes r (.ok list) (.ok proxies) ∧ list.current = some id ∧
      t.after.snapshot.currentConfig = some id ∧
      (∃ u ∈ past ++ [t], u.Answers r.id .list (.list (.ok list))) ∧
      (∃ u ∈ past ++ [t], u.Answers r.id .proxies (.proxies (.ok proxies))) ∧
      AskedSinceCommit r.id past

end Turn

theorem Switch.refreshing_of_done {s s' : Shared} {id : String} {phase : Switch} {signal : Signal}
    {outcome : SwitchOutcome} (h : resume s id phase signal = (s', .done (.ok outcome))) :
    ∃ remaining refresh, phase = .refreshing remaining refresh := by
  have hprobed : ∀ progress, (probed s id progress).2 ≠ .done (.ok outcome) := by
    intro progress
    fun_cases probed s id progress <;> simp [fail]
  revert h
  fun_cases resume s id phase signal <;> intro h
  case case8 | case9 => exact absurd (congrArg Prod.snd h) (hprobed _)
  case case12 remaining refresh _ _ _ => exact ⟨remaining, refresh, rfl⟩
  all_goals cases h

theorem Tick.of_results? {t : Tick} {profiles : Except Error ProfileList}
    {proxies : Except Error ProxySnapshot} (h : t.results? = some (profiles, proxies)) :
    t.profiles = some profiles ∧ t.proxies = some proxies := by
  unfold results? at h
  split at h
  · next hp hq =>
    cases h
    exact ⟨hp, hq⟩
  · cases h

namespace Controller

theorem movesOnProof_turn {grace : Nat} {past : List Turn} {t : Turn}
    (hf : t.before.Founded grace past) : t.MovesOnProof (pauseEnd · grace) past := by
  cases moved_of_turn t with
  | kept h => exact .inl h
  | @committed r id phase signal s' remaining hw hears h ha =>
    refine .inr (.inl ⟨r, id, ⟨phase, signal, s', remaining, hw, hears, h⟩, ha, ?_⟩)
    have hevidence := hf r (mem_of_find? hears.find?)
    obtain ⟨remaining', refresh, rfl⟩ := Switch.refreshing_of_done h
    rw [hw] at hevidence
    exact hevidence
  | @adopted r tick signal list proxies id hw hears h hl ha =>
    have hevidence := hf r (mem_of_find? hears.find?)
    rw [hw] at hevidence
    have hfetched := Tick.fetched_resume hw hears hevidence.1
    obtain ⟨hprofiles, hproxies⟩ := Tick.of_results? h
    exact .inr (.inr ⟨r, list, proxies, id, ⟨tick, signal, hw, hears, h⟩, hl, ha,
      hfetched.profiles _ hprofiles, hfetched.proxies _ hproxies, hevidence.2⟩)

/-- In every run, with any order of calls, answers, timers, breakdowns and callers who go away, the
profile that is current changes only on proof. -/
theorem source_of_truth (timings : Timings) (currentConfig : Option String) (es : List Event)
    (e : Event) :
    let c := initial timings currentConfig
    Turn.MovesOnProof (pauseEnd · timings.switchGrace.toNat) (c.turns es) ⟨(c.run es).1, e⟩ := by
  have hf := (founded_run timings currentConfig es).2
  exact movesOnProof_turn (t := ⟨_, e⟩) hf

/-- Timings that ask for a pause of a thousand billion milliseconds after a switch. -/
def patient : Timings := { switchGrace := 1000000000000 }

def smoothSwitch : List Event :=
  [.call (.switch "b"), .answer 0 0 (.status (.error .notConfigured)),
    .answer 0 0 (.switch (.ok ())), .pass 1000000000000, .wake (.work 0),
    .answer 0 1 (.version (.ok ⟨"1", false⟩)), .answer 0 0 (.status (.error .notConfigured)),
    .answer 0 0 (.store (.ok ())), .answer 0 0 (.list (.error .notConfigured)),
    .answer 0 1 (.proxies (.error .notConfigured))]

theorem patient_switch_is_early :
    let c := initial patient (some "a")
    let t : Turn := ⟨(c.run smoothSwitch).1, .answer 0 2 (.config (.error .notConfigured))⟩
    ¬ t.MovesOnProof (· + patient.switchGrace.toNat) (c.turns smoothSwitch) := by
  intro c t h
  have hchanged : t.after.snapshot.currentConfig ≠ t.before.snapshot.currentConfig := by decide +kernel
  have hearly : ∀ u ∈ c.turns smoothSwitch, ∀ v ∈ c.turns smoothSwitch,
      v.now < u.now + patient.switchGrace.toNat := by decide +kernel
  have hwork : ∀ r ∈ t.before.running, r.work.activity? = some .switching := by decide +kernel
  clear_value t
  rcases h with h | ⟨r, id, -, -, hp⟩ | ⟨r, list, proxies, id, ⟨tick, signal, hw, hs, -⟩, -⟩
  · exact hchanged h
  · obtain ⟨u, hu, v, hv, hle⟩ := hp.exists_le
    have hlt := hearly u hu v hv
    omega
  · have ha := hwork r (mem_of_find? hs.find?)
    simp [hw, Work.activity?] at ha

end Controller
end CoreWarden
