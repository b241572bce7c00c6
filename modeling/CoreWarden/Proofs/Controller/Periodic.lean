import CoreWarden.Proofs.Controller.Aftermath
import CoreWarden.Proofs.Controller.Guise
import CoreWarden.Proofs.Controller.Refusal
import CoreWarden.Proofs.Controller.TickCourse

/-!
The schedule of the periodic work. Each of its two tickers begins when the periodic work is set up, runs
one run at a time, and goes on with the moments that are a whole number of periods away; what it has
missed it skips. The end of all periodic work ends it, and so does a run that breaks down.
-/
namespace CoreWarden

open Controller (Hears Act Onset Resumed)

def Origin.timer? : Origin → Option Timer
  | caller _ => none
  | debounce => some .debounce
  | visibility => some .visibility
  | reconciler => some .reconciler
  | poller => some .poller

inductive Beat where
  | reconciliation
  | poll

namespace Beat

def timer : Beat → Timer
  | reconciliation => .reconciler
  | poll => .poller

def origin : Beat → Origin
  | reconciliation => .reconciler
  | poll => .poller

def ticker? : Beat → Background → Option Ticker
  | reconciliation => Background.reconciler
  | poll => Background.poller

def period (timings : Timings) : Beat → Nat
  | reconciliation => timings.reconcileInterval.toNat
  | poll => timings.conflictPollInterval.toNat

/-- How many periods after it was set up its first run is due. -/
def first : Beat → Nat
  | reconciliation => 1
  | poll => 0

theorem timer?_origin (b : Beat) : b.origin.timer? = some b.timer := by
  cases b <;> rfl

theorem origin_ne_caller (b : Beat) (awaits : Bool) : b.origin ≠ .caller awaits := by
  cases b <;> simp [origin]

end Beat

/-! ### Tickers -/

/-- When the run is due that follows a run which was due at `due` and has begun at `start`. -/
def FollowsRun (period due start next : Nat) : Prop :=
  if due + Ticker.tolerance < start then
    start < next ∧ next ≤ start + period ∧ ∃ k, next = due + k * period
  else next = due + period

namespace Ticker

variable {ticker : Ticker} {now : Nat}

@[simp] theorem period_take (ticker : Ticker) (now : Nat) : (ticker.take now).period = ticker.period := by
  unfold take
  split <;> rfl

theorem follows_take (hp : 0 < ticker.period) (hd : ticker.due ≤ now) :
    FollowsRun ticker.period ticker.due now (ticker.take now).due := by
  unfold FollowsRun take
  split
  · have hlt := Nat.mod_lt (now - ticker.due) hp
    have hsplit := Nat.div_add_mod (now - ticker.due) ticker.period
    refine ⟨by dsimp only; omega, Nat.sub_le _ _, (now - ticker.due) / ticker.period + 1, ?_⟩
    rw [Nat.add_mul, Nat.mul_comm, Nat.one_mul]
    dsimp only
    omega
  · rfl

/-- The next run is due a whole number of periods later. -/
theorem exists_due_take (hp : 0 < ticker.period) (hd : ticker.due ≤ now) :
    ∃ k, (ticker.take now).due = ticker.due + k * ticker.period := by
  have hfollows := follows_take hp hd
  unfold FollowsRun at hfollows
  split at hfollows
  · exact hfollows.2.2
  · exact ⟨1, by rw [hfollows, Nat.one_mul]⟩

end Ticker

namespace Controller

def ticker? (c : Controller) (b : Beat) : Option Ticker := c.background.bind b.ticker?

variable {c : Controller} {b : Beat} {ticker : Ticker}

theorem due?_timer (c : Controller) (b : Beat) :
    c.due? b.timer = if c.isRunning b.origin then none else (c.ticker? b).map Ticker.due := by
  cases b <;> rfl

theorem not_isRunning_iff {origin : Origin} :
    c.isRunning origin = false ↔ ∀ r ∈ c.running, r.origin ≠ origin := by
  simp [isRunning]

end Controller

namespace Turn

def Wakes (t : Turn) (timer : Timer) (due : Nat) : Prop :=
  t.event = .wake timer ∧ t.before.due? timer = some due ∧ due ≤ t.now

/-- A run of periodic work begins; it was due at this moment. -/
def Beats (t : Turn) (b : Beat) (due : Nat) : Prop := t.Wakes b.timer due

def SetsUp (t : Turn) : Prop := t.event = .start ∧ t.before.background = none

def BeatFails (t : Turn) (b : Beat) : Prop :=
  ∃ r ∈ t.before.running, r.origin = b.origin ∧ t.BreaksDown r.id

/-- What becomes of a ticker in a turn. -/
inductive TickerAfter (timings : Timings) (t : Turn) (b : Beat) : Option Ticker → Prop
  | setUp (h : t.SetsUp) : TickerAfter timings t b
      (Ticker.start? (b.period timings) (t.now + b.first * b.period timings))
  | beats {ticker} (hticker : t.before.ticker? b = some ticker) (h : t.Beats b ticker.due) :
      TickerAfter timings t b (some (ticker.take t.now))
  | ended (h : t.event = .shutdown ∨ t.BeatFails b) : TickerAfter timings t b none
  | kept (hbeats : ∀ due, ¬ t.Beats b due) : TickerAfter timings t b (t.before.ticker? b)

variable {timings : Timings} {t : Turn} {timer : Timer} {b : Beat} {due : Nat} {r : Running}
  {ticker : Ticker}

theorem step_of_wakes (h : t.Wakes timer due) : t.before.step t.event = t.before.later.fire timer := by
  obtain ⟨he, hd, hle⟩ := h
  rw [he]
  exact Controller.step_wake hd hle

theorem step_of_not_wakes (he : t.event = .wake timer) (h : ∀ due, ¬ t.Wakes timer due) :
    t.before.step t.event = (t.before.later, []) := by
  rw [he]
  exact Controller.step_of_not_due fun due hd hle => h due ⟨he, hd, hle⟩

theorem now_of_wakes (h : t.Wakes timer due) : t.after.now = t.now :=
  now_of_ne_pass (by simp [h.1])

/-- Work that no caller has begun was under way before a turn, or begins in it, with its timer. -/
theorem run_before_or_wakes (hs : t.before.Sound timings) (hr : r ∈ t.after.running)
    (htimer : r.origin.timer? = some timer) :
    (∃ r₀ ∈ t.before.running, r₀.id = r.id ∧ r₀.origin = r.origin) ∨
      (∃ due, t.Wakes timer due) ∧ r.id = t.before.nextId := by
  have hsource := Controller.source_of_turn hs hr
  have hbegun : ∀ {origin c'}, Onset t.before.later t.event origin c' → origin.timer? = some timer →
      r.id = t.before.nextId → (∃ due, t.Wakes timer due) ∧ r.id = t.before.nextId := by
    intro origin c' onset horigin hid
    have hw : t.event = .wake timer := by
      generalize t.event = e at onset
      cases onset <;> cases horigin <;> rfl
    refine ⟨?_, hid⟩
    by_contra hwakes
    rw [after, step_of_not_wakes hw (not_exists.mp hwakes)] at hr
    exact Nat.ne_of_lt (hs.ids_lt r hr) hid
  generalize t.outputs = outputs at hsource
  cases hsource with
  | @kept r₀ origin _ hr₀ horigin =>
    rcases horigin with rfl | rfl
    · exact .inl ⟨r₀, hr₀, rfl, rfl⟩
    · cases htimer
  | opened onset | joined onset => exact .inr (hbegun onset htimer rfl)
  | @advanced r₀ signal s' work asks hears =>
    exact .inl ⟨r₀, Controller.mem_of_find? hears.find?, rfl, rfl⟩

/-- Work that breaks down is gone. -/
theorem id_ne_of_breaksDown {n : Nat} (h : t.BreaksDown n) (hr : r ∈ t.after.running) : r.id ≠ n := by
  obtain ⟨request, slot, r₀, he, hr₀, ha⟩ := h
  obtain rfl := Controller.id_of_find? hr₀
  rw [after, he, Controller.step_of_collapsed hr₀ ha] at hr
  have hkept := (List.mem_filter.mp hr).2
  simpa using hkept

theorem Beats.waiting (h : t.Beats b due) : (∀ r ∈ t.before.running, r.origin ≠ b.origin) ∧
    ∃ ticker, t.before.ticker? b = some ticker ∧ ticker.due = due := by
  obtain ⟨-, hd, -⟩ := h
  rw [Controller.due?_timer] at hd
  split at hd
  · cases hd
  · next hidle =>
    exact ⟨Controller.not_isRunning_iff.mp (by simpa using hidle), Option.map_eq_some_iff.mp hd⟩

theorem Beats.unique {due' : Nat} (h : t.Beats b due) (h' : t.Beats b due') : due = due' :=
  Option.some.inj (h.2.1.symm.trans h'.2.1)

end Turn

namespace Controller

variable {c c' : Controller} {e : Event} {origin : Origin} {b : Beat} {ticker : Ticker}

theorem frame_startTick (c : Controller) (origin : Origin) :
    (c.startTick origin).1.background = c.background ∧
      (c.startTick origin).1.visibility = c.visibility := by
  unfold startTick
  split
  · exact ⟨rfl, rfl⟩
  · cases origin <;> exact ⟨rfl, rfl⟩

theorem ticker?_fire (h : c.ticker? b = some ticker) :
    (c.fire b.timer).1.ticker? b = some (ticker.take c.now) := by
  obtain ⟨background, hbackground, hticker⟩ := Option.bind_eq_some_iff.mp h
  cases b with
  | reconciliation =>
    have hbind : c.background.bind Background.reconciler = some ticker := h
    simp only [fire, Beat.timer, hbind, ticker?, frame_startTick]
    simp [setReconciler, hbackground, Beat.ticker?]
  | poll =>
    have hbind : c.background.bind Background.poller = some ticker := h
    simp only [fire, Beat.timer, hbind, ticker?, launch]
    simp [setPoller, hbackground, Beat.ticker?]

theorem Onset.ticker?_eq (h : Onset c e origin c') (he : e ≠ .wake b.timer) :
    c'.ticker? b = c.ticker? b := by
  cases h with
  | call | debounce | visibility => rfl
  | reconciler =>
    cases b with
    | reconciliation => exact absurd rfl he
    | poll => cases hb : c.background <;> simp [ticker?, setReconciler, hb, Beat.ticker?]
  | poller =>
    cases b with
    | reconciliation => cases hb : c.background <;> simp [ticker?, setPoller, hb, Beat.ticker?]
    | poll => exact absurd rfl he

theorem frame_of_resumed {r : Running} {signal : Signal} {out : Controller × List Output}
    (h : Resumed c r signal out) :
    out.1.background = c.background ∧ out.1.visibility = c.visibility := by
  cases h with
  | nothing | advance | ending => exact ⟨rfl, rfl⟩
  | conclusion => exact c.frame_conclude _

theorem ticker?_stopTicker (c : Controller) (b : Beat) (origin : Origin) :
    (c.stopTicker origin).ticker? b = if origin = b.origin then none else c.ticker? b := by
  cases b <;> cases origin <;> cases hb : c.background <;>
    simp [stopTicker, ticker?, hb, Beat.origin, Beat.ticker?]

theorem ticker?_startBackground (c : Controller) (b : Beat) : c.startBackground.ticker? b =
    if c.background = none then
      Ticker.start? (b.period c.shared.timings) (c.now + b.first * b.period c.shared.timings)
    else c.ticker? b := by
  cases hb : c.background <;> cases b <;>
    simp [startBackground, ticker?, hb, Beat.ticker?, Beat.period, Beat.first]

end Controller

namespace Turn

variable {timings : Timings} {t : Turn} {b : Beat} {due : Nat} {r : Running} {ticker : Ticker}

theorem tickerAfter (hs : t.before.Sound timings) (b : Beat) :
    t.TickerAfter timings b (t.after.ticker? b) := by
  by_cases hbeats : ∃ due, t.Beats b due
  · obtain ⟨due, hbeats⟩ := hbeats
    obtain ⟨-, ticker, hticker, rfl⟩ := hbeats.waiting
    have hafter : t.after = _ := congrArg Prod.fst (step_of_wakes hbeats)
    have hfire : t.after.ticker? b = some (ticker.take t.now) :=
      hafter ▸ Controller.ticker?_fire (c := t.before.later) hticker
    rw [hfire]
    exact .beats hticker hbeats
  -- Only its own run takes a ticker on; whatever else happens keeps it, sets it up or ends it.
  have hnone := not_exists.mp hbeats
  have hkept : t.after.ticker? b = t.before.ticker? b → t.TickerAfter timings b (t.after.ticker? b) :=
    fun h => h ▸ .kept hnone
  by_cases hw : t.event = .wake b.timer
  · refine hkept ?_
    rw [after, step_of_not_wakes hw hnone]
    rfl
  have hact := Controller.act_step t.before t.event
  generalize hout : t.before.step t.event = out at hact
  have hafter : t.after = out.1 := congrArg Prod.fst hout
  rw [hafter] at hkept ⊢
  generalize he : t.event = e at hact hw
  cases hact with
  | nothing | refused | exhausted | skippedCall | droppedRefresh | detached | abandoned | expired
    | passed => exact hkept rfl
  | skippedTick ho | begins ho | joins ho =>
    exact hkept (ho.ticker?_eq hw)
  | resumed hears ho =>
    exact hkept (congrArg (·.bind b.ticker?) (Controller.frame_of_resumed ho).1)
  | @collapsed r slot request hr ha =>
    have hticker : (t.before.later.collapse r).1.ticker? b = _ :=
      t.before.later.ticker?_stopTicker b r.origin
    by_cases ho : r.origin = b.origin
    · rw [hticker, if_pos ho]
      exact .ended (.inr ⟨r, Controller.mem_of_find? hr, ho, request, slot, r, he, hr, ha⟩)
    · exact hkept (hticker.trans (if_neg ho))
  | started =>
    have hticker : t.before.later.startBackground.ticker? b = _ :=
      t.before.later.ticker?_startBackground b
    by_cases hb : t.before.later.background = none
    · rw [hticker, if_pos hb]
      have hsetUp : t.SetsUp := ⟨he, hb⟩
      rw [← hs.timings_eq]
      exact .setUp hsetUp
    · exact hkept (hticker.trans (if_neg hb))
  | shutDown => exact .ended (.inl he)
  | visibility visible =>
    obtain ⟨c₁, slot, rfl | rfl, hc⟩ := t.before.later.changeVisibility_eq visible <;>
      exact hkept (by rw [hc]; rfl)

/-- A reconciliation that nobody has called for is due: it begins if nothing is going on, and otherwise it
is only counted as skipped. -/
inductive Attempts (t : Turn) (origin : Origin) : Prop
  | begins (h : t.BeginsTick t.before.nextId)
      (hrunning : t.after.running =
        t.before.running ++ [⟨t.before.nextId, origin, .reconcile .start⟩])
  | skipped (hbusy : t.before.state.activity ≠ .idle)
      (hstate : t.after.state = t.before.state.recordSkippedTick)
      (hrunning : t.after.running = t.before.running) (houtputs : t.outputs = [])

theorem attempts_of_startTick (hs : t.before.Sound timings) {c : Controller} {origin : Origin}
    (ho : ∀ awaits, origin ≠ .caller awaits) (hstep : t.before.step t.event = c.startTick origin)
    (hstate : c.state = t.before.state) (hrunning : c.running = t.before.running)
    (hid : c.nextId = t.before.nextId) : t.Attempts origin := by
  by_cases hidle : t.before.state.activity = .idle
  · have hbegun : (t.before.step t.event).1.running =
        t.before.running ++ [⟨t.before.nextId, origin, .reconcile .start⟩] := by
      rw [hstep, Controller.startTick, hstate, SyncState.enter_of_idle _ _ hidle, ← hrunning, ← hid]
      rfl
    have hmem : ⟨t.before.nextId, origin, .reconcile .start⟩ ∈ t.after.running :=
      hbegun ▸ List.mem_append_right _ (List.mem_singleton.mpr rfl)
    exact .begins (beginsTick_of_fresh hs hmem rfl rfl).1 hbegun
  · have hskipped : t.before.step t.event = (c.onState .recordSkippedTick, []) :=
      hstep.trans (c.startTick_of_busy (by rwa [hstate]) ho)
    refine .skipped hidle ?_ ?_ (congrArg Prod.snd hskipped)
    · rw [after, hskipped, ← hstate]
      rfl
    · rw [after, hskipped, ← hrunning]
      rfl

def BeginsRun (t : Turn) : Beat → Prop
  | .reconciliation => t.Attempts .reconciler
  | .poll => t.after.running = t.before.running ++ [⟨t.before.nextId, .poller, .check⟩] ∧
      t.outputs = [.ask t.before.nextId 0 .status]

theorem beginsRun_of_beats (hs : t.before.Sound timings) (h : t.Beats b due) : t.BeginsRun b := by
  have hstep := step_of_wakes h
  obtain ⟨-, ticker, hticker, -⟩ := h.waiting
  cases b with
  | reconciliation =>
    have hbind : t.before.later.background.bind Background.reconciler = some ticker := hticker
    simp only [Controller.fire, Beat.timer, hbind] at hstep
    exact attempts_of_startTick hs (by simp) hstep rfl rfl rfl
  | poll =>
    have hbind : t.before.later.background.bind Background.poller = some ticker := hticker
    simp only [Controller.fire, Beat.timer, hbind] at hstep
    refine ⟨?_, ?_⟩
    · rw [after, hstep]
      rfl
    · rw [outputs, hstep]
      rfl

/-! ### Runs under way -/

/-- What is under way for periodic work after a turn was so before, or begins in it. -/
theorem run_before_or_beats (hs : t.before.Sound timings) (hr : r ∈ t.after.running)
    (ho : r.origin = b.origin) :
    (∃ r₀ ∈ t.before.running, r₀.id = r.id ∧ r₀.origin = b.origin) ∨
      (∃ due, t.Beats b due) ∧ r.id = t.before.nextId := by
  have htimer : r.origin.timer? = some b.timer := by rw [ho, b.timer?_origin]
  rw [← ho]
  exact run_before_or_wakes hs hr htimer

theorem now_le_ticker (hticker : t.before.ticker? b = some ticker)
    (hidle : t.before.isRunning b.origin = false) : t.after.now ≤ max t.now ticker.due := by
  refine Controller.now_le_max_of_dues (List.mem_filterMap.mpr ⟨b.timer, ?_, ?_⟩)
  · cases b <;> simp [Controller.timers, Beat.timer]
  · rw [Controller.due?_later, Controller.due?_timer, hidle, hticker]
    rfl

def Sustains (t : Turn) (b : Beat) : Prop := t.event ≠ .shutdown ∧ ¬ t.BeatFails b

theorem ticker?_of_quiet (hs : t.before.Sound timings) (hticker : t.before.ticker? b = some ticker)
    (hsustains : t.Sustains b) (hbeats : ∀ due, ¬ t.Beats b due) : t.after.ticker? b = some ticker := by
  have hafter := tickerAfter hs b
  generalize t.after.ticker? b = found at hafter
  cases hafter with
  | setUp h => simp [Controller.ticker?, h.2] at hticker
  | beats _ h => exact absurd h (hbeats _)
  | ended h => exact absurd h (not_or.mpr hsustains)
  | kept => exact hticker

theorem ticker?_of_beats (hs : t.before.Sound timings) (h : t.Beats b due) : ∃ ticker,
    t.before.ticker? b = some ticker ∧ ticker.due = due ∧ t.after.ticker? b = some (ticker.take t.now) := by
  obtain ⟨-, ticker, hticker, rfl⟩ := h.waiting
  have hafter := tickerAfter hs b
  generalize t.after.ticker? b = found at hafter ⊢
  cases hafter with
  | setUp hsetUp => cases h.1.symm.trans hsetUp.1
  | beats hticker' =>
    obtain rfl := Option.some.inj (hticker.symm.trans hticker')
    exact ⟨_, hticker, rfl, rfl⟩
  | ended hended =>
    rcases hended with hshut | ⟨r, -, -, request, slot, r', he, -⟩
    · cases h.1.symm.trans hshut
    · cases h.1.symm.trans he
  | kept hnone => exact absurd h (hnone _)

theorem after_of_start (he : t.event = .start) (hup : t.before.background ≠ none) :
    t.after = t.before.later := by
  rw [after, he]
  change t.before.later.startBackground = _
  have hup' : t.before.later.background ≠ none := hup
  unfold Controller.startBackground
  split
  · rfl
  · next hnone => exact absurd hnone hup'

theorem lacks_of_shutdown (he : t.event = .shutdown) (b : Beat) :
    t.after.ticker? b = none ∧ ∀ r ∈ t.after.running, r.origin ≠ b.origin := by
  rw [after, he]
  refine ⟨rfl, fun r hr ho => ?_⟩
  exact Controller.not_mem_shutdown (fun awaits h => b.origin_ne_caller awaits (ho ▸ h)) hr

theorem now_of_setsUp (h : t.SetsUp) : t.after.now = t.now :=
  now_of_ne_pass (by simp [h.1])

theorem ticker?_of_setsUp (hs : t.before.Sound timings) (h : t.SetsUp) (hp : 0 < b.period timings) :
    t.after.ticker? b = some ⟨b.period timings, t.now + b.first * b.period timings⟩ := by
  have hafter := t.before.later.ticker?_startBackground b
  have hstep : t.after = t.before.later.startBackground := by
    rw [after, h.1]
    rfl
  have hdown : t.before.later.background = none := h.2
  rw [hstep, hafter, if_pos hdown, Ticker.start?]
  have hsame : t.before.later.shared.timings = timings := hs.timings_eq
  rw [hsame, if_neg (Nat.ne_of_gt hp)]
  rfl

end Turn

namespace Controller

variable {timings : Timings} {past later : List Turn} {t u : Turn} {c : Controller} {b : Beat}

/-- At most one run of a ticker is under way, and its ticker is there. -/
def OneRun (b : Beat) (c : Controller) : Prop :=
  ∀ r ∈ c.running, r.origin = b.origin →
    (c.ticker? b).isSome = true ∧ ∀ r' ∈ c.running, r'.origin = b.origin → r'.id = r.id

theorem oneRun_turn (hs : t.before.Sound timings) (h : OneRun b t.before) : OneRun b t.after := by
  intro r hr ho
  rcases Turn.run_before_or_beats hs hr ho with ⟨r₀, hr₀, hid, ho₀⟩ | ⟨⟨due, hbeats⟩, hid⟩
  · obtain ⟨hsome, hone⟩ := h r₀ hr₀ ho₀
    obtain ⟨ticker, hticker⟩ := Option.isSome_iff_exists.mp hsome
    -- While a run is under way its ticker waits for nothing.
    have hbeats : ∀ due, ¬ t.Beats b due := fun due hbeats => hbeats.waiting.1 r₀ hr₀ ho₀
    have hsustains : t.Sustains b := by
      refine ⟨fun he => (Turn.lacks_of_shutdown he b).2 r hr ho, fun hfails => ?_⟩
      · obtain ⟨r₁, hr₁, ho₁, hdown⟩ := hfails
        exact Turn.id_ne_of_breaksDown hdown hr (hid.symm.trans (hone r₁ hr₁ ho₁).symm)
    refine ⟨by simp [Turn.ticker?_of_quiet hs hticker hsustains hbeats], fun r' hr' ho' => ?_⟩
    rcases Turn.run_before_or_beats hs hr' ho' with ⟨r₀', hr₀', hid', ho₀'⟩ | ⟨⟨due, hbeats'⟩, -⟩
    · rw [← hid', ← hid]
      exact hone r₀' hr₀' ho₀'
    · exact absurd hbeats' (hbeats due)
  · obtain ⟨ticker, -, -, hticker⟩ := Turn.ticker?_of_beats hs hbeats
    refine ⟨by simp [hticker], fun r' hr' ho' => ?_⟩
    rcases Turn.run_before_or_beats hs hr' ho' with ⟨r₀', hr₀', -, ho₀'⟩ | ⟨-, hid'⟩
    · exact absurd ho₀' (hbeats.waiting.1 r₀' hr₀')
    · exact hid'.trans hid.symm

theorem oneRun_run (timings : Timings) (currentConfig : Option String) (es : List Event) (b : Beat) :
    OneRun b ((initial timings currentConfig).run es).1 := by
  have hrun := turns_induction (P := fun _ c => c.Sound timings ∧ OneRun b c)
    ⟨sound_initial timings currentConfig, by simp [OneRun, initial]⟩
    (fun _ t h => ⟨h.1.step t.event, oneRun_turn h.1 h.2⟩) es
  exact hrun.2

/-- The moment that a ticker waits for is a whole number of periods after the periodic work was set up,
which has not ended since; all runs since were due before. -/
def OnSchedule (timings : Timings) (b : Beat) (past : List Turn) (due : Nat) : Prop :=
  ∃ earlier u later, past = earlier ++ u :: later ∧ u.SetsUp ∧ (∀ v ∈ later, v.event ≠ .shutdown) ∧
    (∃ k, b.first ≤ k ∧ due = u.now + k * b.period timings) ∧
    ∀ v ∈ later, ∀ due', v.Beats b due' → due' < due

/-- Every ticker has its period and keeps its schedule. -/
def Scheduling (timings : Timings) (b : Beat) (past : List Turn) (c : Controller) : Prop :=
  ∀ ticker, c.ticker? b = some ticker →
    ticker.period = b.period timings ∧ 0 < ticker.period ∧ OnSchedule timings b past ticker.due

theorem OnSchedule.snoc {due due' : Nat} (h : OnSchedule timings b past due) (hle : due ≤ due')
    (hk : ∃ k, due' = due + k * b.period timings) (he : t.event ≠ .shutdown)
    (hbeats : ∀ moment, t.Beats b moment → moment < due') : OnSchedule timings b (past ++ [t]) due' := by
  obtain ⟨earlier, u, later, rfl, hsetUp, hup, ⟨k, hfirst, hdue⟩, hruns⟩ := h
  obtain ⟨j, hj⟩ := hk
  refine ⟨earlier, u, later ++ [t], by simp, hsetUp,
    List.forall_mem_append.mpr ⟨hup, by simpa using he⟩, ⟨k + j, by omega, ?_⟩,
    List.forall_mem_append.mpr ⟨fun v hv moment hmoment => ?_, by simpa using hbeats⟩⟩
  · rw [hj, hdue, Nat.add_mul, Nat.add_assoc]
  · exact Nat.lt_of_lt_of_le (hruns v hv moment hmoment) hle

theorem scheduling_turn (hs : t.before.Sound timings) (h : Scheduling timings b past t.before) :
    Scheduling timings b (past ++ [t]) t.after := by
  intro ticker hticker
  have hafter := Turn.tickerAfter hs b
  generalize hfound : t.after.ticker? b = found at hafter hticker
  cases hafter with
  | setUp hsetUp =>
    obtain ⟨hp, rfl⟩ : 0 < b.period timings ∧
        ticker = ⟨b.period timings, t.now + b.first * b.period timings⟩ := by
      unfold Ticker.start? at hticker
      split at hticker
      · cases hticker
      · next hp => exact ⟨Nat.pos_of_ne_zero hp, (Option.some.inj hticker).symm⟩
    exact ⟨rfl, hp, past, t, [], rfl, hsetUp, by simp, ⟨b.first, Nat.le_refl _, rfl⟩, by simp⟩
  | @beats before hbefore hbeats =>
    obtain rfl := Option.some.inj hticker
    obtain ⟨hperiod, hp, hschedule⟩ := h before hbefore
    have hlt : before.due < (before.take t.now).due := Ticker.lt_due_take hp hbeats.2.2
    refine ⟨by simpa using hperiod, by simpa using hp, hschedule.snoc (Nat.le_of_lt hlt) ?_ ?_ ?_⟩
    · exact hperiod ▸ Ticker.exists_due_take hp hbeats.2.2
    · rw [hbeats.1]
      simp
    · intro moment hmoment
      exact hmoment.unique hbeats ▸ hlt
  | ended => cases hticker
  | kept hnone =>
    obtain ⟨hperiod, hp, hschedule⟩ := h ticker hticker
    refine ⟨hperiod, hp, hschedule.snoc (Nat.le_refl _) ⟨0, by simp⟩ ?_ ?_⟩
    · intro he
      have hdown := (Turn.lacks_of_shutdown he b).1
      rw [hfound, hticker] at hdown
      cases hdown
    · exact fun moment hmoment => absurd hmoment (hnone moment)

theorem scheduling_run (timings : Timings) (currentConfig : Option String) (es : List Event) (b : Beat) :
    let c := initial timings currentConfig
    Scheduling timings b (c.turns es) (c.run es).1 := by
  intro c
  have hrun := turns_induction
    (P := fun past c' => c'.Sound timings ∧ Scheduling timings b past c') (c := c)
    ⟨sound_initial timings currentConfig, fun ticker hticker => by cases hticker⟩
    (fun past t h => ⟨h.1.step t.event, scheduling_turn h.1 h.2⟩) es
  exact hrun.2

/-- As long as nothing ends the ticker and no run begins, it waits for the same moment. -/
theorem ticker?_of_waiting {ticker : Ticker} (hs : c.Sound timings) (hticker : c.ticker? b = some ticker)
    {es : List Event} (h : ∀ v ∈ c.turns es, v.Sustains b ∧ ∀ due, ¬ v.Beats b due) :
    (c.run es).1.ticker? b = some ticker := by
  have hrun := turns_induction_of
    (P := fun _ c => c.Sound timings ∧ c.ticker? b = some ticker) ⟨hs, hticker⟩
    (fun _ v hv h => ⟨h.1.step v.event, Turn.ticker?_of_quiet h.1 h.2 hv.1 hv.2⟩) h
  exact hrun.2

/-! ### Runs that take no time -/

/-- Nothing ends the ticker in a turn, and no time passes while a run of it is under way. -/
structure Swift (b : Beat) (t : Turn) : Prop where
  sustains : t.Sustains b
  atOnce : t.before.isRunning b.origin = true → t.after.now = t.now

/-- In one of these turns a run begins that is due at this moment, in time; no other one does. -/
def BeatsOnce (b : Beat) (later : List Turn) (due : Nat) : Prop :=
  ∃ l₁ v l₂, later = l₁ ++ v :: l₂ ∧ v.Beats b due ∧ v.now = due ∧ ∀ w ∈ l₁ ++ l₂, ¬ w.Beats b due

theorem BeatsOnce.snoc {due : Nat} (h : BeatsOnce b later due) (ht : ¬ t.Beats b due) :
    BeatsOnce b (later ++ [t]) due := by
  obtain ⟨l₁, v, l₂, rfl, hv, hnow, hothers⟩ := h
  refine ⟨l₁, v, l₂ ++ [t], by simp, hv, hnow, ?_⟩
  rw [← List.append_assoc]
  exact List.forall_mem_append.mpr ⟨hothers, by simpa using ht⟩

/-- The runs since the periodic work was set up, at `start`: one at each of the moments before the one
that the ticker waits for. -/
structure InTime (b : Beat) (period start : Nat) (later : List Turn) (c : Controller) (k : Nat) : Prop where
  first_le : b.first ≤ k
  ticker : c.ticker? b = some ⟨period, start + k * period⟩
  now_le : c.now ≤ start + k * period
  runs : ∀ v ∈ later, ∀ due, v.Beats b due →
    v.now = due ∧ ∃ j, b.first ≤ j ∧ j < k ∧ due = start + j * period
  once : ∀ j < k, b.first ≤ j → BeatsOnce b later (start + j * period)

variable {period start k : Nat}

theorem InTime.beats {due : Nat} (hp : 0 < period) (hs : t.before.Sound timings)
    (h : InTime b period start later t.before k) (hbeats : t.Beats b due) :
    InTime b period start (later ++ [t]) t.after (k + 1) := by
  have hinj : ∀ {i j : Nat}, start + i * period = start + j * period → i = j := fun hsame =>
    Nat.eq_of_mul_eq_mul_right hp (Nat.add_left_cancel hsame)
  obtain ⟨ticker, hticker, hdue, hafter⟩ := Turn.ticker?_of_beats hs hbeats
  obtain rfl : ticker = ⟨period, start + k * period⟩ := Option.some.inj (hticker.symm.trans h.ticker)
  obtain rfl : start + k * period = due := hdue
  have hnow : t.now = start + k * period := Nat.le_antisymm h.now_le hbeats.2.2
  have htake : Ticker.take ⟨period, start + k * period⟩ t.now =
      ⟨period, start + (k + 1) * period⟩ := by
    rw [hnow, Ticker.take, if_neg (by simp [Ticker.tolerance]), Nat.add_mul, Nat.one_mul,
      Nat.add_assoc]
  refine ⟨Nat.le_succ_of_le h.first_le, hafter.trans (congrArg some htake), ?_, ?_, ?_⟩
  · rw [Turn.now_of_wakes hbeats, hnow, Nat.add_mul]
    omega
  · refine List.forall_mem_append.mpr ⟨fun v hv due' hdue' => ?_, ?_⟩
    · obtain ⟨hv', j, hfirst, hj, hsame⟩ := h.runs v hv due' hdue'
      exact ⟨hv', j, hfirst, Nat.lt_succ_of_lt hj, hsame⟩
    · simp only [List.mem_singleton, forall_eq]
      intro due' hdue'
      obtain rfl := hdue'.unique hbeats
      exact ⟨hnow, k, h.first_le, Nat.lt_succ_self k, rfl⟩
  · intro j hj hfirst
    rcases Nat.lt_succ_iff_lt_or_eq.mp hj with hlt | rfl
    · refine (h.once j hlt hfirst).snoc fun hbeats' => ?_
      exact Nat.ne_of_lt hlt (hinj (hbeats'.unique hbeats))
    · refine ⟨later, t, [], rfl, hbeats, hnow, ?_⟩
      intro w hw hbeats'
      obtain ⟨-, j', -, hj', hsame⟩ := h.runs w (by simpa using hw) _ hbeats'
      exact Nat.ne_of_gt hj' (hinj hsame)

theorem InTime.waits (hs : t.before.Sound timings) (h : InTime b period start later t.before k)
    (hswift : Swift b t) (hnone : ∀ due, ¬ t.Beats b due) :
    InTime b period start (later ++ [t]) t.after k := by
  refine ⟨h.first_le, Turn.ticker?_of_quiet hs h.ticker hswift.sustains hnone, ?_, ?_, ?_⟩
  · cases hrunning : t.before.isRunning b.origin with
    | true => exact (hswift.atOnce hrunning).trans_le h.now_le
    | false =>
      have hle := Turn.now_le_ticker h.ticker hrunning
      exact Nat.le_trans hle (Nat.max_le.mpr ⟨h.now_le, Nat.le_refl _⟩)
  · exact List.forall_mem_append.mpr ⟨h.runs, by simpa using fun due hdue => absurd hdue (hnone due)⟩
  · exact fun j hj hfirst => (h.once j hj hfirst).snoc (hnone _)

theorem inTime_turn (hp : 0 < period) (hs : t.before.Sound timings) (hswift : Swift b t)
    (h : InTime b period start later t.before k) :
    ∃ k', InTime b period start (later ++ [t]) t.after k' := by
  by_cases hbeats : ∃ due, t.Beats b due
  · obtain ⟨due, hbeats⟩ := hbeats
    exact ⟨k + 1, h.beats hp hs hbeats⟩
  · exact ⟨k, h.waits hs hswift (not_exists.mp hbeats)⟩

theorem inTime_run (hp : 0 < period) (hs : c.Sound timings)
    (hticker : c.ticker? b = some ⟨period, start + b.first * period⟩) (hnow : c.now = start)
    {es : List Event} (h : ∀ v ∈ c.turns es, Swift b v) :
    ∃ k, InTime b period start (c.turns es) (c.run es).1 k := by
  have hstart : InTime b period start [] c b.first :=
    ⟨Nat.le_refl _, hticker, hnow ▸ Nat.le_add_right _ _, by simp,
      fun j hj hfirst => absurd hj (Nat.not_lt.mpr hfirst)⟩
  have hrun := turns_induction_of
    (P := fun later c => c.Sound timings ∧ ∃ k, InTime b period start later c k) ⟨hs, _, hstart⟩
    (fun _ v hv h => ⟨h.1.step v.event, h.2.elim fun _ hk => inTime_turn hp h.1 hv hk⟩) h
  exact hrun.2

/-- In every run: the periodic work is set up once, until it ends, and then nothing of it is left. At most
one run of a ticker is under way, and runs begin only when their time has come and the run before is over.
A run is due a whole number of periods after the periodic work was set up, at least one of them for a
reconciliation; it begins no earlier, no end has come since, and all runs since were due before. Each run
is followed by the one that is due next, or by the first one that is due after its beginning if that was
late; and time does not pass the moment of a run that no other one holds up. If runs take no time there is
one at each of the moments that have passed, in time. -/
theorem periodic_work_keeps_schedule (timings : Timings) (currentConfig : Option String)
    (es : List Event) (e : Event) (b : Beat) (hp : 0 < b.period timings) :
    let c := initial timings currentConfig
    let past := c.turns es
    let t : Turn := ⟨(c.run es).1, e⟩
    let period := b.period timings
    (e = .start → t.before.background ≠ none → t.after = t.before.later) ∧
    (e = .shutdown → t.after.ticker? b = none ∧ ∀ r ∈ t.after.running, r.origin ≠ b.origin) ∧
    (∀ r ∈ t.before.running, r.origin = b.origin → (t.before.ticker? b).isSome = true ∧
      ∀ r' ∈ t.before.running, r'.origin = b.origin → r' = r) ∧
    (∀ r ∈ t.after.running, r.origin = b.origin →
      (∃ r₀ ∈ t.before.running, r₀.id = r.id ∧ r₀.origin = b.origin) ∨ ∃ due, t.Beats b due) ∧
    (∀ due, t.Beats b due →
      t.BeginsRun b ∧ due ≤ t.now ∧ (∀ r ∈ t.before.running, r.origin ≠ b.origin) ∧
      OnSchedule timings b past due) ∧
    (∀ earlier u later due, past = earlier ++ u :: later → u.Beats b due →
      (∀ v ∈ later, v.Sustains b ∧ ∀ moment, ¬ v.Beats b moment) →
      ∃ next, FollowsRun period due u.now next ∧ t.before.ticker? b = some ⟨period, next⟩ ∧
        ∀ moment, t.Beats b moment → moment = next) ∧
    (∀ ticker, t.before.ticker? b = some ticker → t.before.isRunning b.origin = false →
      t.after.now ≤ max t.now ticker.due) ∧
    ∀ earlier u later, past = earlier ++ u :: later → u.SetsUp → (∀ v ∈ later, Swift b v) →
      (∀ k, b.first ≤ k → u.now + k * period < t.now → BeatsOnce b later (u.now + k * period)) ∧
      ∀ v ∈ later, ∀ due, v.Beats b due → v.now = due := by
  intro c past t period
  have hs : t.before.Sound timings := (sound_initial timings currentConfig).run es
  have hone := oneRun_run timings currentConfig es b
  refine ⟨fun he hup => Turn.after_of_start he hup, fun he => Turn.lacks_of_shutdown he b,
    fun r hr ho => ?_, fun r hr ho => ?_, fun due hbeats => ?_, ?_, ?_, ?_⟩
  · obtain ⟨hsome, hsame⟩ := hone r hr ho
    exact ⟨hsome, fun r' hr' ho' => hs.eq_of_id hr' hr (hsame r' hr' ho')⟩
  · exact (Turn.run_before_or_beats hs hr ho).imp_right And.left
  · obtain ⟨hidle, ticker, hticker, rfl⟩ := hbeats.waiting
    exact ⟨Turn.beginsRun_of_beats hs hbeats, hbeats.2.2, hidle,
      (scheduling_run timings currentConfig es b ticker hticker).2.2⟩
  · intro earlier u later due hpast hbeats hquiet
    obtain ⟨es₁, es₂, rfl, hbefore, rfl, hrun⟩ := before_of_turns hpast
    have hs' : u.before.Sound timings := hbefore ▸ (sound_initial timings currentConfig).run es₁
    obtain ⟨ticker, hticker, rfl, hafter⟩ := Turn.ticker?_of_beats hs' hbeats
    obtain ⟨hperiod, hpos, -⟩ := scheduling_run timings currentConfig es₁ b ticker (hbefore ▸ hticker)
    have hlast : (u.after.run es₂).1.ticker? b = some (ticker.take u.now) :=
      ticker?_of_waiting (hs'.step u.event) hafter hquiet
    rw [← hrun] at hlast
    have hfollows := Ticker.follows_take hpos hbeats.2.2
    rw [hperiod] at hfollows
    refine ⟨_, hfollows, ?_, fun moment hmoment => ?_⟩
    · rw [hlast, show period = _ from (ticker.period_take u.now |>.trans hperiod).symm]
    · obtain ⟨-, waiting, hwaiting, rfl⟩ := hmoment.waiting
      rw [Option.some.inj (hwaiting.symm.trans hlast)]
  · exact fun ticker hticker hidle => Turn.now_le_ticker hticker hidle
  · intro earlier u later hpast hsetUp hswift
    obtain ⟨es₁, es₂, -, hbefore, rfl, hrun⟩ := before_of_turns hpast
    have hs' : u.before.Sound timings := hbefore ▸ (sound_initial timings currentConfig).run es₁
    obtain ⟨k, htime⟩ := inTime_run hp (hs'.step u.event) (Turn.ticker?_of_setsUp hs' hsetUp hp)
      (Turn.now_of_setsUp hsetUp) hswift
    refine ⟨fun j hfirst hpassed => htime.once j ?_ hfirst, fun v hv due hbeats => ?_⟩
    · have hle : t.now ≤ u.now + k * period := by
        change (c.run es).1.now ≤ _
        rw [hrun]
        exact htime.now_le
      refine Nat.lt_of_mul_lt_mul_right (a := period) ?_
      omega
    · exact (htime.runs v hv due hbeats).1

def firstPoll : List Event := [.wake .poller, .answer 0 0 (.status (.error .notConfigured)), .pass 10]

/-- The periodic work is set up, and polls once. -/
theorem periodic_work_polls_at_once :
    let c := initial Timings.standard (some "a")
    let setUp : Turn := ⟨c, .start⟩
    let t : Turn := ⟨(c.run (.start :: firstPoll)).1, .start⟩
    0 < Beat.poll.period Timings.standard ∧ setUp.SetsUp ∧ t.now = 10 ∧ t.after = t.before.later ∧
      BeatsOnce .poll (setUp.after.turns firstPoll) 0 := by
  intro c setUp t
  have hp : 0 < Beat.poll.period Timings.standard := by decide
  have hnow : t.now = 10 := by decide +kernel
  have hup : t.before.background ≠ none := by decide +kernel
  have hatOnce : ∀ v ∈ setUp.after.turns firstPoll,
      v.before.isRunning Beat.poll.origin = true → v.after.now = v.now := by decide +kernel
  have hswift : ∀ v ∈ setUp.after.turns firstPoll, Swift .poll v := by
    intro v hv
    have hevent : v.event ∈ firstPoll := event_mem_of_turns hv
    refine ⟨⟨?_, ?_⟩, hatOnce v hv⟩
    · intro he
      simp [he, firstPoll] at hevent
    · rintro ⟨r, -, -, request, slot, r', he, -⟩
      simp [he, firstPoll] at hevent
  obtain ⟨hstart, -, -, -, -, -, -, hruns⟩ := periodic_work_keeps_schedule Timings.standard (some "a")
    (.start :: firstPoll) .start .poll hp
  obtain ⟨honce, -⟩ := hruns [] setUp _ rfl ⟨rfl, rfl⟩ hswift
  have hfirst := honce 0 (Nat.le_refl _) (by rw [hnow]; decide)
  exact ⟨hp, ⟨rfl, rfl⟩, hnow, hstart rfl hup, hfirst⟩

end Controller

end CoreWarden
