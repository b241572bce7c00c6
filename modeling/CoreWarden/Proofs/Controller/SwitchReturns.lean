import CoreWarden.Proofs.Controller.Admission
import CoreWarden.Proofs.Controller.SwitchCourse
import Mathlib.Order.Monotone.Basic
import Mathlib.Order.WellFounded

/-!
A switch returns. As long as the collaborators answer and time goes on there is always another signal to a
switch that is under way, and it cannot take more of them than it has patience for. With its course this
is the whole of what a caller of `switch` can see of the collaborators.
-/
namespace CoreWarden

open Controller (Hears)
open SwitchScript (Preface Whole)
open Time (pauseEnd)

/-! ### There is always something that a switch waits for -/

/-- A switch waits for a moment, or for an answer to another call than for the version. -/
theorem Switch.Reached.waits {timings : Timings} {id : String} {now : Nat} {phase : Switch}
    {notes : List Note} (h : Reached timings id now phase notes) : (∃ due, phase.due? = some due) ∨
      ∃ slot request, (slot, request) ∈ phase.awaits id ∧ request ≠ .version := by
  cases h with
  | resolving | pausing | probing => exact .inl ⟨_, rfl⟩
  | refreshing _ hr => exact .inr hr.exists_ask
  | checking | restarting | rechecking | switching | confirming | storing | reporting =>
    exact .inr ⟨0, _, List.mem_singleton.mpr rfl, by simp⟩

def Work.switchPatience (timings : Timings) (now : Nat) : Work → Nat
  | .switch _ phase => phase.patience timings now
  | _ => 0

theorem Work.switchPatience_anti (timings : Timings) (w : Work) {now now' : Nat} (h : now ≤ now') :
    w.switchPatience timings now' ≤ w.switchPatience timings now := by
  cases w with
  | switch id phase => exact phase.patience_anti timings h
  | _ => exact Nat.le_refl _

/-- A piece of work waits for a moment, or for an answer to another call than for the version. -/
def Work.Waits (w : Work) : Prop :=
  (∃ due, w.due? = some due) ∨ ∃ slot request, (slot, request) ∈ w.awaits ∧ request ≠ .version

/-! ### The patience of a controller -/

namespace Controller

/-- A bound on the signals that the work under a number can take yet; none is left when it is gone. -/
def patience (bound : Nat → Work → Nat) (c : Controller) (n : Nat) : Nat :=
  match c.find? n with
  | some r => bound c.now r.work + 1
  | none => 0

variable {timings : Timings} {c : Controller} {n : Nat}

theorem patience_of_mem (bound : Nat → Work → Nat) (hs : c.Sound timings) {r : Running}
    (hr : r ∈ c.running) : c.patience bound r.id = bound c.now r.work + 1 := by
  simp [patience, hs.find?_eq_some hr]

theorem patience_of_gone {bound : Nat → Work → Nat} (h : ∀ r ∈ c.running, r.id ≠ n) :
    c.patience bound n = 0 := by
  have hnone : c.find? n = none := List.find?_eq_none.mpr fun r hr => by simpa using h r hr
  simp [patience, hnone]

end Controller

namespace Turn

variable {timings : Timings} {bound : Nat → Work → Nat} {t : Turn} {r : Running} {n : Nat} {id : String}
  {phase : Switch}

/-- Work that goes on without its caller always waits for something, and each signal takes from its
patience. -/
structure Hastens (t : Turn) (bound : Nat → Work → Nat) (r : Running) : Prop where
  detached : r.work.isDetached = true
  waits : r.work.Waits
  less : ∀ signal, Hears t.before.later r t.event signal →
    t.after.patience bound r.id < t.before.patience bound r.id

theorem patience_lt_of_goesOn (hs : t.before.Sound timings) (hr : r ∈ t.before.running) {work : Work}
    (hr' : { r with work } ∈ t.after.running) (h : bound t.after.now work < bound t.now r.work) :
    t.after.patience bound r.id < t.before.patience bound r.id := by
  have hafter := Controller.patience_of_mem bound (hs.step t.event) hr'
  rw [Controller.patience_of_mem bound hs hr]
  exact Nat.lt_of_le_of_lt (Nat.le_of_eq hafter) (Nat.succ_lt_succ h)

theorem patience_lt_of_gone (hs : t.before.Sound timings) (hr : r ∈ t.before.running)
    (hgone : ∀ r' ∈ t.after.running, r'.id ≠ r.id) :
    t.after.patience bound r.id < t.before.patience bound r.id := by
  rw [Controller.patience_of_gone hgone, Controller.patience_of_mem bound hs hr]
  exact Nat.succ_pos _

theorem patience_of_deaf (hs : t.before.Sound timings)
    (hanti : ∀ w {now now'}, now ≤ now' → bound now' w ≤ bound now w) (hr : r ∈ t.before.running)
    (hd : r.work.isDetached = true) (hserved : t.IsServed r.id)
    (hdeaf : ∀ signal, ¬ Hears t.before.later r t.event signal) :
    t.after.patience bound r.id ≤ t.before.patience bound r.id := by
  obtain ⟨origin, hr'⟩ := goes_on_of_deaf hs hr hd hserved hdeaf
  have hafter := Controller.patience_of_mem bound (hs.step t.event) hr'
  rw [Controller.patience_of_mem bound hs hr]
  refine Nat.le_trans (Nat.le_of_eq hafter) (Nat.succ_le_succ (hanti r.work ?_))
  exact (Controller.time_of_act (Controller.act_step t.before t.event)).2

theorem patience_le (hs : t.before.Sound timings)
    (hanti : ∀ w {now now'}, now ≤ now' → bound now' w ≤ bound now w) (hn : n < t.before.nextId)
    (hserved : t.IsServed n) (h : ∀ r ∈ t.before.running, r.id = n → t.Hastens bound r) :
    t.after.patience bound n ≤ t.before.patience bound n := by
  by_cases hfound : ∃ r ∈ t.before.running, r.id = n
  · obtain ⟨r, hr, rfl⟩ := hfound
    have hhastens := h r hr rfl
    by_cases hheard : ∃ signal, Hears t.before.later r t.event signal
    · obtain ⟨signal, hears⟩ := hheard
      exact Nat.le_of_lt (hhastens.less signal hears)
    · exact patience_of_deaf hs hanti hr hhastens.detached hserved (not_exists.mp hheard)
  · have hgone : ∀ r ∈ t.before.running, r.id ≠ n := fun r hr hid => hfound ⟨r, hr, hid⟩
    rw [Controller.patience_of_gone (gone_of_gone hs hn hgone)]
    exact Nat.zero_le _

theorem hastens_of_reached (hs : t.before.Sound timings) (hi : 0 < timings.healthProbeInterval.toNat)
    (hr : r ∈ t.before.running) (hw : r.work = .switch id phase) (hserved : t.IsServed r.id)
    {notes : List Note} (h : phase.Reached timings id t.now notes) :
    t.Hastens (Work.switchPatience timings) r where
  detached := by simp [hw, Work.isDetached]
  waits := by
    rw [hw]
    exact h.waits
  less signal hears := by
    obtain rfl := hs.later.timings_eq
    cases t.moves_of_hears hw hserved hears with
    | goesOn hm hnow hr' =>
      refine patience_lt_of_goesOn hs hr hr' ?_
      rw [hnow, hw]
      exact hm.patience_lt hi
    | ends hm hgone => exact patience_lt_of_gone hs hr hgone

end Turn

/-! ### Runs without an end -/

namespace Event

def answers (n slot : Nat) : Event → Bool
  | answer id s _ => id == n && s == slot
  | _ => false

def wakes (timer : Timer) : Event → Bool
  | wake t => t == timer
  | _ => false

theorem eq_of_answers {e : Event} {n slot : Nat} (h : e.answers n slot = true) :
    ∃ a, e = .answer n slot a := by
  unfold answers at h
  split at h
  · next id s a =>
    obtain ⟨rfl, rfl⟩ : id = n ∧ s = slot := by simpa using h
    exact ⟨a, rfl⟩
  · cases h

theorem eq_of_wakes {e : Event} {timer : Timer} (h : e.wakes timer = true) : e = .wake timer := by
  unfold wakes at h
  split at h
  · next t =>
    obtain rfl : t = timer := by simpa using h
    rfl
  · cases h

end Event

namespace Controller

def reach (c : Controller) (events : Nat → Event) (k : Nat) : Controller :=
  (c.run ((List.range k).map events)).1

def turnAt (c : Controller) (events : Nat → Event) (k : Nat) : Turn := ⟨c.reach events k, events k⟩

/-- Whoever is called by a piece of work does not break down and answers in the end, but for the core when
it is asked for its version, and time goes on to each moment that the work waits for. -/
structure Attends (c : Controller) (events : Nat → Event) (n : Nat) : Prop where
  served : ∀ k, (c.turnAt events k).IsServed n
  answered : ∀ k r slot request, (c.reach events k).find? n = some r →
    (slot, request) ∈ r.work.awaits → request ≠ .version →
      ∃ j ≥ k, (events j).answers n slot = true
  woken : ∀ k due, (c.reach events k).due? (.work n) = some due → ∃ j ≥ k,
    (c.reach events j).due? (.work n) ≠ some due ∨
      due ≤ (c.reach events j).now ∧ (events j).wakes (.work n) = true

variable {timings : Timings} {c : Controller} {events : Nat → Event} {n : Nat} {id : String}

theorem reach_succ (c : Controller) (events : Nat → Event) (k : Nat) :
    c.reach events (k + 1) = (c.turnAt events k).after := by
  rw [reach, List.range_succ, List.map_append]
  exact run_snoc c _ (events k)

theorem Sound.reach (hs : c.Sound timings) (events : Nat → Event) (k : Nat) :
    (c.reach events k).Sound timings :=
  hs.run _

theorem nextId_le_reach (c : Controller) (events : Nat → Event) (k : Nat) :
    c.nextId ≤ (c.reach events k).nextId := by
  induction k with
  | zero => exact Nat.le_refl _
  | succ k ih =>
    rw [reach_succ]
    exact Nat.le_trans ih (nextId_le_of_turn (c.turnAt events k))

theorem mem_turns_range {k : Nat} {t : Turn} (h : t ∈ c.turns ((List.range k).map events)) :
    ∃ j, t = c.turnAt events j := by
  induction k with
  | zero => cases h
  | succ k ih =>
    rw [List.range_succ, List.map_append] at h
    rcases List.mem_append.mp (turns_snoc c _ (events k) ▸ h) with h | h
    · exact ih h
    · exact ⟨k, List.mem_singleton.mp h⟩

theorem obeys_reach {past : List Turn} (hs : c.Sound timings) (hn : n < c.nextId)
    (hserved : ∀ k, (c.turnAt events k).IsServed n) (h : Obeys timings id n past c) (k : Nat) :
    Obeys timings id n (past ++ c.turns ((List.range k).map events)) (c.reach events k) := by
  refine h.run hs hn fun t ht => ?_
  obtain ⟨j, rfl⟩ := mem_turns_range ht
  exact hserved j

theorem gone_reach (hs : c.Sound timings) (hn : n < c.nextId) {k j : Nat} (hj : k ≤ j)
    (h : (c.reach events k).find? n = none) : (c.reach events j).find? n = none := by
  induction j, hj using Nat.le_induction with
  | base => exact h
  | succ j hj ih =>
    have hgone := Turn.gone_of_gone (t := c.turnAt events j) (hs.reach events j)
      (Nat.lt_of_lt_of_le hn (c.nextId_le_reach events j)) fun r hr => by
        simpa using List.find?_eq_none.mp ih r hr
    rw [reach_succ]
    exact List.find?_eq_none.mpr fun r hr => by simpa using hgone r hr

/-- Work that hears nothing from some time on goes on as it is. -/
theorem stands_of_deaf (hs : c.Sound timings) (hserved : ∀ k, (c.turnAt events k).IsServed n) {k : Nat}
    {r : Running} (hr : r ∈ (c.reach events k).running) (hid : r.id = n) (hd : r.work.isDetached = true)
    (hdeaf : ∀ j ≥ k, ∀ r signal, r.id = n → ¬ Hears (c.turnAt events j).before.later r (events j) signal)
    {j : Nat} (hj : k ≤ j) : ∃ r', (c.reach events j).find? n = some r' ∧ r'.work = r.work := by
  subst hid
  induction j, hj using Nat.le_induction with
  | base => exact ⟨r, (hs.reach events k).find?_eq_some hr, rfl⟩
  | succ j hj ih =>
    obtain ⟨r', hr', hw⟩ := ih
    have hid := id_of_find? hr'
    obtain ⟨origin, hnext⟩ := Turn.goes_on_of_deaf (t := c.turnAt events j) (hs.reach events j)
      (mem_of_find? hr') (hw ▸ hd) (hid ▸ hserved j) fun signal => hdeaf j hj r' signal hid
    refine ⟨{ r' with origin }, ?_, hw⟩
    have hfound := (hs.reach events (j + 1)).find?_eq_some (r := { r' with origin })
      (c.reach_succ events j ▸ hnext)
    rw [← hid]
    exact hfound

/-- Work that waits for something hears something in the end. -/
theorem hears_of_attends (hs : c.Sound timings) (ha : c.Attends events n) {k : Nat} {r : Running}
    (hr : (c.reach events k).find? n = some r) (hd : r.work.isDetached = true) (hw : r.work.Waits) :
    ∃ j ≥ k, ∃ r' signal, r'.id = n ∧ Hears (c.turnAt events j).before.later r' (events j) signal := by
  by_contra hnone
  -- The work would stand still from here on, while what it waits for comes.
  have hdeaf : ∀ j ≥ k, ∀ r' signal, r'.id = n →
      ¬ Hears (c.turnAt events j).before.later r' (events j) signal :=
    fun j hj r' signal hid hears => hnone ⟨j, hj, r', signal, hid, hears⟩
  have hstands := fun j (hj : k ≤ j) =>
    stands_of_deaf hs ha.served (mem_of_find? hr) (id_of_find? hr) hd hdeaf hj
  rcases hw with ⟨due, hwait⟩ | ⟨slot, request, hawaits, hne⟩
  · have hwaits : ∀ j ≥ k, (c.reach events j).due? (.work n) = some due := by
      intro j hj
      obtain ⟨r', hr', hw'⟩ := hstands j hj
      simp [due?, hr', hw', hwait]
    obtain ⟨j, hj, hother | ⟨hover, hwakes⟩⟩ := ha.woken k due (hwaits k (Nat.le_refl k))
    · exact hother (hwaits j hj)
    · obtain ⟨r', hr', hw'⟩ := hstands j hj
      obtain rfl := id_of_find? hr'
      have he := Event.eq_of_wakes hwakes
      exact hdeaf j hj r' .timeUp rfl (he ▸ .timeUp hr' (hw' ▸ hwait) hover)
  · obtain ⟨j, hj, hanswers⟩ := ha.answered k r slot request hr hawaits hne
    obtain ⟨r', hr', hw'⟩ := hstands j hj
    obtain rfl := id_of_find? hr'
    obtain ⟨answer, he⟩ := Event.eq_of_answers hanswers
    have hc : answer ≠ .collapsed := by
      rintro rfl
      exact Turn.not_collapsed_of_isServed (t := c.turnAt events j) (ha.served j) hr' (hw' ▸ hawaits) he
    exact hdeaf j hj r' (.answer slot answer) rfl (he ▸ .answer hr' (hw' ▸ hawaits) hc)

/-- Work that is on its way to its end comes to it, if whoever it calls answers. -/
theorem gone_of_hastens {bound : Nat → Work → Nat} (hs : c.Sound timings)
    (hanti : ∀ w {now now'}, now ≤ now' → bound now' w ≤ bound now w) (hn : n < c.nextId)
    (h : ∀ k, ∀ r ∈ (c.reach events k).running, r.id = n → (c.turnAt events k).Hastens bound r)
    (ha : c.Attends events n) : ∃ k, (c.reach events k).find? n = none := by
  have hmono : Antitone fun k => (c.reach events k).patience bound n := by
    refine antitone_nat_of_succ_le fun k => ?_
    rw [reach_succ]
    exact Turn.patience_le (t := c.turnAt events k) (hs.reach events k) hanti
      (Nat.lt_of_lt_of_le hn (c.nextId_le_reach events k)) (ha.served k) (h k)
  let k := Function.argmin fun k => (c.reach events k).patience bound n
  have hleast : ∀ j, (c.reach events k).patience bound n ≤ (c.reach events j).patience bound n :=
    fun j => Function.argmin_le (fun k => (c.reach events k).patience bound n) j
  refine ⟨k, ?_⟩
  by_contra hfound
  obtain ⟨r, hr⟩ := Option.ne_none_iff_exists'.mp hfound
  have hhastens := h k r (mem_of_find? hr) (id_of_find? hr)
  obtain ⟨j, hj, r', signal, hid, hears⟩ := hears_of_attends hs ha hr hhastens.detached hhastens.waits
  -- A signal would leave less patience than the least there is.
  have hless := (h j r' (mem_of_find? hears.find?) hid).less signal hears
  rw [← reach_succ, hid] at hless
  exact absurd (Nat.lt_of_lt_of_le hless (hmono hj)) (Nat.not_lt.mpr (hleast (j + 1)))

/-- Nothing more is asked of anyone once the work is gone. -/
theorem attends_of_gone {k : Nat} (hs : c.Sound timings) (hn : n < c.nextId)
    (hend : (c.reach events k).find? n = none) (hserved : ∀ j < k, (c.turnAt events j).IsServed n)
    (hanswered : ∀ j < k, ∀ r ∈ (c.reach events j).find? n, ∀ a ∈ r.work.awaits, a.2 ≠ .version →
      ∃ i < k, j ≤ i ∧ (events i).answers n a.1 = true)
    (hwoken : ∀ j < k, ∀ due ∈ (c.reach events j).due? (.work n), ∃ i < k, j ≤ i ∧
      ((c.reach events i).due? (.work n) ≠ some due ∨
        due ≤ (c.reach events i).now ∧ (events i).wakes (.work n) = true)) : c.Attends events n := by
  have hgone : ∀ j, ¬ j < k → (c.reach events j).find? n = none :=
    fun j hj => gone_reach hs hn (Nat.not_lt.mp hj) hend
  constructor
  · intro j
    by_cases hj : j < k
    · exact hserved j hj
    · intro a ha
      have hnone : (c.turnAt events j).before.find? n = none := hgone j hj
      unfold Turn.taken? at ha
      split at ha <;> simp [hnone] at ha
  · intro j r slot request hr ha hne
    by_cases hj : j < k
    · obtain ⟨i, -, hi, he⟩ := hanswered j hj r hr _ ha hne
      exact ⟨i, hi, he⟩
    · cases (hgone j hj).symm.trans hr
  · intro j due hdue
    by_cases hj : j < k
    · obtain ⟨i, -, hi, he⟩ := hwoken j hj due hdue
      exact ⟨i, hi, he⟩
    · simp [due?, hgone j hj] at hdue

theorem gone_of_attends {past : List Turn} (hs : c.Sound timings)
    (hi : 0 < timings.healthProbeInterval.toNat) (hn : n < c.nextId)
    (h : Obeys timings id n past c) (ha : c.Attends events n) :
    ∃ k, (c.reach events k).find? n = none := by
  refine gone_of_hastens hs (Work.switchPatience_anti timings) hn (fun k r hr hid => ?_) ha
  cases obeys_reach hs hn ha.served h k with
  | ended hgone => exact absurd hid (hgone r hr)
  | goesOn hr' hid' hw hreached =>
    obtain rfl := (hs.reach events k).eq_of_id hr hr' (hid.trans hid'.symm)
    exact Turn.hastens_of_reached (t := c.turnAt events k) (hs.reach events k) hi hr hw
      (hid ▸ ha.served k) hreached

/-! ### The whole call -/

theorem begun_of_admitted (hs : c.Sound timings) {call : Call} {work : Work} {request : Request}
    {shown : Snapshot} (h : call.admission c.shared.timings c.snapshot = .admitted work shown)
    (ha : work.awaits = [(0, request)]) :
    let entry : Turn := ⟨c, .call call⟩
    (⟨c.nextId, .caller true, work⟩ : Running) ∈ entry.after.running ∧ c.nextId < entry.after.nextId ∧
      entry.outputs = [.ask c.nextId 0 request] ∧ transcript [entry] c.nextId = [.asked c.now request] := by
  intro entry
  have htakes := c.takes call
  rw [h] at htakes
  have hr : (⟨c.nextId, .caller true, work⟩ : Running) ∈ entry.after.running := by
    rw [Turn.after, htakes.running]
    exact List.mem_append_right _ (List.mem_singleton.mpr rfl)
  have houtputs : entry.outputs = [(0, request)].map fun a => .ask c.nextId a.1 a.2 :=
    ha ▸ htakes.outputs
  refine ⟨hr, (hs.step entry.event).ids_lt _ hr, houtputs, ?_⟩
  rw [transcript, List.flatMap_singleton, Turn.notes, Turn.asks_of_outputs houtputs]
  rfl

theorem obeys_entry (hs : c.Sound timings) (hi : c.state.activity = .idle)
    (hf : Switch.idFault? id = none) (hc : c.snapshot.currentConfig ≠ some id) :
    let entry : Turn := ⟨c, .call (.switch id)⟩
    Obeys timings id c.nextId [entry] entry.after ∧ c.nextId < entry.after.nextId ∧
      entry.outputs = [.ask c.nextId 0 .status] := by
  intro entry
  have hidle : c.snapshot.activity = .idle := hi
  have hadmitted : (Call.switch id).admission c.shared.timings c.snapshot =
      .admitted (.switch id .checking) { c.snapshot.withActivity .switching with switchError := none } := by
    rw [Call.admission, hf]
    simp only [if_neg hc, if_pos hidle]
  obtain ⟨hr, hn, houtputs, hnotes⟩ := begun_of_admitted hs hadmitted rfl
  refine ⟨.goesOn hr rfl rfl ?_ (.inl rfl), hn, houtputs⟩
  rw [hnotes]
  exact .checking

/-- A call of `switch` of an idle controller to another profile follows its script, whatever the
collaborators answer and whatever happens beside it. The script says which calls it makes, in which order
and at which moments, and the result, which is told to a caller who waits for it; and if the collaborators
answer, the core possibly not when it is asked for its version, the call returns. -/
theorem switch_follows_script (timings : Timings) (currentConfig : Option String) (es₀ : List Event)
    (id : String) :
    let c := ((initial timings currentConfig).run es₀).1
    let n := c.nextId
    let entry : Turn := ⟨c, .call (.switch id)⟩
    c.state.activity = .idle → id ≠ "" → Text.isTrimmed id = true →
    c.snapshot.currentConfig ≠ some id →
    (∀ es, (∀ t ∈ entry.after.turns es, t.IsServed n) → (entry.after.run es).1.find? n = none →
      ∃ result, Whole pauseEnd timings id (transcript (entry :: entry.after.turns es) n) result ∧
        ((∀ e ∈ es, e ≠ .abandon n) →
          ∃ t ∈ entry.after.turns es, .ended n (.switch result) ∈ t.outputs)) ∧
    (0 < timings.healthProbeInterval → ∀ events, entry.after.Attends events n →
      ∃ k, (entry.after.reach events k).find? n = none) := by
  intro c n entry hi hne htrim hc
  have hs : c.Sound timings := (sound_initial timings currentConfig).run es₀
  have hf : Switch.idFault? id = none := by simp [Switch.idFault?, hne, htrim]
  obtain ⟨hentry, hn, houtputs⟩ := obeys_entry hs hi hf hc
  have hs' : entry.after.Sound timings := hs.step entry.event
  constructor
  · intro es hserved hgone
    cases hentry.run hs' hn hserved with
    | goesOn hr hid =>
      have hfound := (hs'.run es).find?_eq_some hr
      rw [hid, hgone] at hfound
      cases hfound
    | @ended result hafter hwhole htold =>
      refine ⟨result, hwhole, fun hstays => ?_⟩
      rcases htold with ⟨t, ht, houtput⟩ | ⟨t, ht, he⟩
      · rcases List.mem_cons.mp ht with rfl | ht
        · rw [houtputs, List.mem_singleton] at houtput
          cases houtput
        · exact ⟨t, ht, houtput⟩
      · rcases List.mem_cons.mp ht with rfl | ht
        · cases he
        · exact absurd he (hstays _ (event_mem_of_turns ht))
  · intro hpositive events hattends
    exact gone_of_attends hs' (UInt64.lt_iff_toNat_lt.mp hpositive) hn hentry hattends

def crowd : Except Error StatusReport :=
  .ok ⟨[⟨1, "core", none, true⟩, ⟨2, "core", none, true⟩], .null, .sidecar⟩

/-- A switch in spite of a conflict that a restart does not resolve; the core fails to answer its first
request for the version, and what comes after the health wait fails but for one fetch. -/
def crowdedSwitch : List Event :=
  [.answer 0 0 (.status crowd), .answer 0 0 (.restart (.error .notConfigured)), .pass 2000,
    .wake (.work 0), .answer 0 0 (.status crowd), .answer 0 0 (.switch (.ok ())), .pass 3000,
    .wake (.work 0), .pass 9000, .answer 0 1 (.version (.error (.timeout 1))), .pass 500, .wake (.work 0),
    .answer 0 2 (.version (.ok ⟨"1", false⟩)), .answer 0 0 (.status crowd),
    .answer 0 0 (.store (.error .notConfigured)), .answer 0 1 (.proxies (.error .notConfigured)),
    .answer 0 2 (.config (.ok .null)), .answer 0 0 (.list (.error .notConfigured))]

def crowdedEvents (k : Nat) : Event := crowdedSwitch.getD k (.pass 0)

def crowded : Controller := ((initial Timings.standard (some "a")).step (.call (.switch "b"))).1

theorem attends_crowdedEvents : crowded.Attends crowdedEvents 0 := by
  have hs : crowded.Sound Timings.standard := (sound_initial Timings.standard (some "a")).step _
  refine attends_of_gone (k := 18) hs Nat.zero_lt_one ?_ ?_ ?_ ?_ <;> decide +kernel

theorem crowded_switch_follows_script :
    let c := ((initial Timings.standard (some "a")).run []).1
    let entry : Turn := ⟨c, .call (.switch "b")⟩
    let past := entry :: entry.after.turns crowdedSwitch
    c.state.activity = .idle ∧ "b" ≠ "" ∧ Text.isTrimmed "b" = true ∧ c.snapshot.currentConfig ≠ some "b" ∧
    (∀ t ∈ entry.after.turns crowdedSwitch, t.IsServed 0) ∧
    (entry.after.run crowdedSwitch).1.find? 0 = none ∧ (∀ e ∈ crowdedSwitch, e ≠ .abandon 0) ∧
    (∃ result, Whole pauseEnd Timings.standard "b" (transcript past 0) result ∧
      ∃ t ∈ entry.after.turns crowdedSwitch, .ended 0 (.switch result) ∈ t.outputs) ∧
    0 < Timings.standard.healthProbeInterval ∧ entry.after.Attends crowdedEvents 0 ∧
    ∃ k, (entry.after.reach crowdedEvents k).find? 0 = none := by
  intro c entry past
  have hi : c.state.activity = .idle := rfl
  have htrim : Text.isTrimmed "b" = true := by decide +kernel
  have hc : c.snapshot.currentConfig ≠ some "b" := by decide +kernel
  have hserved : ∀ t ∈ entry.after.turns crowdedSwitch, t.IsServed 0 := by decide +kernel
  have hgone : (entry.after.run crowdedSwitch).1.find? 0 = none := by decide +kernel
  have hstays : ∀ e ∈ crowdedSwitch, e ≠ .abandon 0 := by simp [crowdedSwitch]
  have hpositive : 0 < Timings.standard.healthProbeInterval := by decide
  obtain ⟨hscript, hreturns⟩ :=
    switch_follows_script Timings.standard (some "a") [] "b" hi (by decide) htrim hc
  obtain ⟨result, hwhole, htold⟩ := hscript crowdedSwitch hserved hgone
  exact ⟨hi, by decide, htrim, hc, hserved, hgone, hstays, ⟨result, hwhole, htold hstays⟩, hpositive,
    attends_crowdedEvents, hreturns hpositive crowdedEvents attends_crowdedEvents⟩

/-! ### Pauses that are asked to be longer than all others -/

def lenient : Timings := { conflictResolutionWait := 1000000000000 }

def declinedSwitch : List Event :=
  [.answer 0 0 (.status crowd), .answer 0 0 (.restart (.ok ())), .pass 1000000000000, .wake (.work 0),
    .answer 0 0 (.status crowd), .answer 0 0 (.switch (.error .notConfigured)), .answer 0 0 (.status crowd)]

/-- With these timings the status is asked for again before the time for a conflict to resolve is over. -/
theorem lenient_switch_asks_early :
    let c := initial lenient (some "a")
    let entry : Turn := ⟨c, .call (.switch "b")⟩
    let past := entry :: entry.after.turns declinedSwitch
    c.state.activity = .idle ∧ "b" ≠ "" ∧ Text.isTrimmed "b" = true ∧
      c.snapshot.currentConfig ≠ some "b" ∧ (∀ t ∈ past, t.IsServed 0) ∧
      (entry.after.run declinedSwitch).1.find? 0 = none ∧
      ∀ result, ¬ Whole (· + ·) lenient "b" (transcript past 0) result := by
  intro c entry past
  refine ⟨rfl, by decide, by decide +kernel, by decide +kernel, by decide +kernel, by decide +kernel, ?_⟩
  intro result hwhole
  have hsecond : (transcript past 0)[1]? = some (.answered 0 .status (.status crowd)) := rfl
  have hearly : ∀ note ∈ transcript past 0, note.moment < 1000000000000 := by decide +kernel
  obtain ⟨before, moment, rest, hpreface, hnotes⟩ := hwhole.exists_preface
  rw [hnotes] at hsecond hearly
  cases hpreface with
  | @calm _ _ result h =>
    obtain ⟨-, rfl⟩ : moment = 0 ∧ result = crowd := by simpa using hsecond
    cases h
  | @conflict _ _ _ restarted =>
    have hlate := hearly (.asked (restarted + 1000000000000) .status) (by simp [lenient])
    exact Nat.not_lt.mpr (Nat.le_add_left _ _) hlate

end Controller

end CoreWarden
