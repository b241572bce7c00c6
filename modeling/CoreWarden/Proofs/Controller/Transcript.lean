import CoreWarden.Proofs.Controller.Bystander

/-!
What passes between a piece of work and the collaborators: the calls that it makes and the answers that
it takes, in their order, each with its moment.
-/
namespace CoreWarden

open Controller (Hears)

/-- Whether an answer is of the kind that a request asks for. A collaborator that breaks down gives none
of any kind. -/
def Answer.suits : Answer → Request → Bool
  | .version _, .version | .switch _, .switch _ | .proxies _, .proxies | .config _, .config
    | .status _, .status | .restart _, .restart | .list _, .list | .store _, .store _ => true
  | _, _ => false

/-- A call that a piece of work makes, or the answer to one. -/
inductive Note where
  | asked (moment : Nat) (request : Request)
  | answered (moment : Nat) (request : Request) (answer : Answer)

namespace Note

def moment : Note → Nat
  | asked moment _ | answered moment _ _ => moment

def settles? : Note → Option Request
  | asked _ _ => none
  | answered _ request _ => some request

end Note

namespace Turn

/-- The answer that a piece of work takes, with what it had asked for. -/
def taken? (t : Turn) (n : Nat) : Option (Request × Answer) :=
  match t.event with
  | .answer id slot answer =>
    if id = n then ((t.before.find? n).bind (·.work.awaits.lookup slot)).map (·, answer) else none
  | _ => none

def asks (t : Turn) (n : Nat) : List Request :=
  t.outputs.filterMap fun
    | .ask id _ request => if id = n then some request else none
    | .ended .. => none

/-- What passes between a piece of work and the collaborators in a turn. -/
def notes (t : Turn) (n : Nat) : List Note :=
  (t.taken? n).toList.map (fun a => .answered t.now a.1 a.2) ++ (t.asks n).map (.asked t.now)

/-- Nobody breaks down whom a piece of work has called, or answers something else. -/
def IsServed (t : Turn) (n : Nat) : Prop := ∀ a ∈ t.taken? n, a.2.suits a.1 = true

instance (t : Turn) (n : Nat) : Decidable (t.IsServed n) :=
  inferInstanceAs (Decidable (∀ a ∈ t.taken? n, _))

end Turn

def transcript (past : List Turn) (n : Nat) : List Note := past.flatMap (·.notes n)

theorem transcript_snoc (past : List Turn) (t : Turn) (n : Nat) :
    transcript (past ++ [t]) n = transcript past n ++ t.notes n := by
  simp [transcript]

inductive Signal.Awaited (now : Nat) (awaits : List (Nat × Request)) (due? : Option Nat) :
    Signal → List Note → Prop
  | answer {slot request answer} (ha : (slot, request) ∈ awaits) (hs : answer.suits request = true) :
      Awaited now awaits due? (.answer slot answer) [.answered now request answer]
  | timeUp {due} (hd : due? = some due) (hn : due ≤ now) : Awaited now awaits due? .timeUp []

namespace Signal.Awaited

variable {now : Nat} {signal : Signal} {notes : List Note}

theorem of_single {request : Request} (h : Awaited now [(0, request)] none signal notes) :
    ∃ answer, signal = .answer 0 answer ∧ notes = [.answered now request answer] ∧
      answer.suits request = true := by
  cases h with
  | @answer slot request answer ha hs =>
    cases List.mem_singleton.mp ha
    exact ⟨answer, rfl, rfl, hs⟩
  | timeUp hd => cases hd

theorem of_due {due : Nat} (h : Awaited now [] (some due) signal notes) :
    signal = .timeUp ∧ notes = [] ∧ due ≤ now := by
  cases h with
  | answer ha => cases ha
  | timeUp hd hn =>
    cases hd
    exact ⟨rfl, rfl, hn⟩

end Signal.Awaited

theorem exists_lookup {awaits : List (Nat × Request)} {slot : Nat} {request : Request}
    (h : (slot, request) ∈ awaits) :
    ∃ found, awaits.lookup slot = some found ∧ (slot, found) ∈ awaits := by
  have hsome : (awaits.lookup slot).isSome = true :=
    List.lookup_isSome_iff.mpr ⟨(slot, request), h, beq_self_eq_true slot⟩
  obtain ⟨found, hfound⟩ := Option.isSome_iff_exists.mp hsome
  obtain ⟨before, after, rfl, -⟩ := List.lookup_eq_some_iff.mp hfound
  exact ⟨found, hfound, by simp⟩

namespace Turn

variable {timings : Timings} {t : Turn} {r : Running} {n : Nat}

theorem taken?_of_hears {slot : Nat} {answer : Answer}
    (h : Hears t.before.later r t.event (.answer slot answer)) :
    ∃ request, t.taken? r.id = some (request, answer) ∧ (slot, request) ∈ r.work.awaits := by
  generalize he : t.event = e at h
  cases h with
  | answer hr ha =>
    obtain ⟨request, hlookup, hmem⟩ := exists_lookup ha
    have hfound : t.before.find? r.id = some r := hr
    exact ⟨request, by simp [taken?, he, hfound, hlookup], hmem⟩

theorem taken?_of_timeUp (h : Hears t.before.later r t.event .timeUp) : t.taken? n = none := by
  generalize he : t.event = e at h
  cases h with
  | timeUp => simp [taken?, he]

theorem not_collapsed_of_isServed (h : t.IsServed r.id) (hr : t.before.find? r.id = some r) {slot : Nat}
    {request : Request} (ha : (slot, request) ∈ r.work.awaits) : t.event ≠ .answer r.id slot .collapsed := by
  intro he
  obtain ⟨found, hlookup, -⟩ := exists_lookup ha
  have htaken : t.taken? r.id = some (found, .collapsed) := by simp [taken?, he, hr, hlookup]
  have hsuits := h _ htaken
  cases hsuits

theorem hears_of_taken? {a : Request × Answer} (h : t.taken? n = some a) (hc : a.2 ≠ .collapsed) :
    ∃ r signal, r.id = n ∧ Hears t.before.later r t.event signal := by
  unfold taken? at h
  split at h
  · next id slot answer he =>
    split at h
    · next hid =>
      subst hid
      obtain ⟨request, hfound, rfl⟩ := Option.map_eq_some_iff.mp h
      obtain ⟨r, hr, hlookup⟩ := Option.bind_eq_some_iff.mp hfound
      obtain ⟨before, after, hawaits, -⟩ := List.lookup_eq_some_iff.mp hlookup
      obtain rfl := Controller.id_of_find? hr
      have ha : (slot, request) ∈ r.work.awaits := by simp [hawaits]
      exact ⟨r, .answer slot answer, rfl, he ▸ .answer hr ha hc⟩
    · cases h
  · cases h

theorem asks_of_outputs {asks : List (Nat × Request)}
    (h : t.outputs = asks.map fun a => .ask n a.1 a.2) : t.asks n = asks.map Prod.snd := by
  simp [Turn.asks, h, List.filterMap_map]

theorem asks_of_report {result : Result} (h : t.outputs = Controller.report r result) :
    t.asks n = [] := by
  rw [asks, List.filterMap_eq_nil_iff]
  intro output hmem
  cases output with
  | ask => exact absurd (h ▸ hmem) Controller.not_ask_mem_report
  | ended => rfl

theorem notes_of_deaf (hserved : t.IsServed n) (hn : n < t.before.nextId)
    (hdeaf : ∀ r signal, r.id = n → ¬ Hears t.before.later r t.event signal) : t.notes n = [] := by
  have htaken : t.taken? n = none := by
    cases h : t.taken? n with
    | none => rfl
    | some a =>
      have hsuits := hserved a h
      have hc : a.2 ≠ .collapsed := by
        rintro hc
        simp [hc, Answer.suits] at hsuits
      obtain ⟨r, signal, hid, hears⟩ := hears_of_taken? h hc
      exact absurd hears (hdeaf r signal hid)
  have hasks : t.asks n = [] := by
    rw [asks, List.filterMap_eq_nil_iff]
    intro output hmem
    cases output with
    | ended => rfl
    | ask id slot request =>
      by_cases hid : id = n
      · subst hid
        rcases Controller.hears_of_asks (Controller.act_step t.before t.event) hmem with
          hnew | ⟨r, signal, hid, hears⟩
        · exact absurd hnew (Nat.ne_of_lt hn)
        · exact absurd hears (hdeaf r signal hid)
      · simp [hid]
  simp [notes, htaken, hasks]

theorem awaited_of_hears {signal : Signal} (hserved : t.IsServed r.id)
    (h : Hears t.before.later r t.event signal) :
    Signal.Awaited t.now r.work.awaits r.work.due? signal
      ((t.taken? r.id).toList.map fun a => .answered t.now a.1 a.2) := by
  cases signal with
  | answer slot answer =>
    obtain ⟨request, htaken, ha⟩ := taken?_of_hears h
    have hsuits := hserved _ htaken
    rw [htaken]
    exact .answer ha hsuits
  | timeUp =>
    obtain ⟨due, hd, hn⟩ := Controller.Hears.due h
    rw [taken?_of_timeUp h]
    exact .timeUp hd hn

end Turn

end CoreWarden
