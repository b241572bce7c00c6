import CoreWarden.Proofs.Controller.SwitchMoves

/-!
The script of a switch: which calls it makes in which order, when it makes them and how it ends, whatever
the collaborators answer. A switch in progress has the part of a script behind it that belongs to the
point where it stands.
-/
namespace CoreWarden

open Probe (HealthWait)
open Time (pauseEnd)

namespace SwitchScript

section

/-! ### The script -/

variable (pause : Nat → Nat → Nat) (timings : Timings) (id : String)

/-- What is done about a conflict before the core is told to switch, and when that is over. -/
inductive Preface : List Note → Nat → Prop
  | calm {asked answered result} (h : (ConflictReport.ofStatus result).hasConflict = false) :
      Preface [.asked asked .status, .answered answered .status (.status result)] answered
  | conflict {asked answered result restarted restart rechecked result'}
      (h : (ConflictReport.ofStatus result).hasConflict = true) :
      Preface
        [.asked asked .status, .answered answered .status (.status result),
          .asked answered .restart, .answered restarted .restart (.restart restart),
          .asked (pause restarted timings.conflictResolutionWait.toNat) .status,
          .answered rechecked .status (.status result')] rechecked

inductive Consented : List Note → Nat → Prop
  | intro {before asked answered} (h : Preface pause timings before asked) :
      Consented (before ++
        [.asked asked (.switch id), .answered answered (.switch id) (.switch (.ok ()))]) answered

/-- The core was told to switch; it turned that down, or it was waited for. -/
inductive Trial : List Note → Nat → Except Error Unit → Prop
  | rejected {before asked answered e} (h : Preface pause timings before asked) :
      Trial (before ++
        [.asked asked (.switch id), .answered answered (.switch id) (.switch (.error e))]) answered (.error e)
  | waited {notes switched wait ended result} (h : Consented pause timings id notes switched)
      (hw : HealthWait pause timings (pause switched timings.switchGrace.toNat) wait ended result) :
      Trial (notes ++ wait) ended result

/-- From the check that follows the health wait to the fetches that are begun side by side. -/
def follows (ended checked stored : Nat) (report : Except Error StatusReport) (result : Except Error Unit) :
    List Note :=
  [.asked ended .status, .answered checked .status (.status report),
    .asked checked (.store id), .answered stored (.store id) (.store result),
    .asked stored .list, .asked stored .proxies, .asked stored .config]

/-- All that passes between a switch and the collaborators, and the result. -/
inductive Whole : List Note → Except Error SwitchOutcome → Prop
  | failed {notes ended e checked report} (h : Trial pause timings id notes ended (.error e)) :
      Whole (notes ++ [.asked ended .status, .answered checked .status (.status report)]) (.error e)
  | switched {notes ended checked report stored result fetched}
      (h : Trial pause timings id notes ended (.ok ()))
      (hf : (fetched.map Note.settles?).Perm [some .list, some .proxies, some .config]) :
      Whole (notes ++ follows id ended checked stored report result ++ fetched)
        (.ok (.switched id (ConflictReport.ofStatus report).hasConflict))

end

variable {pause : Nat → Nat → Nat} {timings : Timings} {id : String} {notes : List Note}

theorem Trial.exists_preface {ended : Nat} {result : Except Error Unit}
    (h : Trial pause timings id notes ended result) :
    ∃ before moment rest, Preface pause timings before moment ∧ notes = before ++ rest := by
  cases h with
  | rejected h => exact ⟨_, _, _, h, rfl⟩
  | waited h =>
    cases h with
    | intro h => exact ⟨_, _, _, h, List.append_assoc ..⟩

theorem Whole.exists_preface {result : Except Error SwitchOutcome} (h : Whole pause timings id notes result) :
    ∃ before moment rest, Preface pause timings before moment ∧ notes = before ++ rest := by
  cases h with
  | failed h =>
    obtain ⟨before, moment, rest, hpreface, rfl⟩ := h.exists_preface
    exact ⟨before, moment, _, hpreface, List.append_assoc ..⟩
  | @switched _ ended checked report stored result fetched h =>
    obtain ⟨before, moment, rest, hpreface, rfl⟩ := h.exists_preface
    refine ⟨before, moment, rest ++ follows id ended checked stored report result ++ fetched, hpreface, ?_⟩
    simp only [List.append_assoc]

end SwitchScript

namespace Switch

open SwitchScript

/-! ### How far a switch has come -/

section

variable (timings : Timings) (id : String) (now : Nat)

inductive Reached : Switch → List Note → Prop
  | checking {asked} : Reached .checking [.asked asked .status]
  | restarting {asked answered result} (h : (ConflictReport.ofStatus result).hasConflict = true) :
      Reached .restarting
        [.asked asked .status, .answered answered .status (.status result), .asked answered .restart]
  | resolving {asked answered result restarted restart}
      (h : (ConflictReport.ofStatus result).hasConflict = true)
      (hn : now ≤ pauseEnd restarted timings.conflictResolutionWait.toNat) :
      Reached (.resolving (pauseEnd restarted timings.conflictResolutionWait.toNat))
        [.asked asked .status, .answered answered .status (.status result),
          .asked answered .restart, .answered restarted .restart (.restart restart)]
  | rechecking {asked answered result restarted restart}
      (h : (ConflictReport.ofStatus result).hasConflict = true) :
      Reached .rechecking
        [.asked asked .status, .answered answered .status (.status result),
          .asked answered .restart, .answered restarted .restart (.restart restart),
          .asked (pauseEnd restarted timings.conflictResolutionWait.toNat) .status]
  | switching {before asked} (h : Preface pauseEnd timings before asked) :
      Reached .switching (before ++ [.asked asked (.switch id)])
  | pausing {notes switched} (h : Consented pauseEnd timings id notes switched)
      (hn : now ≤ pauseEnd switched timings.switchGrace.toNat) :
      Reached (.pausing (pauseEnd switched timings.switchGrace.toNat)) notes
  | probing {notes switched probe wait} (h : Consented pauseEnd timings id notes switched)
      (hw : probe.Reached timings (pauseEnd switched timings.switchGrace.toNat) now wait) :
      Reached (.probing probe) (notes ++ wait)
  | confirming {notes ended} (h : Trial pauseEnd timings id notes ended (.ok ())) :
      Reached .confirming (notes ++ [.asked ended .status])
  | storing {notes ended checked report} (h : Trial pauseEnd timings id notes ended (.ok ())) :
      Reached (.storing (ConflictReport.ofStatus report).hasConflict)
        (notes ++ [.asked ended .status, .answered checked .status (.status report),
          .asked checked (.store id)])
  | refreshing {notes ended checked report stored result more refresh}
      (h : Trial pauseEnd timings id notes ended (.ok ())) (hr : refresh.Renewing stored more) :
      Reached (.refreshing (ConflictReport.ofStatus report).hasConflict refresh)
        (notes ++ [.asked ended .status, .answered checked .status (.status report),
          .asked checked (.store id), .answered stored (.store id) (.store result)] ++ more)
  | reporting {notes ended e} (h : Trial pauseEnd timings id notes ended (.error e)) :
      Reached (.reporting e) (notes ++ [.asked ended .status])

def Leads (notes : List Note) : Step → Prop
  | .waiting phase asks => Reached timings id now phase (notes ++ asks.map (.asked now ·.2))
  | .done result => Whole pauseEnd timings id notes result

end

variable {timings : Timings} {id : String} {s : Shared} {notes more : List Note}

theorem script_of_probed {switched : Nat} {progress : Progress Probe (Except Error Unit)}
    (h : Consented pauseEnd s.timings id notes switched)
    (hw : Probe.Leads s.timings (pauseEnd switched s.timings.switchGrace.toNat) s.now more progress) :
    Leads s.timings id s.now (notes ++ more) (probed s id progress).2 := by
  fun_cases probed s id progress with
  | case1 probe asks =>
    simp only [Leads, List.append_assoc]
    exact .probing h hw
  | case2 e => exact .reporting (.waited h hw)
  | case3 => exact .confirming (.waited h hw)

theorem script_of_refreshed {t : Shared} {ended checked stored slot : Nat} {report : Except Error StatusReport}
    {result : Except Error Unit} {refresh refresh' : Refresh} {request : Request} {answer : Answer}
    (h : Trial pauseEnd s.timings id notes ended (.ok ())) (hr : refresh.Renewing stored more)
    (hp : refresh.asks.Perm ((slot, request) :: refresh'.asks)) :
    Leads s.timings id s.now (notes ++ [.asked ended .status, .answered checked .status (.status report),
        .asked checked (.store id), .answered stored (.store id) (.store result)] ++ more ++
        [.answered s.now request answer])
      (refreshed t id (ConflictReport.ofStatus report).hasConflict refresh').2 := by
  have hnext := hr.answered hp s.now answer
  rw [List.append_assoc]
  unfold refreshed
  split
  · next hd =>
    rw [if_pos hd] at hnext
    generalize more ++ [.answered s.now request answer] = more at hnext ⊢
    cases hnext with
    | @intro fetched _ hf =>
      have hwhole : Whole pauseEnd s.timings id
          (notes ++ follows id ended checked stored report result ++ fetched) _ := .switched h hf
      rw [List.append_assoc] at hwhole ⊢
      exact hwhole
  · next hd =>
    rw [if_neg hd] at hnext
    simp only [Leads, List.map_nil, List.append_nil]
    exact .refreshing h hnext

theorem Reached.moves {phase : Switch} {step : Step} (h : Reached s.timings id s.now phase notes)
    (hm : Moves s id phase more step) : Leads s.timings id s.now (notes ++ more) step := by
  cases h with
  | checking =>
    cases hm with
    | conflict hc => exact .restarting hc
    | calm hc => exact .switching (.calm hc)
  | restarting hc =>
    cases hm with
    | restarted => exact .resolving hc (Time.le_pauseEnd _ _)
  | resolving hc hn =>
    cases hm with
    | resolved hdue =>
      simp only [Leads]
      rw [Nat.le_antisymm hn hdue]
      exact .rechecking hc
  | rechecking hc =>
    cases hm with
    | rechecked => exact .switching (.conflict hc)
  | switching h =>
    rw [List.append_assoc]
    cases hm with
    | consented =>
      simp only [Leads, List.map_nil, List.append_nil]
      exact .pausing (.intro h) (Time.le_pauseEnd _ _)
    | rejected => exact .reporting (.rejected h)
  | @pausing notes switched h hn =>
    cases hm with
    | paused hdue => exact script_of_probed h (Probe.script_of_start (Nat.le_antisymm hn hdue))
  | probing h hw =>
    cases hm with
    | probed hm =>
      rw [List.append_assoc]
      exact script_of_probed h (hw.moves hm)
  | confirming h =>
    rw [List.append_assoc]
    cases hm with
    | confirmed =>
      simp only [Leads, List.append_assoc]
      exact .storing h
  | storing h =>
    cases hm with
    | stored =>
      rw [List.append_assoc]
      exact .refreshing h (.start s)
  | refreshing h hr =>
    cases hm with
    | fetched hp => exact script_of_refreshed h hr hp
  | reporting h =>
    rw [List.append_assoc]
    cases hm with
    | reported => exact .failed h

end Switch

end CoreWarden
