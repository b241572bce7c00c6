import CoreWarden.Proofs.Controller.SwitchScript

/-!
The scripts of a reload and of a recovery: which calls they make in which order, when they make them and
how they end, whatever the collaborators answer. The steps of a reload are a script of their own, which a
recovery that finds a conflict goes through as well.
-/
namespace CoreWarden

open Probe (HealthWait)
open Refresh (Refetch Renewing)
open Time (pauseEnd)

namespace RepairScript

section

/-! ### The scripts -/

variable (pause : Nat → Nat → Nat) (timings : Timings)

/-- The core is restarted; that fails, or a pause and a health wait follow. -/
inductive Restart (asked : Nat) : List Note → Nat → Except Error Unit → Prop
  | refused {answered e} : Restart asked
      [.asked asked .restart, .answered answered .restart (.restart (.error e))] answered (.error e)
  | waited {answered wait ended result}
      (h : HealthWait pause timings (pause answered timings.restartWait.toNat) wait ended result) :
      Restart asked ([.asked asked .restart, .answered answered .restart (.restart (.ok ()))] ++ wait)
        ended result

/-- The steps of a reload that begin at `asked`. -/
inductive Steps (asked : Nat) : List Note → Nat → Except Error Unit → Prop
  | failed {notes ended e} (h : Restart pause timings asked notes ended (.error e)) :
      Steps asked notes ended (.error e)
  | renewed {notes restarted more ended} (h : Restart pause timings asked notes restarted (.ok ()))
      (hr : Refetch restarted more ended) : Steps asked (notes ++ more) ended (.ok ())

/-- All that passes between a recovery that begins at `asked` and the collaborators, and the result. -/
inductive Recovering (asked : Nat) (attempt : UInt32) :
    List Note → Nat → Except Error RecoveryOutcome → Prop
  | calm {answered report more ended} (h : (ConflictReport.ofStatus report).hasConflict = false)
      (hr : Refetch answered more ended) : Recovering asked attempt
        ([.asked asked .status, .answered answered .status (.status report)] ++ more) ended
        (.ok (.recovered attempt false))
  | failed {answered report notes ended e} (h : (ConflictReport.ofStatus report).hasConflict = true)
      (hs : Steps pause timings answered notes ended (.error e)) : Recovering asked attempt
        ([.asked asked .status, .answered answered .status (.status report)] ++ notes) ended (.error e)
  | reloaded {answered report notes ended checked report'}
      (h : (ConflictReport.ofStatus report).hasConflict = true)
      (hs : Steps pause timings answered notes ended (.ok ())) : Recovering asked attempt
        ([.asked asked .status, .answered answered .status (.status report)] ++ notes ++
          [.asked ended .status, .answered checked .status (.status report')]) checked
        (.ok (.recovered attempt true))

inductive Script (asked : Nat) (attempt : UInt32) : Call → List Note → Nat → Result → Prop
  | reload {notes ended result} (h : Steps pause timings asked notes ended result) :
      Script asked attempt .reload notes ended (.reload result)
  | recover {notes ended result} (h : Recovering pause timings asked attempt notes ended result) :
      Script asked attempt .recover notes ended (.recover result)

end

theorem Script.exists_restart {pause : Nat → Nat → Nat} {timings : Timings} {asked ended : Nat}
    {attempt : UInt32} {notes : List Note} {result : Result}
    (h : Script pause timings asked attempt .reload notes ended result) :
    ∃ restart restarted outcome more,
      Restart pause timings asked restart restarted outcome ∧ notes = restart ++ more := by
  cases h with
  | reload h =>
    cases h with
    | failed h => exact ⟨_, _, _, [], h, (List.append_nil _).symm⟩
    | renewed h => exact ⟨_, _, _, _, h, rfl⟩

end RepairScript

open RepairScript

/-! ### How far a reload has come -/

namespace Reload

section

variable (timings : Timings) (asked now : Nat)

inductive Reached : Reload → List Note → Prop
  | restarting : Reached .restarting [.asked asked .restart]
  | pausing {answered} (hn : now ≤ pauseEnd answered timings.restartWait.toNat) :
      Reached (.pausing (pauseEnd answered timings.restartWait.toNat))
        [.asked asked .restart, .answered answered .restart (.restart (.ok ()))]
  | probing {answered probe wait}
      (h : probe.Reached timings (pauseEnd answered timings.restartWait.toNat) now wait) :
      Reached (.probing probe)
        ([.asked asked .restart, .answered answered .restart (.restart (.ok ()))] ++ wait)
  | refreshing {notes ended more refresh} (h : Restart pauseEnd timings asked notes ended (.ok ()))
      (hr : Renewing ended refresh more) : Reached (.refreshing refresh) (notes ++ more)

def Leads (notes : List Note) : Step → Prop
  | .waiting phase asks => Reached timings asked now phase (notes ++ asks.map (.asked now ·.2))
  | .done result => Steps pauseEnd timings asked notes now result

end

inductive Moves (s : Shared) : Reload → List Note → Step → Prop
  | restarted : Moves s .restarting [.answered s.now .restart (.restart (.ok ()))]
      (.waiting (.pausing (pauseEnd s.now s.timings.restartWait.toNat)) [])
  | refused {e} : Moves s .restarting [.answered s.now .restart (.restart (.error e))] (.done (.error e))
  | paused {wake} (h : wake ≤ s.now) :
      Moves s (.pausing wake) [] (probed s (Probe.start s.pace s.now)).2
  | probed {probe notes progress} (h : probe.Moves s notes progress) :
      Moves s (.probing probe) notes (probed s progress).2
  | fetched {refresh refresh' slot request answer t}
      (h : refresh.asks.Perm ((slot, request) :: refresh'.asks)) :
      Moves s (.refreshing refresh) [.answered s.now request answer] (refreshed t refresh').2

variable {s : Shared} {asked : Nat} {phase : Reload} {notes more : List Note}

theorem moves_of_awaited {signal : Signal}
    (h : Signal.Awaited s.now phase.awaits phase.due? signal notes) :
    Moves s phase notes (phase.resume s signal).2 := by
  cases phase with
  | restarting =>
    obtain ⟨answer, rfl, rfl, hsuits⟩ := h.of_single
    cases answer with
    | restart result =>
      cases result with
      | ok => exact .restarted
      | error e => exact .refused
    | _ => cases hsuits
  | pausing wake =>
    obtain ⟨rfl, rfl, hn⟩ := h.of_due
    exact .paused hn
  | probing probe => exact .probed (Probe.moves_of_awaited h)
  | refreshing refresh =>
    obtain ⟨slot, request, answer, refresh', t, hresume, rfl, hperm⟩ := Refresh.settles_of_awaited h
    simp only [Reload.resume, hresume]
    exact .fetched hperm

theorem script_of_probed {answered : Nat} {progress : Progress Probe (Except Error Unit)}
    (h : Probe.Leads s.timings (pauseEnd answered s.timings.restartWait.toNat) s.now notes progress) :
    Leads s.timings asked s.now
      ([.asked asked .restart, .answered answered .restart (.restart (.ok ()))] ++ notes)
      (probed s progress).2 := by
  fun_cases probed s progress with
  | case1 probe asks =>
    simp only [Leads, List.append_assoc]
    exact .probing h
  | case2 e => exact .failed (.waited h)
  | case3 refresh t hstart =>
    obtain rfl : s.startRefresh.1 = refresh := congrArg Prod.fst hstart
    exact .refreshing (.waited h) (.start s)

theorem script_of_refreshed {t : Shared} {ended slot : Nat} {refresh refresh' : Refresh} {request : Request}
    {answer : Answer} (h : Restart pauseEnd s.timings asked notes ended (.ok ()))
    (hr : Renewing ended refresh more) (hp : refresh.asks.Perm ((slot, request) :: refresh'.asks)) :
    Leads s.timings asked s.now (notes ++ more ++ [.answered s.now request answer])
      (refreshed t refresh').2 := by
  have hnext := hr.answered hp s.now answer
  rw [List.append_assoc]
  unfold refreshed
  split
  · next hd =>
    rw [if_pos hd] at hnext
    exact .renewed h hnext
  · next hd =>
    rw [if_neg hd] at hnext
    simp only [Leads, List.map_nil, List.append_nil]
    exact .refreshing h hnext

theorem Reached.moves {step : Step} (h : Reached s.timings asked s.now phase notes)
    (hm : Moves s phase more step) : Leads s.timings asked s.now (notes ++ more) step := by
  cases h with
  | restarting =>
    cases hm with
    | restarted =>
      simp only [Leads, List.map_nil, List.append_nil]
      exact .pausing (Time.le_pauseEnd _ _)
    | refused => exact .failed .refused
  | @pausing answered hn =>
    cases hm with
    | paused hdue => exact script_of_probed (Probe.script_of_start (Nat.le_antisymm hn hdue))
  | probing h =>
    cases hm with
    | probed hm =>
      rw [List.append_assoc]
      exact script_of_probed (h.moves hm)
  | refreshing h hr =>
    cases hm with
    | fetched hp => exact script_of_refreshed h hr hp

end Reload

/-! ### How far a recovery has come -/

namespace Recovery

section

variable (timings : Timings) (asked : Nat) (attempt : UInt32) (now : Nat)

inductive Reached : Recovery → List Note → Prop
  | checking : Reached .checking [.asked asked .status]
  | reloading {answered report reload notes}
      (h : (ConflictReport.ofStatus report).hasConflict = true)
      (hs : reload.Reached timings answered now notes) : Reached (.reloading reload)
        ([.asked asked .status, .answered answered .status (.status report)] ++ notes)
  | rechecking {answered report notes ended} (h : (ConflictReport.ofStatus report).hasConflict = true)
      (hs : Steps pauseEnd timings answered notes ended (.ok ())) : Reached .rechecking
        ([.asked asked .status, .answered answered .status (.status report)] ++ notes ++
          [.asked ended .status])
  | refreshing {answered report refresh more}
      (h : (ConflictReport.ofStatus report).hasConflict = false)
      (hr : Renewing answered refresh more) : Reached (.refreshing refresh)
        ([.asked asked .status, .answered answered .status (.status report)] ++ more)

def Leads (notes : List Note) : Step → Prop
  | .waiting phase asks => Reached timings asked now phase (notes ++ asks.map (.asked now ·.2))
  | .done result => Recovering pauseEnd timings asked attempt notes now result

end

inductive Moves (s : Shared) (attempt : UInt32) : Recovery → List Note → Step → Prop
  | conflict {report} (h : (ConflictReport.ofStatus report).hasConflict = true) :
      Moves s attempt .checking [.answered s.now .status (.status report)]
        (.waiting (.reloading .restarting) [(0, .restart)])
  | calm {report} (h : (ConflictReport.ofStatus report).hasConflict = false) :
      Moves s attempt .checking [.answered s.now .status (.status report)]
        (.waiting (.refreshing s.startRefresh.1) s.startRefresh.1.asks)
  | reloading {reload notes step t} (h : reload.Moves s notes step) :
      Moves s attempt (.reloading reload) notes (reloaded (t, step)).2
  | rechecked {report} : Moves s attempt .rechecking [.answered s.now .status (.status report)]
      (.done (.ok (.recovered attempt true)))
  | fetched {refresh refresh' slot request answer t}
      (h : refresh.asks.Perm ((slot, request) :: refresh'.asks)) :
      Moves s attempt (.refreshing refresh) [.answered s.now request answer]
        (refreshed t attempt refresh').2

variable {s : Shared} {asked : Nat} {attempt : UInt32} {phase : Recovery} {notes more : List Note}

theorem moves_of_awaited {signal : Signal}
    (h : Signal.Awaited s.now phase.awaits phase.due? signal notes) :
    Moves s attempt phase notes (phase.resume s attempt signal).2 := by
  cases phase with
  | checking =>
    obtain ⟨answer, rfl, rfl, hsuits⟩ := h.of_single
    cases answer with
    | status report =>
      simp only [Recovery.resume]
      split
      · next hc => exact .conflict hc
      · next hc => exact .calm (Bool.eq_false_iff.mpr hc)
    | _ => cases hsuits
  | reloading reload => exact .reloading (Reload.moves_of_awaited h)
  | rechecking =>
    obtain ⟨answer, rfl, rfl, hsuits⟩ := h.of_single
    cases answer with
    | status report => exact .rechecked
    | _ => cases hsuits
  | refreshing refresh =>
    obtain ⟨slot, request, answer, refresh', t, hresume, rfl, hperm⟩ := Refresh.settles_of_awaited h
    simp only [Recovery.resume, hresume]
    exact .fetched hperm

theorem script_of_reloaded {t : Shared} {answered : Nat} {report : Except Error StatusReport}
    {step : Reload.Step} (hc : (ConflictReport.ofStatus report).hasConflict = true)
    (h : Reload.Leads s.timings answered s.now notes step) :
    Leads s.timings asked attempt s.now
      ([.asked asked .status, .answered answered .status (.status report)] ++ notes)
      (reloaded (t, step)).2 := by
  cases step with
  | waiting reload asks =>
    simp only [reloaded, Leads, List.append_assoc]
    exact .reloading hc h
  | done result =>
    cases result with
    | ok => exact .rechecking hc h
    | error e => exact .failed hc h

theorem script_of_refreshed {t : Shared} {answered slot : Nat} {report : Except Error StatusReport}
    {refresh refresh' : Refresh} {request : Request} {answer : Answer}
    (hc : (ConflictReport.ofStatus report).hasConflict = false) (hr : Renewing answered refresh more)
    (hp : refresh.asks.Perm ((slot, request) :: refresh'.asks)) :
    Leads s.timings asked attempt s.now
      ([.asked asked .status, .answered answered .status (.status report)] ++ more ++
        [.answered s.now request answer]) (refreshed t attempt refresh').2 := by
  have hnext := hr.answered hp s.now answer
  rw [List.append_assoc]
  unfold refreshed
  split
  · next hd =>
    rw [if_pos hd] at hnext
    exact .calm hc hnext
  · next hd =>
    rw [if_neg hd] at hnext
    simp only [Leads, List.map_nil, List.append_nil]
    exact .refreshing hc hnext

theorem Reached.moves {step : Step} (h : Reached s.timings asked s.now phase notes)
    (hm : Moves s attempt phase more step) :
    Leads s.timings asked attempt s.now (notes ++ more) step := by
  cases h with
  | checking =>
    cases hm with
    | conflict hc => exact .reloading hc .restarting
    | calm hc => exact .refreshing hc (.start s)
  | reloading hc hs =>
    cases hm with
    | reloading hm =>
      rw [List.append_assoc]
      exact script_of_reloaded hc (hs.moves hm)
  | rechecking hc hs =>
    cases hm with
    | rechecked =>
      rw [List.append_assoc]
      exact .reloaded hc hs
  | refreshing hc hr =>
    cases hm with
    | fetched hp => exact script_of_refreshed hc hr hp

end Recovery

end CoreWarden
