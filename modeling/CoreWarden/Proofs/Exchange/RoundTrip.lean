import CoreWarden.Proofs.Exchange.Models

/-!
Every model is read as it is written. What a text can mean is written so that it is read again, whatever
form the text had: fields by name or by position, unknown fields, fields left out.
-/
namespace CoreWarden

open Json (Encode Decode Yields decode? encode maxNesting ofText?)
open Time (Timestamp)

theorem yields_timestamp : Yields Timestamp.Readable := by
  intro room tree t h
  obtain ⟨s, -, hs⟩ := Option.bind_eq_some_iff.mp h
  exact ⟨s.toList, hs⟩

theorem yields_historyEntry : Yields fun e : HistoryEntry => e.timestamp.Readable := by
  intro room tree e h
  obtain ⟨inner, fields, -, hread⟩ := Json.Tree.exists_of_record? h
  split at hread
  · simp only [Option.bind_eq_bind, Option.bind_eq_some_iff] at hread
    obtain ⟨id, -, timestamp, htimestamp, success, -, hread⟩ := hread
    cases hread
    exact yields_timestamp.field htimestamp
  · cases hread

theorem yields_snapshot : Yields Snapshot.Dated := by
  intro room tree s h
  obtain ⟨inner, fields, -, hread⟩ := Json.Tree.exists_of_record? h
  split at hread
  · -- The fields in front of the first instant.
    iterate 9 obtain ⟨_, -, hread⟩ := Option.bind_eq_some_iff.mp hread
    obtain ⟨lastSuccess, hlastSuccess, hread⟩ := Option.bind_eq_some_iff.mp hread
    obtain ⟨history, hhistory, hread⟩ := Option.bind_eq_some_iff.mp hread
    obtain ⟨lastReconcile, hlastReconcile, hread⟩ := Option.bind_eq_some_iff.mp hread
    obtain ⟨_, -, hread⟩ := Option.bind_eq_some_iff.mp hread
    cases hread
    have hnone : ∀ t ∈ (none : Option Timestamp), t.Readable := by simp
    exact ⟨yields_timestamp.option.fieldOr hnone hlastSuccess, yields_historyEntry.list.field hhistory,
      yields_timestamp.option.fieldOr hnone hlastReconcile⟩
  · cases hread

theorem yields_keyed {α : Type} [Decode α] : Yields fun m : Keyed α => m.Distinct := by
  intro room tree m h
  cases tree with
  | null | bool | number | string | array => cases h
  | object members =>
    cases room with
    | zero => cases h
    | succ room =>
      obtain ⟨found, -, h⟩ := Option.bind_eq_some_iff.mp h
      obtain ⟨entries, -, h⟩ := Option.bind_eq_some_iff.mp h
      cases h
      have hnil : (([] : List (String × α)).map Prod.fst).Nodup := List.nodup_nil
      exact Keyed.nodup_insertAll hnil entries

theorem yields_proxySnapshot : Yields fun s : ProxySnapshot => s.proxies.Distinct := by
  intro room tree s h
  obtain ⟨inner, fields, -, hread⟩ := Json.Tree.exists_of_record? h
  split at hread
  · simp only [Option.bind_eq_bind, Option.bind_eq_some_iff] at hread
    obtain ⟨proxies, hproxies, hread⟩ := hread
    cases hread
    exact yields_keyed.fieldOr (by simp [Keyed.Distinct]) hproxies
  · cases hread

theorem fits_extra {room : Nat} {tree : Json.Tree} {r : StatusReport}
    (h : decode? (room + 1) tree = some r) : r.extra.Fits room := by
  obtain ⟨inner, fields, hroom, hread⟩ := Json.Tree.exists_of_record? h
  obtain rfl : room = inner := Nat.succ.inj hroom
  split at hread
  · next extra _ =>
    simp only [Option.bind_eq_bind, Option.bind_eq_some_iff] at hread
    obtain ⟨instances, -, value, hvalue, runMode, -, hread⟩ := hread
    cases hread
    cases extra with
    | none =>
      cases hvalue
      exact .null
    | some tree => exact Json.Tree.fits_of_meaning? room tree value hvalue
  · cases hread

/-! ### Round trips -/

/-- The sound values of a type are read from the text that is written of them. A value that was read from
any text is read again from the text that is written of it. Both are asked of exact values only. -/
structure RoundTrip (α : Type) [Encode α] [Decode α] (Sound : α → Prop := fun _ => True)
    (Exact : α → Prop := fun _ => True) : Prop where
  written : ∀ a, Sound a → Exact a → ofText? (encode a).write = some a
  reread : ∀ text a, ofText? text = some a → Exact a → ofText? (encode a).write = some a

namespace RoundTrip

variable {α : Type} [Encode α] [Decode α] {Sound Exact : α → Prop}

theorem of_restored (h : ∀ a, Sound a → Exact a → Json.Restored maxNesting a)
    (hy : ∀ tree a, decode? maxNesting tree = some a → Sound a) : RoundTrip α Sound Exact where
  written a hs he := (h a hs he).ofText?
  reread text a hread he := by
    obtain ⟨tree, -, htree⟩ := Option.bind_eq_some_iff.mp hread
    exact (h a (hy tree a htree) he).ofText?

theorem of_all_restored (h : ∀ a : α, Json.Restored maxNesting a) : RoundTrip α :=
  of_restored (fun a _ _ => h a) (fun _ _ _ => trivial)

end RoundTrip

theorem roundTrip_snapshot : RoundTrip Snapshot Snapshot.Dated :=
  .of_restored (fun _ h _ => restored_snapshot 124 h) (yields_snapshot _)

theorem roundTrip_historyEntry : RoundTrip HistoryEntry fun e => e.timestamp.Readable :=
  .of_restored (fun _ h _ => restored_historyEntry 126 h) (yields_historyEntry _)

theorem roundTrip_statusReport : RoundTrip StatusReport (fun r => r.extra.Fits (maxNesting - 1))
    (fun r => r.extra.Integral) :=
  .of_restored (fun _ hf hi => restored_statusReport 124 hf hi) (fun _ _ h => fits_extra h)

theorem roundTrip_proxySnapshot : RoundTrip ProxySnapshot fun s => s.proxies.Distinct :=
  .of_restored (fun _ h _ => restored_proxySnapshot 123 h) (yields_proxySnapshot _)

/-- Every model is read as it is written: with any instants that texts name, with every key once, and with
extra data that has integers for numbers and nests no deeper than texts may. -/
theorem models_round_trip :
    RoundTrip Snapshot Snapshot.Dated ∧ RoundTrip ConflictReport ∧ RoundTrip Conflict ∧
    RoundTrip HistoryEntry (fun e => e.timestamp.Readable) ∧
    RoundTrip SwitchOutcome ∧ RoundTrip RecoveryOutcome ∧
    RoundTrip StatusReport (fun r => r.extra.Fits (maxNesting - 1)) (fun r => r.extra.Integral) ∧
    RoundTrip Instance ∧ RoundTrip RunMode ∧ RoundTrip Activity ∧
    RoundTrip ProxySnapshot (fun s => s.proxies.Distinct) ∧
    RoundTrip ProfileList ∧ RoundTrip CacheKey ∧ RoundTrip Timings ∧ RoundTrip Config :=
  ⟨roundTrip_snapshot, .of_all_restored (restored_conflictReport 124),
    .of_all_restored (restored_conflict 126), roundTrip_historyEntry,
    .of_all_restored (restored_switchOutcome 126), .of_all_restored (restored_recoveryOutcome 126),
    roundTrip_statusReport, .of_all_restored (restored_instance 126),
    .of_all_restored (restored_runMode _), .of_all_restored (restored_activity _),
    roundTrip_proxySnapshot, .of_all_restored (restored_profileList 124),
    .of_all_restored (restored_cacheKey _), .of_all_restored (restored_timings 126),
    .of_all_restored (restored_config 123)⟩

def leapEntry : HistoryEntry where
  configId := "a"
  timestamp := ⟨⟨2024, 6, 30, by decide, by decide, by decide⟩, 66599, 1500000000, by decide, by decide⟩
  success := true

/-- The entry with its time at another offset, an escape and an unknown field. -/
def leapText : List Char :=
  ("\x7b\"x\": 1.5, \"success\": true, \"config_id\": \"\\u0061\", " ++
    "\"timestamp\": \"2024-06-30 23:59:60.5+05:30\"\x7d").toList

def nestedReport : StatusReport where
  instances := [⟨1000, "core", none, false⟩]
  extra := .object [("b", .array [.number (.int (-5)), .null]), ("a", .string "\u2028\"")]
  runMode := .service

/-- The entry is read, and read again as it is written; the report is read as it is written. -/
theorem leapEntry_nestedReport_round_trip :
    (ofText? leapText = some leapEntry ∧ ofText? (encode leapEntry).write = some leapEntry) ∧
    nestedReport.extra.Fits (maxNesting - 1) ∧ nestedReport.extra.Integral ∧
      ofText? (encode nestedReport).write = some nestedReport := by
  have hread : ofText? leapText = some leapEntry := by decide +kernel
  have hfits : nestedReport.extra.Fits (maxNesting - 1) := by
    refine .object (by decide) ?_
    simp only [List.forall_mem_cons]
    refine ⟨.array ?_, .string _, nofun⟩
    simp only [List.forall_mem_cons]
    exact ⟨.number (by simp [Json.Number.InRange]), .null, nofun⟩
  have hintegral : nestedReport.extra.Integral := by
    refine .object ?_
    simp only [List.forall_mem_cons]
    refine ⟨.array ?_, .string _, nofun⟩
    simp only [List.forall_mem_cons]
    exact ⟨.int _, .null, nofun⟩
  obtain ⟨-, -, -, hentry, -, -, hreport, -⟩ := models_round_trip
  exact ⟨⟨hread, hentry.reread _ _ hread trivial⟩, hfits, hintegral, hreport.written _ hfits hintegral⟩

-- Fields by position, of which the last may be left out, and a name with nothing below it.
example :
    ofText? "[7, \"core\"]".toList = some (⟨7, "core", none, true⟩ : Instance) ∧
    ofText? "[\"unknown\", \"no answer\"]".toList = some (Conflict.unknown "no answer") ∧
    ofText? "\x7b\"Service\": null\x7d".toList = some RunMode.service := by
  decide +kernel

end CoreWarden
