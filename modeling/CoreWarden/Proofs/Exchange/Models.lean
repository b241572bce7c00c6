import CoreWarden.Cache
import CoreWarden.Config.Basic
import CoreWarden.Outcome
import CoreWarden.Proofs.Json.Restored
import CoreWarden.Proofs.Time.Written
import CoreWarden.Proxy
import CoreWarden.Snapshot

/-!
Every model is restored from its tree: choices by their names, records from their fields. There must be
room for as many levels as the model nests; `room` levels more are left over.
-/
namespace CoreWarden

open Json (Restored Value encode restored_string restored_bool restored_uint16 restored_uint32
  restored_uint64 field? fieldOr?)
open Time (Timestamp)

variable (room : Nat)

/-! ### Names and texts -/

theorem restored_runMode (m : RunMode) : Restored room m := by
  refine .named (fun _ => Option.map_eq_bind) rfl ?_
  cases m <;> decide

theorem restored_activity (a : Activity) : Restored room a := by
  refine .named (fun _ => rfl) rfl ?_
  cases a <;> decide

theorem restored_cacheKey (k : CacheKey) : Restored room k :=
  .named (fun _ => rfl) rfl k.ofName?_name

theorem restored_optionString (o : Option String) : Restored room o :=
  .option (fun s _ => restored_string room s) (fun _ => nofun)

/-! ### Processes and conflicts -/

theorem restored_instance (i : Instance) : Restored (room + 1) i := by
  have hpid := restored_uint32 room i.pid
  have hname := restored_string room i.name
  have hpath := restored_optionString room i.path
  have hrunning := restored_bool room i.running
  refine .record [encode i.pid, encode i.name, encode i.path, encode i.running] (fun _ => rfl) rfl
    (by decide) rfl ?_ ?_
  · simp [hpid.integral, hname.integral, hpath.integral, hrunning.integral]
  · simp [field?, fieldOr?, hpid.decode?, hname.decode?, hpath.decode?, hrunning.decode?]

theorem restored_statusReport {r : StatusReport} (hf : r.extra.Fits (room + 2))
    (hi : r.extra.Integral) : Restored (room + 3) r := by
  have hinstances : Restored (room + 2) r.instances := .list fun i _ => restored_instance room i
  have hextra := Json.restored_value hf hi
  have hrunMode := restored_runMode (room + 2) r.runMode
  refine .record [encode r.instances, r.extra, encode r.runMode] (fun _ => rfl) rfl (by decide) rfl
    ?_ ?_
  · simp [hinstances.integral, hi, hrunMode.integral]
  · have hread : Json.decode? (room + 2) (Json.Tree.ofValue r.extra) = some r.extra := hextra.decode?
    simp [fieldOr?, hinstances.decode?, hread, hrunMode.decode?]

theorem restored_conflict (c : Conflict) : Restored (room + 1) c := by
  cases c with
  | conflict => exact .tagged [] [] (fun _ => rfl) rfl (by decide) rfl nofun nofun rfl
  | noConflict => exact .tagged [] [] (fun _ => rfl) rfl (by decide) rfl nofun nofun rfl
  | unknown reason =>
    have hreason := restored_string (room + 1) reason
    refine .taggedRecord [("reason", .required)] [encode reason]
      (fun _ => rfl) (fun _ => rfl) rfl (by decide) rfl ?_ ?_ ?_
    · simpa using .string reason
    · simpa using hreason.integral
    · simp [field?, hreason.decode?]

theorem restored_conflictReport (r : ConflictReport) : Restored (room + 3) r := by
  have hstatus := restored_conflict (room + 1) r.status
  have hinstances : Restored (room + 2) r.instances := .list fun i _ => restored_instance room i
  refine .record [encode r.status, encode r.instances] (fun _ => rfl) rfl (by decide) rfl ?_ ?_
  · simp [hstatus.integral, hinstances.integral]
  · simp [field?, hstatus.decode?, hinstances.decode?]

/-! ### Outcomes -/

theorem restored_switchOutcome (o : SwitchOutcome) : Restored (room + 1) o := by
  cases o with
  | unchanged id =>
    have hid := restored_string (room + 1) id
    refine .taggedRecord [("config_id", .required)] [encode id]
      (fun _ => rfl) (fun _ => rfl) rfl (by decide) rfl ?_ ?_ ?_
    · simpa using .string id
    · simpa using hid.integral
    · simp [field?, hid.decode?]
  | switched id remaining =>
    have hid := restored_string (room + 1) id
    have hremaining := restored_bool (room + 1) remaining
    refine .taggedRecord [("config_id", .required), ("conflict_remaining", .required)]
      [encode id, encode remaining] (fun _ => rfl) (fun _ => rfl) rfl (by decide) rfl ?_ ?_ ?_
    · simpa using ⟨.string id, .bool remaining⟩
    · simpa using ⟨hid.integral, hremaining.integral⟩
    · simp [field?, hid.decode?, hremaining.decode?]

theorem restored_recoveryOutcome (o : RecoveryOutcome) : Restored (room + 1) o := by
  cases o with
  | alreadyRecovering => exact .tagged [] [] (fun _ => rfl) rfl (by decide) rfl nofun nofun rfl
  | recovered attempt reloaded =>
    have hattempt := restored_uint32 (room + 1) attempt
    have hreloaded := restored_bool (room + 1) reloaded
    refine .taggedRecord [("attempt", .required), ("reloaded", .required)]
      [encode attempt, encode reloaded] (fun _ => rfl) (fun _ => rfl) rfl (by decide) rfl ?_ ?_ ?_
    · simpa using ⟨Json.fits_uint32 room attempt, .bool reloaded⟩
    · simpa using ⟨hattempt.integral, hreloaded.integral⟩
    · simp [field?, hattempt.decode?, hreloaded.decode?]

/-! ### Profiles and settings -/

theorem restored_profile (p : Profile) : Restored (room + 1) p := by
  have hid := restored_string room p.id
  have hname := restored_string room p.name
  refine .record [encode p.id, encode p.name] (fun _ => rfl) rfl (by decide) rfl ?_ ?_
  · simp [hid.integral, hname.integral]
  · simp [field?, hid.decode?, hname.decode?]

theorem restored_profileList (l : ProfileList) : Restored (room + 3) l := by
  have hcurrent := restored_optionString (room + 2) l.current
  have hitems : Restored (room + 2) l.items := .list fun p _ => restored_profile room p
  refine .record [encode l.current, encode l.items] (fun _ => rfl) rfl (by decide) rfl ?_ ?_
  · simp [hcurrent.integral, hitems.integral]
  · simp [field?, fieldOr?, hcurrent.decode?, hitems.decode?]

theorem restored_profileSettings (s : ProfileSettings) : Restored (room + 3) s := by
  have hinitial := restored_optionString (room + 2) s.initial
  have hitems : Restored (room + 2) s.items := .list fun p _ => restored_profile room p
  refine .record [encode s.initial, encode s.items] (fun _ => rfl) rfl (by decide) rfl ?_ ?_
  · simp [hinitial.integral, hitems.integral]
  · simp [fieldOr?, hinitial.decode?, hitems.decode?]

theorem restored_commands (c : Commands) : Restored (room + 2) c := by
  have hrestart : Restored (room + 1) c.restart := .list fun s _ => restored_string room s
  have hstatus : Restored (room + 1) c.status := .list fun s _ => restored_string room s
  refine .record [encode c.restart, encode c.status] (fun _ => rfl) rfl (by decide) rfl ?_ ?_
  · simp [hrestart.integral, hstatus.integral]
  · simp [fieldOr?, hrestart.decode?, hstatus.decode?]

theorem restored_coreSettings (s : CoreSettings) : Restored (room + 1) s := by
  have hbaseUrl := restored_optionString room s.baseUrl
  have hsecret := restored_optionString room s.secret
  have htimeout := restored_uint64 room s.requestTimeout
  refine .record [encode s.baseUrl, encode s.secret, encode s.requestTimeout] (fun _ => rfl) rfl
    (by decide) rfl ?_ ?_
  · simp [hbaseUrl.integral, hsecret.integral, htimeout.integral]
  · simp [field?, fieldOr?, hbaseUrl.decode?, hsecret.decode?, htimeout.decode?]

theorem restored_serverSettings (s : ServerSettings) : Restored (room + 1) s := by
  have hhost := restored_string room s.host
  have hport := restored_uint16 room s.port
  refine .record [encode s.host, encode s.port] (fun _ => rfl) rfl (by decide) rfl ?_ ?_
  · simp [hhost.integral, hport.integral]
  · simp [field?, hhost.decode?, hport.decode?]

theorem restored_timings (t : Timings) : Restored (room + 1) t := by
  have hread : ∀ n : UInt64, Restored room n := restored_uint64 room
  have hattempts := restored_uint32 room t.maxRecoveryAttempts
  refine .record [encode t.conflictResolutionWait, encode t.switchGrace, encode t.restartWait,
    encode t.healthProbeInterval, encode t.healthProbeMaxWait, encode t.attemptReset,
    encode t.reconcileInterval, encode t.visibilityDelay, encode t.conflictPollInterval,
    encode t.invalidateDebounce, encode t.maxRecoveryAttempts, encode t.historyLimit]
    (fun _ => rfl) rfl (by decide) rfl ?_ ?_
  · simp [(hread _).integral, hattempts.integral]
  · simp [fieldOr?, (hread _).decode?, hattempts.decode?]

theorem restored_config (c : Config) : Restored (room + 4) c := by
  have hserver := restored_serverSettings (room + 2) c.server
  have hcore := restored_coreSettings (room + 2) c.core
  have hsupervisor := restored_commands (room + 1) c.supervisor
  have hsync := restored_timings (room + 2) c.sync
  have hprofiles := restored_profileSettings room c.profiles
  refine .record [encode c.server, encode c.core, encode c.supervisor, encode c.sync,
    encode c.profiles] (fun _ => rfl) rfl (by decide) rfl ?_ ?_
  · simp [hserver.integral, hcore.integral, hsupervisor.integral, hsync.integral, hprofiles.integral]
  · simp [field?, fieldOr?, hserver.decode?, hcore.decode?, hsupervisor.decode?, hsync.decode?,
      hprofiles.decode?]

/-! ### Proxies -/

theorem restored_proxy (p : Proxy) : Restored (room + 2) p := by
  have hname := restored_string (room + 1) p.name
  have hkind := restored_string (room + 1) p.kind
  have hnow := restored_optionString (room + 1) p.now
  have hmembers : Restored (room + 1) p.members :=
    .option (fun ms _ => .list fun s _ => restored_string room s) (fun _ => nofun)
  refine .record [encode p.name, encode p.kind, encode p.now, encode p.members] (fun _ => rfl) rfl
    (by decide) rfl ?_ ?_
  · simp [hname.integral, hkind.integral, hnow.integral, hmembers.integral]
  · simp [field?, fieldOr?, hname.decode?, hkind.decode?, hnow.decode?, hmembers.decode?]

namespace Keyed

/-- Every key once. -/
def Distinct {α : Type} (m : Keyed α) : Prop := (m.entries.map Prod.fst).Nodup

theorem insertAll_of_nodup {α : Type} {found entries : List (String × α)}
    (h : ((found ++ entries).map Prod.fst).Nodup) : insertAll found entries = found ++ entries := by
  induction entries generalizing found with
  | nil => rw [insertAll, List.append_nil]
  | cons e entries ih =>
    have hput := Value.put_of_not_mem e.2 (Value.not_mem_of_nodup h)
    rw [insertAll, hput, ih (by simpa using h), List.append_assoc]
    rfl

theorem nodup_insertAll {α : Type} {found : List (String × α)} (h : (found.map Prod.fst).Nodup)
    (entries : List (String × α)) : ((insertAll found entries).map Prod.fst).Nodup := by
  induction entries generalizing found with
  | nil => exact h
  | cons e entries ih => exact ih (Value.nodup_put h)

end Keyed

theorem restored_keyed {α : Type} [Json.Encode α] [Json.Decode α] {m : Keyed α} (hm : m.Distinct)
    (h : ∀ e ∈ m.entries, Restored room e.2) : Restored (room + 1) m where
  integral := by
    refine .object fun v hv => ?_
    obtain ⟨e, he, rfl⟩ := List.mem_map.mp hv
    exact (h e he).integral
  decode? := by
    have hread : ((m.entries.map fun e => (e.1, Json.Tree.ofValue (encode e.2))).mapM fun e =>
        (Json.decode? room e.2).map fun v => (e.1, v)) = some (m.entries.map id) := by
      refine Json.mapM_map_eq fun e he => ?_
      rw [(h e he).decode?]
      rfl
    have hentries : Keyed.insertAll [] m.entries = m.entries := Keyed.insertAll_of_nodup hm
    rw [List.map_id] at hread
    simp only [encode, Json.Tree.ofValue, Json.decode?, Json.Tree.keyed?_ofMembers, List.map_map,
      Option.bind_eq_bind, Option.bind_some, Function.comp_def] at hread ⊢
    rw [hread, Option.bind_some, hentries]
    rfl

theorem restored_proxySnapshot {s : ProxySnapshot} (hs : s.proxies.Distinct) :
    Restored (room + 4) s := by
  have hproxies : Restored (room + 3) s.proxies :=
    restored_keyed (room + 2) hs fun e _ => restored_proxy room e.2
  refine .record [encode s.proxies] (fun _ => rfl) rfl (by decide) rfl ?_ ?_
  · simp [hproxies.integral]
  · simp [fieldOr?, hproxies.decode?]

/-! ### Snapshots -/

theorem restored_timestamp {t : Timestamp} (h : t.Readable) : Restored room t where
  integral := .string _
  decode? := by
    have htext : (Json.Tree.ofValue (.string (String.ofList t.write))).text? =
        some (String.ofList t.write) := (restored_string room _).decode?
    change (Json.Tree.ofValue (.string (String.ofList t.write))).text?.bind
      (fun s => Timestamp.parse? s.toList) = some t
    rw [htext, Option.bind_some, String.toList_ofList, Timestamp.parse?_write h]

theorem restored_historyEntry {e : HistoryEntry} (h : e.timestamp.Readable) :
    Restored (room + 1) e := by
  have hid := restored_string room e.configId
  have htimestamp := restored_timestamp room h
  have hsuccess := restored_bool room e.success
  refine .record [encode e.configId, encode e.timestamp, encode e.success] (fun _ => rfl) rfl
    (by decide) rfl ?_ ?_
  · simp [hid.integral, htimestamp.integral, hsuccess.integral]
  · simp [field?, hid.decode?, htimestamp.decode?, hsuccess.decode?]

/-- Texts name all instants in the snapshot. -/
structure Snapshot.Dated (s : Snapshot) : Prop where
  lastSuccess : ∀ t ∈ s.lastSuccess, t.Readable
  history : ∀ e ∈ s.history, e.timestamp.Readable
  lastReconcile : ∀ t ∈ s.lastReconcile, t.Readable

theorem restored_snapshot {s : Snapshot} (h : s.Dated) : Restored (room + 3) s := by
  have hactivity := restored_activity (room + 2) s.activity
  have hflag := restored_bool (room + 2)
  have htext := restored_optionString (room + 2)
  have hconflict := restored_conflict (room + 1) s.conflict
  have hcores : Restored (room + 2) s.runningCores := .list fun i _ => restored_instance room i
  have hattempts := restored_uint32 (room + 2) s.recoveryAttempts
  have hlastSuccess : Restored (room + 2) s.lastSuccess :=
    .option (fun t ht => restored_timestamp _ (h.lastSuccess t ht)) (fun _ => nofun)
  have hhistory : Restored (room + 2) s.history :=
    .list fun e he => restored_historyEntry room (h.history e he)
  have hlastReconcile : Restored (room + 2) s.lastReconcile :=
    .option (fun t ht => restored_timestamp _ (h.lastReconcile t ht)) (fun _ => nofun)
  have hskipped := restored_uint64 (room + 2) s.skippedTicks
  refine .record [encode s.activity, encode s.isSwitching, encode s.isRecovering, encode s.switchError,
    encode s.multiCoreWarning, encode s.conflict, encode s.runningCores, encode s.currentConfig,
    encode s.recoveryAttempts, encode s.lastSuccess, encode s.history, encode s.lastReconcile,
    encode s.skippedTicks] (fun _ => rfl) rfl (by decide) rfl ?_ ?_
  · simp [hactivity.integral, (hflag _).integral, (htext _).integral, hconflict.integral,
      hcores.integral, hattempts.integral, hlastSuccess.integral, hhistory.integral,
      hlastReconcile.integral, hskipped.integral]
  · simp [field?, fieldOr?, hactivity.decode?, (hflag _).decode?, (htext _).decode?,
      hconflict.decode?, hcores.decode?, hattempts.decode?, hlastSuccess.decode?, hhistory.decode?,
      hlastReconcile.decode?, hskipped.decode?]

end CoreWarden
