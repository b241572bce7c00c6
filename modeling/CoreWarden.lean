import CoreWarden.Client
import CoreWarden.Config.File
import CoreWarden.Http.Payload
import CoreWarden.Json.Pointer
import CoreWarden.Json.Printer
import CoreWarden.OpenApi.Document
import CoreWarden.ProfileStore
import CoreWarden.Rehearsal.Cache
import CoreWarden.Rehearsal.Probe
import CoreWarden.Rehearsal.Shell.Run
import CoreWarden.Supervisor
import CoreWarden.Proofs.SyncState.Operations
import CoreWarden.Proofs.Controller.Act
import CoreWarden.Proofs.Controller.Effect
import CoreWarden.Proofs.Controller.Exclusion
import CoreWarden.Proofs.Controller.Running
import CoreWarden.Proofs.Controller.Turn
import CoreWarden.Proofs.Controller.CurrentConfig
import CoreWarden.Proofs.Controller.SourceOfTruth
import CoreWarden.Proofs.Controller.Attempts
import CoreWarden.Proofs.Controller.BoundedRecovery
import CoreWarden.Proofs.Controller.Failure
import CoreWarden.Proofs.Controller.Told
import CoreWarden.Proofs.Controller.Limits
import CoreWarden.Proofs.Controller.Store
import CoreWarden.Proofs.Controller.Agreement
import CoreWarden.Proofs.Controller.Rollback
import CoreWarden.Proofs.Controller.PendingReset
import CoreWarden.Proofs.Controller.RecoveryCount
import CoreWarden.Proofs.Controller.Renewal
import CoreWarden.Proofs.SyncState.Skew
import CoreWarden.Proofs.Controller.Entries
import CoreWarden.Proofs.Controller.Mirror
import CoreWarden.Proofs.Controller.Refusal
import CoreWarden.Proofs.Controller.Coherence
import CoreWarden.Proofs.Controller.Certificate
import CoreWarden.Proofs.Controller.Aftermath
import CoreWarden.Proofs.Controller.Detection
import CoreWarden.Proofs.Controller.History
import CoreWarden.Proofs.Controller.Bystander
import CoreWarden.Proofs.Controller.FailedSwitch
import CoreWarden.Proofs.Controller.Desertion
import CoreWarden.Proofs.Controller.WorkflowEnds
import CoreWarden.Proofs.SyncState.Likeness
import CoreWarden.Proofs.Controller.InStep
import CoreWarden.Proofs.Controller.Guise
import CoreWarden.Proofs.Controller.ReadOnlyChecks
import CoreWarden.Proofs.Controller.Overlooked
import CoreWarden.Proofs.Controller.Verdict
import CoreWarden.Proofs.Controller.ErrorShown
import CoreWarden.Proofs.Controller.LastStored
import CoreWarden.Proofs.Controller.Admission
import CoreWarden.Proofs.Controller.Breakdown
import CoreWarden.Proofs.Json.Digits
import CoreWarden.Proofs.Json.Strings
import CoreWarden.Proofs.Json.Written
import CoreWarden.Proofs.Json.Meaning
import CoreWarden.Proofs.Json.Restored
import CoreWarden.Proofs.Time.Written
import CoreWarden.Proofs.Exchange.Models
import CoreWarden.Proofs.Exchange.RoundTrip
import CoreWarden.Proofs.Probe.Wait
import CoreWarden.Proofs.Probe.Outage
import CoreWarden.Proofs.Text.Utf8
import CoreWarden.Proofs.Toml.Lines
import CoreWarden.Proofs.Toml.Strings
import CoreWarden.Proofs.Toml.Tables
import CoreWarden.Proofs.Toml.Values
import CoreWarden.Proofs.Config.File
import CoreWarden.Proofs.Controller.HealthWait
import CoreWarden.Proofs.Controller.Refetch
import CoreWarden.Proofs.Controller.SwitchScript
import CoreWarden.Proofs.Controller.SwitchCourse
import CoreWarden.Proofs.Controller.SwitchReturns
import CoreWarden.Proofs.Controller.TickCourse
import CoreWarden.Proofs.Controller.TickDecision
import CoreWarden.Proofs.Controller.TickMasked
import CoreWarden.Proofs.Controller.TickCalledOff
import CoreWarden.Proofs.Controller.RefreshCourse
import CoreWarden.Proofs.Controller.DebounceSchedule
import CoreWarden.Proofs.Controller.RepairScript
import CoreWarden.Proofs.Controller.RepairCourse
import CoreWarden.Proofs.Controller.RepairReturns
import CoreWarden.Proofs.Cache.Refresh
import CoreWarden.Proofs.Cache.Overlap
import CoreWarden.Proofs.Controller.Periodic
import CoreWarden.Proofs.Controller.VisibilitySchedule
import CoreWarden.Proofs.Proxy.Shape
import CoreWarden.Proofs.SyncState.ResetTiming
import CoreWarden.Proofs.SyncState.Notices
import CoreWarden.Proofs.Client.Requests
import CoreWarden.Proofs.Config.Profiles
import CoreWarden.Proofs.Controller.ListedProfiles
import CoreWarden.Proofs.TimerSlot.Firing
