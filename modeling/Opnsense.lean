import Opnsense.Accepting
import Opnsense.AcmeAccount
import Opnsense.AcmeCertificate
import Opnsense.AcmeIssue
import Opnsense.AcmeOutcome
import Opnsense.AcmeSection
import Opnsense.AcmeSettings
import Opnsense.AddressFields
import Opnsense.AddressedWrites
import Opnsense.Ambiguity
import Opnsense.ApiKey
import Opnsense.ApiKeyTable
import Opnsense.AtMostOnce
import Opnsense.AttemptLevel
import Opnsense.AuthPriv
import Opnsense.BadInput
import Opnsense.BaseManager
import Opnsense.BodyTemplates
import Opnsense.BootMachine
import Opnsense.CheckMode
import Opnsense.Client
import Opnsense.ConcurrentDedupe
import Opnsense.ConcurrentEnsure
import Opnsense.ConcurrentPriv
import Opnsense.Convergence
import Opnsense.Credentials
import Opnsense.Csv
import Opnsense.Dedupe
import Opnsense.DedupeFaults
import Opnsense.Delivery
import Opnsense.DiffAlgebra
import Opnsense.DiffEngine
import Opnsense.DiffSoundness
import Opnsense.Effects
import Opnsense.EnableFlag
import Opnsense.Endpoints
import Opnsense.EnsureDelivery
import Opnsense.ErrorLog
import Opnsense.Errors
import Opnsense.FastPath
import Opnsense.Fatal
import Opnsense.FieldShapes
import Opnsense.FieldTypes
import Opnsense.FinalReply
import Opnsense.Firmware
import Opnsense.FirmwareFinished
import Opnsense.FirmwareUpdate
import Opnsense.FlagPaths
import Opnsense.HiddenRetries
import Opnsense.Identity
import Opnsense.IdentityClass
import Opnsense.IdsRuleset
import Opnsense.IntText
import Opnsense.Interaction.Bound
import Opnsense.Interaction.Cells
import Opnsense.Interaction.Faults
import Opnsense.Interaction.History
import Opnsense.Interaction.Interleave
import Opnsense.Interaction.Invariant
import Opnsense.Interaction.Keyed
import Opnsense.Interaction.Landing
import Opnsense.Interaction.Layers
import Opnsense.Interaction.Loop
import Opnsense.Interaction.Lowering
import Opnsense.Interaction.Parting
import Opnsense.Interaction.Polling
import Opnsense.Interaction.Prog
import Opnsense.Interaction.Relay
import Opnsense.Interaction.Rely
import Opnsense.Interaction.Retry
import Opnsense.Interaction.Returned
import Opnsense.Interaction.Steering
import Opnsense.Interaction.Strict
import Opnsense.Interaction.Triple
import Opnsense.Interaction.Twins
import Opnsense.Json
import Opnsense.Lifecycle
import Opnsense.LogSecrecy
import Opnsense.Lookup
import Opnsense.MalformedFlag
import Opnsense.MultiSelects
import Opnsense.OptionalKeys
import Opnsense.Outages
import Opnsense.OwnRequests
import Opnsense.Paths
import Opnsense.PendingApply
import Opnsense.PlainServer
import Opnsense.Playbook
import Opnsense.PlaybookRerun
import Opnsense.Plugin
import Opnsense.PluginSafety
import Opnsense.PollLoops
import Opnsense.PrivAssignment
import Opnsense.PrivOptions
import Opnsense.PrivServer
import Opnsense.Raises
import Opnsense.Readback
import Opnsense.RebootWait
import Opnsense.RedactedKeys
import Opnsense.Redaction
import Opnsense.Redactor
import Opnsense.Refusal
import Opnsense.Rendering
import Opnsense.Repetition
import Opnsense.Resolution
import Opnsense.RetriedDedupe
import Opnsense.RetryLoop
import Opnsense.RevealWindow
import Opnsense.Routing
import Opnsense.RulesetToggles
import Opnsense.SecretInErrors
import Opnsense.Service
import Opnsense.ServiceTarget
import Opnsense.SessionSharing
import Opnsense.Sessions
import Opnsense.SettingsConvergence
import Opnsense.SettingsManagers
import Opnsense.SettingsPrediction
import Opnsense.SettingsSecret
import Opnsense.SettingsServer
import Opnsense.Settling
import Opnsense.SharedSettings
import Opnsense.SilentNoop
import Opnsense.Singleton
import Opnsense.Site
import Opnsense.SiteCalls
import Opnsense.SlotOrders
import Opnsense.SnapshotRollback
import Opnsense.Snapshots
import Opnsense.SpecVerdict
import Opnsense.Staged
import Opnsense.Survivor
import Opnsense.Table
import Opnsense.TableRuns
import Opnsense.TableTotal
import Opnsense.TableWeb
import Opnsense.Text.Printable
import Opnsense.Text.Regex
import Opnsense.Text.Replace
import Opnsense.Text.Split
import Opnsense.Text.Template
import Opnsense.Text.UrlPath
import Opnsense.TextFields
import Opnsense.TextGrammar
import Opnsense.TypedErrors
import Opnsense.UrlPaths
import Opnsense.Validation
import Opnsense.Verdict
import Opnsense.WholeTable
import Opnsense.Wire
import Opnsense.WriteTargets
