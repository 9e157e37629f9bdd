import DocGuard.Buffer.Editable
import DocGuard.Request.Run
import DocGuard.Host.Path
import DocGuard.Host.Summary
import DocGuard.Service.Invoke
import DocGuard.Proofs.Request.Performance
import DocGuard.Proofs.Request.Steps
import DocGuard.Proofs.Request.CommitIntegrity
import DocGuard.Proofs.Request.CommitProtocol
import DocGuard.Proofs.Request.RightsGate
import DocGuard.Proofs.Buffer.Split
import DocGuard.Proofs.Host.Profiles
import DocGuard.Proofs.Host.Custody
import DocGuard.Proofs.Host.ProfileLife
import DocGuard.Proofs.Metrics.Series
import DocGuard.Proofs.Service.Invocation
import DocGuard.Proofs.Service.Figures
import DocGuard.Proofs.Service.Accounting
import DocGuard.Proofs.Json.Grammar
import DocGuard.Proofs.Json.Skipping
import DocGuard.Proofs.Json.Reading
import DocGuard.Proofs.Json.Writing
import DocGuard.Proofs.Service.Agreement
import DocGuard.Proofs.Document.OutputPath
import DocGuard.Proofs.Request.InputSafety
import DocGuard.Proofs.Request.StaleOutput
import DocGuard.Proofs.Json.Decoding
import DocGuard.Proofs.Request.ReportText
import DocGuard.Proofs.Gateway.Payload
import DocGuard.Proofs.Json.Scanning
import DocGuard.Proofs.Json.Acceptance
import DocGuard.Proofs.Service.Acceptance
import DocGuard.Proofs.Service.ResponseText
import DocGuard.Proofs.Engine.Questions
import DocGuard.Proofs.Request.HandOver
import DocGuard.Proofs.Request.Staging
import DocGuard.Proofs.Request.Unread
import DocGuard.Proofs.Request.SourceKind
import DocGuard.Proofs.Request.TokenSecrecy
import DocGuard.Proofs.Request.Isolation
import DocGuard.Proofs.Host.Interleaving
import DocGuard.Proofs.Document.OutputSlices
import DocGuard.Proofs.Document.OutputNames
import DocGuard.Proofs.Request.Permission
import DocGuard.Proofs.Buffer.Chunks
import DocGuard.Proofs.Buffer.Patches
import DocGuard.Proofs.Buffer.Offsets
import DocGuard.Proofs.Buffer.Fields
import DocGuard.Proofs.Settings.Functionality
import DocGuard.Proofs.Settings.LastGiven
import DocGuard.Proofs.Service.Registration
import DocGuard.Proofs.Service.MeanLatency
import DocGuard.Proofs.Metrics.Growth
import DocGuard.Proofs.Engine.Alike
import DocGuard.Proofs.Service.Padding
import DocGuard.Proofs.Service.Asides
