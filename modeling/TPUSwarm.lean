import TPUSwarm.Common.Pool
import TPUSwarm.Common.Runs
import TPUSwarm.Solo.Cycle
import TPUSwarm.Solo.Launches
import TPUSwarm.Invariants.EventTruth
import TPUSwarm.Sha256
import TPUSwarm.Invariants.WarmReserve
import TPUSwarm.Invariants.Leadership
import TPUSwarm.Engine.System
import TPUSwarm.Engine.Replay
import TPUSwarm.Engine.Runs
import TPUSwarm.Fleet.System
import TPUSwarm.Fleet.Fencing
import TPUSwarm.Fleet.Runs
import TPUSwarm.Store.History
import TPUSwarm.Session.Calls
import TPUSwarm.Session.Launching
import TPUSwarm.Session.Rejection
import TPUSwarm.Session.Reservations
import TPUSwarm.Store.Batch
import TPUSwarm.Store.Origins
import TPUSwarm.Invariants.Keys
import TPUSwarm.Store.Links
import TPUSwarm.Invariants.LinkAgreement
import TPUSwarm.Invariants.Superseded
import TPUSwarm.Store.Manifests
import TPUSwarm.Invariants.Checkpoints
import TPUSwarm.Store.Progress
import TPUSwarm.Invariants.Barriers
import TPUSwarm.Invariants.BarrierRetry
import TPUSwarm.Invariants.StaticWorkflows
import TPUSwarm.Invariants.StaticBarriers
import TPUSwarm.Invariants.ReportedBarriers
import TPUSwarm.Common.Shared
import TPUSwarm.Service.System
import TPUSwarm.Service.Runs
import TPUSwarm.Service.Settling
import TPUSwarm.Service.LateEvents
import TPUSwarm.Common.Erasure
import TPUSwarm.Store.Timeless
import TPUSwarm.Session.Stopping
import TPUSwarm.Session.Resuming
import TPUSwarm.Session.Reruns
import TPUSwarm.Session.Idempotence
import TPUSwarm.Store.ExecutorNames
import TPUSwarm.Wire.Value
import TPUSwarm.Wire.Decode
import TPUSwarm.Wire.RoundTrip
import TPUSwarm.Common.Greatest
import TPUSwarm.Store.Publications
import TPUSwarm.Invariants.CheckpointOrder
import TPUSwarm.Invariants.Ownership
import TPUSwarm.Invariants.GenerationOrder
import TPUSwarm.Common.Separator
import TPUSwarm.Invariants.NewWorkflows
import TPUSwarm.Invariants.StaticChildren
import TPUSwarm.Invariants.KnownWorkflows
import TPUSwarm.Store.Returns
import TPUSwarm.Backend
import TPUSwarm.Session.Rejecting
import TPUSwarm.Command
import TPUSwarm.Compiling
import TPUSwarm.Common.Twins
import TPUSwarm.Secrecy.Compiled
import TPUSwarm.Secrecy.System
import TPUSwarm.Secrecy.Runs
import TPUSwarm.Common.ShellWords
import TPUSwarm.Common.ShellScripts
import TPUSwarm.Scripting
import TPUSwarm.Solo.Workflows
import TPUSwarm.Solo.Progress
import TPUSwarm.Api.Endpoints
import TPUSwarm.Api.Atomic
import TPUSwarm.Common.Frontend
import TPUSwarm.Api.Authentication
import TPUSwarm.Api.Serving
import TPUSwarm.Api.Client
import TPUSwarm.Common.Refinement
import TPUSwarm.Queue
import TPUSwarm.Solo.SkyPilot
import TPUSwarm.Solo.Forever
import TPUSwarm.Solo.Verdicts
import TPUSwarm.Solo.Sources
import TPUSwarm.Solo.Lasting
import TPUSwarm.Api.Told
