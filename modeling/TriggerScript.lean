import TriggerScript.Action.Form
import TriggerScript.Command.Form
import TriggerScript.Command.Read
import TriggerScript.Event.Form
import TriggerScript.Main
import TriggerScript.Proofs.Accounting
import TriggerScript.Proofs.Atomicity
import TriggerScript.Proofs.Auras
import TriggerScript.Proofs.Building
import TriggerScript.Proofs.BuiltSets
import TriggerScript.Proofs.Calls
import TriggerScript.Proofs.Casts
import TriggerScript.Proofs.Combat
import TriggerScript.Proofs.Commands
import TriggerScript.Proofs.Confinement
import TriggerScript.Proofs.Cooldowns
import TriggerScript.Proofs.Declarations
import TriggerScript.Proofs.Decoding
import TriggerScript.Proofs.Despawning
import TriggerScript.Proofs.DirectTriggers
import TriggerScript.Proofs.DirectoryLoads
import TriggerScript.Proofs.Dispatching
import TriggerScript.Proofs.Distances
import TriggerScript.Proofs.Draws
import TriggerScript.Proofs.Edits
import TriggerScript.Proofs.Entities
import TriggerScript.Proofs.EventRuns
import TriggerScript.Proofs.FailedRequests
import TriggerScript.Proofs.FileTrees
import TriggerScript.Proofs.Firing
import TriggerScript.Proofs.FiringLaws
import TriggerScript.Proofs.Handles
import TriggerScript.Proofs.Hearing
import TriggerScript.Proofs.Kinds
import TriggerScript.Proofs.Least
import TriggerScript.Proofs.LinkFindings
import TriggerScript.Proofs.LinkWalks
import TriggerScript.Proofs.Links
import TriggerScript.Proofs.ListClocks
import TriggerScript.Proofs.ListRequests
import TriggerScript.Proofs.ListRuns
import TriggerScript.Proofs.ListTurns
import TriggerScript.Proofs.Marks
import TriggerScript.Proofs.Nearness
import TriggerScript.Proofs.Notices
import TriggerScript.Proofs.OnceOnly
import TriggerScript.Proofs.Orders
import TriggerScript.Proofs.Orphans
import TriggerScript.Proofs.Outliving
import TriggerScript.Proofs.Passes
import TriggerScript.Proofs.Percentages
import TriggerScript.Proofs.Phases
import TriggerScript.Proofs.PolledCooldowns
import TriggerScript.Proofs.PushedCooldowns
import TriggerScript.Proofs.Reachability
import TriggerScript.Proofs.Reloads
import TriggerScript.Proofs.Resets
import TriggerScript.Proofs.Resolving
import TriggerScript.Proofs.RowFindings
import TriggerScript.Proofs.RunningLists
import TriggerScript.Proofs.Samples
import TriggerScript.Proofs.Scans
import TriggerScript.Proofs.Schedules
import TriggerScript.Proofs.Searches
import TriggerScript.Proofs.Segments
import TriggerScript.Proofs.SeparateTables
import TriggerScript.Proofs.SimulationRuns
import TriggerScript.Proofs.Simulations
import TriggerScript.Proofs.Spawns
import TriggerScript.Proofs.StagedChanges
import TriggerScript.Proofs.Stages
import TriggerScript.Proofs.Staging
import TriggerScript.Proofs.StoredTargets
import TriggerScript.Proofs.Tallies
import TriggerScript.Proofs.ThreatLists
import TriggerScript.Proofs.ThreatShifts
import TriggerScript.Proofs.TimedEvents
import TriggerScript.Proofs.Timers
import TriggerScript.Proofs.Timetables
import TriggerScript.Proofs.Triggers
import TriggerScript.Proofs.Vetoes
import TriggerScript.Proofs.Visibility
import TriggerScript.Proofs.WellFormed
import TriggerScript.Signal.Form
import TriggerScript.Signal.Read
import TriggerScript.Target.Form
