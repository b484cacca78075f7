import ReplicaWatch.CommandLine.Program
import ReplicaWatch.Main
import ReplicaWatch.Proofs.Monitor.Ending
import ReplicaWatch.Proofs.Monitor.Move
import ReplicaWatch.Proofs.Monitor.Run
import ReplicaWatch.Proofs.Monitor.Bookkeeping
import ReplicaWatch.Proofs.Monitor.Traffic
import ReplicaWatch.Proofs.Monitor.Conformance
import ReplicaWatch.Proofs.Monitor.Shutdown
import ReplicaWatch.Proofs.Monitor.Lifecycle
import ReplicaWatch.Proofs.Monitor.Succession
import ReplicaWatch.Proofs.Monitor.History
import ReplicaWatch.Proofs.Cluster.Verdict
import ReplicaWatch.Proofs.Monitor.Justification
import ReplicaWatch.Proofs.Monitor.Drain
import ReplicaWatch.Proofs.Monitor.Accounting
import ReplicaWatch.Proofs.Monitor.Vigilance
import ReplicaWatch.Proofs.Monitor.Crash
import ReplicaWatch.Proofs.Monitor.Output
import ReplicaWatch.Proofs.Monitor.Cause
import ReplicaWatch.Proofs.Signals.Reading
import ReplicaWatch.Proofs.Monitor.Input
import ReplicaWatch.Proofs.Monitor.Session
import ReplicaWatch.Proofs.Monitor.Standing
import ReplicaWatch.Proofs.Monitor.Fitness
import ReplicaWatch.Proofs.Monitor.Projection
import ReplicaWatch.Proofs.Monitor.Shadow
import ReplicaWatch.Proofs.Monitor.Isolation
import ReplicaWatch.Proofs.Monitor.Pacing
import ReplicaWatch.Proofs.Signals.Malformed
import ReplicaWatch.Proofs.Json.Lexeme
import ReplicaWatch.Proofs.Json.Grammar
import ReplicaWatch.Proofs.Json.Tolerance
import ReplicaWatch.Proofs.Json.Written
import ReplicaWatch.Proofs.Cluster.Tolerance
import ReplicaWatch.Proofs.Json.RoundTrip
import ReplicaWatch.Proofs.Cluster.RoundTrip
import ReplicaWatch.Proofs.Monitor.Intake
import ReplicaWatch.Proofs.Monitor.Judgement
import ReplicaWatch.Proofs.Cluster.Loading
import ReplicaWatch.Proofs.CommandLine.Forecast
import ReplicaWatch.Proofs.Monitor.Tally
import ReplicaWatch.Proofs.CommandLine.Rehearsal
import ReplicaWatch.Proofs.Text.Utf8
import ReplicaWatch.Proofs.Json.Rearrangement
import ReplicaWatch.Proofs.Json.Lines
import ReplicaWatch.Proofs.Log.Reading
import ReplicaWatch.Proofs.CommandLine.Protocol
import ReplicaWatch.Proofs.CommandLine.Failure
import ReplicaWatch.Proofs.CommandLine.Startable
