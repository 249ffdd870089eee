import BenchCluster.Data.Pointer
import BenchCluster.Main
import BenchCluster.Proofs.Descriptor.Accounted
import BenchCluster.Proofs.Descriptor.TornDown
import BenchCluster.Proofs.Descriptor.Tracked
import BenchCluster.Rehearsal.Codec
import BenchCluster.Rehearsal.Console
import BenchCluster.Rehearsal.Sample
import BenchCluster.Remote.Codec
import BenchCluster.Proofs.Config.Region
import BenchCluster.Proofs.Orchestrator.Mishap
import BenchCluster.Proofs.Journal.Frail
import BenchCluster.Proofs.Journal.Effect
import BenchCluster.Proofs.Journal.Course
import BenchCluster.Proofs.Journal.Lifecycle
import BenchCluster.Proofs.Journal.Restraint
import BenchCluster.Proofs.Journal.Recorded
import BenchCluster.Proofs.Descriptor.Stocked
import BenchCluster.Proofs.Journal.Storage
import BenchCluster.Proofs.Descriptor.Current
import BenchCluster.Proofs.Descriptor.Installed
import BenchCluster.Proofs.Store.Map
import BenchCluster.Proofs.Descriptor.Interrupted
import BenchCluster.Proofs.Orchestrator.Arrival
import BenchCluster.Proofs.Descriptor.Labelled
import BenchCluster.Proofs.Journal.FailFast
import BenchCluster.Proofs.Descriptor.Vetted
import BenchCluster.Proofs.Topology.Owners
import BenchCluster.Proofs.Descriptor.ReadBack
import BenchCluster.Proofs.Remote.Bounded
import BenchCluster.Proofs.Config.Precedence
import BenchCluster.Proofs.Descriptor.Crewed
import BenchCluster.Proofs.Descriptor.Rotated
import BenchCluster.Proofs.Descriptor.Resumed
import BenchCluster.Proofs.Text.Templates
import BenchCluster.Proofs.Cloud.Commands
import BenchCluster.Proofs.Host
import BenchCluster.Proofs.Retry.Delays
import BenchCluster.Proofs.Config.Stacked
import BenchCluster.Proofs.Remote.Counted
import BenchCluster.Proofs.Topology.BreadthFirst
