import CpuControlPlane.Topology.Tree
import CpuControlPlane.Topology.TakeLeaves
import CpuControlPlane.Topology.Numa
import CpuControlPlane.Topology.Return
import CpuControlPlane.Topology.Load
import CpuControlPlane.Topology.Lowest
import CpuControlPlane.Topology.Runs
import CpuControlPlane.Topology.Leafs
import CpuControlPlane.Daemon.CpuSet
import CpuControlPlane.Daemon.CpuSetText
import CpuControlPlane.Topology.Discover
import CpuControlPlane.Daemon.State
import CpuControlPlane.Daemon.Allocators
import CpuControlPlane.Daemon.NamespaceAllocator
import CpuControlPlane.Daemon.BucketSlices
import CpuControlPlane.Daemon.Validation
import CpuControlPlane.Daemon.Requests
import CpuControlPlane.Daemon.UpdateDiff
import CpuControlPlane.Daemon.NamespaceRuns
import CpuControlPlane.Daemon.Concurrency
import CpuControlPlane.Daemon.Keeps
import CpuControlPlane.Daemon.PodKeys
import CpuControlPlane.Daemon.DefaultInvariant
import CpuControlPlane.Daemon.NumaInvariant
import CpuControlPlane.Daemon.RoundTrip
import CpuControlPlane.Daemon.BucketIsolation
import CpuControlPlane.Daemon.Startup
import CpuControlPlane.Daemon.Cgroups
import CpuControlPlane.Cmd.GetAllocator
import CpuControlPlane.Agent.Resources
import CpuControlPlane.Agent.Agent
import CpuControlPlane.Agent.AgentDaemon
import CpuControlPlane.Agent.Acceptance
