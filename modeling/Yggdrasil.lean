import Yggdrasil.Deletion.Coverage
import Yggdrasil.Deletion.UsageExit
import Yggdrasil.Inventory.Modes
import Yggdrasil.Inventory.Evidence
import Yggdrasil.Inventory.Provenance
import Yggdrasil.Inventory.Isolation
import Yggdrasil.Inventory.Workflow
import Yggdrasil.Inventory.Hierarchy
import Yggdrasil.Inventory.Ownership
import Yggdrasil.Deletion.Canonical
import Yggdrasil.Library.Process
import Yggdrasil.Python.Number
import Yggdrasil.Mongo.Cluster
import Yggdrasil.Mongo.Create
import Yggdrasil.Mongo.Grow
import Yggdrasil.Mongo.Guest
import Yggdrasil.Mongo.Shrink
import Yggdrasil.Mongo.Tasks
import Yggdrasil.Mongo.Calls
import Yggdrasil.Mongo.Rejection
import Yggdrasil.Mongo.Growth
import Yggdrasil.Mongo.Atomicity
import Yggdrasil.Mongo.Shrinking
import Yggdrasil.Mongo.Viability
import Yggdrasil.Library.History
import Yggdrasil.Mongo.Draining
import Yggdrasil.Mongo.Removal
import Yggdrasil.Mongo.Exclusion
import Yggdrasil.Mongo.Primary
import Yggdrasil.Mongo.Assembly
import Yggdrasil.Mongo.TaskReset
import Yggdrasil.Mongo.Names
import Yggdrasil.Inventory.Enumeration
import Yggdrasil.Inventory.Pending
import Yggdrasil.Inventory.Completeness
import Yggdrasil.Inventory.Omission
import Yggdrasil.Inventory.Failures
import Yggdrasil.EndToEnd
import Yggdrasil.Inventory.Serialisation
import Yggdrasil.Inventory.Worklist
import Yggdrasil.Cri.Channel
import Yggdrasil.Exporter.Snapshots
import Yggdrasil.Hardening.Firewall
import Yggdrasil.Images.Replacement
import Yggdrasil.Kolla.Convergence
import Yggdrasil.DiskCleanup.Guard
import Yggdrasil.DiskCleanup.Purge
import Yggdrasil.Deletion.Senlin
import Yggdrasil.Mongo.ShardOrder
import Yggdrasil.Mongo.Addresses
import Yggdrasil.Mongo.Quotas
import Yggdrasil.Mongo.CacheSize
import Yggdrasil.Mongo.Settings
import Yggdrasil.Mongo.Image
import Yggdrasil.Deletion.Attempts
import Yggdrasil.Deletion.Injection
import Yggdrasil.Inventory.Discovery
import Yggdrasil.Capsule.Removal
import Yggdrasil.Capsule.Label
import Yggdrasil.Capsule.Membership
import Yggdrasil.Capsule.CpuStats
import Yggdrasil.Telemetry.Pagination
import Yggdrasil.Patching.Migration
import Yggdrasil.DiskCleanup.Retention
import Yggdrasil.Network.Routes
import Yggdrasil.Kolla.Globals
import Yggdrasil.Containerd.Matches
import Yggdrasil.Containerd.Handler
import Yggdrasil.Containerd.Installation
import Yggdrasil.Handover
import Yggdrasil.Mongo.Agent
import Yggdrasil.Mongo.Agreement
