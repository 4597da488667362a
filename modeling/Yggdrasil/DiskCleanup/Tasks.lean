import Yggdrasil.DiskCleanup.Actions

/-! The tasks of `free_disk_space.yml` and of the three files that it includes. -/

namespace Yggdrasil.DiskCleanup

open Effect Python

/-! ### `free_disk_space.yml` -/

/-- Load shared Kolla credentials for optional MariaDB cleanup. -/
def credentialTasks : List Action :=
  [{ name := "Check for the controller Kolla password file"
     tags := []
     module := .stat
     register := some .controllerPasswordFile
     when := [.holds .mariadbBinlogCleanup] },
   { name := "Read the controller Kolla password file without logging its contents"
     tags := []
     module := .slurp
     register := some .controllerPasswordFileContents
     when := [.holds .mariadbBinlogCleanup, .present .controllerPasswordFile] },
   { name := "Keep the shared Kolla passwords available to node tasks"
     tags := []
     module := .setFact [(.kollaPasswords, .sharedPassword .controllerPasswordFileContents)]
     when := [.holds .mariadbBinlogCleanup, .hasContent .controllerPasswordFileContents] }]

def validateGuard : Action :=
  { name := "Validate the inventory and destructive-operation guard"
    tags := []
    module := .assert [.nodesExist, .implies .apply .confirm, .implies .aggressive .apply,
      .atLeast .opensearchSoftRetentionDays 0,
      .notBelow .opensearchHardRetentionDays .opensearchSoftRetentionDays,
      .atLeast .mariadbBinlogRetentionDays 1]
    runOnce := true }

def showStateTasks : List Action :=
  [{ name := "Show the filesystem state before cleanup"
     tags := []
     module := .command false
     register := some .before },
   { name := "Show the node cleanup plan"
     tags := []
     module := .debug }]

/-! ### `tasks/free_disk_space_mariadb_preflight.yml` -/

def listContainers : Action :=
  { name := "Check whether the MariaDB container is running"
    tags := ["mariadb"]
    module := .command false
    register := some .mariadbContainers }

def passwordFileTasks : List Action :=
  [{ name := "Check the local MariaDB password file"
     tags := ["mariadb"]
     module := .stat
     register := some .localMariadbPasswordFile },
   { name := "Read a node-local MariaDB password as a fallback"
     tags := ["mariadb"]
     module := .command false
     register := some .localMariadbPassword
     when := [.present .localMariadbPasswordFile] }]

def resolvePassword : Action :=
  { name := "Resolve the MariaDB password without exposing it in task output"
    tags := ["mariadb"]
    module := .setFact [(.mariadbPassword, .password)] }

def reportMissing : Action :=
  { name := "Report missing MariaDB preflight prerequisites in plan mode"
    tags := ["mariadb"]
    module := .debug
    when := [.prerequisitesMissing] }

def refuseCleanup : Action :=
  { name := "Refuse MariaDB cleanup when any node lacks its prerequisites"
    tags := ["mariadb"]
    module := .assert [.hasLine "mariadb" .mariadbContainers, .passwordKnown]
    when := [.holds .apply, .notCheckMode] }

def stateQueries : List Action :=
  [{ name := "Query MariaDB Galera and replica state"
     tags := ["mariadb"]
     module := .command false
     register := some .mariadbWsrep
     when := [.hasLine "mariadb" .mariadbContainers, .passwordKnown] },
   { name := "Query local MariaDB asynchronous replica state"
     tags := ["mariadb"]
     module := .command false
     register := some .mariadbReplica
     when := [.hasLine "mariadb" .mariadbContainers, .passwordKnown] }]

/-- The tasks before the assertion. -/
def preflightChecks : List Action :=
  listContainers :: passwordFileTasks ++ resolvePassword :: reportMissing :: refuseCleanup ::
    stateQueries

/-- The task has no tags. -/
def refusePurge : Action :=
  { name := "Refuse MariaDB purge unless every node is safe"
    tags := []
    module := .assert [.holds .mariadbReplicationConfirmed,
      .shows .mariadbWsrep "wsrep_ready" "ON", .showsClusterSize .mariadbWsrep,
      .shows .mariadbWsrep "wsrep_local_state_comment" "Synced", .noOutput .mariadbReplica]
    when := [.holds .apply, .notCheckMode] }

def markSafe : Action :=
  { name := "Mark this MariaDB node safe for the serial purge phase"
    tags := ["mariadb"]
    module := .setFact [(.mariadbSafe, .literal true)]
    when := [.holds .apply, .notCheckMode] }

def preflightTasks : List Entry := (preflightChecks ++ [refusePurge, markSafe]).map .task

/-! ### `tasks/free_disk_space_node.yml` -/

def hostLogTasks : List Action :=
  [{ name := "Record the node filesystem state"
     tags := ["node"]
     module := .command false
     register := some .nodeBefore },
   { name := "Rotate the systemd journal"
     tags := ["node", "logs"]
     module := .command true
     register := some .journalRotate
     when := [.holds .apply, .holds .journalVacuum] },
   { name := "Vacuum old systemd journal files by age"
     tags := ["node", "logs"]
     module := .command true
     when := [.holds .apply, .holds .journalVacuum] },
   { name := "Vacuum systemd journal files by size"
     tags := ["node", "logs"]
     module := .command true
     when := [.holds .apply, .holds .journalVacuum] },
   { name := "Clear the live kernel ring buffer used by dmesg"
     tags := ["node", "logs"]
     module := .command true
     register := some .kernelRing
     neverFails := true
     when := [.holds .apply, .holds .clearKernelRing] },
   { name := "List running Docker containers"
     tags := ["node", "docker"]
     module := .command false
     register := some .dockerNames },
   { name := "Rotate Kolla service logs from the cron container"
     tags := ["node", "logs"]
     module := .command true
     register := some .logrotate
     neverFails := true
     when := [.holds .apply, .holds .kollaLogrotate, .hasLine "cron" .dockerNames] },
   { name := "Warn when the Kolla cron container is unavailable"
     tags := ["node", "logs"]
     module := .debug
     when := [.holds .kollaLogrotate, .lacksLine "cron" .dockerNames] },
   { name := "Find rotated host logs within the host filesystem"
     tags := ["node", "logs"]
     module := .command false
     register := some .rotatedHostLogs
     when := [.holds .hostLogCleanup] },
   { name := "Show rotated host logs that would be removed"
     tags := ["node", "logs"]
     module := .debug
     when := [.holds .hostLogCleanup] },
   { name := "Remove rotated host logs"
     tags := ["node", "logs"]
     module := .command true
     when := [.holds .apply, .holds .hostLogCleanup] },
   { name := "Find current host logs that would be truncated"
     tags := ["node", "logs"]
     module := .command false
     register := some .currentHostLogs
     when := [.holds .truncateHostLogs] },
   { name := "Truncate current host logs"
     tags := ["node", "logs"]
     module := .command true
     when := [.holds .apply, .holds .truncateHostLogs] }]

def containerLogTasks : List Action :=
  [{ name := "Find rotated Docker JSON logs"
     tags := ["node", "docker", "logs"]
     module := .command false
     register := some .rotatedDockerLogs
     neverFails := true
     when := [.holds .dockerRotatedLogCleanup] },
   { name := "Remove rotated Docker JSON logs"
     tags := ["node", "docker", "logs"]
     module := .command true
     when := [.holds .apply, .holds .dockerRotatedLogCleanup] },
   { name := "Locate the Kolla logs volume"
     tags := ["node", "logs", "kolla"]
     module := .command false
     register := some .kollaLogsMountpoint
     neverFails := true
     when := [.either .kollaRotatedLogCleanup .kollaActiveLogCleanup] },
   { name := "Find rotated Kolla logs"
     tags := ["node", "logs", "kolla"]
     module := .find
     register := some .rotatedKollaLogs
     neverFails := true
     when := [.holds .kollaRotatedLogCleanup, .rcZero .kollaLogsMountpoint,
       .hasOutput .kollaLogsMountpoint] },
   { name := "Report rotated Kolla log count"
     tags := ["node", "logs", "kolla"]
     module := .debug
     when := [.holds .kollaRotatedLogCleanup] },
   { name := "Remove rotated Kolla logs"
     tags := ["node", "logs", "kolla"]
     module := .command true
     when := [.holds .apply, .holds .kollaRotatedLogCleanup, .rcZero .kollaLogsMountpoint,
       .hasOutput .kollaLogsMountpoint] },
   { name := "Find current Kolla logs"
     tags := ["node", "logs", "kolla"]
     module := .find
     register := some .currentKollaLogs
     neverFails := true
     when := [.holds .kollaActiveLogCleanup, .rcZero .kollaLogsMountpoint,
       .hasOutput .kollaLogsMountpoint] },
   { name := "Report current Kolla log count"
     tags := ["node", "logs", "kolla"]
     module := .debug
     when := [.holds .kollaActiveLogCleanup] },
   { name := "Truncate current Kolla logs"
     tags := ["node", "logs", "kolla"]
     module := .command true
     when := [.holds .apply, .holds .kollaActiveLogCleanup, .rcZero .kollaLogsMountpoint,
       .hasOutput .kollaLogsMountpoint] },
   { name := "Find active Docker JSON logs for aggressive cleanup"
     tags := ["node", "docker", "logs"]
     module := .command false
     register := some .activeDockerLogs
     neverFails := true
     when := [.either .dockerActiveLogCleanup .aggressive] },
   { name := "Truncate active Docker JSON logs"
     tags := ["node", "docker", "logs"]
     module := .command true
     when := [.holds .apply, .either .dockerActiveLogCleanup .aggressive] }]

def dockerPruneTasks : List Action :=
  [{ name := "Prune dangling Docker images"
     tags := ["node", "docker"]
     module := .command true
     when := [.holds .apply, .holds .dockerImagePrune, .fails .aggressive] },
   { name := "Prune all unused Docker images in aggressive mode"
     tags := ["node", "docker"]
     module := .command true
     when := [.holds .apply, .holds .dockerImagePrune, .holds .aggressive] },
   { name := "Prune Docker builder cache"
     tags := ["node", "docker"]
     module := .command true
     when := [.holds .apply, .holds .dockerBuilderPrune] },
   { name := "Prune anonymous Docker volumes"
     tags := ["node", "docker"]
     module := .command true
     when := [.holds .apply, .either .dockerVolumePrune .aggressive, .fails .aggressive] },
   { name := "Prune all unused Docker volumes in aggressive mode"
     tags := ["node", "docker"]
     module := .command true
     when := [.holds .apply, .either .dockerVolumePrune .aggressive, .holds .aggressive] }]

def packageTasks : List Action :=
  [{ name := "Clean the apt package cache"
     tags := ["node", "packages"]
     module := .command true
     when := [.holds .apply, .holds .packageCacheCleanup] },
   { name := "Check whether npm is installed"
     tags := ["node", "packages"]
     module := .command false
     register := some .npm
     neverFails := true
     when := [.holds .packageCacheCleanup] },
   { name := "Clean the npm cache"
     tags := ["node", "packages"]
     module := .command true
     when := [.holds .apply, .holds .packageCacheCleanup, .rcZero .npm] },
   { name := "Check whether pip is installed"
     tags := ["node", "packages"]
     module := .command false
     register := some .pip
     neverFails := true
     when := [.holds .packageCacheCleanup] },
   { name := "Clean the pip cache"
     tags := ["node", "packages"]
     module := .command true
     when := [.holds .apply, .holds .packageCacheCleanup, .rcZero .pip] },
   { name := "Find Cypress cache contents"
     tags := ["node", "packages"]
     module := .find
     register := some .cypressCache
     neverFails := true
     when := [.holds .packageCacheCleanup] },
   { name := "Remove Cypress cache contents"
     tags := ["node", "packages"]
     module := .file
     when := [.holds .apply, .holds .packageCacheCleanup, .hasFiles .cypressCache] },
   { name := "Find disposable Kata static archives"
     tags := ["node", "packages"]
     module := .find
     register := some .kataArchives
     neverFails := true
     when := [.holds .packageCacheCleanup] },
   { name := "Remove disposable Kata static archives"
     tags := ["node", "packages"]
     module := .file
     loop := some (.files .kataArchives)
     when := [.holds .apply, .holds .packageCacheCleanup] }]

def findArtifacts : Action :=
  { name := "Find explicitly requested FreeBSD build artifacts"
    tags := ["node"]
    module := .find
    register := some .freebsdArtifacts
    neverFails := true
    when := [.holds .removeFreebsdArtifacts] }

def removeArtifacts : Action :=
  { name := "Remove explicitly requested FreeBSD build artifacts"
    tags := ["node"]
    module := .file
    loop := some (.files .freebsdArtifacts)
    when := [.holds .apply, .holds .removeFreebsdArtifacts] }

def cephTasks : List Action :=
  [{ name := "Find Ceph loop-backed image candidates without deleting them"
     tags := ["node", "ceph"]
     module := .find
     register := some .cephImages
     neverFails := true },
   { name := "Check whether Ceph image candidates are attached to a loop device"
     tags := ["node", "ceph"]
     module := .command false
     register := some .cephLoopDevices
     neverFails := true
     loop := some (.files .cephImages) },
   { name := "Report Ceph image protection results"
     tags := ["node", "ceph"]
     module := .debug
     loop := some (.results .cephLoopDevices) }]

def binlogTasks : List Action :=
  [{ name := "Calculate the MariaDB binlog purge cutoff"
     tags := ["node", "mariadb"]
     module := .command false
     register := some .mariadbPurgeBefore
     when := [.holds .apply, .holds .mariadbBinlogCleanup, .mariadbSafe] },
   { name := "Set MariaDB binlog expiry"
     tags := ["node", "mariadb"]
     module := .command true
     when := [.holds .apply, .holds .mariadbBinlogCleanup, .mariadbSafe] }]

def purgeLogs : Action :=
  { name := "Purge old MariaDB binary logs"
    tags := ["node", "mariadb"]
    module := .command true
    when := [.holds .apply, .holds .mariadbBinlogCleanup, .mariadbSafe] }

def fluentdTasks : List Action :=
  [{ name := "Inspect the local Fluentd volume when retry discard is enabled"
     tags := ["node", "fluentd"]
     module := .command false
     register := some .fluentdMountpoint
     neverFails := true
     when := [.holds .discardFluentdRetry] },
   { name := "Find Fluentd retry records"
     tags := ["node", "fluentd"]
     module := .find
     register := some .fluentdRetryFiles
     neverFails := true
     when := [.holds .discardFluentdRetry, .rcZero .fluentdMountpoint] },
   { name := "Check that the Fluentd retry buffer exists before mutation"
     tags := ["node", "fluentd"]
     module := .stat
     register := some .fluentdBuffer
     when := [.holds .apply, .holds .discardFluentdRetry, .rcZero .fluentdMountpoint] },
   { name := "Refuse Fluentd retry discard when its buffer is unavailable"
     tags := ["node", "fluentd"]
     module := .assert [.rcZero .fluentdMountpoint, .printed .fluentdMountpoint,
       .directory .fluentdBuffer]
     when := [.holds .apply, .holds .discardFluentdRetry, .notCheckMode] }]

def discardRetries : Entry :=
  .block ["node", "fluentd"] [.holds .apply, .holds .discardFluentdRetry]
    [{ name := "Stop Fluentd before discarding retry records"
       tags := []
       module := .command true
       register := some .fluentdStop
       when := [.hasLine "fluentd" .dockerNames] },
     { name := "Discard queued Fluentd retry records"
       tags := []
       module := .file
       loop := some (.files .fluentdRetryFiles) }]
    [{ name := "Restart Fluentd if this node had it running"
       tags := []
       module := .command true
       when := [.defined .fluentdStop, .rcZero .fluentdStop] }]

def reportTasks : List Action :=
  [{ name := "Show the filesystem state after node cleanup"
     tags := ["node"]
     module := .command false
     register := some .nodeAfter },
   { name := "Show Docker disk state after node cleanup"
     tags := ["node", "docker"]
     module := .command false
     register := some .dockerAfter
     neverFails := true },
   { name := "Report node cleanup result"
     tags := ["node"]
     module := .debug }]

def nodeTasks : List Entry :=
  (hostLogTasks ++ containerLogTasks ++ dockerPruneTasks ++ packageTasks ++ [findArtifacts] ++
    [removeArtifacts] ++ cephTasks ++ binlogTasks ++ [purgeLogs] ++ fluentdTasks).map .task ++
    discardRetries :: reportTasks.map .task

/-! ### `tasks/free_disk_space_cluster.yml` -/

def checkHealth : Action :=
  { name := "Check OpenSearch cluster health"
    tags := ["cluster", "opensearch"]
    module := .uri "GET"
    register := some .opensearchHealth
    neverFails := true
    when := [.holds .opensearchCleanup] }

def reportUnavailable : Action :=
  { name := "Report unavailable OpenSearch without failing node cleanup"
    tags := ["cluster", "opensearch"]
    module := .debug
    when := [.holds .opensearchCleanup, .statusNotOk .opensearchHealth] }

def clearBlocks : Action :=
  { name := "Clear read-only blocks only from flog indices"
    tags := ["cluster", "opensearch"]
    module := .uri "PUT"
    when := [.holds .apply, .holds .opensearchCleanup, .statusOk .opensearchHealth] }

def indexTasks : List Action :=
  [{ name := "List dated flog indices"
     tags := ["cluster", "opensearch"]
     module := .uri "GET"
     register := some .opensearchIndexList
     when := [.holds .opensearchCleanup, .statusOk .opensearchHealth] },
   { name := "Select only date-named flog indices"
     tags := ["cluster", "opensearch"]
     module := .setFact [(.opensearchIndices, .datedIndices .opensearchIndexList)]
     when := [.holds .opensearchCleanup, .statusOk .opensearchHealth] },
   { name := "List open dated flog indices for the close phase"
     tags := ["cluster", "opensearch"]
     module := .uri "GET"
     register := some .opensearchOpenIndexList
     when := [.holds .opensearchCleanup, .statusOk .opensearchHealth] },
   { name := "Select open date-named flog indices"
     tags := ["cluster", "opensearch"]
     module := .setFact [(.opensearchOpenIndices, .datedIndices .opensearchOpenIndexList)]
     when := [.holds .opensearchCleanup, .statusOk .opensearchHealth] },
   { name := "Calculate OpenSearch retention cutoffs"
     tags := ["cluster", "opensearch"]
     module := .command false
     register := some .opensearchCutoffs
     loop := some .retention
     when := [.holds .opensearchCleanup, .statusOk .opensearchHealth] },
   { name := "Save OpenSearch retention cutoffs"
     tags := ["cluster", "opensearch"]
     module := .setFact [(.opensearchSoftCutoff, .cutoff "soft"),
       (.opensearchHardCutoff, .cutoff "hard")]
     when := [.holds .opensearchCleanup, .statusOk .opensearchHealth] },
   { name := "Calculate the date of every flog index"
     tags := ["cluster", "opensearch"]
     module := .command false
     register := some .opensearchIndexEpochs
     loop := some .indices
     when := [.holds .opensearchCleanup, .statusOk .opensearchHealth] },
   { name := "Delete flog indices past the hard retention cutoff"
     tags := ["cluster", "opensearch"]
     module := .uri "DELETE"
     loop := some (.results .opensearchIndexEpochs)
     when := [.holds .apply, .holds .opensearchCleanup, .statusOk .opensearchHealth, .itemOk,
       .itemBefore .opensearchHardCutoff] },
   { name := "Close flog indices past the soft retention cutoff"
     tags := ["cluster", "opensearch"]
     module := .uri "POST"
     loop := some (.results .opensearchIndexEpochs)
     when := [.holds .apply, .holds .opensearchCleanup, .statusOk .opensearchHealth, .itemOk,
       .itemNotBefore .opensearchHardCutoff, .itemBefore .opensearchSoftCutoff, .itemOpen] },
   { name := "Flush flog indices after cleanup"
     tags := ["cluster", "opensearch"]
     module := .uri "POST"
     when := [.holds .apply, .holds .opensearchCleanup, .statusOk .opensearchHealth] },
   { name := "Report cluster cleanup scope"
     tags := ["cluster", "opensearch"]
     module := .debug
     when := [.holds .opensearchCleanup] }]

def clusterTasks : List Entry :=
  (checkHealth :: reportUnavailable :: clearBlocks :: indexTasks).map .task

/-! ### The playbook -/

/-- Another file whose tasks a play includes. -/
structure Include where
  tags : List String
  applied : List String
  when : List Cond
  runOnce : Bool
  file : List Entry

inductive Part where
  | task (a : Action)
  | includeTasks (i : Include)

inductive Group where
  | deploymentController | deploymentNodes

structure Play where
  hosts : Group
  serial : Bool
  parts : List Part

def preflightInclude : Include :=
  ⟨["mariadb"], [], [.holds .mariadbBinlogCleanup], false, preflightTasks⟩

def nodeInclude : Include := ⟨["node"], ["node"], [], false, nodeTasks⟩

def clusterInclude : Include := ⟨["cluster"], ["cluster"], [], true, clusterTasks⟩

def credentialPlay : Play := ⟨.deploymentController, false, credentialTasks.map .task⟩

def validationPlay : Play :=
  ⟨.deploymentNodes, false,
    .task validateGuard :: showStateTasks.map .task ++ [.includeTasks preflightInclude]⟩

def nodePlay : Play := ⟨.deploymentNodes, true, [.includeTasks nodeInclude]⟩

def clusterPlay : Play := ⟨.deploymentNodes, false, [.includeTasks clusterInclude]⟩

def playbook : List Play := [credentialPlay, validationPlay, nodePlay, clusterPlay]

/-! ### What runs -/

section Runs

variable (env : Env) (world : World)

def Part.part : Part → Playbook.Part String Event
  | task a => .entry (.task (a.task env world))
  | includeTasks i => .includeTasks i.tags i.runOnce (includeHolds env i.when)
      (i.file.map (Entry.entry env world i.applied))

def Group.members : Group → List String
  | deploymentController => env.deploymentController
  | deploymentNodes => env.deploymentNodes

def Play.play (p : Play) : Playbook.Play String Event :=
  ⟨p.hosts.members env, p.serial, p.parts.map (Part.part env world)⟩

/-- A run of `ansible-playbook free_disk_space.yml` with some tags. -/
def run (sel : Playbook.TagSelection) : Program Event Unit Unit :=
  Playbook.runPlays sel (playbook.map (Play.play env world))

end Runs

/-- The tasks of a part, with what they have from blocks and from the include. -/
def Part.actions : Part → List Action
  | task a => [a]
  | includeTasks i => i.file.flatMap (Entry.actions i.applied)

def Play.actions (p : Play) : List Action := p.parts.flatMap Part.actions

end Yggdrasil.DiskCleanup
