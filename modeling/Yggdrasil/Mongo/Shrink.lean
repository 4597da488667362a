import Yggdrasil.Mongo.Grow
import Yggdrasil.Mongo.Guest

/-! Shrinking a cluster. A sharded cluster gives up whole shards, each drained through a
router first, and routers; a replica set gives up members, removed from the set by its
primary first. Waiting loops carry fuel. -/

namespace Yggdrasil.Mongo

open Effect Python

/-! ### Draining a shard -/

/-- Equal to 1 for Python. -/
def isOne : Value → Bool
  | .int i => i == 1
  | .bool b => b
  | .float r => r == "1.0"
  | _ => false

/-- A reply whose `ok` is something other than 1. -/
def refused : Value → Bool
  | .dict m => !((Mapping.get m "ok").isNone || isOne (Mapping.get m "ok"))
  | _ => false

def isCompleted : Value → Bool
  | .dict m => match Mapping.get m "state" with
    | .str state => state == "completed"
    | _ => false
  | _ => false

def drain (router replicaSetName : String) (deadline : ℤ) : ℕ → Action Unit
  | 0 => .hang
  | fuel + 1 => do
    let now : ℤ ← ask .clock
    if now < deadline then do
      let result : Value ← ask (.removeShard router replicaSetName)
      if isCompleted result then pure ()
      else do
        ask (.sleep 2)
        drain router replicaSetName deadline fuel
    else fail ("MongoDB shard " ++ replicaSetName ++ " did not finish draining")

def removeShardFromRouter (conf : MongoConf) (fuel : ℕ) (router : Instance)
    (replicaSetName : String) : Action Unit := do
  let _ ← ask (.loadInstance router.id)
  let result : Value ← ask (.removeShard router.id replicaSetName)
  if refused result then
    fail ("MongoDB refused to remove shard " ++ replicaSetName ++ ": " ++ result.toStr)
  else if isCompleted result then pure ()
  else do
    let now : ℤ ← ask .clock
    drain router.id replicaSetName (now + conf.addMembersTimeout) fuel

def shardedReplicaSetName (member : Instance) : Action String := do
  let _ ← ask (.loadInstance member.id)
  let name : Option String ← ask (.getReplicaSetName member.id)
  match orNone name with
  | some name => pure name
  | none => fail ("MongoDB shard member " ++ member.id ++ " has no replica-set name")

/-! ### Sharded cluster -/

/-- A shard that is to go: its identifier and its members. -/
structure TargetShard where
  shardId : Option String
  first : Instance
  others : List Instance

def TargetShard.members (target : TargetShard) : List Instance := target.first :: target.others

/-- What an accepted request takes away, and the routers that stay. -/
structure ShrinkPlan where
  requested : List String
  targets : List TargetShard
  remainingRouters : List Instance

/-- The members among the requested instances, by shard. -/
def targetShards (members : List Instance) (requested : List String) : List TargetShard :=
  let targets := members.filter fun m => m.id ∈ requested
  (Dict.firsts id (targets.map Instance.shardId)).filterMap fun shard =>
    match targets.filter fun m => m.shardId = shard with
    | [] => none
    | first :: others => some ⟨shard, first, others⟩

def sameIds (a b : List Instance) : Bool :=
  (a.all fun i => i.id ∈ b.map Instance.id) && b.all fun i => i.id ∈ a.map Instance.id

def planShrinkSharded (instances : List Instance) (removalIds : List String) :
    Except Error ShrinkPlan :=
  let requested := Dict.firsts id removalIds
  let configServers := (instances.filter fun i => i.type = .configServer).map Instance.id
  let routers := instances.filter fun i => i.type = .queryRouter
  let requestedRouters := requested.filter fun id => id ∈ routers.map Instance.id
  let members := instances.filter fun i => i.type = .member
  let targets := targetShards members requested
  if requested = [] then .error (.rejected (.trove "No MongoDB nodes specified for shrink"))
  else match requested.filter fun id => id ∉ instances.map Instance.id with
    | missing :: _ => .error (.rejected (.notFound missing))
    | [] =>
      if (requested.filter fun id => id ∈ configServers) ≠ [] then
        .error (.rejected (.shrinkInstanceInUse (requested.filter fun id => id ∈ configServers)
          "MongoDB config servers cannot be removed"))
      else if routers.length < requestedRouters.length + minQueryRouters then
        .error (.rejected (.shrinkInstanceInUse requestedRouters
          "At least one MongoDB query router must remain"))
      else if members.all fun m => m.shardId ∈ targets.map TargetShard.shardId then
        .error (.rejected (.trove "A MongoDB sharded cluster must retain at least one shard"))
      else match targets.find? fun target =>
          !sameIds target.members (members.filter fun m => m.shardId = target.shardId) with
        | some target => .error (.rejected (.trove
            ("MongoDB sharded shrink removes complete shards only; shard " ++
              target.shardId.getD "None" ++ " still has members")))
        | none => .ok ⟨requested, targets, routers.filter fun r => r.id ∉ requestedRouters⟩

/-- Detach an instance from the cluster and delete it. -/
def removeInstance (id : String) : Action Unit := do
  let _ ← ask (.loadInstance id)
  ask (.detach id)
  ask (.delete id)

def drainTarget (conf : MongoConf) (fuel : ℕ) (routers : List Instance) (target : TargetShard) :
    Action Unit := do
  let name ← shardedReplicaSetName target.first
  match routers with
  | [] => fail "list index out of range"
  | router :: _ => removeShardFromRouter conf fuel router name

def shrinkSharded (fuel : ℕ) (self : MongoDbCluster) (removalIds : List String) : Action Unit := do
  validateClusterAvailable self
  let instances : List Instance ← ask (.findInstances self.id)
  let plan ← ofExcept (planShrinkSharded instances removalIds)
  ask (.updateDb self.id .shrinkingCluster)
  Process.ensure (do
      forEach plan.targets (drainTarget self.conf fuel plan.remainingRouters)
      forEach plan.requested removeInstance)
    (ask (.updateDb self.id .none))

/-! ### Replica set -/

def memberAddress (conf : MongoConf) (id : String) : Action String := do
  let addresses : List String ← ask (.visibleAddresses id)
  match addresses with
  | [] => fail ("MongoDB cluster member " ++ id ++ " has no visible address")
  | address :: _ => pure (address ++ ":" ++ toString conf.mongodbPort)

def planShrink (instances : List Instance) (removalIds : List String) :
    Except Error (List String) :=
  let requested := Dict.firsts id removalIds
  match requested.filter fun id => id ∉ instances.map Instance.id with
  | missing :: _ => .error (.rejected (.notFound missing))
  | [] =>
    if (Dict.firsts id (instances.map Instance.id)).length <
        requested.length + minReplicaSetMembers then
      .error (.rejected (.trove ("A MongoDB replica set must retain at least " ++
        toString minReplicaSetMembers ++ " members")))
    else .ok requested

/-- A result that says the primary stepped down instead. -/
def steppedDown : Value → Bool
  | .dict m => (Mapping.get m "stepped_down").truthy
  | _ => false

/-- Whether one of the candidates says that the members are removed. -/
def tryCandidates (addresses : List String) : List Instance → Action Bool
  | [] => pure false
  | candidate :: rest => do
    let removed ← exceptException (do
      let result ← rpc candidate.id (removeReplicaMembers candidate.id addresses)
      pure (!steppedDown result)) fun _ => pure false
    if removed then pure true else tryCandidates addresses rest

def removeMembers (addresses : List String) (candidates : List Instance) (deadline : ℤ) :
    ℕ → Action Unit
  | 0 => .hang
  | fuel + 1 => do
    let now : ℤ ← ask .clock
    if now < deadline then do
      let removed ← tryCandidates addresses candidates
      if removed then pure ()
      else do
        ask (.sleep 2)
        removeMembers addresses candidates deadline fuel
    else fail "Unable to find a MongoDB replica-set primary"

def loadInstance (i : Instance) : Action Instance := ask (.loadInstance i.id)

def shrinkReplicaSet (fuel : ℕ) (self : MongoDbCluster) (removalIds : List String) :
    Action Unit := do
  validateClusterAvailable self
  let instances : List Instance ← ask (.findInstances self.id)
  let requested ← ofExcept (planShrink instances removalIds)
  ask (.updateDb self.id .shrinkingCluster)
  Process.ensure (do
      let remaining ← collect loadInstance (instances.filter fun i => i.id ∉ requested)
      let removal ← collect loadInstance (instances.filter fun i => i.id ∈ requested)
      let addresses ← collect (fun i => memberAddress self.conf i.id) removal
      let now : ℤ ← ask .clock
      removeMembers addresses (remaining ++ removal) (now + self.conf.addMembersTimeout) fuel
      forEach removal fun i => ask (.detach i.id)
      forEach removal fun i => ask (.delete i.id))
    (ask (.updateDb self.id .none))

def shrink (fuel : ℕ) (self : MongoDbCluster) (removalIds : List String) : Action Unit := do
  let instances : List Instance ← ask (.findInstances self.id)
  if isSharded instances then shrinkSharded fuel self removalIds
  else shrinkReplicaSet fuel self removalIds

end Yggdrasil.Mongo
