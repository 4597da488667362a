import Yggdrasil.Mongo.Shrinking

/-! The calls that the tasks make while they assemble a topology. -/

namespace Yggdrasil.Mongo

open Effect Effect.Process

/-- The calls of a task between its readiness check and its end, the change of an existing
replica set apart. -/
def Call.assembles : Call → Bool
  | .loadInstance _ => true
  | .visibleAddresses _ => true
  | .clock => true
  | .sleep _ => true
  | .getReplicaSetName _ => true
  | .rpc _ => true
  | .reply _ => true
  | .initializeReplicaSet .. => true
  | .replicaSetStatus _ => true
  | .addConfigServers .. => true
  | .addShard .. => true
  | .clusterComplete _ => true
  | _ => false

theorem Call.not_writes_of_assembles {c : Call} (h : c.assembles = true) : c.writes = false := by
  cases c <;> simp_all [assembles, writes]

section Respects

variable {S : Type} {W : World S Call Call.Answer Error} {R : S → Prop} (conf : MongoConf) (fuel : ℕ)

theorem respects_loadAll (l : List Instance) :
    Respects W R (fun c => c.assembles = true) (collect loadInstance l) :=
  respects_collect (f := loadInstance) fun i _ => respects_ask (c := .loadInstance i.id) rfl

theorem respects_waitLoop (guest : String) (addresses : List String) (deadline : ℤ) :
    Respects W R (fun c => c.assembles = true) (waitLoop guest addresses deadline fuel) := by
  induction fuel with
  | zero => trivial
  | succ fuel ih =>
    refine respects_bind (respects_ask rfl) fun now => ?_
    apply respects_ite
    · intro _
      apply respects_bind
      · exact respects_exceptException (respects_bind (respects_ask rfl) fun _ => trivial)
          fun _ => trivial
      · intro ready
        apply respects_ite
        · exact fun _ => trivial
        · exact fun _ => respects_bind (respects_ask rfl) fun _ => ih
    · exact fun _ => trivial

theorem respects_waitForReplicaMembers (guest : String) (addresses : List String) :
    Respects W R (fun c => c.assembles = true)
      (waitForReplicaMembers conf fuel guest addresses) :=
  respects_bind (respects_ask rfl) fun _ => respects_waitLoop fuel guest addresses _

theorem respects_address (i : Instance) :
    Respects W R (fun c => c.assembles = true) (address conf i) := by
  refine respects_bind (respects_ask rfl) fun addresses => ?_
  cases addresses <;> trivial

theorem respects_initializeReplicaSet (members : List Instance) :
    Respects W R (fun c => c.assembles = true) (initializeReplicaSet conf fuel members) := by
  cases members with
  | nil => trivial
  | cons first others =>
    apply respects_bind (respects_collect fun i _ => respects_address conf i)
    intro addresses
    refine respects_bind (respects_ask rfl) fun _ => ?_
    exact respects_bind (respects_waitForReplicaMembers conf fuel _ _) fun _ => trivial

theorem respects_configureQueryRouters (routers configServers : List Instance) :
    Respects W R (fun c => c.assembles = true)
      (configureQueryRouters conf routers configServers) := by
  apply respects_ite
  · exact fun _ => trivial
  · intro _
    apply respects_bind (respects_collect fun i _ => respects_address conf i)
    intro addresses
    apply respects_ite
    · exact fun _ => trivial
    · exact fun _ => respects_forEach fun router _ => respects_ask rfl

theorem respects_createShard (router : Instance) (members : List Instance) :
    Respects W R (fun c => c.assembles = true) (createShard conf fuel router members) := by
  apply respects_bind (respects_initializeReplicaSet conf fuel members)
  intro addresses
  split
  · refine respects_bind (respects_ask rfl) fun name => ?_
    cases orNone name with
    | none => trivial
    | some name =>
      refine respects_bind (respects_ask rfl) fun result => ?_
      exact respects_ite (fun _ => trivial) fun _ => trivial
  · trivial

theorem respects_createShardsOf (routers members : List Instance) :
    Respects W R (fun c => c.assembles = true) (createShardsOf conf fuel routers members) := by
  apply respects_forEach
  intro group _
  cases routers with
  | nil => trivial
  | cons router routers => exact respects_createShard conf fuel router group

theorem respects_complete (members : List Instance) :
    Respects W R (fun c => c.assembles = true) (complete members) :=
  respects_forEach fun _ _ => respects_ask rfl

theorem respects_growShards (existing news : List Instance) :
    Respects W R (fun c => c.assembles = true) (growShards conf fuel existing news) := by
  unfold growShards
  apply respects_bind
  · unfold configureNewRouters
    apply respects_ite
    · exact fun _ => trivial
    · exact fun _ => respects_configureQueryRouters conf _ _
  · intro _
    apply respects_ite
    · exact fun _ => trivial
    · intro _
      apply respects_ite
      · exact fun _ => trivial
      · exact fun _ => respects_createShardsOf conf fuel _ _

end Respects

end Yggdrasil.Mongo
