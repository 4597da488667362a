import Yggdrasil.Mongo.Container
import Yggdrasil.Python.Encoding
import Yggdrasil.Python.Truncation

/-! The guest agent of one instance over its life. It keeps the cluster configuration in memory and
in a file, describes the container by it, and reads the file again whenever it is started itself. -/

namespace Yggdrasil.Mongo

open Python Python.Json

/-! ### The agent -/

section Life

def InstanceType.name : InstanceType → String
  | .member => "member"
  | .configServer => "config_server"
  | .queryRouter => "query_router"

/-- The cluster configuration as the guest receives it. -/
def ClusterConfig.fields (c : ClusterConfig) : List (String × Value) :=
  [("id", .str c.id), ("topology", .str c.topology), ("instance_type", .str c.instanceType.name)] ++
    (c.shardId.toList.map fun s => ("shard_id", .str s)) ++
    (c.replicaSetName.toList.map fun s => ("replica_set_name", .str s)) ++
    (c.configServerReplicaSetName.toList.map fun s => ("config_server_replica_set_name", .str s))

/-- The command of a container and its volumes. -/
structure Container where
  command : List Value
  volumes : List (String × Mount)

structure Agent where
  clusterConfig : Option Mapping
  /-- The text of the cluster file. -/
  file : Option (List Char)
  container : Option Container

/-- How writing the file ends: with the new text, with an exception and the file as it was, or with
an exception after so many characters. -/
inductive FileWrite where
  | done
  | kept
  | torn (length : ℕ)

/-- How starting the container ends: there is a new one, the old one is left, or there is none. -/
inductive Started where
  | created
  | existing
  | failed

variable (eval : String → String) (port : ℕ) (dataDir : String)

/-- The file holds what the agent wrote, a mapping, as far as it can be read. -/
def readClusterConfig (file : Option (List Char)) : Option Mapping :=
  match file.bind (readValue eval) with
  | some (.dict config) => some config
  | _ => none

def clusterConfigText (config : Mapping) : Option (List Char) :=
  (ofValue (.dict config)).map (Json.dumps ⟨some 2, 0, 1⟩)

/-- The configuration is written; the flag says whether this went without an exception. -/
def writeClusterConfig (config : Mapping) (r : FileWrite) (g : Agent) : Agent × Bool :=
  match clusterConfigText config, r with
  | some text, .done => ({ g with file := some text }, true)
  | some text, .torn length => ({ g with file := some (text.take length) }, false)
  | _, _ => (g, false)

def configureCluster (config : Mapping) (r : FileWrite) (g : Agent) : Agent × Bool :=
  if config = [] then
    -- A file that cannot be removed is left there.
    ({ g with clusterConfig := none, file := if r matches .done then none else g.file }, true)
  else writeClusterConfig config r { g with clusterConfig := some config }

/-- The container that the configuration describes. -/
def describe (config : Option Mapping) : Option Container :=
  match MongoDbApp.containerCommand config port, MongoDbApp.containerVolumes config dataDir with
  | .ok (command, _), .ok volumes => some ⟨command, volumes⟩
  | _, _ => none

def startDb (s : Started) (g : Agent) : Agent :=
  match s with
  | .created => { g with container := describe port dataDir g.clusterConfig }
  | .existing => g
  | .failed => { g with container := none }

/-- `do_prepare`, from the cluster configuration on. -/
def doPrepare (config : Mapping) (r : FileWrite) (s : Started) (g : Agent) : Agent :=
  match configureCluster config r g with
  | (g, true) => startDb port dataDir s g
  | (g, false) => g

def addConfigServers (hosts : List String) (r : FileWrite) (s : Started) (g : Agent) : Agent :=
  match g.clusterConfig with
  | none => g
  | some config =>
    if isText "query_router" (MongoDbApp.instanceType (some config)) = false ∨ hosts = [] then g
    else
      let config := Dict.set config (.str "config_servers") (.list (hosts.map .str))
      match writeClusterConfig config r { g with clusterConfig := some config } with
      | (g, true) => startDb port dataDir s g
      | (g, false) => g

/-- The agent is started anew; the file can be opened or not. -/
def restartAgent (opened : Bool) (g : Agent) : Agent :=
  { g with clusterConfig := if opened then readClusterConfig eval g.file else none }

inductive Op where
  | prepare (c : ClusterConfig) (r : FileWrite) (s : Started)
  | addConfigServers (hosts : List String) (r : FileWrite) (s : Started)
  | restart (opened : Bool)

def Op.step (op : Op) (g : Agent) : Agent :=
  match op with
  | .prepare c r s => doPrepare port dataDir (c.fields.map fun p => (.str p.1, p.2)) r s g
  | .addConfigServers hosts r s => Mongo.addConfigServers port dataDir hosts r s g
  | .restart opened => restartAgent eval opened g

/-- The agent of a new guest after these operations. -/
def life (ops : List Op) : Agent :=
  ops.foldl (fun g op => op.step eval port dataDir g) ⟨none, none, none⟩

end Life

/-! ### What the instance is for -/

section Purpose

/-- What a data server is told about its replica set and its role. -/
def ClusterConfig.serverOptions (c : ClusterConfig) : List String :=
  let replSet := (orNone c.replicaSetName).toList.flatMap fun name => ["--replSet", name]
  match c.instanceType with
  | .member => replSet ++ if c.topology = "sharded" then ["--shardsvr"] else []
  | .configServer => replSet ++ ["--configsvr"]
  | .queryRouter => []

/-- The container of an instance of this role, which knows these config servers. -/
def ClusterConfig.container (c : ClusterConfig) (hosts : List String) (port : ℕ)
    (dataDir : String) : Container :=
  if c.instanceType = .queryRouter ∧ hosts ≠ [] then
    ⟨["mongos", "--configdb", c.configServerReplicaSetName.getD "configRS" ++ "/" ++
        ",".intercalate hosts, "--bind_ip_all", "--port", toString port].map .str, []⟩
  else
    ⟨(["mongod", "--config", "/etc/mongod.conf", "--dbpath", mongodbDataDir, "--bind_ip_all",
        "--port", toString port] ++ c.serverOptions).map .str,
      Dict.update [] [(dataDir, ⟨mongodbDataDir, "rw"⟩),
        (mongodbConfigFile, ⟨"/etc/mongod.conf", "ro"⟩)]⟩

/-- Config servers that the instance may know after these operations. -/
def GivenHosts (c : ClusterConfig) (ops : List Op) (hosts : List String) : Prop :=
  hosts = [] ∨ c.instanceType = .queryRouter ∧ ∃ r s, Op.addConfigServers hosts r s ∈ ops

/-- The config servers that the instance knows after an operation that went well. -/
def nextHosts (c : ClusterConfig) (hosts : List String) : Op → List String
  | .prepare .. => []
  | .addConfigServers new .. => if c.instanceType = .queryRouter ∧ new ≠ [] then new else hosts
  | .restart _ => hosts

/-- The config servers that the instance got last. -/
def lastHosts (c : ClusterConfig) (ops : List Op) : List String := ops.foldl (nextHosts c) []

def Op.Succeeds : Op → Prop
  | .prepare _ r s => r = .done ∧ s = .created
  | .addConfigServers _ r s => r = .done ∧ s = .created
  | .restart opened => opened = true

end Purpose

/-! ### What the agent knows -/

section Knowledge

variable {eval : String → String} {port : ℕ} {dataDir : String} {c : ClusterConfig}
  {hosts : List String}

/-- The members of a configuration with these config servers. -/
def ClusterConfig.members (c : ClusterConfig) (hosts : List String) : List (String × Value) :=
  c.fields ++ if hosts = [] then [] else [("config_servers", .list (hosts.map .str))]

/-- The mapping has the members of the configuration with these config servers, in any order. -/
def Knows (c : ClusterConfig) (hosts : List String) (config : Mapping) : Prop :=
  ∃ items : List (String × Value), config = items.map (fun p => (.str p.1, p.2)) ∧
    (items.map Prod.fst).Nodup ∧ (∀ p ∈ items, Json.Plain p.2) ∧
    ∀ name, Dict.get? items name = Dict.get? (c.members hosts) name

theorem knows_fields (c : ClusterConfig) :
    Knows c [] (c.fields.map fun p => (.str p.1, p.2)) := by
  refine ⟨c.fields, rfl, ?_, ?_, fun name => by rw [ClusterConfig.members]; simp⟩
  · obtain ⟨_, _, _, _ | _, _ | _, _ | _⟩ := c <;> simp [ClusterConfig.fields]
  · intro p hp
    simp only [ClusterConfig.fields, List.mem_append, List.mem_cons, List.not_mem_nil, or_false,
      List.mem_map] at hp
    rcases hp with (((rfl | rfl | rfl) | ⟨_, _, rfl⟩) | ⟨_, _, rfl⟩) | ⟨_, _, rfl⟩ <;>
      exact .str _

theorem get?_record (items : List (String × Value)) (name : String) :
    Dict.get? (items.map fun p => (Key.str p.1, p.2)) (.str name) = Dict.get? items name := by
  induction items with
  | nil => rfl
  | cons p items ih => simp [Dict.get?, ih]

theorem set_record (items : List (String × Value)) (name : String) (v : Value) :
    Dict.set (items.map fun p => (Key.str p.1, p.2)) (.str name) v =
      (Dict.set items name v).map fun p => (Key.str p.1, p.2) := by
  induction items with
  | nil => rfl
  | cons p items ih =>
    by_cases hp : p.1 = name
    · simp [Dict.set, hp]
    · simp [Dict.set, hp, ih]

theorem get?_fields_hosts (c : ClusterConfig) : Dict.get? c.fields "config_servers" = none := by
  obtain ⟨_, _, _, _ | _, _ | _, _ | _⟩ := c <;> simp [ClusterConfig.fields, Dict.get?]

theorem get?_members (hne : hosts ≠ []) (name : String) :
    Dict.get? (c.members hosts) name = if name = "config_servers" then
      some (.list (hosts.map .str)) else Dict.get? c.fields name := by
  rw [ClusterConfig.members, if_neg hne, Dict.get?_append]
  by_cases hname : name = "config_servers"
  · rw [if_pos hname, hname, get?_fields_hosts]
    rfl
  · have hother : Dict.get? [("config_servers", Value.list (hosts.map .str))] name = none :=
      if_neg (Ne.symm hname)
    rw [if_neg hname, hother, Option.or_none]

theorem Knows.set {config : Mapping} (h : Knows c hosts config) {new : List String}
    (hne : new ≠ []) :
    Knows c new (Dict.set config (.str "config_servers") (.list (new.map .str))) := by
  obtain ⟨items, rfl, hnd, hplain, hget⟩ := h
  refine ⟨Dict.set items "config_servers" (.list (new.map .str)), set_record _ _ _,
    Dict.nodup_set hnd _ _, ?_, ?_⟩
  · intro p hp
    rcases Dict.mem_set hp with rfl | hp
    · exact .list new
    · exact hplain p hp
  · intro name
    by_cases hname : name = "config_servers"
    · rw [get?_members hne, if_pos hname, hname, Dict.get?_set_self]
    · rw [get?_members hne, if_neg hname, Dict.get?_set_of_ne hname, hget]
      by_cases hhosts : hosts = []
      · rw [hhosts, ClusterConfig.members, if_pos rfl, List.append_nil]
      · rw [get?_members hhosts, if_neg hname]

/-- A configuration that is written has a text; the text is read as the same members. -/
theorem Knows.exists_text {config : Mapping} (h : Knows c hosts config) (eval : String → String) :
    ∃ text, clusterConfigText config = some text ∧
      (∃ config', readClusterConfig eval (some text) = some config' ∧ Knows c hosts config') ∧
      ∀ length, ∀ config', readClusterConfig eval (some (text.take length)) = some config' →
        Knows c hosts config' := by
  obtain ⟨items, rfl, hnd, hplain, hget⟩ := h
  obtain ⟨j, items', hj, hperm, hvalue⟩ := exists_read_record hnd hplain eval
  have hread : readClusterConfig eval (some (Json.dumps ⟨some 2, 0, 1⟩ j)) =
      some (items'.map fun p => (.str p.1, p.2)) := by
    have hloads : readValue eval (Json.dumps ⟨some 2, 0, 1⟩ j ++ []) = some (toValue eval j) :=
      hj.read _ (by simp)
    rw [List.append_nil, hvalue] at hloads
    simp [readClusterConfig, hloads, Value.record]
  have hknows : Knows c hosts (items'.map fun p => (.str p.1, p.2)) := by
    have hnd' : (items'.map Prod.fst).Nodup := (hperm.map Prod.fst).nodup_iff.2 hnd
    refine ⟨items', rfl, hnd', fun p hp => hplain p (hperm.mem_iff.1 hp), fun name => ?_⟩
    rw [Dict.get?_perm hperm hnd', hget]
  refine ⟨Json.dumps ⟨some 2, 0, 1⟩ j, ?_, ⟨_, hread, hknows⟩, ?_⟩
  · have htree := hj.tree
    rw [Value.record] at htree
    rw [clusterConfigText, htree]
    rfl
  · intro length config' hconfig
    obtain ⟨es, rfl⟩ : ∃ es, j = .object es := by
      have htree := hj.tree
      rw [Value.record, ofValue, Option.map_eq_some_iff] at htree
      obtain ⟨es, -, hes⟩ := htree
      exact ⟨_, hes.symm⟩
    by_cases hcut : List.drop length (Json.dumps ⟨some 2, 0, 1⟩ (.object es)) = []
    · rw [List.take_of_length_le (List.drop_eq_nil_iff.1 hcut), hread] at hconfig
      rw [← Option.some.inj hconfig]
      exact hknows
    · have hnone : loads ((Json.dumps ⟨some 2, 0, 1⟩ (.object es)).take length) = none :=
        loads_of_prefix hj.wellformed (List.take_append_drop _ _) hcut
      simp [readClusterConfig, readValue, hnone] at hconfig

/-! ### What the agent starts -/

theorem Knows.property {config : Mapping} (h : Knows c hosts config) (name : String)
    (default : Value) : property (some config) name default =
      (Dict.get? (c.members hosts) name).getD default := by
  obtain ⟨items, rfl, -, -, hget⟩ := h
  rw [Mongo.property, Option.getD_some, get?_record, hget]

theorem get?_members_other {name : String} (h : name ≠ "config_servers") :
    Dict.get? (c.members hosts) name = Dict.get? c.fields name := by
  by_cases hhosts : hosts = []
  · rw [hhosts, ClusterConfig.members, if_pos rfl, List.append_nil]
  · rw [get?_members hhosts, if_neg h]

/-- What the container is described by. -/
structure Properties (c : ClusterConfig) (hosts : List String) (config : Option Mapping) :
    Prop where
  instanceType : MongoDbApp.instanceType config = .str c.instanceType.name
  configServers : MongoDbApp.configServerHosts config = .ok hosts
  configServerReplicaSet : MongoDbApp.configServerReplicaSet config =
    .str (c.configServerReplicaSetName.getD "configRS")
  replicaSetName : Mongo.property config "replica_set_name" .none =
    (c.replicaSetName.map .str).getD .none
  topology : Mongo.property config "topology" .none = .str c.topology
  key : Mongo.property config "key" .none = .none

theorem Knows.properties {config : Mapping} (h : Knows c hosts config) :
    Properties c hosts (some config) := by
  have hother {name : String} (hname : name ≠ "config_servers") (default : Value) :
      Mongo.property (some config) name default = (Dict.get? c.fields name).getD default := by
    rw [h.property, get?_members_other hname]
  have hhosts : Mongo.property (some config) "config_servers" (.list []) =
      .list (hosts.map .str) := by
    rw [h.property]
    by_cases hne : hosts = []
    · rw [hne, ClusterConfig.members, if_pos rfl, List.append_nil, get?_fields_hosts]
      rfl
    · rw [get?_members hne, if_pos rfl]
      rfl
  constructor
  case instanceType =>
    rw [MongoDbApp.instanceType, hother (by decide)]
    rfl
  case configServers =>
    rw [MongoDbApp.configServerHosts, hhosts]
    simp [iterate, Except.map, Function.comp_def, Value.toStr]
  case topology =>
    rw [hother (by decide)]
    rfl
  all_goals
    try rw [MongoDbApp.configServerReplicaSet]
    rw [hother (by decide)]
    obtain ⟨_, _, _, _ | _, _ | _, _ | _⟩ := c <;> simp [ClusterConfig.fields, Dict.get?]

/-- The options of a replica set, which only a data server gets. -/
theorem Properties.replSetOptions {config : Option Mapping} (h : Properties c hosts config) :
    MongoDbApp.replSetOptions config = if c.instanceType = .queryRouter then [] else
      ((orNone c.replicaSetName).toList.flatMap fun name => ["--replSet", name]).map .str := by
  have hrole : (isText "member" (.str c.instanceType.name) ||
      isText "config_server" (.str c.instanceType.name)) =
        !decide (c.instanceType = .queryRouter) := by
    cases c.instanceType <;> rfl
  unfold MongoDbApp.replSetOptions
  dsimp only
  rw [h.replicaSetName, h.instanceType, hrole]
  by_cases hr : c.instanceType = .queryRouter
  · simp [hr]
  · rcases c.replicaSetName with _ | name
    · simp [hr, orNone, Value.truthy]
    · by_cases hname : name = "" <;> simp [hr, hname, orNone, Value.truthy, Option.filter]

theorem Properties.serverOptions {config : Option Mapping} (h : Properties c hosts config) :
    MongoDbApp.replSetOptions config ++ MongoDbApp.roleOptions config =
      c.serverOptions.map .str := by
  rw [h.replSetOptions, MongoDbApp.roleOptions, h.instanceType, h.topology,
    ClusterConfig.serverOptions]
  cases c.instanceType with
  | member =>
    by_cases ht : c.topology = "sharded" <;> simp [InstanceType.name, isText, ht]
  | configServer => simp [InstanceType.name, isText]
  | queryRouter => simp [InstanceType.name, isText]

/-- The container of the role is what a configuration with these config servers describes. -/
theorem Properties.describe {config : Option Mapping} (h : Properties c hosts config) :
    describe port dataDir config = some (c.container hosts port dataDir) := by
  have hmongos : MongoDbApp.isMongos config =
      .ok (decide (c.instanceType = .queryRouter ∧ hosts ≠ [])) := by
    rw [MongoDbApp.isMongos, h.instanceType, h.configServers]
    cases c.instanceType <;> cases hosts <;> rfl
  simp only [Mongo.describe, MongoDbApp.containerCommand, MongoDbApp.containerVolumes, hmongos,
    h.key, h.configServers, h.configServerReplicaSet]
  by_cases hr : c.instanceType = .queryRouter ∧ hosts ≠ []
  · simp [ClusterConfig.container, hr, bind, Except.bind, pure, Except.pure, Value.truthy,
      Value.toStr]
  · have hoptions := h.serverOptions
    simp [ClusterConfig.container, hr, bind, Except.bind, pure, Except.pure, Value.truthy,
      hoptions]

theorem Knows.isRouter {config : Mapping} (h : Knows c hosts config)
    (hr : isText "query_router" (MongoDbApp.instanceType (some config)) ≠ false) :
    c.instanceType = .queryRouter := by
  rw [h.properties.instanceType] at hr
  cases hrole : c.instanceType with
  | queryRouter => rfl
  | _ => simp [hrole, isText, InstanceType.name] at hr

end Knowledge

/-! ### Every life -/

section Lives

variable (eval : String → String) (port : ℕ) (dataDir : String) (c : ClusterConfig) (ops : List Op)

/-- In memory, in the file and in the container there is nothing but the role of the instance. -/
structure Consistent (g : Agent) : Prop where
  memory : ∀ config, g.clusterConfig = some config →
    ∃ hosts, GivenHosts c ops hosts ∧ Knows c hosts config
  file : ∀ config, readClusterConfig eval g.file = some config →
    ∃ hosts, GivenHosts c ops hosts ∧ Knows c hosts config
  container : ∀ k, g.container = some k →
    ∃ hosts, GivenHosts c ops hosts ∧ k = c.container hosts port dataDir

variable {eval port dataDir c ops} {g : Agent} {hosts : List String} {config : Mapping}

theorem Consistent.write (h : Consistent eval port dataDir c ops g)
    (hgiven : GivenHosts c ops hosts) (hknows : Knows c hosts config) (r : FileWrite) :
    Consistent eval port dataDir c ops
      (writeClusterConfig config r { g with clusterConfig := some config }).1 := by
  obtain ⟨text, htext, ⟨config', hwhole, hknows'⟩, hcut⟩ := hknows.exists_text eval
  have hmemory : ∀ config', some config = some config' →
      ∃ hosts, GivenHosts c ops hosts ∧ Knows c hosts config' := by
    rintro _ ⟨⟩
    exact ⟨hosts, hgiven, hknows⟩
  unfold writeClusterConfig
  rw [htext]
  cases r with
  | done =>
    refine ⟨hmemory, fun config'' h'' => ⟨hosts, hgiven, ?_⟩, h.container⟩
    rw [← Option.some.inj (hwhole.symm.trans h'')]
    exact hknows'
  | kept => exact ⟨hmemory, h.file, h.container⟩
  | torn length =>
    exact ⟨hmemory, fun config'' h'' => ⟨hosts, hgiven, hcut length config'' h''⟩, h.container⟩

theorem clusterConfig_write (config : Mapping) (r : FileWrite) (g : Agent) :
    (writeClusterConfig config r g).1.clusterConfig = g.clusterConfig := by
  unfold writeClusterConfig
  split <;> rfl

theorem Consistent.startDb (h : Consistent eval port dataDir c ops g)
    (hknown : g.clusterConfig = some config) (s : Started) :
    Consistent eval port dataDir c ops (startDb port dataDir s g) := by
  unfold Mongo.startDb
  cases s with
  | existing => exact h
  | failed => exact ⟨h.memory, h.file, by rintro k ⟨⟩⟩
  | created =>
    refine ⟨h.memory, h.file, fun k hk => ?_⟩
    obtain ⟨hosts, hgiven, hknows⟩ := h.memory config hknown
    rw [hknown] at hk
    exact ⟨hosts, hgiven, (Option.some.inj (hknows.properties.describe.symm.trans hk)).symm⟩

/-- A new configuration is written, and if this goes well the container is started. -/
theorem Consistent.writeAndStart (h : Consistent eval port dataDir c ops g)
    (hgiven : GivenHosts c ops hosts) (hknows : Knows c hosts config) (r : FileWrite)
    (s : Started) :
    Consistent eval port dataDir c ops
      (match writeClusterConfig config r { g with clusterConfig := some config } with
        | (g, true) => Mongo.startDb port dataDir s g
        | (g, false) => g) := by
  have hwrite := h.write hgiven hknows r
  have hmemory := clusterConfig_write config r { g with clusterConfig := some config }
  split
  all_goals
    rename_i hresult
    rw [hresult] at hwrite hmemory
  · exact hwrite.startDb hmemory s
  · exact hwrite

theorem Consistent.step (h : Consistent eval port dataDir c ops g) {op : Op} (hop : op ∈ ops)
    (hc : ∀ c' r s, op = .prepare c' r s → c' = c) :
    Consistent eval port dataDir c ops (op.step eval port dataDir g) := by
  cases op with
  | prepare c' r s =>
    obtain rfl := hc c' r s rfl
    exact h.writeAndStart (.inl rfl) (knows_fields c') r s
  | addConfigServers new r s =>
    rw [Op.step, addConfigServers]
    split
    · exact h
    · rename_i config hconfig
      split_ifs with hrefused
      · exact h
      · rw [not_or] at hrefused
        obtain ⟨hosts, -, hknows⟩ := h.memory config hconfig
        exact h.writeAndStart (.inr ⟨hknows.isRouter hrefused.1, r, s, hop⟩)
          (hknows.set hrefused.2) r s
  | restart opened =>
    rw [Op.step, restartAgent]
    cases opened with
    | true => exact ⟨h.file, h.file, h.container⟩
    | false => exact ⟨by rintro config ⟨⟩, h.file, h.container⟩

theorem consistent_life (hc : ∀ op ∈ ops, ∀ c' r s, op = .prepare c' r s → c' = c) :
    Consistent eval port dataDir c ops (life eval port dataDir ops) := by
  have hrun (l : List Op) (g : Agent) (hl : ∀ op ∈ l, op ∈ ops)
      (h : Consistent eval port dataDir c ops g) : Consistent eval port dataDir c ops
        (l.foldl (fun g op => op.step eval port dataDir g) g) := by
    induction l generalizing g with
    | nil => exact h
    | cons op l ih =>
      have hop := hl op List.mem_cons_self
      exact ih _ (fun op hop => hl op (List.mem_cons_of_mem _ hop)) (h.step hop (hc op hop))
  exact hrun ops _ (fun _ => id)
    ⟨by rintro config ⟨⟩, by rintro config ⟨⟩, by rintro k ⟨⟩⟩

/-- Memory, file and container agree on the config servers. -/
structure InAgreement (eval : String → String) (port : ℕ) (dataDir : String) (c : ClusterConfig)
    (hosts : List String) (g : Agent) : Prop where
  memory : ∃ config, g.clusterConfig = some config ∧ Knows c hosts config
  file : ∃ config, readClusterConfig eval g.file = some config ∧ Knows c hosts config
  container : g.container = some (c.container hosts port dataDir)

theorem inAgreement_writeAndStart (hknows : Knows c hosts config) (g : Agent) :
    InAgreement eval port dataDir c hosts
      (match writeClusterConfig config .done { g with clusterConfig := some config } with
        | (g, true) => Mongo.startDb port dataDir .created g
        | (g, false) => g) := by
  obtain ⟨text, htext, hfile, -⟩ := hknows.exists_text eval
  unfold writeClusterConfig
  rw [htext]
  exact ⟨⟨config, rfl, hknows⟩, hfile, hknows.properties.describe⟩

theorem InAgreement.step (h : InAgreement eval port dataDir c hosts g) {op : Op}
    (hc : ∀ c' r s, op = .prepare c' r s → c' = c) (hs : op.Succeeds) :
    InAgreement eval port dataDir c (nextHosts c hosts op) (op.step eval port dataDir g) := by
  obtain ⟨config, hconfig, hknows⟩ := h.memory
  cases op with
  | prepare c' r s =>
    obtain rfl := hc c' r s rfl
    obtain ⟨rfl, rfl⟩ := hs
    exact inAgreement_writeAndStart (knows_fields c') g
  | addConfigServers new r s =>
    obtain ⟨rfl, rfl⟩ := hs
    have hrefused : isText "query_router" (MongoDbApp.instanceType (some config)) = false ∨
        new = [] ↔ ¬(c.instanceType = .queryRouter ∧ new ≠ []) := by
      rw [hknows.properties.instanceType]
      cases c.instanceType <;> simp [isText, InstanceType.name]
    rw [Op.step, addConfigServers, hconfig]
    dsimp only
    rw [nextHosts]
    by_cases hr : c.instanceType = .queryRouter ∧ new ≠ []
    · rw [if_pos hr, if_neg fun h => hrefused.1 h hr]
      exact inAgreement_writeAndStart (hknows.set hr.2) g
    · rw [if_neg hr, if_pos (hrefused.2 hr)]
      exact h
  | restart opened =>
    obtain rfl : opened = true := hs
    exact ⟨h.file, h.file, h.container⟩

/-- Whatever fails in the life of an instance, its container is one of its own role, with config
servers only if it is a query router that was given them. If nothing fails, the container knows
the config servers that were given last, however often the agent was started anew. -/
theorem container_of_life (eval : String → String) (port : ℕ) (dataDir : String)
    (c : ClusterConfig) (ops : List Op)
    (hc : ∀ op ∈ ops, ∀ c' r s, op = .prepare c' r s → c' = c) :
    (∀ k, (life eval port dataDir ops).container = some k →
      ∃ hosts, GivenHosts c ops hosts ∧ k = c.container hosts port dataDir) ∧
    ((∀ op ∈ ops, op.Succeeds) → (∃ r s, .prepare c r s ∈ ops) →
      (life eval port dataDir ops).container =
        some (c.container (lastHosts c ops) port dataDir)) := by
  refine ⟨(consistent_life hc).container, ?_⟩
  rintro hs ⟨r, s, hprepare⟩
  obtain ⟨earlier, later, rfl⟩ := List.append_of_mem hprepare
  have hrun (l : List Op) (g : Agent) (hosts : List String)
      (hl : ∀ op ∈ l, op ∈ earlier ++ .prepare c r s :: later)
      (h : InAgreement eval port dataDir c hosts g) : InAgreement eval port dataDir c
        (l.foldl (nextHosts c) hosts) (l.foldl (fun g op => op.step eval port dataDir g) g) := by
    induction l generalizing g hosts with
    | nil => exact h
    | cons op l ih =>
      have hop := hl op List.mem_cons_self
      exact ih _ _ (fun op hop => hl op (List.mem_cons_of_mem _ hop))
        (h.step (hc op hop) (hs op hop))
  obtain ⟨rfl, rfl⟩ := hs _ hprepare
  rw [life, lastHosts, List.foldl_append, List.foldl_append, List.foldl_cons, List.foldl_cons]
  exact (hrun later _ [] (fun op hop => by simp [hop])
    (inAgreement_writeAndStart (knows_fields c) _)).container

/-- A query router gets its config servers, and its agent is started anew twice. -/
theorem container_of_life_router : (life id 27017 "/var/lib/mongodb"
    [.prepare (queryRouterConfig "c1") .done .created, .restart true,
      .addConfigServers ["10.0.0.7:27017"] .done .created, .restart true]).container =
    some ((queryRouterConfig "c1").container ["10.0.0.7:27017"] 27017 "/var/lib/mongodb") := by
  refine (container_of_life id 27017 "/var/lib/mongodb" (queryRouterConfig "c1") _ ?_).2 ?_ ?_
  · intro op hop c' r s h
    subst h
    exact (by simpa using hop : _ ∧ _ ∧ _).1
  · simp [Op.Succeeds]
  · exact ⟨.done, .created, List.mem_cons_self⟩

end Lives

end Yggdrasil.Mongo
