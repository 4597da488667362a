import Yggdrasil.Mongo.Create

/-! The container that the guest agent starts: the command it runs and the volumes it gets.
Both are made from the cluster configuration that the guest keeps, a JSON object. -/

namespace Yggdrasil.Mongo

open Python

def mongodbConfigFile : String := "/etc/trove/mongodb.conf"

def mongodbKeyFile : String := "/etc/trove/mongodb-keyfile"

def mongodbDataDir : String := "/data/db"

/-- A bind mount of the container. -/
structure Mount where
  bind : String
  mode : String
  deriving DecidableEq

/-- `value == text`. -/
def isText (text : String) : Value → Bool
  | .str s => s == text
  | _ => false

/-- What a loop over the value visits. -/
def iterate : Value → Except Error (List Value)
  | .seq _ items => .ok items
  | .dict items => .ok (items.map fun p => .str p.1.text)
  | .str s => .ok (s.toList.map fun c => .str (String.ofList [c]))
  | _ => .error (.failed "object is not iterable")

namespace MongoDbApp

section

variable (clusterConfig : Option Mapping)

def instanceType : Value := property clusterConfig "instance_type" (.str "member")

def configServerHosts : Except Error (List String) :=
  (iterate (property clusterConfig "config_servers" (.list []))).map (List.map Value.toStr)

def configServerReplicaSet : Value :=
  property clusterConfig "config_server_replica_set_name" (.str "configRS")

/-- A query router that knows config servers; the hosts are looked at for a router only. -/
def isMongos : Except Error Bool :=
  if isText "query_router" (instanceType clusterConfig) then
    (configServerHosts clusterConfig).map fun hosts => !hosts.isEmpty
  else .ok false

/-- The replica set of a data server; a query router is in none. -/
def replSetOptions : List Value :=
  let replicaSetName := property clusterConfig "replica_set_name" .none
  if replicaSetName.truthy && (isText "member" (instanceType clusterConfig) ||
    isText "config_server" (instanceType clusterConfig)) then [.str "--replSet", replicaSetName]
  else []

def roleOptions : List Value :=
  if isText "config_server" (instanceType clusterConfig) then [.str "--configsvr"]
  else if isText "member" (instanceType clusterConfig) &&
    isText "sharded" (property clusterConfig "topology" .none) then [.str "--shardsvr"]
  else []

/-- The command, and what is written to the key file. -/
def containerCommand (port : ℕ) : Except Error (List Value × Option String) := do
  let mongos ← isMongos clusterConfig
  let command : List Value ← if mongos then do
      let hosts ← configServerHosts clusterConfig
      let configdb := (configServerReplicaSet clusterConfig).toStr ++ "/" ++ ",".intercalate hosts
      pure [.str "mongos", .str "--configdb", .str configdb, .str "--bind_ip_all", .str "--port",
        .str (toString port)]
    else pure ([.str "mongod", .str "--config", .str "/etc/mongod.conf", .str "--dbpath",
      .str mongodbDataDir, .str "--bind_ip_all", .str "--port", .str (toString port)] ++
        replSetOptions clusterConfig ++ roleOptions clusterConfig)
  let key := property clusterConfig "key" .none
  if key.truthy then
    pure (command ++ [.str "--keyFile", .str "/etc/mongodb-keyfile"], some key.toStr)
  else pure (command, none)

def containerVolumes (dataDir : String) : Except Error (List (String × Mount)) := do
  let mongos ← isMongos clusterConfig
  let volumes : List (String × Mount) := if mongos then [] else
    Dict.update [] [(dataDir, ⟨mongodbDataDir, "rw"⟩),
      (mongodbConfigFile, ⟨"/etc/mongod.conf", "ro"⟩)]
  if (property clusterConfig "key" .none).truthy then
    pure (Dict.set volumes mongodbKeyFile ⟨"/etc/mongodb-keyfile", "ro"⟩)
  else pure volumes

end

end MongoDbApp

/-! ### Reading a command -/

/-- The options of a server that take an argument. -/
def valuedOptions : List String :=
  ["--config", "--dbpath", "--port", "--replSet", "--keyFile", "--configdb"]

/-- An option and its argument. -/
abbrev Argument := Value × Option Value

/-- The options of a command line, as a server reads them. -/
def readOptions : Option Value → List Value → List Argument
  | none, [] => []
  | some name, [] => [(name, none)]
  | some name, word :: words => (name, some word) :: readOptions none words
  | none, word :: words =>
    if valuedOptions.any fun name => isText name word then readOptions (some word) words
    else (word, none) :: readOptions none words

/-- An option that takes an argument has it in the word that follows, whatever this is. -/
theorem readOptions_pair {name : String} (h : name ∈ valuedOptions) (word : Value)
    (words : List Value) :
    readOptions none (.str name :: word :: words) =
      (.str name, some word) :: readOptions none words := by
  have hany : (valuedOptions.any fun option => isText option (.str name)) = true :=
    List.any_eq_true.2 ⟨name, h, by simp [isText]⟩
  simp only [readOptions]
  rw [if_pos hany]

theorem readOptions_flag {name : String} (h : name ∉ valuedOptions) (words : List Value) :
    readOptions none (.str name :: words) = (.str name, none) :: readOptions none words := by
  have hany : ¬(valuedOptions.any fun option => isText option (.str name)) = true := by
    intro hany
    obtain ⟨option, ho, he⟩ := List.any_eq_true.1 hany
    have he : name = option := by simpa [isText] using he
    exact h (he ▸ ho)
  simp only [readOptions]
  rw [if_neg hany]

/-- The command names the path with the option. -/
def Names (command : List Value) (option path : String) : Prop :=
  (.str option, some (.str path)) ∈ readOptions none command.tail

def Has (command : List Value) (option : String) : Prop :=
  ∃ argument, (.str option, argument) ∈ readOptions none command.tail

/-- The file or directory of the guest is mounted at the path. -/
def Mounted (volumes : List (String × Mount)) (source path : String) : Prop :=
  ∃ mode, (source, ⟨path, mode⟩) ∈ volumes

namespace MongoDbApp

/-- A query router with at least one config server. -/
def IsRouter (clusterConfig : Option Mapping) : Prop :=
  isText "query_router" (instanceType clusterConfig) = true ∧
    ∃ host hosts, configServerHosts clusterConfig = .ok (host :: hosts)

/-- The command and the volumes of one container fit each other and the role of the member. -/
structure Fits (clusterConfig : Option Mapping) (dataDir : String) (command : List Value)
    (volumes : List (String × Mount)) : Prop where
  process : command.head? = some (.str "mongos") ∧ IsRouter clusterConfig ∨
    command.head? = some (.str "mongod") ∧ ¬IsRouter clusterConfig
  configFile : Names command "--config" "/etc/mongod.conf" ↔
    Mounted volumes mongodbConfigFile "/etc/mongod.conf"
  dataDirectory : Names command "--dbpath" mongodbDataDir ↔ Mounted volumes dataDir mongodbDataDir
  keyFile : Names command "--keyFile" "/etc/mongodb-keyfile" ↔
    Mounted volumes mongodbKeyFile "/etc/mongodb-keyfile"
  mounts : ∀ v ∈ volumes, (v.1, v.2.bind) ∈ [(mongodbConfigFile, "/etc/mongod.conf"),
    (dataDir, mongodbDataDir), (mongodbKeyFile, "/etc/mongodb-keyfile")]
  replSet : Has command "--replSet" ↔
    (property clusterConfig "replica_set_name" .none).truthy = true ∧
      (isText "member" (instanceType clusterConfig) = true ∨
        isText "config_server" (instanceType clusterConfig) = true)
  configsvr : Has command "--configsvr" ↔
    isText "config_server" (instanceType clusterConfig) = true
  shardsvr : Has command "--shardsvr" ↔ isText "member" (instanceType clusterConfig) = true ∧
    isText "sharded" (property clusterConfig "topology" .none) = true
  mongos : command.head? = some (.str "mongos") →
    ¬Has command "--replSet" ∧ ¬Has command "--configsvr" ∧ ¬Has command "--shardsvr"

section

variable {clusterConfig : Option Mapping}

/-! ### The command of each process -/

/-- What a key adds to either command. -/
def keyOptions (clusterConfig : Option Mapping) : List Value :=
  if (property clusterConfig "key" .none).truthy then
    [.str "--keyFile", .str "/etc/mongodb-keyfile"] else []

theorem not_isRouter (h : isMongos clusterConfig = .ok false) : ¬IsRouter clusterConfig := by
  rintro ⟨hr, host, hosts, hh⟩
  simp [isMongos, hr, hh, Except.map] at h

theorem isRouter (h : isMongos clusterConfig = .ok true) : IsRouter clusterConfig := by
  unfold isMongos at h
  split_ifs at h with hr
  swap
  · cases h
  refine ⟨hr, ?_⟩
  cases hh : configServerHosts clusterConfig with
  | error e => simp [hh, Except.map] at h
  | ok hosts =>
    cases hosts with
    | nil => simp [hh, Except.map] at h
    | cons host hosts => exact ⟨host, hosts, rfl⟩

theorem containerCommand_mongod (h : isMongos clusterConfig = .ok false) (port : ℕ) :
    ∃ key, containerCommand clusterConfig port =
      .ok (.str "mongod" :: (.str "--config" :: .str "/etc/mongod.conf" :: .str "--dbpath" ::
        .str mongodbDataDir :: .str "--bind_ip_all" :: .str "--port" :: .str (toString port) ::
          (replSetOptions clusterConfig ++ (roleOptions clusterConfig ++
            keyOptions clusterConfig))), key) := by
  unfold containerCommand keyOptions
  simp only [h]
  by_cases hk : (property clusterConfig "key" .none).truthy = true
  · exact ⟨some (property clusterConfig "key" .none).toStr, by
      simp [hk, bind, Except.bind, pure, Except.pure]⟩
  · exact ⟨none, by simp [hk, bind, Except.bind, pure, Except.pure]⟩

theorem containerCommand_mongos (h : isMongos clusterConfig = .ok true) (port : ℕ) :
    ∃ key configdb, containerCommand clusterConfig port =
      .ok (.str "mongos" :: (.str "--configdb" :: .str configdb :: .str "--bind_ip_all" ::
        .str "--port" :: .str (toString port) :: keyOptions clusterConfig), key) := by
  obtain ⟨_, host, hosts, hh⟩ := isRouter h
  unfold containerCommand keyOptions
  simp only [h, hh]
  by_cases hk : (property clusterConfig "key" .none).truthy = true
  · refine ⟨some (property clusterConfig "key" .none).toStr,
      (configServerReplicaSet clusterConfig).toStr ++ "/" ++ ",".intercalate (host :: hosts), ?_⟩
    simp [hk, bind, Except.bind, pure, Except.pure]
  · refine ⟨none,
      (configServerReplicaSet clusterConfig).toStr ++ "/" ++ ",".intercalate (host :: hosts), ?_⟩
    simp [hk, bind, Except.bind, pure, Except.pure]

/-! ### The options that the command gives -/

theorem mem_readOptions_key {a : Argument} :
    a ∈ readOptions none (keyOptions clusterConfig) ↔
      a = (.str "--keyFile", some (.str "/etc/mongodb-keyfile")) ∧
        (property clusterConfig "key" .none).truthy = true := by
  unfold keyOptions
  split_ifs with hk
  · rw [readOptions_pair (by decide)]
    simp [readOptions, hk]
  · simp [readOptions, hk]

theorem isText_inj {a b : String} {value : Value} (ha : isText a value = true)
    (hb : isText b value = true) : a = b := by
  cases value with
  | str s =>
    have ha : s = a := by simpa [isText] using ha
    have hb : s = b := by simpa [isText] using hb
    exact ha.symm.trans hb
  | _ => cases ha

theorem mem_readOptions_replSet {a : Argument} (words : List Value) :
    a ∈ readOptions none (replSetOptions clusterConfig ++ words) ↔
      a = (.str "--replSet", some (property clusterConfig "replica_set_name" .none)) ∧
          (property clusterConfig "replica_set_name" .none).truthy = true ∧
            (isText "member" (instanceType clusterConfig) = true ∨
              isText "config_server" (instanceType clusterConfig) = true) ∨
        a ∈ readOptions none words := by
  unfold replSetOptions
  dsimp only
  split_ifs with hr
  · rw [Bool.and_eq_true, Bool.or_eq_true] at hr
    rw [List.cons_append, List.singleton_append, readOptions_pair (by decide), List.mem_cons]
    simp [hr]
  · rw [Bool.and_eq_true, Bool.or_eq_true] at hr
    rw [List.nil_append]
    exact ⟨.inr, fun h => h.elim (fun h => absurd h.2 hr) id⟩

theorem mem_readOptions_role {a : Argument} (words : List Value) :
    a ∈ readOptions none (roleOptions clusterConfig ++ words) ↔
      a = (.str "--configsvr", none) ∧
          isText "config_server" (instanceType clusterConfig) = true ∨
        a = (.str "--shardsvr", none) ∧ isText "member" (instanceType clusterConfig) = true ∧
          isText "sharded" (property clusterConfig "topology" .none) = true ∨
        a ∈ readOptions none words := by
  have hroles : isText "config_server" (instanceType clusterConfig) = true →
      ¬isText "member" (instanceType clusterConfig) = true :=
    fun hc hm => absurd (isText_inj hc hm) (by decide)
  unfold roleOptions
  split_ifs with hc hm
  · rw [List.singleton_append, readOptions_flag (by decide), List.mem_cons]
    simp [hc, hroles hc]
  · rw [Bool.and_eq_true] at hm
    rw [List.singleton_append, readOptions_flag (by decide), List.mem_cons]
    simp [hc, hm]
  · rw [Bool.and_eq_true] at hm
    rw [List.nil_append]
    exact ⟨fun h => .inr (.inr h), fun h => h.elim (fun h => absurd h.2 hc) fun h =>
      h.elim (fun h => absurd h.2 hm) id⟩

theorem mem_readOptions_mongod {a : Argument} {port : Value} :
    a ∈ readOptions none (.str "--config" :: .str "/etc/mongod.conf" :: .str "--dbpath" ::
        .str mongodbDataDir :: .str "--bind_ip_all" :: .str "--port" :: port ::
          (replSetOptions clusterConfig ++ (roleOptions clusterConfig ++
            keyOptions clusterConfig))) ↔
      a ∈ [(.str "--config", some (.str "/etc/mongod.conf")),
          (.str "--dbpath", some (.str mongodbDataDir)), (.str "--bind_ip_all", none),
          (.str "--port", some port)] ∨
        a = (.str "--replSet", some (property clusterConfig "replica_set_name" .none)) ∧
          (property clusterConfig "replica_set_name" .none).truthy = true ∧
            (isText "member" (instanceType clusterConfig) = true ∨
              isText "config_server" (instanceType clusterConfig) = true) ∨
        a = (.str "--configsvr", none) ∧
          isText "config_server" (instanceType clusterConfig) = true ∨
        a = (.str "--shardsvr", none) ∧ isText "member" (instanceType clusterConfig) = true ∧
          isText "sharded" (property clusterConfig "topology" .none) = true ∨
        a = (.str "--keyFile", some (.str "/etc/mongodb-keyfile")) ∧
          (property clusterConfig "key" .none).truthy = true := by
  rw [readOptions_pair (by decide), readOptions_pair (by decide), readOptions_flag (by decide),
    readOptions_pair (by decide), ← mem_readOptions_key, ← mem_readOptions_role,
    ← mem_readOptions_replSet]
  simp only [List.mem_cons, List.not_mem_nil, or_false, or_assoc]

theorem mem_readOptions_mongos {a : Argument} {configdb port : Value} :
    a ∈ readOptions none (.str "--configdb" :: configdb :: .str "--bind_ip_all" ::
        .str "--port" :: port :: keyOptions clusterConfig) ↔
      a ∈ [(.str "--configdb", some configdb), (.str "--bind_ip_all", none),
          (.str "--port", some port)] ∨
        a = (.str "--keyFile", some (.str "/etc/mongodb-keyfile")) ∧
          (property clusterConfig "key" .none).truthy = true := by
  rw [readOptions_pair (by decide), readOptions_flag (by decide), readOptions_pair (by decide),
    ← mem_readOptions_key]
  simp only [List.mem_cons, List.not_mem_nil, or_false, or_assoc]

/-! ### The volumes -/

theorem mem_containerVolumes_mongos (h : isMongos clusterConfig = .ok true) (dataDir : String) :
    ∃ volumes, containerVolumes clusterConfig dataDir = .ok volumes ∧ ∀ v, v ∈ volumes ↔
      v = (mongodbKeyFile, ⟨"/etc/mongodb-keyfile", "ro"⟩) ∧
        (property clusterConfig "key" .none).truthy = true := by
  unfold containerVolumes
  simp only [h]
  by_cases hk : (property clusterConfig "key" .none).truthy = true
  · exact ⟨[(mongodbKeyFile, ⟨"/etc/mongodb-keyfile", "ro"⟩)],
      by simp [hk, bind, Except.bind, pure, Except.pure, Dict.set], by simp [hk]⟩
  · exact ⟨[], by simp [hk, bind, Except.bind, pure, Except.pure], by simp [hk]⟩

theorem mem_containerVolumes_mongod (h : isMongos clusterConfig = .ok false) {dataDir : String}
    (hc : dataDir ≠ mongodbConfigFile) (hf : dataDir ≠ mongodbKeyFile) :
    ∃ volumes, containerVolumes clusterConfig dataDir = .ok volumes ∧ ∀ v, v ∈ volumes ↔
      v = (dataDir, ⟨mongodbDataDir, "rw"⟩) ∨
        v = (mongodbConfigFile, ⟨"/etc/mongod.conf", "ro"⟩) ∨
        v = (mongodbKeyFile, ⟨"/etc/mongodb-keyfile", "ro"⟩) ∧
          (property clusterConfig "key" .none).truthy = true := by
  have hkeys : mongodbConfigFile ≠ mongodbKeyFile := by decide
  unfold containerVolumes
  simp only [h]
  by_cases hk : (property clusterConfig "key" .none).truthy = true
  · exact ⟨[(dataDir, ⟨mongodbDataDir, "rw"⟩), (mongodbConfigFile, ⟨"/etc/mongod.conf", "ro"⟩),
      (mongodbKeyFile, ⟨"/etc/mongodb-keyfile", "ro"⟩)],
      by simp [hk, bind, Except.bind, pure, Except.pure, Dict.set, Dict.update, hc, hf, hkeys],
      by simp [hk]⟩
  · exact ⟨[(dataDir, ⟨mongodbDataDir, "rw"⟩), (mongodbConfigFile, ⟨"/etc/mongod.conf", "ro"⟩)],
      by simp [hk, bind, Except.bind, pure, Except.pure, Dict.set, Dict.update, hc], by simp [hk]⟩

/-! ### The two agree -/

theorem fits_mongos {configdb port : Value} {dataDir : String} {volumes : List (String × Mount)}
    (hr : IsRouter clusterConfig)
    (hmem : ∀ v, v ∈ volumes ↔ v = (mongodbKeyFile, ⟨"/etc/mongodb-keyfile", "ro"⟩) ∧
      (property clusterConfig "key" .none).truthy = true) :
    Fits clusterConfig dataDir (.str "mongos" :: .str "--configdb" :: configdb ::
      .str "--bind_ip_all" :: .str "--port" :: port :: keyOptions clusterConfig) volumes := by
  have hmember : ¬isText "member" (instanceType clusterConfig) = true :=
    fun hm => absurd (isText_inj hr.1 hm) (by decide)
  have hconfig : ¬isText "config_server" (instanceType clusterConfig) = true :=
    fun hm => absurd (isText_inj hr.1 hm) (by decide)
  constructor
  case process => exact .inl ⟨rfl, hr⟩
  case configFile | dataDirectory | keyFile =>
    simp [Names, Mounted, List.tail_cons, mem_readOptions_mongos, hmem, mongodbKeyFile,
      mongodbConfigFile, mongodbDataDir]
  case mounts =>
    intro v hv
    obtain ⟨rfl, _⟩ := (hmem v).1 hv
    simp
  case replSet | configsvr | shardsvr =>
    simp [Has, List.tail_cons, mem_readOptions_mongos, hmember, hconfig]
  case mongos => simp [Has, List.tail_cons, mem_readOptions_mongos]

theorem fits_mongod {port : Value} {dataDir : String} {volumes : List (String × Mount)}
    (hr : ¬IsRouter clusterConfig) (hc : mongodbConfigFile ≠ dataDir)
    (hf : mongodbKeyFile ≠ dataDir)
    (hmem : ∀ v, v ∈ volumes ↔
      v = (dataDir, ⟨mongodbDataDir, "rw"⟩) ∨
        v = (mongodbConfigFile, ⟨"/etc/mongod.conf", "ro"⟩) ∨
        v = (mongodbKeyFile, ⟨"/etc/mongodb-keyfile", "ro"⟩) ∧
          (property clusterConfig "key" .none).truthy = true) :
    Fits clusterConfig dataDir (.str "mongod" :: .str "--config" :: .str "/etc/mongod.conf" ::
      .str "--dbpath" :: .str mongodbDataDir :: .str "--bind_ip_all" :: .str "--port" :: port ::
        (replSetOptions clusterConfig ++ (roleOptions clusterConfig ++
          keyOptions clusterConfig))) volumes := by
  constructor
  case process => exact .inr ⟨rfl, hr⟩
  case configFile | dataDirectory | keyFile =>
    simp [Names, Mounted, List.tail_cons, mem_readOptions_mongod, hmem, hc, hf]
  case mounts =>
    intro v hv
    rcases (hmem v).1 hv with rfl | rfl | ⟨rfl, _⟩ <;> simp
  case replSet | configsvr | shardsvr =>
    simp [Has, List.tail_cons, mem_readOptions_mongod]
  case mongos => simp

theorem containerCommand_error {e : Error} (h : isMongos clusterConfig = .error e) (port : ℕ)
    (dataDir : String) : containerCommand clusterConfig port = .error e ∧
      containerVolumes clusterConfig dataDir = .error e := by
  unfold containerCommand containerVolumes
  simp [h, bind, Except.bind]

/-- Either the container cannot be described at all, for one reason, or its command and its
volumes fit. The data directory is made before the container starts; the files of the guest
are no directories. -/
theorem container_fits (clusterConfig : Option Mapping) (port : ℕ) {dataDir : String}
    (hc : dataDir ≠ mongodbConfigFile) (hf : dataDir ≠ mongodbKeyFile) :
    (∃ e, containerCommand clusterConfig port = .error e ∧
        containerVolumes clusterConfig dataDir = .error e) ∨
      ∃ command key volumes, containerCommand clusterConfig port = .ok (command, key) ∧
        containerVolumes clusterConfig dataDir = .ok volumes ∧
        Fits clusterConfig dataDir command volumes := by
  cases h : isMongos clusterConfig with
  | error e => exact .inl ⟨e, containerCommand_error h port dataDir⟩
  | ok mongos =>
    right
    cases mongos with
    | true =>
      obtain ⟨key, configdb, hcommand⟩ := containerCommand_mongos h port
      obtain ⟨volumes, hvolumes, hmem⟩ := mem_containerVolumes_mongos h dataDir
      exact ⟨_, key, volumes, hcommand, hvolumes,
        fits_mongos (isRouter h) hmem⟩
    | false =>
      obtain ⟨key, hcommand⟩ := containerCommand_mongod h port
      obtain ⟨volumes, hvolumes, hmem⟩ := mem_containerVolumes_mongod h hc hf
      exact ⟨_, key, volumes, hcommand, hvolumes,
        fits_mongod (not_isRouter h) hc.symm hf.symm hmem⟩

/-- A query router after it has learned of its config servers. -/
theorem container_fits_router :
    let clusterConfig : Mapping := [(.str "instance_type", .str "query_router"),
      (.str "config_servers", .list [.str "10.0.0.7:27017"]), (.str "key", .str "abc")]
    (∃ e, containerCommand (some clusterConfig) 27017 = .error e ∧
        containerVolumes (some clusterConfig) "/var/lib/mongodb" = .error e) ∨
      ∃ command key volumes, containerCommand (some clusterConfig) 27017 = .ok (command, key) ∧
        containerVolumes (some clusterConfig) "/var/lib/mongodb" = .ok volumes ∧
        Fits (some clusterConfig) "/var/lib/mongodb" command volumes :=
  container_fits _ 27017 (by decide) (by decide)

end

end MongoDbApp

end Yggdrasil.Mongo
