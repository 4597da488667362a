import Yggdrasil.Mongo.ReplicaSet

/-! Members that join: the tasks that create and grow a replica set, and the request to grow. -/

namespace Yggdrasil.Mongo

open Effect Effect.Process History Python

variable {port : ℕ} {host : String → String} {cluster : String}

/-! ### Tasks -/

/-- The calls of a task that brings no other hosts into the set, and takes none out. -/
def TaskCall (cluster : String) (hosts : List String) (c : Call) : Prop :=
  (c.writes = false ∨ c = .resetTask cluster) ∧ c.joins ⊆ hosts ∧ c.leaves = []

/-- A task has left the instances as they were. -/
structure Tasked (db : Database) (hosts : List String) (s : Replicated) : Prop where
  instances : s.run.db.instances = db.instances
  joins : ∀ e ∈ s.run.log, e.1.joins ⊆ hosts
  leaves : ∀ e ∈ s.run.log, e.1.leaves = []

theorem Tasked.live {db : Database} {hosts : List String} {s : Replicated}
    (hs : Tasked db hosts s) (cluster : String) : s.run.db.live cluster = db.live cluster := by
  unfold Database.live
  rw [hs.instances]

theorem setWorld_tasked {db : Database} {hosts : List String} {s s' : Replicated} {c : Call}
    {r : Except Error c.Answer} (hs : Tasked db hosts s) (hc : TaskCall cluster hosts c)
    (hw : setWorld port host s c r s') : Tasked db hosts s' := by
  obtain ⟨hwrites, hjoins, hleaves⟩ := hc
  have hlog : ∀ e ∈ s'.run.log, e ∈ s.run.log ∨ e = ⟨c, r⟩ := by
    intro e he
    rw [world_log hw.1] at he
    simpa using he
  constructor
  · rw [← hs.instances]
    rcases hwrites with hreads | rfl
    · rw [world_reads hw.1 hreads]
    · cases r with
      | ok a =>
        have hdb : s'.run.db = s.run.db.setStatus cluster .none := hw.1.1
        rw [hdb]
        rfl
      | error x => rw [hw.1.2.1]
  · intro e he
    rcases hlog e he with he | rfl
    · exact hs.joins e he
    · exact hjoins
  · intro e he
    rcases hlog e he with he | rfl
    · exact hs.leaves e he
    · exact hleaves

theorem tasked_exec {α : Type} {p : Action α} {db : Database} {hosts start : List String}
    {s : Replicated} {o : Outcome Error α}
    (hp : Respects (setWorld port host) (Tasked db hosts) (TaskCall cluster hosts) p)
    (h : Exec (setWorld port host) p ⟨⟨db, []⟩, start⟩ o s) : Tasked db hosts s :=
  (hp.triple fun _ _ _ _ => setWorld_tasked).always _ ⟨rfl, by simp, by simp⟩ o s h

/-- The calls with which a task looks on. -/
def Call.watches : Call → Bool
  | .loadInstance _ => true
  | .visibleAddresses _ => true
  | .clock => true
  | .sleep _ => true
  | .rpc _ => true
  | .reply _ => true
  | .replicaSetStatus _ => true
  | .clusterComplete _ => true
  | .allInstancesReady .. => true
  | .findInstances _ => true
  | .updateStatusesOnFailure .. => true
  | _ => false

theorem taskCall_of_watches {hosts : List String} {c : Call} (h : c.watches = true) :
    TaskCall cluster hosts c := by
  cases c <;> simp_all [Call.watches, TaskCall, Call.writes, Call.joins, Call.leaves]

section Watching

variable {S : Type} {W : World S Call Call.Answer Error} {R : S → Prop} (conf : MongoConf)
  (fuel : ℕ)

theorem respects_watch (guest : String) (addresses : List String) :
    Respects W R (fun c => c.watches = true) (waitForReplicaMembers conf fuel guest addresses) := by
  have hloop : ∀ deadline, Respects W R (fun c => c.watches = true)
      (waitLoop guest addresses deadline fuel) := by
    intro deadline
    induction fuel with
    | zero => trivial
    | succ fuel ih =>
      refine respects_bind (respects_ask rfl) fun now => respects_ite (fun _ => ?_) fun _ => trivial
      apply respects_bind
      · exact respects_exceptException (respects_bind (respects_ask rfl) fun _ => trivial)
          fun _ => trivial
      · exact fun _ => respects_ite (fun _ => trivial) fun _ =>
          respects_bind (respects_ask rfl) fun _ => ih
  exact respects_bind (respects_ask rfl) fun _ => hloop _

theorem respects_lookUp (members : List Instance) :
    Respects W R (fun c => c.watches = true) (collect (address conf) members) := by
  apply respects_collect
  intro i _
  refine respects_bind (respects_ask rfl) fun addresses => ?_
  cases addresses <;> trivial

theorem respects_load (l : List Instance) :
    Respects W R (fun c => c.watches = true) (collect loadInstance l) :=
  respects_collect (f := loadInstance) fun _ _ => respects_ask rfl

theorem respects_tell (members : List Instance) :
    Respects W R (fun c => c.watches = true) (complete members) :=
  respects_forEach fun _ _ => respects_ask rfl

end Watching

section Hosts

variable (conf : MongoConf) (fuel : ℕ) {db : Database} {hosts : List String}

theorem yields_hosts {R : Replicated → Prop} (l : List Instance) :
    Yields (setWorld conf.mongodbPort host) R (fun addresses => addresses = hostsOf host l)
      (collect (address conf) l) :=
  yields_hostsOf fun i _ => yields_host i.id (fun _ _ => rfl) rfl

/-- Rows that exist are loaded as they are. -/
theorem yields_rows (hnd : (db.instances.map Instance.id).Nodup) {l : List Instance}
    (hl : ∀ i ∈ l, i ∈ db.instances) :
    Yields (setWorld port host) (Tasked db hosts) (fun rows => rows = l)
      (collect loadInstance l) := by
  have hload : ∀ i ∈ l, Yields (setWorld port host) (Tasked db hosts) (fun row => row = i)
      (loadInstance i) := by
    intro i hi
    apply yields_perform
    rintro s (row : Instance) s' hs ⟨⟨⟨hrow, hid, -⟩, -⟩, -⟩
    rw [hs.instances] at hrow
    exact List.inj_on_of_nodup_map hnd hrow (hl i hi) hid
  apply (yields_map (g := id) hload).mono
  intro rows h
  rwa [List.map_id, List.map_id'] at h

theorem yields_named (ids : List String) :
    Yields (setWorld port host) (Tasked db hosts)
      (fun rows => ∀ i ∈ rows, i ∈ db.instances ∧ i.id ∈ ids)
      (collect (fun id => (ask (.loadInstance id) : Action Instance)) ids) := by
  have hload : ∀ id ∈ ids, Yields (setWorld port host) (Tasked db hosts)
      (fun row => row ∈ db.instances ∧ row.id ∈ ids) (ask (.loadInstance id) : Action Instance) := by
    intro id hid
    apply yields_perform
    rintro s (row : Instance) s' hs ⟨⟨⟨hrow, rfl, -⟩, -⟩, -⟩
    rw [hs.instances] at hrow
    exact ⟨hrow, hid⟩
  apply (yields_collect hload).mono
  intro rows h i hi
  obtain ⟨k, hk, rfl⟩ := List.mem_iff_getElem.1 hi
  exact (List.forall₂_iff_get.1 h).2 k (by rw [h.length_eq]; exact hk) hk

theorem respects_initiate {R : Replicated → Prop} {members : List Instance}
    (hmembers : hostsOf host members ⊆ hosts) :
    Respects (setWorld conf.mongodbPort host) R (TaskCall cluster hosts)
      (initializeReplicaSet conf fuel members) := by
  cases members with
  | nil => trivial
  | cons first others =>
    apply respects_bind_of_yields ((respects_lookUp conf _).mono fun _ => taskCall_of_watches)
      (yields_hosts conf _)
    rintro _ rfl
    refine respects_bind (respects_ask ⟨.inl rfl, hmembers, rfl⟩) fun _ => ?_
    exact respects_bind ((respects_watch conf fuel _ _).mono fun _ => taskCall_of_watches)
      fun _ => trivial

theorem respects_extend {R : Replicated → Prop} (first : Instance) {news : List Instance}
    (hnews : hostsOf host news ⊆ hosts) :
    Respects (setWorld conf.mongodbPort host) R (TaskCall cluster hosts)
      (growMembers conf fuel first news) := by
  have hwatches : ∀ c : Call, c.watches = true → TaskCall cluster hosts c :=
    fun _ => taskCall_of_watches
  apply respects_bind_of_yields ((respects_lookUp conf _).mono hwatches) (yields_hosts conf _)
  rintro _ rfl
  apply respects_bind (respects_ask (hwatches _ rfl))
  intro _
  apply respects_bind
  · apply respects_bind (respects_ask (hwatches _ rfl))
    intro _
    apply respects_bind (respects_bind (respects_ask ⟨.inl rfl, hnews, rfl⟩) fun _ =>
      respects_pure _)
    exact fun _ => respects_bind (respects_ask (hwatches _ rfl)) fun _ => respects_pure _
  · exact fun _ => (respects_watch conf fuel _ _).mono hwatches

theorem respects_createOperation (hdb : Reachable db)
    (hset : isSharded (db.live cluster) = false) :
    Respects (setWorld conf.mongodbPort host) (Tasked db (hostsOf host (db.live cluster)))
      (TaskCall cluster (hostsOf host (db.live cluster))) (createOperation conf fuel cluster) := by
  have hwatches : ∀ c : Call, c.watches = true →
      TaskCall cluster (hostsOf host (db.live cluster)) c := fun _ => taskCall_of_watches
  apply respects_perform_bind (hwatches _ rfl)
  rintro s (rows : List Instance) s' hs ⟨⟨⟨rfl, -⟩, -⟩, -⟩
  rw [hs.live]
  apply respects_bind (respects_ask (hwatches _ rfl))
  intro ready
  apply respects_ite ?_ fun _ => respects_pure _
  intro _
  apply respects_bind_of_yields ((respects_load _).mono hwatches)
    (yields_rows hdb.nodup (l := db.live cluster) fun i hi => List.mem_of_mem_filter hi)
  rintro _ rfl
  apply respects_bind
  · unfold createTopology
    rw [if_neg (by rw [hset]; decide)]
    exact respects_bind (respects_initiate conf fuel (List.Subset.refl _)) fun _ =>
      respects_pure _
  · exact fun _ => respects_bind ((respects_tell _).mono hwatches) fun _ => respects_pure _

theorem isSharded_of_subset {l l' : List Instance} (h : isSharded l = false) (hsub : l' ⊆ l) :
    isSharded l' = false := by
  rw [isSharded, List.any_eq_false] at h ⊢
  exact fun i hi => h i (hsub hi)

theorem respects_growOperation_hosts (hdb : Reachable db)
    (hset : isSharded (db.live cluster) = false) {newIds : List String}
    (hnew : newIds ⊆ (db.live cluster).map Instance.id) :
    Respects (setWorld conf.mongodbPort host) (Tasked db (hostsOf host (db.live cluster)))
      (TaskCall cluster (hostsOf host (db.live cluster)))
      (growOperation conf fuel cluster newIds) := by
  have hwatches : ∀ c : Call, c.watches = true →
      TaskCall cluster (hostsOf host (db.live cluster)) c := fun _ => taskCall_of_watches
  apply respects_bind (respects_ask (hwatches _ rfl))
  intro ready
  apply respects_ite ?_ fun _ => respects_pure _
  intro _
  apply respects_perform_bind (hwatches _ rfl)
  rintro s (rows : List Instance) s' hs ⟨⟨⟨rfl, -⟩, -⟩, -⟩
  rw [hs.live]
  apply respects_bind_of_yields ((respects_load _).mono hwatches)
    (yields_rows hdb.nodup (l := existingMembers db cluster newIds)
      fun i hi => List.mem_of_mem_filter (List.mem_of_mem_filter hi))
  rintro _ rfl
  apply respects_bind_of_yields (respects_collect (β := Instance) fun id _ =>
    respects_ask (c := .loadInstance id) (hwatches _ rfl)) (yields_named newIds)
  intro news hnews
  have hlive : news ⊆ db.live cluster := by
    intro i hi
    obtain ⟨hmem, hid⟩ := hnews i hi
    obtain ⟨j, hj, heq⟩ := List.mem_map.1 (hnew hid)
    rwa [List.inj_on_of_nodup_map hdb.nodup hmem (List.mem_of_mem_filter hj) heq.symm]
  have hall : isSharded (existingMembers db cluster newIds ++ news) = false :=
    isSharded_of_subset hset (List.append_subset.2 ⟨List.filter_subset_self _, hlive⟩)
  apply respects_bind
  · unfold growTopology
    cases hexisting : existingMembers db cluster newIds with
    | nil => exact respects_raise _
    | cons first others =>
      rw [hexisting] at hall
      dsimp only
      rw [if_neg (by rw [hall]; decide)]
      exact respects_extend conf fuel first (List.map_subset _ hlive)
  · exact fun _ => respects_bind ((respects_tell _).mono hwatches) fun _ => respects_pure _

/-- A task brings no other hosts into the set than its operation. -/
theorem respects_task {status : String} {p : Action (Option Bool)} {R : Replicated → Prop}
    (hp : Respects (setWorld port host) R (TaskCall cluster hosts) p) :
    Respects (setWorld port host) R (TaskCall cluster hosts) (runWithTimeout cluster status p) := by
  have hfails : TaskCall cluster hosts (.updateStatusesOnFailure cluster status) :=
    taskCall_of_watches rfl
  have hresets : TaskCall cluster hosts (.resetTask cluster) :=
    ⟨.inr rfl, List.nil_subset _, rfl⟩
  apply respects_handle
  · exact respects_bind hp fun completed =>
      respects_ite (fun _ => respects_ask hfails) fun _ => respects_ask hresets
  · intro x
    cases x with
    | timeout own => cases own with
      | true => exact respects_ask hfails
      | false => exact respects_raise _
    | _ => exact respects_ask hfails

end Hosts

section Tasks

variable {conf : MongoConf} {fuel : ℕ} {db : Database} {start : List String}
  {s : Replicated} {o : Outcome Error Unit}

/-- A task that leaves the instances as they were, and brings in hosts of the cluster, keeps the
set sound. -/
theorem Sound.tasked {α : Type} {p : Action α} {o : Outcome Error α}
    (h : Sound host cluster db start) (hs : Tasked db (hostsOf host (db.live cluster)) s)
    (hr : Exec (setWorld port host) p ⟨⟨db, []⟩, start⟩ o s) :
    Sound host cluster s.run.db s.members := by
  refine ⟨h.reachable.exec (exec_run hr), ?_, ?_⟩
  · rw [hs.live]
    exact h.unsharded
  · rw [hs.live]
    intro x hx
    rcases (accounted_exec hr).joined x hx with hx | ⟨e, he, hx⟩
    · exact h.subset hx
    · exact hs.joins e he hx

theorem tasked_create (h : Sound host cluster db start)
    (hr : Exec (setWorld conf.mongodbPort host) (createCluster conf fuel cluster)
      ⟨⟨db, []⟩, start⟩ o s) : Tasked db (hostsOf host (db.live cluster)) s :=
  tasked_exec (respects_task (respects_createOperation conf fuel h.reachable h.unsharded)) hr

theorem tasked_grow (h : Sound host cluster db start) {newIds : List String}
    (hnew : newIds ⊆ (db.live cluster).map Instance.id)
    (hr : Exec (setWorld conf.mongodbPort host) (growCluster conf fuel cluster newIds)
      ⟨⟨db, []⟩, start⟩ o s) : Tasked db (hostsOf host (db.live cluster)) s :=
  tasked_exec (respects_task (respects_growOperation_hosts conf fuel h.reachable h.unsharded hnew))
    hr

/-- A task that is reset has seen what it waits for. -/
theorem shown_of_reset (task : Task) (hdb : Reachable db)
    (h : Exec world (task.run conf fuel cluster) ⟨db, []⟩ o s.run)
    {r : Except Error Unit} (hreset : (⟨.resetTask cluster, r⟩ : Event) ∈ s.run.log) :
    task.Shown conf.mongodbPort db cluster s.run.log := by
  rw [task.run_eq] at h
  have hguarded := (triple_runWithTimeout (task.lasting_shown _ db cluster)
    (task.respects_operation conf fuel cluster) (task.raises_operation conf fuel cluster)
    (task.triple_operation conf fuel cluster hdb)).always _ rfl o s.run h
  obtain ⟨pre, post, hlog⟩ := List.append_of_mem hreset
  have hshown := hguarded pre _ post hlog rfl
  rw [hlog]
  exact (task.lasting_shown _ db cluster).append hshown _

/-- A created replica set has all the instances. -/
theorem whole_of_created (h : Sound host cluster db start)
    (hr : Exec (setWorld conf.mongodbPort host) (createCluster conf fuel cluster)
      ⟨⟨db, []⟩, start⟩ o s) {r : Except Error Unit}
    (hreset : (⟨.resetTask cluster, r⟩ : Event) ∈ s.run.log) :
    hostsOf host (s.run.db.live cluster) ⊆ s.members := by
  have hs := tasked_create h hr
  have hshown := shown_of_reset .create h.reachable (exec_run hr) hreset
  obtain ⟨first, -, addresses, haddresses, -, hready⟩ := hshown.topology.sets (db.live cluster)
    (by rw [setsOf, if_neg (by rw [h.unsharded]; decide)]; exact List.mem_singleton_self _)
  rw [hs.live]
  exact (accounted_exec hr).ready hs.leaves haddresses hready

/-- A replica set that has grown keeps its members and has the new instances. -/
theorem whole_of_grown (h : Sound host cluster db start) {newIds : List String}
    (hnew : newIds ⊆ (db.live cluster).map Instance.id)
    (hr : Exec (setWorld conf.mongodbPort host) (growCluster conf fuel cluster newIds)
      ⟨⟨db, []⟩, start⟩ o s) {r : Except Error Unit}
    (hreset : (⟨.resetTask cluster, r⟩ : Event) ∈ s.run.log) :
    start ⊆ s.members ∧ newIds.map host ⊆ s.members := by
  have hs := tasked_grow h hnew hr
  have haccounted := accounted_exec hr
  refine ⟨fun x hx => ?_, ?_⟩
  · rcases haccounted.stayed x hx with hx | ⟨e, he, hx⟩
    · exact hx
    · rw [hs.leaves e he] at hx
      cases hx
  · obtain ⟨news, hgoal⟩ := shown_of_reset (.grow newIds) h.reachable (exec_run hr) hreset
    have hlive : news ⊆ db.live cluster := by
      intro i hi
      have hid : i.id ∈ newIds := hgoal.ids ▸ List.mem_map_of_mem hi
      obtain ⟨j, hj, heq⟩ := List.mem_map.1 (hnew hid)
      rwa [List.inj_on_of_nodup_map h.reachable.nodup (hgoal.exist i hi)
        (List.mem_of_mem_filter hj) heq.symm]
    have hall : isSharded (existingMembers db cluster newIds ++ news) = false :=
      isSharded_of_subset h.unsharded (List.append_subset.2 ⟨List.filter_subset_self _, hlive⟩)
    obtain ⟨first, -, addresses, output, haddresses, -, hready⟩ :=
      hgoal.topology.extended (by rw [hall]; decide)
    have hin := haccounted.ready hs.leaves haddresses hready
    rwa [hostsOf, ← Function.comp_def host, ← List.map_map, hgoal.ids] at hin

end Tasks

/-! ### Requests to grow -/

/-- The cluster has got instances with these ids, and no task was told of them yet. -/
structure GrownBy (db : Database) (cluster : String) (ids : List String) (s : Run) : Prop where
  live : ∃ created, s.db.live cluster = db.live cluster ++ created ∧
    created.map Instance.id = ids ∧ ∀ i ∈ created, i.type = .member
  uncast : ∀ news r, (⟨.castGrowCluster cluster news, r⟩ : Event) ∉ s.log

/-- The cluster has got instances, and the task that is told of instances is told of these. -/
def CastGrown (db : Database) (cluster : String) (s : Run) : Prop :=
  ∃ ids, (∃ created, s.db.live cluster = db.live cluster ++ created ∧
    created.map Instance.id = ids ∧ ∀ i ∈ created, i.type = .member) ∧
    ∀ news r, (⟨.castGrowCluster cluster news, r⟩ : Event) ∈ s.log → news = ids

/-- A call of a grow request that neither creates an instance nor tells the task. -/
def PreparesGrow (cluster : String) (c : Call) : Prop :=
  (c.writes = false ∨ ∃ status, c = .updateDb cluster status) ∧
    ∀ news, c ≠ .castGrowCluster cluster news

theorem GrownBy.cast {db : Database} {ids : List String} {s : Run}
    (h : GrownBy db cluster ids s) : CastGrown db cluster s :=
  ⟨ids, h.live, fun news r hmem => absurd hmem (h.uncast news r)⟩

theorem GrownBy.append {db : Database} {ids : List String} {s : Run}
    (h : GrownBy db cluster ids s) {db' : Database} (hdb : db'.live cluster = s.db.live cluster)
    {e : Event} (he : ∀ news, e.1 ≠ .castGrowCluster cluster news) :
    GrownBy db cluster ids ⟨db', s.log ++ [e]⟩ := by
  refine ⟨by rw [hdb]; exact h.live, fun news r hmem => ?_⟩
  rcases List.mem_append.1 hmem with hmem | hmem
  · exact h.uncast news r hmem
  · exact he news (by rw [← List.mem_singleton.1 hmem])

theorem triple_prepare {α : Type} {p : Action α} {db : Database} {ids : List String}
    (hp : Respects world (GrownBy db cluster ids) (PreparesGrow cluster) p) :
    Triple world (CastGrown db cluster) (GrownBy db cluster ids) p
      (fun _ => GrownBy db cluster ids) fun _ _ => True := by
  have hkeeps : ∀ s c r s', GrownBy db cluster ids s → PreparesGrow cluster c → world s c r s' →
      GrownBy db cluster ids s' := by
    rintro s c r ⟨db', log⟩ hs ⟨hc, hcast⟩ hw
    have hlog : log = s.log ++ [⟨c, r⟩] := world_log hw
    subst hlog
    apply hs.append _ hcast
    rcases hc with hreads | ⟨status, rfl⟩
    · have hdb : db' = s.db := world_reads hw hreads
      rw [hdb]
    · cases r with
      | ok a =>
        have hdb : db' = s.db.setStatus cluster status := hw.1
        rw [hdb, live_setStatus]
      | error x =>
        have hdb : db' = s.db := hw.2.1
        rw [hdb]
  exact ((hp.triple hkeeps).weaken fun _ h => h.cast).consequence (fun _ h => h)
    (fun _ _ h => h) fun _ _ _ => trivial

theorem triple_createAll_grownBy {db : Database} {news : List NewInstance}
    (hnews : ∀ new ∈ news, new.clusterConfig = replicaSetConfig cluster) :
    Triple world (CastGrown db cluster) (GrownBy db cluster []) (createAll news)
      (fun ids => GrownBy db cluster ids) fun _ _ => True := by
  apply triple_collect (J := fun _ ids s => GrownBy db cluster ids s) fun _ _ _ h => h.cast
  intro pre new post ids he
  have hconfig : new.clusterConfig = replicaSetConfig cluster :=
    hnews new (he ▸ List.mem_append_right _ List.mem_cons_self)
  apply triple_ask (c := .createInstance new) fun _ h => h.cast
  · rintro s (id : String) db' h ⟨-, rfl⟩
    obtain ⟨created, hlive, rfl, htype⟩ := h.live
    have hadded : GrownBy db cluster (created.map Instance.id ++ [id])
        ⟨s.db.addInstance id new, s.log ++ [⟨.createInstance new, .ok id⟩]⟩ := by
      constructor
      · refine ⟨created ++ [⟨id, some cluster, new.flavorId, new.volumeSize, new.clusterConfig,
          false⟩], ?_, by simp, ?_⟩
        · rw [live_addInstance _ _ _ (by rw [hconfig]; rfl), hlive, List.append_assoc]
        · intro i hi
          rcases List.mem_append.1 hi with hi | hi
          · exact htype i hi
          · rw [List.mem_singleton.1 hi, Instance.type, hconfig]
            rfl
      · intro news r hmem
        rcases List.mem_append.1 hmem with hmem | hmem
        · exact h.uncast news r hmem
        · cases List.mem_singleton.1 hmem
    exact ⟨hadded, hadded.cast⟩
  · intro s x h _
    exact ⟨trivial, (h.append (e := ⟨.createInstance new, .error x⟩) rfl fun _ h => by cases h).cast⟩

theorem triple_growReplicaSet_cast (self : MongoDbCluster) (existing : List Instance)
    (nodes : List Node) (imageId : Option String) {db : Database} :
    Triple world (CastGrown db self.id) (GrownBy db self.id [])
      (growReplicaSet self existing nodes imageId) (fun _ _ => True) fun _ _ => True := by
  have hwrite (status : TaskStatus) : PreparesGrow self.id (.updateDb self.id status) :=
    ⟨.inr ⟨status, rfl⟩, nofun⟩
  have hhint : PreparesGrow self.id (.convertToHint self.id) := ⟨.inl rfl, nofun⟩
  have hvalidates (c : Call) (hc : c.validates = true) : PreparesGrow self.id c := by
    refine ⟨.inl (Call.not_writes_of_validates hc), ?_⟩
    rintro news rfl
    cases hc
  apply triple_bind (triple_prepare (respects_rejectIf _ _))
  intro _
  apply triple_bind (triple_prepare (respects_ofExcept _))
  intro _
  apply triple_bind (triple_prepare (respects_ask (hwrite _)))
  intro _
  apply triple_bind (triple_prepare (respects_ask hhint))
  intro locality
  apply triple_bind (M := fun ids => GrownBy db self.id ids)
  · apply triple_bind (triple_prepare ((respects_validateMembers _).mono hvalidates))
    intro _
    apply triple_createAll_grownBy
    intro new hnew
    obtain ⟨⟨node, index⟩, -, rfl⟩ := List.mem_map.1 hnew
    rfl
  · intro ids
    have hcast (s : Run) (h : GrownBy db self.id ids s) (r : Except Error Unit) :
        CastGrown db self.id ⟨s.db, s.log ++ [⟨.castGrowCluster self.id ids, r⟩]⟩ := by
      refine ⟨ids, h.live, fun news r' hmem => ?_⟩
      rcases List.mem_append.1 hmem with hmem | hmem
      · exact absurd hmem (h.uncast news r')
      · cases List.mem_singleton.1 hmem
        rfl
    apply triple_ask (c := .castGrowCluster self.id ids) fun _ h => h.cast
    · rintro s a db' h rfl
      exact ⟨trivial, hcast s h _⟩
    · exact fun s x h _ => ⟨trivial, hcast s h _⟩

/-- A call that leaves the set alone. -/
def Call.still (c : Call) : Prop := c.joins = [] ∧ c.leaves = []

theorem respects_growReplicaSet_still {S : Type} {W : World S Call Call.Answer Error}
    {R : S → Prop} (self : MongoDbCluster) (existing : List Instance) (nodes : List Node)
    (imageId : Option String) :
    Respects W R Call.still (growReplicaSet self existing nodes imageId) := by
  have hgrowth (c : Call) (hc : GrowthCall self.id c) : c.still := by
    rcases hc with hc | rfl | ⟨new, rfl, -⟩
    · cases c <;> first
        | exact ⟨rfl, rfl⟩
        | cases hc
    · exact ⟨rfl, rfl⟩
    · exact ⟨rfl, rfl⟩
  refine respects_bind (respects_rejectIf _ _) fun _ => respects_bind (respects_ofExcept _)
    fun _ => respects_bind (respects_ask ⟨rfl, rfl⟩) fun _ => ?_
  refine respects_bind (respects_ask ⟨rfl, rfl⟩) fun locality => ?_
  exact respects_bind ((respects_createInstances _).mono hgrowth) fun _ =>
    respects_ask ⟨rfl, rfl⟩

/-- A request looks the instances up first; those of a replica set are not sharded. -/
theorem triple_unsharded {I : Replicated → Prop} {Post : Unit → Replicated → Prop}
    {p q : List Instance → Action Unit} {db : Database} {start : List String}
    (hset : isSharded (db.live cluster) = false) (hstart : I ⟨⟨db, []⟩, start⟩)
    (hfind : ∀ r members, I ⟨⟨db, [⟨.findInstances cluster, r⟩]⟩, members⟩)
    (hp : Triple (setWorld port host) I
      (fun s => s.run = ⟨db, [⟨.findInstances cluster, .ok (db.live cluster)⟩]⟩)
      (p (db.live cluster)) Post fun _ _ => True) :
    Triple (setWorld port host) I (fun s => s = ⟨⟨db, []⟩, start⟩) (do
      let rows : List Instance ← ask (.findInstances cluster)
      if isSharded rows then q rows else p rows) Post fun _ _ => True := by
  apply triple_bind (M := fun (rows : List Instance) s => rows = db.live cluster ∧
    s.run = ⟨db, [⟨.findInstances cluster, .ok (db.live cluster)⟩]⟩)
  · apply triple_perform
    · rintro s rfl
      exact hstart
    · rintro s rows ⟨⟨db', log⟩, members⟩ rfl ⟨⟨⟨rfl, hdb⟩, hlog⟩, -⟩
      obtain rfl : db' = db := hdb
      obtain rfl : log = _ := hlog
      exact ⟨⟨rfl, rfl⟩, hfind _ members⟩
    · rintro s x ⟨⟨db', log⟩, members⟩ rfl ⟨⟨-, hdb, hlog⟩, -⟩
      obtain rfl : db' = db := hdb
      obtain rfl : log = _ := hlog
      exact ⟨trivial, hfind _ members⟩
  · intro rows
    apply triple_intro
    rintro s₀ ⟨rfl, hs₀⟩
    rw [if_neg (by rw [hset]; decide)]
    exact hp.consequence (fun _ he => he ▸ hs₀) (fun _ _ h => h) fun _ _ h => h

/-- What a request to grow makes of a sound set. -/
structure GrownSet (host : String → String) (cluster : String) (db : Database)
    (start : List String) (s : Replicated) : Prop where
  sound : Sound host cluster s.run.db s.members
  same : ∀ h, h ∈ s.members ↔ h ∈ start
  news : ∀ ids r, (⟨.castGrowCluster cluster ids, r⟩ : Event) ∈ s.run.log →
    ∃ created, s.run.db.live cluster = db.live cluster ++ created ∧ created.map Instance.id = ids

theorem grownSet_of_grow {self : MongoDbCluster} {nodes : List Node} {imageId : Option String}
    {db : Database} {start : List String} {s : Replicated} {o : Outcome Error Unit}
    (h : Sound host self.id db start)
    (hr : Exec (setWorld port host) (grow self nodes imageId) ⟨⟨db, []⟩, start⟩ o s) :
    GrownSet host self.id db start s := by
  have hstart (log : List Event) (hlog : ∀ news r,
      (⟨.castGrowCluster self.id news, r⟩ : Event) ∉ log) : GrownBy db self.id [] ⟨db, log⟩ :=
    ⟨⟨[], (List.append_nil _).symm, rfl, by simp⟩, hlog⟩
  have hcast : CastGrown db self.id s.run :=
    (triple_unsharded (I := fun s => CastGrown db self.id s.run) h.unsharded
      (hstart _ (by simp)).cast (fun _ _ => (hstart _ (by simp)).cast)
      ((triple_withSet (triple_growReplicaSet_cast self _ nodes imageId)).consequence
        (fun s hs => by rw [hs]; exact hstart _ (by simp)) (fun _ _ _ => trivial)
        fun _ _ h => h)).always _ rfl o s hr
  have hstill : Calls Call.still s :=
    (triple_unsharded (I := Calls Call.still) h.unsharded (by simp [Calls])
      (fun _ _ => List.forall_mem_singleton.2 ⟨rfl, rfl⟩)
      ((triple_calls (respects_growReplicaSet_still self _ nodes imageId)).consequence
        (fun s hs => by rw [Calls, hs]; exact List.forall_mem_singleton.2 ⟨rfl, rfl⟩)
        (fun _ _ _ => trivial) fun _ _ h => h)).always _ rfl o s hr
  have haccounted := accounted_exec hr
  have hsame : ∀ x, x ∈ s.members ↔ x ∈ start := by
    intro x
    constructor
    · intro hx
      rcases haccounted.joined x hx with hx | ⟨e, he, hx⟩
      · exact hx
      · rw [(hstill e he).1] at hx
        cases hx
    · intro hx
      rcases haccounted.stayed x hx with hx | ⟨e, he, hx⟩
      · exact hx
      · rw [(hstill e he).2] at hx
        cases hx
  obtain ⟨ids, ⟨created, hlive, hids, htype⟩, hnews⟩ := hcast
  refine ⟨⟨h.reachable.exec (exec_run hr), ?_, fun x hx => ?_⟩, hsame, fun news r hmem => ?_⟩
  · have hset := h.unsharded
    rw [isSharded, List.any_eq_false] at hset
    rw [hlive, isSharded, List.any_append, Bool.or_eq_false_iff, List.any_eq_false,
      List.any_eq_false]
    refine ⟨hset, fun i hi => ?_⟩
    rw [htype i hi]
    decide
  · rw [hlive, hostsOf, List.map_append]
    exact List.mem_append_left _ (h.subset ((hsame x).1 hx))
  · rw [hnews news r hmem]
    exact ⟨created, hlive, hids⟩

end Yggdrasil.Mongo
