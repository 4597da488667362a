import Yggdrasil.Mongo.Viability

/-! Topology operations side by side. Each loads the cluster, finds it available or not, and
only later writes its status; the requests of other clients and the ends of tasks fall in
between. -/

namespace Yggdrasil.Mongo

open Effect Effect.Process

/-! ### The operations -/

/-- A request that changes the topology of a cluster. -/
inductive Request
  | grow (nodes : List Node) (imageId : Option String)
  | shrink (removalIds : List String)

/-- What every request on a cluster has in common. -/
structure Service where
  cluster : String
  projectId : String
  version : DatastoreVersion
  conf : MongoConf

def Service.loaded (service : Service) (row : Cluster) : MongoDbCluster :=
  ⟨row, service.projectId, service.version, service.conf⟩

/-- Load the cluster and change it as requested. -/
def operation (service : Service) (fuel : ℕ) (request : Request) : Action Unit := do
  let row : Cluster ← ask (.loadCluster service.cluster)
  match request with
  | .grow nodes imageId => grow (service.loaded row) nodes imageId
  | .shrink removalIds => shrink fuel (service.loaded row) removalIds

/-- The database all operations share, who has made which call, and whose task has ended. -/
structure Shared (ι : Type) where
  db : Database
  log : List (ι × Event)
  finished : List ι

variable {ι : Type}

/-- A call of one operation. -/
def sharedWorld (i : ι) : World (Shared ι) Call Call.Answer Error :=
  fun s c r s' => world ⟨s.db, []⟩ c r ⟨s'.db, [⟨c, r⟩]⟩ ∧ s'.log = s.log ++ [(i, ⟨c, r⟩)] ∧
    s'.finished = s.finished

/-- The task of a grow ends, which clears the status of the cluster. -/
def TaskEnds (cluster : String) (s s' : Shared ι) : Prop :=
  ∃ i ids, (i, (⟨.castGrowCluster cluster ids, .ok ()⟩ : Event)) ∈ s.log ∧ i ∉ s.finished ∧
    s' = ⟨s.db.setStatus cluster .none, s.log, i :: s.finished⟩

/-- The operation has created an instance with the given configuration. -/
def CreatedBy (i : ι) (config : ClusterConfig) (log : List (ι × Event)) : Prop :=
  ∃ new id, (i, (⟨.createInstance new, .ok id⟩ : Event)) ∈ log ∧ new.clusterConfig = config

/-- Operations exclude each other: while the task of one that has created instances has not
ended, the status says so, and no two operations give a shard the same name. -/
structure Exclusive (cluster : String) (s : Shared ι) : Prop where
  busy : ∀ i config, CreatedBy i config s.log → i ∉ s.finished → s.db.status cluster ≠ some .none
  names : ∀ i j config config', i ≠ j → CreatedBy i config s.log → CreatedBy j config' s.log →
    config.shardId.isSome → config'.shardId.isSome → config.replicaSetName ≠ config'.replicaSetName

/-- The nodes pass the strategy's own checks, so that instances will be created. -/
def Creates (nodes : List Node) : Prop :=
  ∃ replicas routers groups, sortNodes nodes = .ok (replicas, routers) ∧
    groupShardInstances replicas = .ok groups ∧
    (∀ group ∈ groups, minReplicaSetMembers ≤ group.length) ∧ (groups ≠ [] ∨ routers ≠ [])

/-! ### Requests that create nothing -/

section Yields

variable {S : Type} {W : World S Call Call.Answer Error} {R : S → Prop}

theorem yields_validateShardMembers (members : List Node) (conf : MongoConf) :
    Yields W R (fun _ => minReplicaSetMembers ≤ members.length) (validateShardMembers members conf) := by
  unfold validateShardMembers
  apply yields_bind yields_rejectIf
  intro _ hlen
  exact (yields_true _).mono fun _ _ => not_lt.1 hlen

/-- Validation ends well only for nodes that pass the checks, and with their groups. -/
theorem yields_validateShardedGrowth (self : MongoDbCluster) (nodes : List Node) :
    Yields W R (fun plan => Creates nodes ∧ ∃ replicas, sortNodes nodes = .ok (replicas, plan.2) ∧
      groupShardInstances replicas = .ok plan.1) (validateShardedGrowth self nodes) := by
  unfold validateShardedGrowth
  apply yields_bind (N := fun sorted => sortNodes nodes = .ok sorted)
    (yields_ofExcept fun _ h => h)
  rintro ⟨replicas, routers⟩ hsort
  dsimp only
  apply yields_bind (N := fun groups => groupShardInstances replicas = .ok groups)
    (yields_ofExcept fun _ h => h)
  intro groups hgroups
  apply yields_bind (yields_forEach fun group _ => yields_validateShardMembers group self.conf)
  intro _ hlen
  apply yields_bind (yields_true _)
  intro _ _
  apply yields_bind yields_rejectIf
  intro _ hne
  have hcreates : Creates nodes :=
    ⟨replicas, routers, groups, hsort, hgroups, hlen, not_and_or.1 hne⟩
  apply yields_bind (yields_true _)
  intro volumes _
  apply yields_bind (yields_true _)
  exact fun _ _ => ⟨hcreates, replicas, hsort, hgroups⟩

end Yields

/-- A call that neither creates an instance nor hands a task over. -/
def Call.quiet : Call → Bool
  | .createInstance _ => false
  | .castGrowCluster .. => false
  | _ => true

theorem Call.quiet_of_inquires {c : Call} (h : c.inquires = true) : c.quiet = true := by
  cases c <;> simp_all [inquires, quiet]

theorem Call.quiet_of_validates {c : Call} (h : c.validates = true) : c.quiet = true := by
  cases c <;> simp_all [validates, quiet]

/-- Nothing has been created, and the database satisfies `K`. -/
structure Still (K : Database → Prop) (s : Shared ι) : Prop where
  quiet : ∀ p ∈ s.log, p.2.1.quiet = true
  db : K s.db

theorem Still.exclusive {K : Database → Prop} {s : Shared ι} (h : Still K s) (cluster : String) :
    Exclusive cluster s := by
  have hnone : ∀ i config, ¬CreatedBy i config s.log := by
    rintro i config ⟨new, id, hmem, -⟩
    cases h.quiet _ hmem
  exact ⟨fun i config hc => absurd hc (hnone i config),
    fun i j config config' _ hc => absurd hc (hnone i config)⟩

/-- Operations that create nothing and keep `K` exclude each other. -/
theorem exclusive_of_respects [DecidableEq ι] {K : Database → Prop} {G : Call → Prop}
    (hG : ∀ db c a db', K db → G c → Database.Step db c a db' → K db')
    {P Q : Pool ι (Shared ι) Call Call.Answer Error Unit} {cluster : String}
    (hreach : Pool.Reach sharedWorld (TaskEnds cluster) P Q) (hstart : Still K P.shared)
    (hP : ∀ i, Respects (sharedWorld i) (Still K) (fun c => c.quiet = true ∧ G c) (P.process i)) :
    Exclusive cluster Q.shared := by
  have hstill : Still K Q.shared := by
    refine (hreach.respects (fun i s c r s' hs hc hw => ?_) (fun s s' hs hends => ?_) hstart hP).1
    · obtain ⟨hworld, hlog, -⟩ := hw
      constructor
      · rw [hlog]
        intro p hp
        rcases List.mem_append.1 hp with hp | hp
        · exact hs.quiet p hp
        · rw [List.mem_singleton.1 hp]
          exact hc.1
      · cases r with
        | ok a => exact hG s.db c a s'.db hs.db hc.2 hworld.1
        | error x =>
          have hsame : s'.db = s.db := hworld.2.1
          rw [hsame]
          exact hs.db
    · obtain ⟨i, ids, hmem, -⟩ := hends
      cases hs.quiet _ hmem
  exact hstill.exclusive cluster

/-! ### A cluster that is not available -/

theorem Database.Step.nodup_clusters {db db' : Database} {c : Call} {a : c.Answer}
    (hs : db.Step c a db') (h : (db.clusters.map Cluster.id).Nodup) :
    (db'.clusters.map Cluster.id).Nodup := by
  have hset : ∀ cluster status, (db.setStatus cluster status).clusters.map Cluster.id =
      db.clusters.map Cluster.id := by
    intro cluster status
    unfold Database.setStatus
    rw [List.map_map]
    refine List.map_congr_left fun c _ => ?_
    dsimp only [Function.comp]
    split_ifs <;> rfl
  cases hw : c.writes with
  | false => rwa [hs.eq_of_not_writes hw]
  | true =>
    cases c with
    | createCluster new =>
      rw [hs.2]
      unfold Database.addCluster
      rw [List.map_append, List.nodup_append]
      refine ⟨h, List.nodup_singleton _, ?_⟩
      intro id hid id' hid' he
      obtain ⟨row, hrow, rfl⟩ := List.mem_map.1 hid
      rw [List.map_singleton, List.mem_singleton] at hid'
      exact hs.1 row hrow (he.trans hid')
    | createInstance new => rwa [hs.2]
    | updateDb cluster status => rwa [hs, hset]
    | resetTask cluster => rwa [hs, hset]
    | detach id => rwa [hs]
    | delete id => rwa [hs]
    | _ => cases hw

theorem Reachable.nodup_clusters {db : Database} (h : Reachable db) :
    (db.clusters.map Cluster.id).Nodup := by
  induction h with
  | empty => exact List.nodup_nil
  | step _ hs ih => exact hs.nodup_clusters ih

/-- The row of a cluster shows its status. -/
theorem status_of_mem {db : Database} (hnd : (db.clusters.map Cluster.id).Nodup) {row : Cluster}
    (hrow : row ∈ db.clusters) : db.status row.id = some row.taskStatus := by
  unfold Database.status
  have hfind : db.clusters.find? (fun c => c.id = row.id) = some row := by
    cases hf : db.clusters.find? fun c => c.id = row.id with
    | none =>
      have hne := List.find?_eq_none.1 hf row hrow
      simp at hne
    | some other =>
      have hid : other.id = row.id := by simpa using List.find?_some hf
      rw [List.inj_on_of_nodup_map hnd (List.mem_of_find?_eq_some hf) hrow hid]
  rw [hfind]
  rfl

/-- The cluster has another status than none. -/
structure Busy (cluster : String) (db : Database) : Prop where
  status : db.status cluster ≠ some .none
  nodup : (db.clusters.map Cluster.id).Nodup

section Respects

variable (service : Service) (fuel : ℕ) (i : ι)

/-- An unavailable cluster refuses every request. -/
theorem respects_operation_busy (request : Request) :
    Respects (sharedWorld i) (Still (Busy service.cluster))
      (fun c => c.quiet = true ∧ c.writes = false) (operation service fuel request) := by
  apply respects_perform_bind ⟨rfl, rfl⟩
  rintro s (row : Cluster) s' hs ⟨⟨⟨hrow, hid, -⟩, -⟩, -⟩
  have hstatus : row.taskStatus ≠ .none := by
    intro hnone
    apply hs.db.status
    have h := status_of_mem hs.db.nodup hrow
    rw [hid] at h
    rw [h, hnone]
  have hrefuses : validateClusterAvailable (service.loaded row) =
      reject (.unavailable row.taskStatus) := if_pos hstatus
  cases request with
  | grow nodes imageId =>
    apply respects_bind (respects_ask ⟨rfl, rfl⟩)
    intro existing
    apply respects_ite
    · intro _
      unfold growSharded
      rw [hrefuses]
      trivial
    · intro _
      unfold growReplicaSet
      rw [hrefuses]
      trivial
  | shrink removalIds =>
    apply respects_bind (respects_ask ⟨rfl, rfl⟩)
    intro existing
    apply respects_ite
    · intro _
      unfold shrinkSharded
      rw [hrefuses]
      trivial
    · intro _
      unfold shrinkReplicaSet
      rw [hrefuses]
      trivial

end Respects

/-! ### Requests that do not pass the checks -/

/-- The database still has a given config server of the cluster. -/
structure Sharded (cluster : String) (server : Instance) (db : Database) : Prop where
  reachable : Reachable db
  live : server ∈ db.live cluster
  type : server.type = .configServer

/-- The calls that leave an instance where it is. -/
def Spares (server : Instance) (c : Call) : Prop := c ≠ .detach server.id ∧ c ≠ .delete server.id

theorem Database.Step.sharded {db db' : Database} {c : Call} {a : c.Answer} {cluster : String}
    {server : Instance} (h : Sharded cluster server db) (hc : Spares server c)
    (hs : db.Step c a db') : Sharded cluster server db' := by
  refine ⟨.step h.reachable hs, ?_, h.type⟩
  have hmem := h.live
  cases hw : c.writes with
  | false => rwa [hs.eq_of_not_writes hw]
  | true =>
    cases c with
    | createCluster new =>
      rw [hs.2]
      exact hmem
    | createInstance new =>
      rw [hs.2]
      unfold Database.live Database.addInstance
      rw [List.filter_append]
      exact List.mem_append_left _ hmem
    | updateDb id status =>
      rw [hs]
      exact hmem
    | resetTask id =>
      rw [hs]
      exact hmem
    | detach id =>
      have hne : server.id ≠ id := fun he => hc.1 (by rw [he])
      rw [hs, live_detach]
      exact List.mem_filter.2 ⟨hmem, by simpa using hne⟩
    | delete id =>
      have hne : server.id ≠ id := fun he => hc.2 (by rw [he])
      rw [hs, live_delete]
      exact List.mem_filter.2 ⟨hmem, by simpa using hne⟩
    | _ => cases hw

theorem isSharded_of_mem {instances : List Instance} {server : Instance} (h : server ∈ instances)
    (htype : server.type = .configServer) : isSharded instances = true := by
  unfold isSharded
  exact List.any_eq_true.2 ⟨server, h, by simp [htype]⟩

section Respects

variable (service : Service) (fuel : ℕ) (i : ι) {server : Instance}

theorem spares_of_inquires {c : Call} (h : c.inquires = true) :
    c.quiet = true ∧ Spares server c := by
  refine ⟨Call.quiet_of_inquires h, ?_, ?_⟩ <;>
  · rintro rfl
    cases h

theorem spares_of_validates {c : Call} (h : c.validates = true) :
    c.quiet = true ∧ Spares server c := by
  refine ⟨Call.quiet_of_validates h, ?_, ?_⟩ <;>
  · rintro rfl
    cases h

/-- A grow whose nodes do not pass the checks creates nothing. -/
theorem respects_growSharded_refused {R : Shared ι → Prop} {self : MongoDbCluster}
    {existing : List Instance} {nodes : List Node} {imageId : Option String} (hn : ¬Creates nodes) :
    Respects (sharedWorld i) R (fun c => c.quiet = true ∧ Spares server c)
      (growSharded self existing nodes imageId) := by
  unfold growSharded
  apply respects_bind (respects_rejectIf _ _)
  intro _
  apply respects_bind (respects_ask ⟨rfl, by simp [Spares]⟩)
  intro locality
  have hvalid : Respects (sharedWorld i) R (fun c => c.quiet = true ∧ Spares server c)
      (createShardedInstances self locality imageId existing nodes) := by
    unfold createShardedInstances
    exact respects_bind_of_yields ((respects_validateShardedGrowth self nodes).mono
      fun _ => spares_of_validates) (yields_validateShardedGrowth self nodes) fun _ h => absurd h.1 hn
  have hraises : Yields (sharedWorld i) R (fun _ => False)
      (createShardedInstances self locality imageId existing nodes) := by
    unfold createShardedInstances
    exact yields_bind (yields_validateShardedGrowth self nodes) fun _ h => absurd h.1 hn
  apply respects_bind_of_yields (M := fun _ => False)
  · apply respects_exceptException hvalid
    intro x
    exact respects_bind (respects_ask ⟨rfl, by simp [Spares]⟩) fun _ => respects_raise _
  · apply yields_handle hraises
    intro x
    cases x with
    | timeout own => trivial
    | _ => exact yields_bind (yields_true _) fun _ _ => trivial
  · exact fun _ h => h.elim

/-- A shrink removes no config server of a list that shows it. -/
theorem respects_shrinkSharded_spares (self : MongoDbCluster) (removalIds : List String) :
    Respects (sharedWorld i) (Still (Sharded self.id server))
      (fun c => c.quiet = true ∧ Spares server c) (shrinkSharded fuel self removalIds) := by
  unfold shrinkSharded
  apply respects_bind (respects_rejectIf _ _)
  intro _
  apply respects_perform_bind ⟨rfl, by simp [Spares]⟩
  rintro s (rows : List Instance) s' hs ⟨⟨⟨rfl, -⟩, -⟩, -⟩
  cases hplan : planShrinkSharded (s.db.live self.id) removalIds with
  | error x => trivial
  | ok plan =>
    have haccepted := planShrinkSharded_accepted (hs.db.reachable.nodup_live _) hplan
    have hserver := haccepted.configServers server hs.db.live hs.db.type
    apply respects_bind (respects_ask ⟨rfl, by simp [Spares]⟩)
    intro _
    apply respects_ensure ?_ (respects_ask ⟨rfl, by simp [Spares]⟩)
    apply respects_bind
    · exact respects_forEach fun target _ => (respects_drainTarget _ _ _ target).mono
        fun _ => spares_of_inquires
    · intro _
      apply respects_forEach
      intro id hid
      have hne : id ≠ server.id := fun he => hserver (he ▸ hid)
      apply respects_bind (respects_ask (spares_of_inquires rfl))
      intro _
      apply respects_bind (respects_ask ⟨rfl, by simpa [Spares] using hne⟩)
      exact fun _ => respects_ask ⟨rfl, by simpa [Spares] using hne⟩

/-- Without a grow that passes the checks, nothing is created. -/
theorem respects_operation_refused (request : Request)
    (hrequest : ∀ nodes imageId, request = .grow nodes imageId → ¬Creates nodes) :
    Respects (sharedWorld i) (Still (Sharded service.cluster server))
      (fun c => c.quiet = true ∧ Spares server c) (operation service fuel request) := by
  apply respects_perform_bind ⟨rfl, by simp [Spares]⟩
  rintro s (row : Cluster) s' hs ⟨⟨⟨-, hid, -⟩, -⟩, -⟩
  have hself : (service.loaded row).id = service.cluster := hid
  cases request with
  | grow nodes imageId =>
    apply respects_perform_bind ⟨rfl, by simp [Spares]⟩
    rintro s₁ (rows : List Instance) s₂ hs₁ ⟨⟨⟨rfl, -⟩, -⟩, -⟩
    rw [hself, if_pos (isSharded_of_mem hs₁.db.live hs₁.db.type)]
    exact respects_growSharded_refused i (hrequest nodes imageId rfl)
  | shrink removalIds =>
    apply respects_perform_bind ⟨rfl, by simp [Spares]⟩
    rintro s₁ (rows : List Instance) s₂ hs₁ ⟨⟨⟨rfl, -⟩, -⟩, -⟩
    rw [hself, if_pos (isSharded_of_mem hs₁.db.live hs₁.db.type)]
    rw [← hself]
    exact respects_shrinkSharded_spares fuel i (service.loaded row) removalIds

end Respects

/-! ### A grow up to its first instance -/

section Passes

variable {i : ι} {db : Database} {α β : Type}

/-- The action can return `a` without changing the database. -/
def Passes (i : ι) (db : Database) (p : Action α) (a : α) : Prop :=
  ∀ log finished, ∃ log', Exec (sharedWorld i) p ⟨db, log, finished⟩ (.value a) ⟨db, log', finished⟩

theorem passes_pure (a : α) : Passes i db (pure a) a := fun log _ => ⟨log, .ret a _⟩

theorem passes_bind {p : Action α} {f : α → Action β} {a : α} {b : β} (hp : Passes i db p a)
    (hf : Passes i db (f a) b) : Passes i db (p >>= f) b := by
  intro log finished
  obtain ⟨log₁, h₁⟩ := hp log finished
  obtain ⟨log₂, h₂⟩ := hf log₁ finished
  exact ⟨log₂, h₁.bind h₂⟩

theorem passes_ask {c : Call} {a : c.Answer} (h : db.Step c a db) : Passes i db (ask c) a :=
  fun log _ => ⟨log ++ [(i, ⟨c, .ok a⟩)], .perform ⟨⟨h, rfl⟩, rfl, rfl⟩⟩

theorem passes_rejectIf {c : Prop} [Decidable c] {r : Rejection} (hc : ¬c) :
    Passes i db (rejectIf c r) () := by
  unfold rejectIf
  rw [if_neg hc]
  exact passes_pure ()

theorem passes_check (c : Check) : Passes i db (check c) () :=
  passes_bind (passes_ask (c := .check c) (a := (none : Option String)) rfl) (passes_pure ())

theorem passes_forEach {f : α → Action Unit} {l : List α} (hf : ∀ a ∈ l, Passes i db (f a) ()) :
    Passes i db (forEach l f) () := by
  unfold forEach
  induction l with
  | nil => exact passes_pure ()
  | cons a l ih =>
    rw [List.foldlM_cons]
    exact passes_bind (hf a List.mem_cons_self) (ih fun b hb => hf b (List.mem_cons_of_mem _ hb))

theorem passes_validateShardMembers {members : List Node} (conf : MongoConf)
    (h : minReplicaSetMembers ≤ members.length) :
    Passes i db (validateShardMembers members conf) () :=
  passes_bind (passes_rejectIf (not_lt.2 h)) <| passes_bind (passes_check _) <|
    passes_bind (passes_check _) (passes_check _)

/-- When stock Trove has no objection, nodes that pass the checks are accepted. -/
theorem passes_validateShardedGrowth (self : MongoDbCluster) {nodes replicas routers : List Node}
    {groups : List (List Node)} (hsort : sortNodes nodes = .ok (replicas, routers))
    (hgroups : groupShardInstances replicas = .ok groups)
    (hlen : ∀ group ∈ groups, minReplicaSetMembers ≤ group.length)
    (hne : groups ≠ [] ∨ routers ≠ []) :
    Passes i db (validateShardedGrowth self nodes) (groups, routers) := by
  unfold validateShardedGrowth
  rw [hsort]
  simp only [ofExcept, pure_eq, ret_bind, hgroups]
  apply passes_bind (passes_forEach fun group hg => passes_validateShardMembers _ (hlen group hg))
  apply passes_bind (passes_forEach fun router _ => passes_bind (passes_check _) (passes_check _))
  apply passes_bind (passes_rejectIf (not_and_or.2 hne))
  have hvolume : Passes i db (requiredVolumeSize ((replicas ++ routers).map Node.volumeSize)
      self.conf.volumeSupport) none :=
    passes_bind (passes_ask (c := .requiredVolumeSize _ _) (a := (.inr none : String ⊕ Option ℤ)) rfl)
      (passes_pure none)
  apply passes_bind hvolume
  exact passes_bind (passes_check _) (passes_pure _)

/-- There is always a name that is not in use. -/
theorem exists_fresh (used : List String) : ∃ name, name ∉ used := by
  have hinj : Function.Injective fun n : ℕ => String.ofList (List.replicate n 'a') := by
    intro m n h
    have hlen := congrArg (fun s : String => s.toList.length) h
    simpa using hlen
  have hnd : ((List.range (used.length + 1)).map fun n =>
      String.ofList (List.replicate n 'a')).Nodup := List.nodup_range.map hinj
  obtain ⟨name, -, hname⟩ := exists_notMem_of_length_lt hnd (r := used) (by simp)
  exact ⟨name, hname⟩

/-- The action can be on its way with its first instance just created. -/
def Starts (i : ι) (db : Database) (p : Action α) : Prop :=
  ∀ log finished, ∃ new id log',
    Exec (sharedWorld i) p ⟨db, log, finished⟩ .running ⟨db.addInstance id new, log', finished⟩ ∧
      (i, (⟨.createInstance new, .ok id⟩ : Event)) ∈ log'

theorem starts_of_passes {p : Action α} {f : α → Action β} {a : α} (hp : Passes i db p a)
    (hf : Starts i db (f a)) : Starts i db (p >>= f) := by
  intro log finished
  obtain ⟨log₁, h₁⟩ := hp log finished
  obtain ⟨new, id, log₂, h₂, hmem⟩ := hf log₁ finished
  exact ⟨new, id, log₂, h₁.bind h₂, hmem⟩

theorem starts_bind {p : Action α} (f : α → Action β) (hp : Starts i db p) :
    Starts i db (p >>= f) := by
  intro log finished
  obtain ⟨new, id, log', h, hmem⟩ := hp log finished
  exact ⟨new, id, log', h.bind_running, hmem⟩

theorem starts_exceptException {p : Action α} (h : Error → Action α) (hp : Starts i db p) :
    Starts i db (exceptException p h) := by
  intro log finished
  obtain ⟨new, id, log', h, hmem⟩ := hp log finished
  exact ⟨new, id, log', h.handle_running, hmem⟩

theorem starts_createInstance (new : NewInstance) : Starts i db (ask (.createInstance new)) := by
  intro log finished
  obtain ⟨id, hid⟩ := exists_fresh (db.instances.map Instance.id)
  have hfresh : ∀ i ∈ db.instances, i.id ≠ id := fun i hi he =>
    hid (he ▸ List.mem_map_of_mem hi)
  refine ⟨new, id, log ++ [(i, ⟨.createInstance new, .ok id⟩)], ?_, ?_⟩
  · have hcreate : sharedWorld i ⟨db, log, finished⟩ (.createInstance new) (.ok id)
        ⟨db.addInstance id new, log ++ [(i, ⟨.createInstance new, .ok id⟩)], finished⟩ :=
      ⟨⟨⟨hfresh, rfl⟩, rfl⟩, rfl, rfl⟩
    exact .call hcreate (.stop (.ret id) _)
  · exact List.mem_append_right _ (List.mem_singleton_self _)

theorem starts_createAll {news : List NewInstance} (hne : news ≠ []) :
    Starts i db (createAll news) := by
  cases news with
  | nil => exact absurd rfl hne
  | cons new news =>
    unfold createAll collect
    rw [List.foldlM_cons]
    exact starts_bind _ (starts_bind _ (starts_createInstance new))

theorem passes_generateUuid : ∃ id, Passes i db (ask .generateUuid) id := by
  obtain ⟨id, hid⟩ := exists_fresh (db.instances.filterMap Instance.shardId)
  refine ⟨id, passes_ask (c := .generateUuid) ⟨fun i hi he => hid ?_, rfl⟩⟩
  exact List.mem_filterMap.2 ⟨i, hi, he⟩

section Sharded

variable (self : MongoDbCluster) (locality imageId : Option String)

theorem starts_createShards (number : ℕ) {groups : List (List Node)} (hne : groups ≠ [])
    (hlen : ∀ group ∈ groups, minReplicaSetMembers ≤ group.length) :
    Starts i db (createShards self locality imageId number groups) := by
  cases groups with
  | nil => exact absurd rfl hne
  | cons group groups =>
    unfold createShards
    rw [List.zipIdx_cons, List.foldlM_cons]
    obtain ⟨shardId, hshardId⟩ : ∃ id, Passes i db (ask .generateUuid) id := passes_generateUuid
    have hmembers : grownMembers self locality imageId shardId number group ≠ [] := by
      have hgroup := hlen group List.mem_cons_self
      cases group with
      | nil => exact absurd hgroup (by decide)
      | cons node nodes => simp [grownMembers]
    exact starts_bind _ (starts_of_passes hshardId (starts_bind _ (starts_createAll hmembers)))

theorem starts_createShardedInstances {existing : List Instance} {nodes : List Node}
    (hcreates : Creates nodes) :
    Starts i db (createShardedInstances self locality imageId existing nodes) := by
  obtain ⟨replicas, routers, groups, hsort, hgroups, hlen, hne⟩ := hcreates
  unfold createShardedInstances
  apply starts_of_passes (passes_validateShardedGrowth self hsort hgroups hlen hne)
  dsimp only
  by_cases hg : groups = []
  · have hrouters := hne.resolve_left fun h => h hg
    rw [hg]
    apply starts_of_passes (passes_pure [])
    apply starts_bind
    apply starts_createAll
    simpa [grownRouters, List.zipIdx_eq_nil_iff] using hrouters
  · exact starts_bind _ (starts_createShards self locality imageId _ hg hlen)

end Sharded

/-- An idle sharded cluster lets a grow start that passes the checks. -/
theorem starts_operation (service : Service) (fuel : ℕ) {nodes : List Node}
    (imageId : Option String) {server : Instance} (hcreates : Creates nodes)
    (hserver : server ∈ db.live service.cluster) (htype : server.type = .configServer)
    (hidle : db.status service.cluster = some .none) :
    Starts i db (operation service fuel (.grow nodes imageId)) := by
  obtain ⟨row, hfind, hstatus⟩ := Option.map_eq_some_iff.1 hidle
  have hid : row.id = service.cluster := by simpa using List.find?_some hfind
  apply starts_of_passes (passes_ask (c := .loadCluster service.cluster) (a := row)
    ⟨List.mem_of_find?_eq_some hfind, hid, rfl⟩)
  have hself : (service.loaded row).id = service.cluster := hid
  apply starts_of_passes (passes_ask (c := .findInstances (service.loaded row).id)
    (a := db.live (service.loaded row).id) ⟨rfl, rfl⟩)
  rw [hself, if_pos (isSharded_of_mem hserver htype)]
  unfold growSharded
  apply starts_of_passes (passes_rejectIf (not_not.2 hstatus))
  apply starts_of_passes (passes_ask (c := .convertToHint _) (a := (none : Option String)) rfl)
  exact starts_bind _ (starts_exceptException _ (starts_createShardedInstances _ _ _ hcreates))

end Passes

/-! ### All interleavings -/

/-- The operations of a service, about to begin. -/
def operations (service : Service) (fuel : ℕ) (requests : ι → Request) (db : Database) :
    Pool ι (Shared ι) Call Call.Answer Error Unit :=
  ⟨fun i => operation service fuel (requests i), ⟨db, [], []⟩⟩

/-- A grow that gets as far as its first instance shows an idle cluster. -/
theorem exists_not_exclusive [DecidableEq ι] (service : Service) (fuel : ℕ)
    (requests : ι → Request) {db : Database} {server : Instance} {i : ι} {nodes : List Node}
    {imageId : Option String} (hserver : server ∈ db.live service.cluster)
    (htype : server.type = .configServer) (hidle : db.status service.cluster = some .none)
    (hrequest : requests i = .grow nodes imageId) (hcreates : Creates nodes) :
    ∃ Q, Pool.Reach sharedWorld (TaskEnds service.cluster)
      (operations service fuel requests db) Q ∧ ¬Exclusive service.cluster Q.shared := by
  obtain ⟨new, id, log, hexec, hmem⟩ :=
    starts_operation (i := i) service fuel imageId hcreates hserver htype hidle [] []
  have hprocess : (operations service fuel requests db).process i =
      operation service fuel (.grow nodes imageId) := congrArg (operation service fuel) hrequest
  obtain ⟨Q, hreach, hshared, -⟩ :=
    hexec.reach (V := TaskEnds service.cluster) hprocess rfl
  refine ⟨Q, hreach, fun h => ?_⟩
  rw [hshared] at h
  exact h.busy i new.clusterConfig ⟨new, id, hmem, rfl⟩ List.not_mem_nil hidle

/-- Operations on a sharded cluster exclude each other in every order of their calls exactly
if the cluster is not idle or none of them is a grow that passes the checks. -/
theorem exclusive_iff [DecidableEq ι] (service : Service) (fuel : ℕ) (requests : ι → Request)
    (db : Database) (server : Instance) (hdb : Reachable db)
    (hserver : server ∈ db.live service.cluster) (htype : server.type = .configServer) :
    (∀ Q, Pool.Reach sharedWorld (TaskEnds service.cluster)
      (operations service fuel requests db) Q → Exclusive service.cluster Q.shared) ↔
    (db.status service.cluster ≠ some .none ∨
      ∀ i nodes imageId, requests i = .grow nodes imageId → ¬Creates nodes) := by
  constructor
  · intro h
    by_contra hnot
    obtain ⟨hidle, hgrow⟩ := not_or.1 hnot
    push Not at hidle hgrow
    obtain ⟨i, nodes, imageId, hrequest, hcreates⟩ := hgrow
    obtain ⟨Q, hreach, hQ⟩ := exists_not_exclusive service fuel requests hserver htype hidle
      hrequest hcreates
    exact hQ (h Q hreach)
  · rintro (hbusy | hrefused) Q hreach
    · exact exclusive_of_respects (K := Busy service.cluster) (G := fun c => c.writes = false)
        (fun db c a db' hK hc hs => by rwa [hs.eq_of_not_writes hc]) hreach
        ⟨by simp [operations], hbusy, hdb.nodup_clusters⟩
        fun i => respects_operation_busy service fuel i (requests i)
    · exact exclusive_of_respects (K := Sharded service.cluster server) (G := Spares server)
        (fun db c a db' hK hc hs => hs.sharded hK hc) hreach
        ⟨by simp [operations], hdb, hserver, htype⟩
        fun i => respects_operation_refused service fuel i (requests i) (hrefused i)

section Example

private def service : Service := ⟨"cluster5", "p1", oneShard.version, oneShard.conf⟩

private def configServer : Instance :=
  ⟨"instance9", some "cluster5", "small", some 10, configServerConfig "cluster5", false⟩

private theorem configServer_live : configServer ∈ twoShardsDatabase.live "cluster5" :=
  List.mem_of_getElem? (i := 2) rfl

private theorem creates_shardNodes : Creates shardNodes :=
  ⟨shardNodes, [], [shardNodes], rfl, rfl, by decide, .inl (by decide)⟩

/-- Two grows of an idle cluster. -/
theorem twoGrows_iff :
    (∀ Q, Pool.Reach sharedWorld (TaskEnds "cluster5")
      (operations service 1 (fun _ : Bool => .grow shardNodes none) twoShardsDatabase) Q →
        Exclusive "cluster5" Q.shared) ↔
    (twoShardsDatabase.status "cluster5" ≠ some .none ∨
      ∀ (_ : Bool) nodes imageId, Request.grow shardNodes none = .grow nodes imageId →
        ¬Creates nodes) :=
  exclusive_iff service 1 (fun _ : Bool => .grow shardNodes none) twoShardsDatabase configServer
    reachable_twoShards configServer_live rfl

/-- The first of them has created an instance, and the cluster still looks idle. -/
theorem twoGrows_not_exclusive :
    ¬∀ (service : Service) (fuel : ℕ) (requests : Bool → Request) (db : Database)
      (server : Instance), Reachable db → server ∈ db.live service.cluster →
      server.type = .configServer → ∀ Q, Pool.Reach sharedWorld (TaskEnds service.cluster)
        (operations service fuel requests db) Q → Exclusive service.cluster Q.shared := by
  intro h
  obtain ⟨Q, hreach, hQ⟩ := exists_not_exclusive (i := true) service 1
    (fun _ => .grow shardNodes none) configServer_live rfl rfl rfl creates_shardNodes
  exact hQ (h service 1 _ twoShardsDatabase configServer reachable_twoShards configServer_live rfl Q
    hreach)

end Example

end Yggdrasil.Mongo
