import Yggdrasil.Mongo.Exclusion

/-! Replica-set names over the life of a sharded cluster. A grow numbers its shards from the
count of the shards that there are, so that a name is new only if no live shard has it. -/

namespace Yggdrasil.Mongo

open Effect Effect.Process

/-- Shards of one replica-set name are one shard. -/
def DistinctNames (instances : List Instance) : Prop :=
  ∀ i ∈ instances, ∀ j ∈ instances, i.type = .member → j.type = .member →
    i.config.replicaSetName = j.config.replicaSetName → i.shardId = j.shardId

/-- No live shard has a name that the request gives to a new one. -/
def FreeNames (live : List Instance) : Request → Prop
  | .grow nodes _ => ∀ replicas routers groups, sortNodes nodes = .ok (replicas, routers) →
    groupShardInstances replicas = .ok groups → ∀ k < groups.length, ∀ i ∈ live, i.type = .member →
      i.config.replicaSetName ≠ some (shardName ((shardIds live).length + 1 + k))
  | .shrink _ => True

/-- The databases of a sharded cluster's life: it is created under a name that no instance has,
requests are answered one after another, and what happens in between leaves its instances alone. -/
inductive Lifetime (ok : List Instance → Request → Prop) (cluster : String) : Database → Prop
  | created {r : CreateRequest} {s s' : Run} (hdb : Reachable s.db)
      (hnew : s.db.live cluster = [])
      (htopology : topology r.extendedProperties = .ok shardedTopology)
      (hr : Exec world (create r) s (.value cluster) s') : Lifetime ok cluster s'.db
  | changed {service : Service} {fuel : ℕ} {request : Request} {s s' : Run}
      (h : Lifetime ok cluster s.db) (hservice : service.cluster = cluster)
      (hok : ok (s.db.live cluster) request)
      (hr : Exec world (operation service fuel request) s (.value ()) s') :
      Lifetime ok cluster s'.db
  | elsewhere {db db' : Database} (h : Lifetime ok cluster db) (hdb : Reachable db')
      (hlive : db'.live cluster = db.live cluster) : Lifetime ok cluster db'

/-! ### Names of added shards -/

theorem shardName_injective : Function.Injective shardName := by
  intro m n h
  have hlist : "rs".toList ++ (toString m).toList = "rs".toList ++ (toString n).toList := by
    rw [← String.toList_append, ← String.toList_append]
    exact congrArg String.toList h
  have hdigits := List.append_cancel_left hlist
  rw [Nat.toString_eq_repr, Nat.toString_eq_repr, Nat.toList_repr, Nat.toList_repr] at hdigits
  calc m = Nat.ofDigitChars 10 (Nat.toDigits 10 m) 0 := Nat.ofDigitChars_ten_toDigits.symm
    _ = Nat.ofDigitChars 10 (Nat.toDigits 10 n) 0 := by rw [hdigits]
    _ = n := Nat.ofDigitChars_ten_toDigits

/-- What holds of the live instances throughout. -/
structure Named (live : List Instance) : Prop where
  distinct : DistinctNames live
  server : ∃ i ∈ live, i.type = .configServer

theorem DistinctNames.mono {live live' : List Instance} (h : DistinctNames live)
    (hsub : live' ⊆ live) : DistinctNames live' :=
  fun i hi j hj => h i (hsub hi) j (hsub hj)

/-- A shard with a name of its own may be added. -/
theorem DistinctNames.add_shard {live created : List Instance} {shard : Option String}
    {name : Option String} (h : DistinctNames live)
    (hcreated : ∀ i ∈ created, i.type = .member →
      i.shardId = shard ∧ i.config.replicaSetName = name)
    (hfree : ∀ i ∈ live, i.type = .member → i.config.replicaSetName ≠ name) :
    DistinctNames (live ++ created) := by
  intro i hi j hj hti htj hname
  rcases List.mem_append.1 hi with hi | hi <;> rcases List.mem_append.1 hj with hj | hj
  · exact h i hi j hj hti htj hname
  · exact absurd (hname.trans (hcreated j hj htj).2) (hfree i hi hti)
  · exact absurd (hname.symm.trans (hcreated i hi hti).2) (hfree j hj htj)
  · rw [(hcreated i hi hti).1, (hcreated j hj htj).1]

/-- The instances while shards are added, numbered from `number`. -/
structure Growing (start : List Instance) (number done : ℕ) (live : List Instance) : Prop where
  named : Named live
  known : ∀ i ∈ live, i.type = .member →
    i ∈ start ∨ ∃ k < done, i.config.replicaSetName = some (shardName (number + k))

theorem Growing.add_shard {start live created : List Instance} {number done : ℕ}
    {cluster shard : String} (h : Growing start number done live)
    (hfree : ∀ i ∈ start, i.type = .member →
      i.config.replicaSetName ≠ some (shardName (number + done)))
    (hcreated : ∀ i ∈ created, i.config = shardMemberConfig cluster shard
      (shardName (number + done))) : Growing start number (done + 1) (live ++ created) := by
  obtain ⟨⟨hdistinct, server, hserver, htype⟩, hknown⟩ := h
  refine ⟨⟨?_, server, List.mem_append_left _ hserver, htype⟩, ?_⟩
  · have hshard : ∀ i ∈ created, i.type = .member → i.shardId = some shard ∧
        i.config.replicaSetName = some (shardName (number + done)) := by
      intro i hi _
      rw [Instance.shardId, hcreated i hi]
      exact ⟨rfl, rfl⟩
    · apply hdistinct.add_shard hshard
      intro i hi hti hname
      rcases hknown i hi hti with hstart | ⟨k, hk, hki⟩
      · exact hfree i hstart hti hname
      · have hnumber := shardName_injective (Option.some.inj (hki.symm.trans hname))
        omega
  · intro i hi hti
    rcases List.mem_append.1 hi with hi | hi
    · rcases hknown i hi hti with hstart | ⟨k, hk, hki⟩
      · exact .inl hstart
      · exact .inr ⟨k, by omega, hki⟩
    · exact .inr ⟨done, by omega, by rw [hcreated i hi]; rfl⟩

theorem Named.add_routers {live created : List Instance} (h : Named live)
    (hcreated : ∀ i ∈ created, i.type = .queryRouter) : Named (live ++ created) := by
  obtain ⟨hdistinct, server, hserver, htype⟩ := h
  refine ⟨?_, server, List.mem_append_left _ hserver, htype⟩
  have hmember : ∀ i ∈ live ++ created, i.type = .member → i ∈ live := by
    intro i hi hti
    rcases List.mem_append.1 hi with hi | hi
    · exact hi
    · rw [hcreated i hi] at hti
      cases hti
  exact fun i hi j hj hti htj => hdistinct i (hmember i hi hti) j (hmember j hj htj) hti htj

/-! ### Creating instances -/

theorem live_addInstance (db : Database) (id : String) (new : NewInstance) {cluster : String}
    (h : new.clusterConfig.id = cluster) : (db.addInstance id new).live cluster = db.live cluster ++
      [⟨id, some cluster, new.flavorId, new.volumeSize, new.clusterConfig, false⟩] := by
  subst h
  unfold Database.live Database.addInstance
  rw [List.filter_append, List.filter_singleton]
  simp

/-- The instances of a cluster while instances with the given configurations are added. -/
def AddedTo (cluster : String) (start : List Instance) (configs : List ClusterConfig) (s : Run) :
    Prop :=
  ∃ created, s.db.live cluster = start ++ created ∧ created.map Instance.config = configs

theorem addedTo_nil {cluster : String} {start : List Instance} {s : Run}
    (h : s.db.live cluster = start) : AddedTo cluster start [] s :=
  ⟨[], by rw [h, List.append_nil], rfl⟩

/-- Creating instances adds them to the cluster of their configuration. -/
theorem triple_createAll_addedTo {I : Run → Prop} {cluster : String} {start : List Instance}
    {news : List NewInstance} (hnews : ∀ new ∈ news, new.clusterConfig.id = cluster)
    (hI : ∀ pre, pre <+: news → ∀ s, AddedTo cluster start (pre.map NewInstance.clusterConfig) s → I s) :
    Triple world I (AddedTo cluster start []) (createAll news)
      (fun _ => AddedTo cluster start (news.map NewInstance.clusterConfig)) fun _ _ => True := by
  have hloop : Triple world I
      (fun s => ([] : List NewInstance) <+: news ∧ AddedTo cluster start [] s) (createAll news)
      (fun _ s => news <+: news ∧ AddedTo cluster start (news.map NewInstance.clusterConfig) s)
      fun _ _ => True := by
    apply triple_collect (J := fun d (_ : List String) s =>
      d <+: news ∧ AddedTo cluster start (d.map NewInstance.clusterConfig) s)
    · exact fun d _ s h => hI d h.1 s h.2
    · intro pre new post ids he
      apply triple_ask (c := .createInstance new)
      · exact fun s h => hI pre h.1 s h.2
      · rintro s (id : String) db' ⟨-, created, hlive, hconfigs⟩ ⟨-, rfl⟩
        have hnew : new.clusterConfig.id = cluster :=
          hnews new (he ▸ List.mem_append_right _ List.mem_cons_self)
        have hpre : pre ++ [new] <+: news := ⟨post, by rw [he]; simp⟩
        have hadded : AddedTo cluster start ((pre ++ [new]).map NewInstance.clusterConfig)
            ⟨s.db.addInstance id new, s.log ++ [⟨.createInstance new, .ok id⟩]⟩ := by
          refine ⟨created ++ [⟨id, some cluster, new.flavorId, new.volumeSize, new.clusterConfig,
            false⟩], ?_, ?_⟩
          · rw [live_addInstance _ _ _ hnew, hlive, List.append_assoc]
          · rw [List.map_append, hconfigs, List.map_append]
            rfl
        exact ⟨⟨hpre, hadded⟩, hI _ hpre _ hadded⟩
      · exact fun s x h _ => ⟨trivial, hI pre h.1 _ h.2⟩
  exact hloop.consequence (fun s h => ⟨List.nil_prefix, h⟩) (fun _ s h => h.2) fun _ _ h => h

/-- What instances of one configuration make of a property of the live ones. -/
theorem triple_createAll_alike {I : Run → Prop} {cluster : String} {news : List NewInstance}
    {config : ClusterConfig} {P Q : List Instance → Prop} (hcluster : config.id = cluster)
    (hnews : ∀ new ∈ news, new.clusterConfig = config)
    (hadd : ∀ live created, P live → (∀ i ∈ created, i.config = config) → Q (live ++ created))
    (hI : ∀ s, Q (s.db.live cluster) → I s) :
    Triple world I (fun s => P (s.db.live cluster)) (createAll news)
      (fun _ s => Q (s.db.live cluster)) fun _ _ => True := by
  apply triple_intro
  intro s₁ hs₁
  have hadded : ∀ pre, pre <+: news → ∀ s,
      AddedTo cluster (s₁.db.live cluster) (pre.map NewInstance.clusterConfig) s →
        Q (s.db.live cluster) := by
    rintro pre hpre s ⟨created, hlive, hconfigs⟩
    rw [hlive]
    apply hadd _ _ hs₁
    intro i hi
    have hconfig : i.config ∈ pre.map NewInstance.clusterConfig :=
      hconfigs ▸ List.mem_map_of_mem hi
    obtain ⟨new, hnew, hni⟩ := List.mem_map.1 hconfig
    rw [← hni]
    exact hnews new (hpre.subset hnew)
  apply (triple_createAll_addedTo (fun new hnew => by rw [hnews new hnew, hcluster])
    fun pre hpre s h => hI s (hadded pre hpre s h)).consequence
  · rintro s rfl
    exact addedTo_nil rfl
  · exact fun ids s h => hadded _ (List.prefix_refl _) s h
  · exact fun _ _ h => h

/-! ### Creating a cluster -/

theorem le_of_integerProperty {properties : Option Python.Mapping} {name : String}
    {default minimum value : ℤ} (h : integerProperty properties name default minimum = .ok value) :
    minimum ≤ value := by
  unfold integerProperty at h
  split at h
  · split_ifs at h with hlt
    cases h
    exact not_lt.1 hlt
  · cases h
  · cases h

theorem yields_validateSharded {S : Type} {W : World S Call Call.Answer Error} {R : S → Prop}
    (r : CreateRequest) :
    Yields W R (fun plan => 0 < plan.numConfigServers) (validateSharded r) := by
  unfold validateSharded
  apply yields_bind (yields_true _)
  intro _ _
  apply yields_bind (yields_true _)
  intro _ _
  apply yields_bind (yields_ofExcept fun n => le_of_integerProperty)
  intro numConfigServers hservers
  apply yields_bind (yields_true _)
  intro numQueryRouters _
  apply yields_bind (yields_true _)
  intro first _
  apply yields_bind (yields_true _)
  intro configVolumeSize _
  apply yields_bind (yields_true _)
  intro routerVolumeSize _
  apply yields_bind (yields_true _)
  intro totalVolumeSize _
  apply yields_bind (yields_true _)
  intro _ _
  apply yields_bind (yields_true _)
  intro _ _
  have hmin : minConfigServerMembers = 2 := rfl
  show 0 < numConfigServers.toNat
  omega

section Created

variable {r : CreateRequest} {plan : ShardedPlan} {cluster shard : String}

theorem mem_plan_instances {new : NewInstance} (h : new ∈ plan.instances r cluster shard) :
    new.clusterConfig = shardMemberConfig cluster shard "rs1" ∨
      new.clusterConfig = configServerConfig cluster ∨ new.clusterConfig = queryRouterConfig cluster := by
  rcases List.mem_append.1 h with h | h
  · rcases List.mem_append.1 h with h | h
    · obtain ⟨⟨node, index⟩, -, rfl⟩ := List.mem_map.1 h
      exact .inl rfl
    · obtain ⟨index, -, rfl⟩ := List.mem_map.1 h
      exact .inr (.inl rfl)
  · obtain ⟨index, -, rfl⟩ := List.mem_map.1 h
    exact .inr (.inr rfl)

/-- The new cluster has one shard, and a config server. -/
theorem named_created {created : List Instance} (hservers : 0 < plan.numConfigServers)
    (hcreated : created.map Instance.config =
      (plan.instances r cluster shard).map NewInstance.clusterConfig) : Named created := by
  have hshard : ∀ i ∈ created, i.type = .member → i.shardId = some shard := by
    intro i hi hti
    have hconfig : i.config ∈ (plan.instances r cluster shard).map NewInstance.clusterConfig :=
      hcreated ▸ List.mem_map_of_mem hi
    obtain ⟨new, hnew, hni⟩ := List.mem_map.1 hconfig
    unfold Instance.type at hti
    unfold Instance.shardId
    rw [← hni] at hti ⊢
    rcases mem_plan_instances hnew with h | h | h
    · rw [h]
      rfl
    · rw [h] at hti
      cases hti
    · rw [h] at hti
      cases hti
  refine ⟨fun i hi j hj hti htj _ => (hshard i hi hti).trans (hshard j hj htj).symm, ?_⟩
  obtain ⟨count, hcount⟩ := Nat.exists_eq_succ_of_ne_zero hservers.ne'
  have hserver : configServerConfig cluster ∈
      (plan.instances r cluster shard).map NewInstance.clusterConfig := by
    unfold ShardedPlan.instances
    rw [List.map_append, List.map_append]
    apply List.mem_append_left
    apply List.mem_append_right
    rw [hcount]
    exact List.mem_cons_self
  rw [← hcreated] at hserver
  obtain ⟨i, hi, hconfig⟩ := List.mem_map.1 hserver
  exact ⟨i, hi, by rw [Instance.type, hconfig]; rfl⟩

end Created

theorem triple_createSharded_named (r : CreateRequest) (db : Database) :
    Triple world (fun _ => True) (fun s => s.db = db) (createSharded r)
      (fun cluster s => db.live cluster = [] → Named (s.db.live cluster)) fun _ _ => True := by
  unfold createSharded
  apply triple_bind (M := fun plan s => 0 < plan.numConfigServers ∧ s.db = db)
  · have hreads := triple_reads (respects_validateSharded (R := fun s => s.db = db) (W := world) r)
    exact (((yields_validateSharded r).triple.and hreads).weaken fun _ _ => trivial).consequence
      (fun _ h => ⟨trivial, h⟩) (fun _ _ h => h) fun _ _ _ => trivial
  intro plan
  apply triple_intro
  rintro s₀ ⟨hservers, hs₀⟩
  apply triple_bind (M := fun (cluster : String) s => s.db.live cluster = db.live cluster)
  · apply triple_ask (fun _ _ => trivial) ?_ fun _ _ _ _ => ⟨trivial, trivial⟩
    rintro s (cluster : String) db' rfl ⟨-, rfl⟩
    rw [hs₀]
    exact ⟨rfl, trivial⟩
  intro cluster
  apply triple_bind (M := fun _ s => s.db.live cluster = db.live cluster)
  · apply triple_ask (fun _ _ => trivial) ?_ fun _ _ _ _ => ⟨trivial, trivial⟩
    rintro s (shard : String) db' h ⟨-, rfl⟩
    exact ⟨h, trivial⟩
  intro shard
  have hnews : ∀ new ∈ plan.instances r cluster shard, new.clusterConfig.id = cluster := by
    intro new hnew
    rcases mem_plan_instances hnew with h | h | h <;> rw [h] <;> rfl
  apply triple_bind
  · exact (triple_createAll_addedTo hnews fun _ _ _ _ => trivial).consequence (fun _ => addedTo_nil)
      (fun _ _ h => h) fun _ _ h => h
  intro ids
  apply triple_bind (M := fun _ s => db.live cluster = [] → Named (s.db.live cluster))
  · apply triple_ask (fun _ _ => trivial) ?_ fun _ _ _ _ => ⟨trivial, trivial⟩
    rintro s _ db' ⟨created, hlive, hconfigs⟩ rfl
    refine ⟨fun hnew => ?_, trivial⟩
    rw [hnew, List.nil_append] at hlive
    rw [hlive]
    exact named_created hservers hconfigs
  · exact fun _ => triple_ret (fun _ _ => trivial) fun _ h => h

/-! ### Growing a cluster -/

section Grow

variable {self : MongoDbCluster} (locality imageId : Option String)

theorem triple_grownMembers_growing {start : List Instance} {number done : ℕ} {shard : String}
    {group : List Node} (hfree : ∀ i ∈ start, i.type = .member →
      i.config.replicaSetName ≠ some (shardName (number + done))) :
    Triple world (fun s => DistinctNames (s.db.live self.id))
      (fun s => Growing start number done (s.db.live self.id))
      (createAll (grownMembers self locality imageId shard (number + done) group))
      (fun _ s => Growing start number (done + 1) (s.db.live self.id)) fun _ _ => True := by
  have hcluster : (shardMemberConfig self.id shard (shardName (number + done))).id = self.id := rfl
  apply triple_createAll_alike hcluster
  · intro new hnew
    obtain ⟨⟨node, index⟩, -, rfl⟩ := List.mem_map.1 hnew
    rfl
  · exact fun live created h hcreated => h.add_shard hfree hcreated
  · exact fun s h => h.named.distinct

/-- Every group becomes a shard with the next number. -/
theorem triple_createShards_growing {start : List Instance} {number : ℕ} {groups : List (List Node)}
    (hfree : ∀ k < groups.length, ∀ i ∈ start, i.type = .member →
      i.config.replicaSetName ≠ some (shardName (number + k))) :
    Triple world (fun s => DistinctNames (s.db.live self.id))
      (fun s => Growing start number 0 (s.db.live self.id))
      (createShards self locality imageId number groups)
      (fun _ s => Growing start number groups.length (s.db.live self.id)) fun _ _ => True := by
  have hloop : Triple world (fun s => DistinctNames (s.db.live self.id))
      (fun s => Growing start number 0 (s.db.live self.id))
      (createShards self locality imageId number groups)
      (fun _ s => Growing start number (groups.zipIdx number).length (s.db.live self.id))
      fun _ _ => True := by
    unfold createShards
    apply triple_foldlM (J := fun (d : List (List Node × ℕ)) (_ : List String) (s : Run) =>
      Growing start number d.length (s.db.live self.id))
    · exact fun d _ s h => h.named.distinct
    · rintro pre ⟨group, n⟩ post ids he
      -- the number of a shard is the count of those before it
      have hget : (groups.zipIdx number)[pre.length]? = some (group, n) := by
        rw [he, List.getElem?_append_right le_rfl, Nat.sub_self]
        rfl
      rw [List.getElem?_zipIdx, Option.map_eq_some_iff] at hget
      obtain ⟨group', hgroup, heq⟩ := hget
      cases heq
      have hk : pre.length < groups.length := (List.getElem?_eq_some_iff.1 hgroup).1
      rw [List.length_append, List.length_singleton]
      apply triple_bind (M := fun _ s => Growing start number pre.length (s.db.live self.id))
      · apply triple_ask
        · exact fun s h => h.named.distinct
        · rintro s (shard : String) db' h ⟨-, rfl⟩
          exact ⟨h, h.named.distinct⟩
        · exact fun s x h _ => ⟨trivial, h.named.distinct⟩
      intro shard
      apply triple_bind (triple_grownMembers_growing locality imageId (hfree _ hk))
      exact fun created => triple_ret (fun s h => h.named.distinct) fun _ h => h
  rw [List.length_zipIdx] at hloop
  exact hloop

theorem triple_grownRouters_named (routers : List Node) :
    Triple world (fun s => DistinctNames (s.db.live self.id))
      (fun s => Named (s.db.live self.id))
      (createAll (grownRouters self locality imageId routers))
      (fun _ s => Named (s.db.live self.id)) fun _ _ => True := by
  have hcluster : (queryRouterConfig self.id).id = self.id := rfl
  apply triple_createAll_alike hcluster
  · intro new hnew
    obtain ⟨⟨node, index⟩, -, rfl⟩ := List.mem_map.1 hnew
    rfl
  · exact fun live created h hcreated => h.add_routers fun i hi => by
      rw [Instance.type, hcreated i hi]
      rfl
  · exact fun s h => h.distinct

/-- A call that leaves the instances of the cluster alone keeps what is known of them. -/
theorem triple_ask_live {cluster : String} {P : List Instance → Prop} {I : Run → Prop} {c : Call}
    (hI : ∀ s : Run, P (s.db.live cluster) → I s)
    (hc : ∀ (db db' : Database) (a : c.Answer), db.Step c a db' → db'.live cluster = db.live cluster) :
    Triple world I (fun s => P (s.db.live cluster)) (ask c) (fun _ s => P (s.db.live cluster))
      fun _ _ => True := by
  apply triple_ask hI
  · intro s a db' h hs
    have hP : P (db'.live cluster) := by rwa [hc _ _ a hs]
    exact ⟨hP, hI _ hP⟩
  · exact fun s x h _ => ⟨trivial, hI _ h⟩

theorem triple_createShardedInstances_named {start : List Instance} {nodes : List Node}
    (hnamed : Named start) (hfree : FreeNames start (.grow nodes imageId)) :
    Triple world (fun s => DistinctNames (s.db.live self.id)) (fun s => s.db.live self.id = start)
      (createShardedInstances self locality imageId start nodes)
      (fun _ s => Named (s.db.live self.id)) fun _ _ => True := by
  unfold createShardedInstances
  apply triple_bind (M := fun plan s => (Creates nodes ∧ ∃ replicas,
    sortNodes nodes = .ok (replicas, plan.2) ∧ groupShardInstances replicas = .ok plan.1) ∧
      s.db.live self.id = start)
  · have hlive : Triple world (fun s => s.db.live self.id = start) (fun s => s.db.live self.id = start)
        (validateShardedGrowth self nodes) (fun _ s => s.db.live self.id = start)
        fun _ s => s.db.live self.id = start := by
      apply (respects_validateShardedGrowth self nodes).triple
      intro s c r s' hs hc hw
      rwa [world_reads hw (Call.not_writes_of_validates hc)]
    exact (((yields_validateShardedGrowth self nodes).triple.and hlive).weaken
      fun s h => h.2 ▸ hnamed.distinct).consequence (fun _ h => ⟨trivial, h⟩) (fun _ _ h => h)
      fun _ _ _ => trivial
  rintro ⟨groups, routers⟩
  apply triple_intro
  rintro s₀ ⟨⟨-, replicas, hsort, hgroups⟩, hs₀⟩
  apply triple_bind
  · apply (triple_createShards_growing locality imageId
      (hfree replicas routers groups hsort hgroups)).consequence
    · rintro s rfl
      rw [hs₀]
      exact ⟨hnamed, fun i hi _ => .inl hi⟩
    · exact fun _ _ h => h
    · exact fun _ _ h => h
  intro members
  apply triple_bind
  · exact (triple_grownRouters_named locality imageId routers).consequence (fun _ h => h.named)
      (fun _ _ h => h) fun _ _ h => h
  · exact fun created => triple_ret (fun s h => h.distinct) fun _ h => h

/-- A sharded grow whose names are free keeps the names distinct. -/
theorem triple_growSharded_named {start : List Instance} {nodes : List Node}
    (hnamed : Named start) (hfree : FreeNames start (.grow nodes imageId)) :
    Triple world (fun s => DistinctNames (s.db.live self.id)) (fun s => s.db.live self.id = start)
      (growSharded self start nodes imageId) (fun _ s => Named (s.db.live self.id))
      fun _ _ => True := by
  have hstart : ∀ s : Run, s.db.live self.id = start → DistinctNames (s.db.live self.id) :=
    fun s h => h ▸ hnamed.distinct
  unfold growSharded
  apply triple_bind (M := fun _ s => s.db.live self.id = start)
  · exact triple_rejectIf hstart (fun _ h _ => h) fun _ _ _ => trivial
  intro _
  apply triple_bind (M := fun _ s => s.db.live self.id = start)
  · apply triple_ask_live (P := fun live => live = start) hstart
    rintro db db' a rfl
    rfl
  intro locality
  apply triple_bind (M := fun _ s => Named (s.db.live self.id))
  · apply triple_handle (M := fun _ s => DistinctNames (s.db.live self.id))
    · exact (triple_createShardedInstances_named locality imageId hnamed hfree).last.consequence
        (fun _ h => h) (fun _ _ h => h.1) fun _ _ h => h.2
    · intro x
      have hreset : Triple world (fun s => DistinctNames (s.db.live self.id))
          (fun s => DistinctNames (s.db.live self.id)) (do
            ask (.updateDb self.id .none)
            Process.raise x) (fun (_ : List String) s => Named (s.db.live self.id))
          fun _ _ => True := by
        apply triple_bind (M := fun _ s => DistinctNames (s.db.live self.id))
        · apply triple_ask_live (P := DistinctNames) fun _ h => h
          rintro db db' a rfl
          rfl
        · exact fun _ => triple_raise (fun _ h => h) fun _ _ => trivial
      cases x with
      | timeout own => exact triple_raise (fun _ h => h) fun _ _ => trivial
      | _ => exact hreset
  · intro newIds
    apply triple_bind (M := fun _ s => Named (s.db.live self.id))
    · apply triple_ask_live (P := Named) fun _ h => h.distinct
      rintro db db' a rfl
      rfl
    · intro _
      apply triple_ask_live (P := Named) fun _ h => h.distinct
      rintro db db' a rfl
      rfl

end Grow

/-! ### Shrinking a cluster -/

/-- Without a call that creates an instance, a cluster gets none. -/
theorem world_live_subset {s s' : Run} {c : Call} {r : Except Error c.Answer} (cluster : String)
    (h : world s c r s') (hc : c.quiet = true) : s'.db.live cluster ⊆ s.db.live cluster := by
  cases r with
  | error x => rw [h.2.1]; exact List.Subset.refl _
  | ok a =>
    have hs := h.1
    cases hw : c.writes with
    | false => rw [hs.eq_of_not_writes hw]; exact List.Subset.refl _
    | true =>
      cases c with
      | createInstance new => cases hc
      | detach id =>
        rw [hs, live_detach]
        exact List.filter_sublist.subset
      | delete id =>
        rw [hs, live_delete]
        exact List.filter_sublist.subset
      | createCluster new => rw [hs.2]; exact List.Subset.refl _
      | updateDb id status => rw [hs]; exact List.Subset.refl _
      | resetTask id => rw [hs]; exact List.Subset.refl _
      | _ => cases hw

theorem respects_shrinkSharded_quiet {S : Type} {W : World S Call Call.Answer Error} {R : S → Prop}
    (fuel : ℕ) (self : MongoDbCluster) (removalIds : List String) :
    Respects W R (fun c => c.quiet = true) (shrinkSharded fuel self removalIds) := by
  unfold shrinkSharded
  apply respects_bind (respects_rejectIf _ _)
  intro _
  refine respects_bind (respects_ask rfl) fun instances => ?_
  apply respects_bind (respects_ofExcept _)
  intro plan
  refine respects_bind (respects_ask rfl) fun _ => ?_
  refine respects_ensure ?_ (respects_ask rfl)
  apply respects_bind
  · exact respects_forEach fun target _ => (respects_drainTarget _ _ _ target).mono
      fun _ => Call.quiet_of_inquires
  · intro _
    apply respects_forEach
    intro id _
    exact respects_bind (respects_ask rfl) fun _ =>
      respects_bind (respects_ask rfl) fun _ => respects_ask rfl

/-- A shrink takes shards away and leaves the config servers. -/
theorem triple_shrinkSharded_named {self : MongoDbCluster} {db : Database} (fuel : ℕ)
    (removalIds : List String) (hdb : Reachable db) (hrow : (db.status self.id).isSome)
    (hnamed : Named (db.live self.id)) :
    Triple world (fun s => DistinctNames (s.db.live self.id)) (fun s => s.db = db)
      (shrinkSharded fuel self removalIds) (fun _ s => Named (s.db.live self.id))
      fun _ _ => True := by
  obtain ⟨server, hserver, htype⟩ := hnamed.server
  have hsharded : isSharded (db.live self.id) = true := isSharded_of_mem hserver htype
  have hsub : Triple world (fun s => s.db.live self.id ⊆ db.live self.id)
      (fun s => s.db.live self.id ⊆ db.live self.id) (shrinkSharded fuel self removalIds)
      (fun _ s => s.db.live self.id ⊆ db.live self.id)
      fun _ s => s.db.live self.id ⊆ db.live self.id :=
    (respects_shrinkSharded_quiet fuel self removalIds).triple
      fun s c r s' hs hc hw => List.Subset.trans (world_live_subset _ hw hc) hs
  have hboth := (triple_shrinkSharded fuel removalIds hdb hrow hsharded).and hsub
  apply (hboth.weaken fun s h => hnamed.distinct.mono h.2).consequence
  · rintro s rfl
    exact ⟨rfl, List.Subset.refl _⟩
  · rintro _ s ⟨hcompleted, hs⟩
    have hviable := hcompleted.viable
    unfold Viable at hviable
    rw [if_pos hsharded] at hviable
    exact ⟨hnamed.distinct.mono hs, server, hviable.configServers server hserver htype, htype⟩
  · exact fun _ _ _ => trivial

/-! ### Lifetimes -/

/-- A request whose names are free keeps the names distinct in every state that it passes. -/
theorem triple_operation_named (service : Service) (fuel : ℕ) (request : Request) {db : Database}
    (hdb : Reachable db) (hnamed : Named (db.live service.cluster))
    (hfree : FreeNames (db.live service.cluster) request) :
    Triple world (fun s => DistinctNames (s.db.live service.cluster)) (fun s => s.db = db)
      (operation service fuel request) (fun _ s => Named (s.db.live service.cluster))
      fun _ _ => True := by
  have hstart : ∀ s : Run, s.db = db → DistinctNames (s.db.live service.cluster) :=
    fun s h => h ▸ hnamed.distinct
  obtain ⟨server, hserver, htype⟩ := hnamed.server
  have hsharded : isSharded (db.live service.cluster) = true := isSharded_of_mem hserver htype
  unfold operation
  apply triple_bind (M := fun (row : Cluster) s =>
    (row ∈ db.clusters ∧ row.id = service.cluster) ∧ s.db = db)
  · apply triple_ask hstart
    · rintro s (row : Cluster) db' rfl ⟨hrow, hid, rfl⟩
      exact ⟨⟨⟨hrow, hid⟩, rfl⟩, hnamed.distinct⟩
    · exact fun s x h _ => ⟨trivial, hstart _ h⟩
  intro row
  apply triple_intro
  rintro s₀ ⟨⟨hrow, hid⟩, hs₀⟩
  have hfind : Triple world (fun s => DistinctNames (s.db.live service.cluster)) (fun s => s = s₀)
      (ask (.findInstances row.id))
      (fun (rows : List Instance) s => rows = db.live service.cluster ∧ s.db = db)
      fun _ _ => True := by
    subst hs₀
    apply triple_ask
    · exact fun s h => hstart s (congrArg Run.db h)
    · rintro s (rows : List Instance) db' rfl ⟨rfl, rfl⟩
      exact ⟨⟨by rw [hid], rfl⟩, hnamed.distinct⟩
    · rintro s x rfl -
      exact ⟨trivial, hnamed.distinct⟩
  have hself : (service.loaded row).id = service.cluster := hid
  cases request with
  | grow nodes imageId =>
    apply triple_bind hfind
    intro rows
    apply triple_intro
    rintro s₁ ⟨rfl, hs₁⟩
    rw [if_pos hsharded, ← hself]
    apply (triple_growSharded_named imageId (hself.symm ▸ hnamed) (hself.symm ▸ hfree)).consequence
    · rintro s rfl
      rw [hs₁]
    · exact fun _ _ h => h
    · exact fun _ _ h => h
  | shrink removalIds =>
    apply triple_bind hfind
    intro rows
    apply triple_intro
    rintro s₁ ⟨rfl, hs₁⟩
    have hstatus := status_of_mem hdb.nodup_clusters hrow
    rw [hid, ← hself] at hstatus
    rw [if_pos hsharded, ← hself]
    apply (triple_shrinkSharded_named fuel removalIds hdb (by rw [hstatus]; rfl)
      (hself.symm ▸ hnamed)).consequence
    · rintro s rfl
      exact hs₁
    · exact fun _ _ h => h
    · exact fun _ _ h => h

theorem Lifetime.reachable {ok : List Instance → Request → Prop} {cluster : String} {db : Database}
    (h : Lifetime ok cluster db) : Reachable db := by
  induction h with
  | created hdb _ _ hr => exact hdb.exec hr
  | changed _ _ _ hr ih => exact ih.exec hr
  | elsewhere _ hdb _ _ => exact hdb

/-- The end of a task is something in between. -/
theorem Lifetime.reset {ok : List Instance → Request → Prop} {cluster : String} {db : Database}
    (h : Lifetime ok cluster db) : Lifetime ok cluster (db.setStatus cluster .none) :=
  .elsewhere h (.step (c := .resetTask cluster) (a := ()) h.reachable rfl) (live_setStatus _ _ _ _)

theorem Lifetime.named {cluster : String} {db : Database} (h : Lifetime FreeNames cluster db) :
    Named (db.live cluster) := by
  induction h with
  | @created r s s' hdb hnew htopology hr =>
    have hcreate : create r = createSharded r := by
      unfold create
      rw [htopology]
      rfl
    rw [hcreate] at hr
    exact (triple_createSharded_named r s.db).value s rfl cluster s' hr hnew
  | @changed service fuel request s s' h hservice hok hr ih =>
    subst hservice
    exact (triple_operation_named service fuel request h.reachable ih hok).value s rfl () s' hr
  | elsewhere _ _ hlive ih => rwa [hlive]

/-- Through the life of a cluster the names of its shards stay distinct, if every grow finds
the names of its new shards free. -/
theorem names_distinct (cluster : String) (db : Database) (h : Lifetime FreeNames cluster db) :
    DistinctNames (db.live cluster) ∧
      ∀ (service : Service) (fuel : ℕ) (request : Request) (o : Outcome Error Unit) (s s' : Run),
        s.db = db → service.cluster = cluster → FreeNames (db.live cluster) request →
        Exec world (operation service fuel request) s o s' →
        DistinctNames (s'.db.live cluster) := by
  refine ⟨h.named.distinct, ?_⟩
  rintro service fuel request o s s' hs rfl hfree hr
  exact (triple_operation_named service fuel request h.reachable h.named hfree).always s hs o s' hr

section Example

private def shardService : Service := ⟨"cluster5", "p1", oneShard.version, oneShard.conf⟩

/-- The cluster of one shard is created, and its task ends. -/
def createdRun : Run :=
  let s := ((create oneShard).play (Surroundings.respond {}) ⟨⟨[], []⟩, []⟩).2
  ⟨s.db.setStatus "cluster5" .none, s.log⟩

/-- The request is answered, and its task ends. -/
def answeredRun (request : Request) (s : Run) : Run :=
  let s' := ((operation shardService 1 request).play (Surroundings.respond {}) s).2
  ⟨s'.db.setStatus "cluster5" .none, s'.log⟩

theorem lifetime_createdRun (ok : List Instance → Request → Prop) :
    Lifetime ok "cluster5" createdRun.db := by
  have hr := exec_play (Surroundings.world_respond {}) (create oneShard) ⟨⟨[], []⟩, []⟩
  have hvalue : ((create oneShard).play (Surroundings.respond {}) ⟨⟨[], []⟩, []⟩).1 =
      .value "cluster5" := rfl
  rw [hvalue] at hr
  have htopology : topology oneShard.extendedProperties = .ok shardedTopology := rfl
  have hcreated : Lifetime ok "cluster5"
      ((create oneShard).play (Surroundings.respond {}) ⟨⟨[], []⟩, []⟩).2.db :=
    .created .empty rfl htopology hr
  exact hcreated.reset

theorem lifetime_answeredRun {ok : List Instance → Request → Prop} {request : Request} {s : Run}
    (h : Lifetime ok "cluster5" s.db) (hok : ok (s.db.live "cluster5") request)
    (hvalue : ((operation shardService 1 request).play (Surroundings.respond {}) s).1 = .value ()) :
    Lifetime ok "cluster5" (answeredRun request s).db := by
  have hr := exec_play (Surroundings.world_respond {}) (operation shardService 1 request) s
  rw [hvalue] at hr
  exact (Lifetime.changed h rfl hok hr).reset

private def grownRun : Run := answeredRun (.grow shardNodes none) createdRun

/-- The second shard is called `rs2`, which the first is not. -/
private theorem freeNames_createdRun :
    FreeNames (createdRun.db.live "cluster5") (.grow shardNodes none) := by
  intro replicas routers groups hsort hgroups k hk i hi hti
  have hnames : ∀ i ∈ createdRun.db.live "cluster5", i.type = .member →
      i.config.replicaSetName = some "rs1" := by decide
  have hsorted : sortNodes shardNodes = .ok (shardNodes, []) := rfl
  cases hsorted.symm.trans hsort
  have hgrouped : groupShardInstances shardNodes = .ok [shardNodes] := rfl
  cases hgrouped.symm.trans hgroups
  obtain rfl : k = 0 := Nat.lt_one_iff.1 hk
  rw [hnames i hi hti]
  decide

/-- After a grow the two shards have two names. -/
theorem grownRun_distinct :
    DistinctNames (grownRun.db.live "cluster5") ∧
      ∀ (service : Service) (fuel : ℕ) (request : Request) (o : Outcome Error Unit) (s s' : Run),
        s.db = grownRun.db → service.cluster = "cluster5" →
        FreeNames (grownRun.db.live "cluster5") request →
        Exec world (operation service fuel request) s o s' →
        DistinctNames (s'.db.live "cluster5") :=
  names_distinct "cluster5" grownRun.db
    (lifetime_answeredRun (lifetime_createdRun FreeNames) freeNames_createdRun rfl)

/-- When the first shard is removed, the next one gets the name of the second. -/
theorem regrown_not_distinct :
    ¬∀ (cluster : String) (db : Database), Lifetime (fun _ _ => True) cluster db →
      DistinctNames (db.live cluster) := by
  intro h
  have hgrown : Lifetime (fun _ _ => True) "cluster5" grownRun.db :=
    lifetime_answeredRun (lifetime_createdRun _) trivial rfl
  have hshrunk : Lifetime (fun _ _ => True) "cluster5"
      (answeredRun (.shrink ["instance7", "instance8"]) grownRun).db :=
    lifetime_answeredRun hgrown trivial rfl
  have hregrown : Lifetime (fun _ _ => True) "cluster5" (answeredRun (.grow shardNodes none)
      (answeredRun (.shrink ["instance7", "instance8"]) grownRun)).db :=
    lifetime_answeredRun hshrunk trivial rfl
  have hsame := h "cluster5" _ hregrown _ (List.mem_of_getElem? (i := 3) rfl) _
    (List.mem_of_getElem? (i := 5) rfl) rfl rfl rfl
  cases hsame

end Example

end Yggdrasil.Mongo
