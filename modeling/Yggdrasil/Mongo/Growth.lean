import Yggdrasil.Mongo.Surroundings

/-! What growing a cluster does call by call: it validates, creates instances of the cluster
and writes its task status, in an order that differs between the two topologies. -/

namespace Yggdrasil.Mongo

open Effect Effect.Process

/-- An instance was created in the run. -/
def Created (log : List Event) : Prop :=
  ∃ new id, (⟨.createInstance new, .ok id⟩ : Event) ∈ log

/-- The task status was written in the run. -/
def Written (cluster : String) (status : TaskStatus) (log : List Event) : Prop :=
  (⟨.updateDb cluster status, .ok ()⟩ : Event) ∈ log

theorem Created.append {log : List Event} (h : Created log) (e : Event) : Created (log ++ [e]) := by
  obtain ⟨new, id, hm⟩ := h
  exact ⟨new, id, List.mem_append_left _ hm⟩

theorem Written.append {cluster : String} {status : TaskStatus} {log : List Event}
    (h : Written cluster status log) (e : Event) : Written cluster status (log ++ [e]) :=
  List.mem_append_left _ h

/-- The calls between the checks of a grow request and its last instance. -/
def GrowthCall (cluster : String) (c : Call) : Prop :=
  c.validates = true ∨ c = .generateUuid ∨
    ∃ new, c = .createInstance new ∧ new.clusterConfig.id = cluster

section Respects

variable {S : Type} {W : World S Call Call.Answer Error} {R : S → Prop}
  (self : MongoDbCluster) (locality imageId : Option String)

theorem respects_validateShardedGrowth (instances : List Node) :
    Respects W R (fun c => c.validates = true) (validateShardedGrowth self instances) := by
  unfold validateShardedGrowth
  refine respects_bind (respects_ofExcept _) fun (replicas, routers) => ?_
  dsimp only
  refine respects_bind (respects_ofExcept _) fun groups => ?_
  refine respects_bind (respects_forEach fun group _ => respects_validateShardMembers _ _)
    fun _ => ?_
  refine respects_bind (respects_forEach fun router _ =>
    respects_bind (respects_check rfl) fun _ => respects_check rfl) fun _ => ?_
  refine respects_bind (respects_rejectIf _ _) fun _ => ?_
  refine respects_bind (respects_requiredVolumeSize rfl) fun _ => ?_
  exact respects_bind (respects_check rfl) fun _ => respects_pure _

theorem respects_createShards (number : ℕ) (groups : List (List Node)) :
    Respects W R (GrowthCall self.id) (createShards self locality imageId number groups) := by
  refine respects_foldlM (fun ids p _ => ?_) []
  refine respects_bind (respects_ask (.inr (.inl rfl))) fun shardId => ?_
  refine respects_bind (respects_createAll fun new hnew => ?_) fun _ => respects_pure _
  obtain ⟨⟨node, index⟩, -, rfl⟩ := List.mem_map.1 hnew
  exact .inr (.inr ⟨_, rfl, rfl⟩)

theorem respects_createShardedInstances (existing : List Instance) (instances : List Node) :
    Respects W R (GrowthCall self.id)
      (createShardedInstances self locality imageId existing instances) := by
  unfold createShardedInstances
  refine respects_bind ((respects_validateShardedGrowth self instances).mono fun _ => .inl)
    fun (groups, routers) => ?_
  dsimp only
  refine respects_bind (respects_createShards self locality imageId _ _) fun members => ?_
  refine respects_bind (respects_createAll fun new hnew => ?_) fun _ => respects_pure _
  obtain ⟨⟨node, index⟩, -, rfl⟩ := List.mem_map.1 hnew
  exact .inr (.inr ⟨_, rfl, rfl⟩)

theorem respects_createInstances (r : MembersRequest) :
    Respects W R (GrowthCall r.clusterId) (createInstances r) := by
  refine respects_bind ((respects_validateMembers r).mono fun _ => .inl) fun _ => ?_
  refine respects_createAll fun new hnew => ?_
  obtain ⟨⟨node, index⟩, -, rfl⟩ := List.mem_map.1 hnew
  exact .inr (.inr ⟨_, rfl, rfl⟩)

end Respects

/-! ### What a finished creation has done -/

/-- Creating a non-empty list of instances creates one. -/
theorem triple_createAll_created {news : List NewInstance} (hne : news ≠ []) :
    Triple world (fun _ => True) (fun _ => True) (createAll news) (fun _ s => Created s.log)
      fun _ _ => True := by
  refine (triple_foldlM (W := world) (I := fun _ => True)
    (J := fun d (_ : List String) s => d ≠ [] → Created s.log) (fun _ _ _ _ => trivial)
    (fun pre new post ids _ => ?_) []).consequence (fun _ _ h => absurd rfl h)
    (fun _ _ h => h hne) fun _ _ h => h
  refine triple_bind (M := fun _ s => Created s.log) ?_ fun id =>
    triple_ret (fun _ _ => trivial) fun _ h _ => h
  refine triple_ask (c := .createInstance new) (fun _ _ => trivial) ?_ fun _ _ _ _ =>
    ⟨trivial, trivial⟩
  exact fun s id db _ _ => ⟨⟨new, id, List.mem_append_right _ (List.mem_singleton_self _)⟩, trivial⟩

theorem triple_created {α : Type} (p : Action α) :
    Triple world (fun _ => True) (fun s => Created s.log) p (fun _ s => Created s.log)
      fun _ s => Created s.log :=
  (triple_keeps_log p fun _ e h => h.append e).weaken fun _ _ => trivial

theorem triple_validateShardMembers (members : List Node) (conf : MongoConf) :
    Triple world (fun _ => True) (fun _ => True) (validateShardMembers members conf)
      (fun _ _ => minReplicaSetMembers ≤ members.length) fun _ _ => True := by
  unfold validateShardMembers
  refine triple_bind (M := fun _ _ => minReplicaSetMembers ≤ members.length) ?_ fun _ => ?_
  · exact triple_rejectIf (fun _ _ => trivial) (fun _ _ h => not_lt.1 h) fun _ _ _ => trivial
  · refine triple_intro fun s hs => ⟨fun _ _ _ _ _ => trivial, fun _ _ _ _ _ => hs,
      fun _ _ _ _ _ => trivial⟩

/-- An accepted sharded grow has a shard or a router to create, and no empty shard. -/
theorem triple_validateShardedGrowth (self : MongoDbCluster) (instances : List Node) :
    Triple world (fun _ => True) (fun _ => True) (validateShardedGrowth self instances)
      (fun plan _ => (plan.1 ≠ [] ∨ plan.2 ≠ []) ∧ ∀ group ∈ plan.1, group ≠ [])
      fun _ _ => True := by
  unfold validateShardedGrowth
  refine triple_bind (M := fun _ _ => True) ?_ fun (replicas, routers) => ?_
  · exact triple_ofExcept (fun _ _ => trivial) (fun _ _ _ _ => trivial) fun _ _ _ _ => trivial
  dsimp only
  refine triple_bind (M := fun _ _ => True) ?_ fun groups => ?_
  · exact triple_ofExcept (fun _ _ => trivial) (fun _ _ _ _ => trivial) fun _ _ _ _ => trivial
  refine triple_bind (M := fun _ _ => ∀ group ∈ groups, group ≠ []) ?_ fun _ => ?_
  · refine (triple_forEach (J := fun d _ => ∀ group ∈ d, group ≠ []) (fun _ _ _ => trivial)
      fun pre group post _ => ?_).consequence (fun _ _ => by simp) (fun _ _ h => h) fun _ _ h => h
    refine triple_intro fun s hs => (triple_validateShardMembers group self.conf).consequence
      (fun _ _ => trivial) (fun _ _ hlen g hg => ?_) fun _ _ h => h
    rcases List.mem_append.1 hg with hg | hg
    · exact hs g hg
    · rw [List.mem_singleton.1 hg]
      rintro rfl
      exact absurd hlen (by decide)
  refine triple_intro fun s hs => ?_
  refine triple_bind (M := fun _ _ => True) ?_ fun _ => ?_
  · exact triple_true
  refine triple_bind (M := fun _ _ => groups ≠ [] ∨ routers ≠ []) ?_ fun _ => ?_
  · exact triple_rejectIf (fun _ _ => trivial) (fun _ _ h => not_and_or.1 h) fun _ _ _ => trivial
  refine triple_intro fun s' hs' => ?_
  refine triple_bind (M := fun _ _ => True) ?_ fun _ => triple_bind (M := fun _ _ => True) ?_ fun _ => ?_
  · exact triple_true
  · exact triple_true
  · exact triple_ret (fun _ _ => trivial) fun _ _ => ⟨hs', hs⟩

section Sharded

variable (self : MongoDbCluster) (locality imageId : Option String)

theorem triple_createShards_created {number : ℕ} {groups : List (List Node)} (hne : groups ≠ [])
    (hgroups : ∀ group ∈ groups, group ≠ []) :
    Triple world (fun _ => True) (fun _ => True) (createShards self locality imageId number groups)
      (fun _ s => Created s.log) fun _ _ => True := by
  refine (triple_foldlM (W := world) (I := fun _ => True)
    (J := fun d (_ : List String) s => d ≠ [] → Created s.log) (fun _ _ _ _ => trivial)
    (fun pre p post ids he => ?_) []).consequence (fun _ _ h => absurd rfl h)
    (fun _ _ h => h (by simpa [List.zipIdx_eq_nil_iff] using hne)) fun _ _ h => h
  obtain ⟨group, index⟩ := p
  dsimp only
  refine triple_bind (M := fun _ _ => True) ?_ fun shardId => ?_
  · exact triple_true
  refine triple_bind (M := fun _ s => Created s.log) ?_ fun created =>
    triple_ret (fun _ _ => trivial) fun _ h _ => h
  have hmem : (group, index) ∈ groups.zipIdx number := he ▸ by simp
  have hgroup : group ≠ [] := hgroups group (List.fst_mem_of_mem_zipIdx hmem)
  exact triple_createAll_created (by simpa [grownMembers, List.zipIdx_eq_nil_iff] using hgroup)

/-- A sharded grow that returns has created an instance. -/
theorem triple_createShardedInstances_created (existing : List Instance) (instances : List Node) :
    Triple world (fun _ => True) (fun _ => True)
      (createShardedInstances self locality imageId existing instances)
      (fun _ s => Created s.log) fun _ _ => True := by
  unfold createShardedInstances
  refine triple_bind (triple_validateShardedGrowth self instances) fun (groups, routers) => ?_
  dsimp only
  refine triple_intro fun s₀ ⟨hne, hgroups⟩ => ?_
  refine triple_bind (M := fun _ s => groups ≠ [] → Created s.log) ?_ fun members => ?_
  · by_cases hg : groups = []
    · exact ⟨fun _ _ _ _ _ => trivial, fun _ _ _ _ _ h => absurd hg h, fun _ _ _ _ _ => trivial⟩
    · exact (triple_createShards_created self locality imageId hg hgroups).consequence
        (fun _ _ => trivial) (fun _ _ h _ => h) fun _ _ h => h
  refine triple_bind (M := fun _ s => Created s.log) ?_ fun created =>
    triple_ret (fun _ _ => trivial) fun _ h => h
  by_cases hg : groups = []
  · have hr : routers ≠ [] := hne.resolve_left fun h => h hg
    exact (triple_createAll_created (by simpa [grownRouters, List.zipIdx_eq_nil_iff] using hr)).consequence
      (fun _ _ => trivial) (fun _ _ h => h) fun _ _ h => h
  · exact (triple_created _).consequence (fun _ h => h hg) (fun _ _ h => h) fun _ _ _ => trivial

end Sharded

end Yggdrasil.Mongo
