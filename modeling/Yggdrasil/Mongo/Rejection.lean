import Yggdrasil.Mongo.Surroundings

/-! What a rejected create request leaves behind. The sharded topology validates the whole
request first, so nothing; the replica set looks its configuration up first but validates
its members after its row is written, so the row. -/

namespace Yggdrasil.Mongo

open Effect Effect.Process Python

/-- Nothing exists that did not exist before. -/
def LeavesNothing (before after : Database) : Prop :=
  (∀ c ∈ after.clusters, c ∈ before.clusters) ∧ ∀ i ∈ after.instances, i ∈ before.instances

/-- The lookup of the requested configuration failed. -/
def ConfigurationRejected (log : List Event) : Prop :=
  ∃ id version reason, (⟨.check (.configuration id version), .ok (some reason)⟩ : Event) ∈ log

theorem LeavesNothing.refl (db : Database) : LeavesNothing db db :=
  ⟨fun _ h => h, fun _ h => h⟩

/-- A rejected sharded request wrote nothing. -/
theorem triple_createSharded (r : CreateRequest) (db : Database) :
    Triple world (fun _ => True) (fun s => s.db = db) (createSharded r) (fun _ _ => True)
      fun x s => ∀ why, x = .rejected why → s.db = db := by
  unfold createSharded
  refine triple_bind (M := fun _ _ => True) ?_ fun plan => ?_
  · exact ((triple_reads (respects_validateSharded r)).weaken fun _ _ => trivial).consequence
      (fun _ h => h) (fun _ _ _ => trivial) fun _ _ h _ _ => h
  · have hrest : NeverRejects (do
        let clusterId : String ← ask (.createCluster (newCluster r plan.configurationId))
        let shardId : String ← ask .generateUuid
        let _ ← createAll (plan.instances r clusterId shardId)
        ask (.castCreateCluster clusterId)
        pure clusterId) :=
      raises_bind (raises_ask _) fun _ => raises_bind (raises_ask _) fun _ =>
        raises_bind (neverRejects_createAll _) fun _ =>
          raises_bind (raises_ask _) fun _ => raises_pure _
    exact hrest.consequence (fun _ h => h) (fun _ _ h => h) fun _ _ hx why he => absurd he (hx why)

theorem triple_findConfiguration (configurationId : Option String) (versionId : String)
    (db : Database) :
    Triple world (fun _ => True) (fun s => s = ⟨db, []⟩) (findConfiguration configurationId versionId)
      (fun _ s => s.db = db ∧ ¬ConfigurationRejected s.log)
      fun x s => ∀ why, x = .rejected why → s.db = db ∧ ConfigurationRejected s.log := by
  cases configurationId with
  | none =>
    refine triple_ret (fun _ _ => trivial) ?_
    rintro s rfl
    exact ⟨rfl, by simp [ConfigurationRejected]⟩
  | some id =>
    refine triple_bind (M := fun verdict s =>
      s = ⟨db, [⟨.check (.configuration id versionId), .ok verdict⟩]⟩) ?_ fun verdict => ?_
    · refine triple_ask (fun _ _ => trivial) ?_ ?_
      · rintro s verdict db' rfl hstep
        exact ⟨by rw [hstep.eq_of_not_writes rfl]; rfl, trivial⟩
      · rintro s x rfl hx
        exact ⟨fun why he => absurd he (hx why), trivial⟩
    · cases verdict with
      | none =>
        refine triple_ret (fun _ _ => trivial) ?_
        rintro s rfl
        refine ⟨rfl, ?_⟩
        rintro ⟨id', version, reason, h⟩
        rw [List.mem_singleton] at h
        cases h
      | some reason =>
        refine triple_raise (fun _ _ => trivial) ?_
        rintro s rfl why -
        exact ⟨rfl, id, versionId, reason, List.mem_cons_self⟩

/-- The row of the new cluster is there, and no configuration lookup failed. -/
def RowLeft (id : String) (s : Run) : Prop :=
  id ∈ s.db.clusters.map Cluster.id ∧ ¬ConfigurationRejected s.log

/-- Calls that look no configuration up leave the row. -/
theorem world_rowLeft {id : String} {s s' : Run} {c : Call} {r : Except Error c.Answer}
    (hs : RowLeft id s) (hc : ∀ i v, c ≠ .check (.configuration i v)) (hw : world s c r s') :
    RowLeft id s' := by
  refine ⟨world_mem_clusters hw hs.1, ?_⟩
  rintro ⟨i, version, reason, h⟩
  rw [world_log hw, List.mem_append, List.mem_singleton] at h
  rcases h with h | h
  · exact hs.2 ⟨i, version, reason, h⟩
  · cases h
    exact hc i version rfl

/-- Either the configuration was rejected before anything was written, or the row stays. -/
theorem triple_createReplicaSet (r : CreateRequest) (db : Database) :
    Triple world (fun _ => True) (fun s => s = ⟨db, []⟩) (createReplicaSet r) (fun _ _ => True)
      fun x s => ∀ why, x = .rejected why → (s.db = db ∧ ConfigurationRejected s.log) ∨
        ∃ id, id ∉ db.clusters.map Cluster.id ∧ RowLeft id s := by
  unfold createReplicaSet
  dsimp only
  refine triple_bind (M := fun _ s => s.db = db ∧ ¬ConfigurationRejected s.log) ?_ fun _ => ?_
  · exact (triple_findConfiguration _ _ db).consequence (fun _ h => h) (fun _ _ h => h)
      fun _ _ h why he => .inl (h why he)
  refine triple_bind (M := fun id s => id ∉ db.clusters.map Cluster.id ∧ RowLeft id s) ?_ fun id => ?_
  · refine triple_ask (fun _ _ => trivial) ?_ ?_
    · rintro s id db' ⟨rfl, hlog⟩ ⟨hfresh, rfl⟩
      refine ⟨⟨fun h => ?_, ?_, ?_⟩, trivial⟩
      · obtain ⟨c, hc, hid⟩ := List.mem_map.1 h
        exact hfresh c hc hid
      · exact List.mem_map.2 ⟨_, List.mem_append_right _ (List.mem_singleton_self _), rfl⟩
      · simpa [ConfigurationRejected] using hlog
    · rintro s x - hx
      exact ⟨fun why he => absurd he (hx why), trivial⟩
  · have hrest : Respects world (RowLeft id) (fun c => ∀ i v, c ≠ .check (.configuration i v)) (do
        let _ ← createInstances (r.members id (orNone r.configuration))
        ask (.castCreateCluster id)
        pure id) := by
      refine respects_bind (respects_bind ?_ fun _ => ?_) fun _ => ?_
      · exact (respects_validateMembers _).mono fun c hc i v he => by subst he; cases hc
      · exact respects_createAll fun _ _ _ _ h => by cases h
      · exact respects_bind (respects_ask fun _ _ h => by cases h) fun _ => respects_pure _
    refine triple_intro fun s hs => ?_
    exact ((hrest.triple fun _ _ _ _ => world_rowLeft).weaken fun _ _ => trivial).consequence
      (fun _ he => he ▸ hs.2) (fun _ _ _ => trivial) fun _ _ h _ _ => .inr ⟨id, hs.1, h⟩

theorem topology_cases (extendedProperties : Option Mapping) :
    topology extendedProperties = .ok "replica_set" ∨
      topology extendedProperties = .ok shardedTopology ∨
      ∃ x, topology extendedProperties = .error x := by
  unfold topology
  dsimp only
  split_ifs with h
  · rcases h with h | h
    · exact .inl (by rw [h])
    · exact .inr (.inl (by rw [h]))
  · exact .inr (.inr ⟨_, rfl⟩)

/-- A rejected create request leaves nothing behind exactly if it was not for a replica set
or failed at the lookup of its configuration. -/
theorem create_rejected_iff (r : CreateRequest) (db : Database) (why : Rejection) (s : Run)
    (h : Exec world (create r) ⟨db, []⟩ (.raised (.rejected why)) s) :
    LeavesNothing db s.db ↔
      (topology r.extendedProperties ≠ .ok "replica_set" ∨ ConfigurationRejected s.log) := by
  unfold create at h
  rcases topology_cases r.extendedProperties with ht | ht | ⟨x, ht⟩
  · rw [ht] at h ⊢
    have hne : ¬"replica_set" = shardedTopology := by decide
    simp only [ofExcept, pure_eq, ret_bind, if_neg hne] at h
    rcases (triple_createReplicaSet r db).raised _ rfl _ _ h why rfl with ⟨hdb, hlog⟩ | ⟨id, hid, hrow⟩
    · rw [hdb]
      exact ⟨fun _ => .inr hlog, fun _ => .refl db⟩
    · constructor
      · intro hl
        obtain ⟨c, hc, rfl⟩ := List.mem_map.1 hrow.1
        exact absurd (List.mem_map_of_mem (hl.1 c hc)) hid
      · rintro (hn | hn)
        · exact absurd rfl hn
        · exact absurd hn hrow.2
  · rw [ht] at h ⊢
    simp only [ofExcept, pure_eq, ret_bind, if_pos] at h
    rw [(triple_createSharded r db).raised _ rfl _ _ h why rfl]
    exact ⟨fun _ => .inl (by simp [shardedTopology]), fun _ => .refl db⟩
  · rw [ht] at h ⊢
    simp only [ofExcept, raise_bind] at h
    rw [(exec_raise h).1]
    exact ⟨fun _ => .inl (by simp), fun _ => .refl db⟩

section Example

/-- A request for a replica set of one member. -/
def singleMember : CreateRequest where
  projectId := "p1"
  name := "db"
  version := ⟨"8.0", some "image"⟩
  conf := ⟨false, true, none, none, none, none, none, 600, 27017⟩
  instances := [⟨"small", some 10, .none, none, none, none, none, none, none, none⟩]
  extendedProperties := none
  locality := none
  configuration := none
  imageId := none

private theorem singleMember_run :
    (Surroundings.run {} (create singleMember) ⟨[], []⟩).1 =
        .raised (.rejected (.numInstancesNotSupported 2)) ∧
      (Surroundings.run {} (create singleMember) ⟨[], []⟩).2.db =
        ⟨[⟨"cluster0", "db", none, .buildingInitial⟩], []⟩ := ⟨rfl, rfl⟩

private theorem singleMember_exec :
    Exec world (create singleMember) ⟨⟨[], []⟩, []⟩ (.raised (.rejected (.numInstancesNotSupported 2)))
      (Surroundings.run {} (create singleMember) ⟨[], []⟩).2 := by
  have h := Surroundings.exec {} (create singleMember) ⟨[], []⟩
  rwa [singleMember_run.1] at h

theorem singleMember_rejected_iff :
    LeavesNothing ⟨[], []⟩ (Surroundings.run {} (create singleMember) ⟨[], []⟩).2.db ↔
      (topology none ≠ .ok "replica_set" ∨
        ConfigurationRejected (Surroundings.run {} (create singleMember) ⟨[], []⟩).2.log) :=
  create_rejected_iff singleMember ⟨[], []⟩ (.numInstancesNotSupported 2) _ singleMember_exec

/-- The request is refused for its size, and its row stays. -/
theorem singleMember_leaves_row :
    ¬∀ (r : CreateRequest) (db : Database) (why : Rejection) (s : Run),
      Exec world (create r) ⟨db, []⟩ (.raised (.rejected why)) s → LeavesNothing db s.db := by
  intro h
  have hl := (h _ _ _ _ singleMember_exec).1 ⟨"cluster0", "db", none, .buildingInitial⟩
  rw [singleMember_run.2] at hl
  exact absurd (hl List.mem_cons_self) List.not_mem_nil

end Example

end Yggdrasil.Mongo
