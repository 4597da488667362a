import Yggdrasil.Mongo.Atomicity
import Yggdrasil.Mongo.Shrinking

/-! A shrink that is rejected changes nothing, and one that completes leaves a cluster that
can go on: routers, config servers and whole shards, or enough members of a replica set. -/

namespace Yggdrasil.Mongo

open Effect Effect.Process

/-- A sharded cluster that has lost no config server and no part of a shard that it keeps. -/
structure ViableSharded (before after : List Instance) : Prop where
  router : ∃ i ∈ after, i.type = .queryRouter
  shard : ∃ i ∈ after, i.type = .member
  configServers : ∀ i ∈ before, i.type = .configServer → i ∈ after
  complete : ∀ i ∈ before, ∀ j ∈ after, i.type = .member → j.type = .member →
    i.shardId = j.shardId → i ∈ after

/-- What a completed shrink leaves of the instances there were. -/
def Viable (before after : List Instance) : Prop :=
  if isSharded before then ViableSharded before after else minReplicaSetMembers ≤ after.length

/-! ### What the checks guarantee -/

theorem ShrinkPlan.Accepted.viable {plan : ShrinkPlan} {instances : List Instance}
    (h : plan.Accepted instances) : ViableSharded instances (kept instances plan.requested) := by
  obtain ⟨router, hrouter, hrouterType, hrouterStays⟩ := h.router
  obtain ⟨member, hmember, hmemberType, hmemberStays⟩ := h.shard
  refine ⟨⟨router, mem_kept.2 ⟨hrouter, hrouterStays⟩, hrouterType⟩,
    ⟨member, mem_kept.2 ⟨hmember, hmemberStays⟩, hmemberType⟩, ?_, ?_⟩
  · intro i hi ht
    exact mem_kept.2 ⟨hi, h.configServers i hi ht⟩
  · intro i hi j hj hti htj hshard
    obtain ⟨hj, hstays⟩ := mem_kept.1 hj
    refine mem_kept.2 ⟨hi, fun hreq => hstays ?_⟩
    exact h.whole i hi j hj hti htj hshard hreq

theorem length_kept (instances : List Instance) (requested : List String)
    (hnd : (instances.map Instance.id).Nodup) :
    instances.length ≤ (kept instances requested).length + requested.length := by
  have hgone : (instances.filter fun i => i.id ∈ requested).length ≤ requested.length := by
    have hids : ((instances.filter fun i => i.id ∈ requested).map Instance.id).Nodup :=
      hnd.sublist (List.filter_sublist.map _)
    have hsub : ((instances.filter fun i => i.id ∈ requested).map Instance.id) ⊆ requested := by
      intro id hid
      obtain ⟨i, hi, rfl⟩ := List.mem_map.1 hid
      simpa using (List.mem_filter.1 hi).2
    simpa using (List.subperm_of_subset hids hsub).length_le
  have hsplit := List.length_eq_length_filter_add (l := instances) fun i => i.id ∈ requested
  have hkept : kept instances requested =
      instances.filter fun i => !decide (i.id ∈ requested) :=
    List.filter_congr fun i _ => by simp
  rw [hkept]
  omega

/-- An accepted removal from a replica set names known members and leaves enough. -/
theorem planShrink_accepted {instances : List Instance} {removalIds requested : List String}
    (hnd : (instances.map Instance.id).Nodup) (h : planShrink instances removalIds = .ok requested) :
    minReplicaSetMembers ≤ (kept instances requested).length := by
  unfold planShrink at h
  dsimp only at h
  split at h
  · cases h
  split at h
  · cases h
  next hcount =>
  cases h
  have hlen : (Dict.firsts id (instances.map Instance.id)).length ≤ instances.length := by
    have hids := Dict.nodup_firsts id (instances.map Instance.id)
    rw [List.map_id] at hids
    have hsub : Dict.firsts id (instances.map Instance.id) ⊆ instances.map Instance.id :=
      fun _ => Dict.mem_of_mem_firsts id
    simpa using (List.subperm_of_subset hids hsub).length_le
  have hkept := length_kept instances (Dict.firsts id removalIds) hnd
  omega

/-! ### Rejections come first -/

theorem neverRejects_drain (router name : String) (deadline : ℤ) (fuel : ℕ) :
    NeverRejects (drain router name deadline fuel) := by
  induction fuel with
  | zero => exact raises_hang
  | succ fuel ih =>
    refine raises_bind (raises_ask _) fun now =>
      raises_ite ?_ (raises_fail _)
    refine raises_bind (raises_ask _) fun result =>
      raises_ite (raises_pure _) ?_
    exact raises_bind (raises_ask _) fun _ => ih

theorem neverRejects_drainTarget (conf : MongoConf) (fuel : ℕ) (routers : List Instance)
    (target : TargetShard) : NeverRejects (drainTarget conf fuel routers target) := by
  unfold drainTarget shardedReplicaSetName
  refine raises_bind (raises_bind (raises_ask _) fun _ =>
    raises_bind (raises_ask _) fun name => ?_) fun name => ?_
  · cases orNone name with
    | none => exact raises_fail _
    | some name => exact raises_pure _
  · cases routers with
    | nil => exact raises_fail _
    | cons router routers =>
      change NeverRejects (removeShardFromRouter conf fuel router name)
      unfold removeShardFromRouter
      refine raises_bind (raises_ask _) fun _ =>
        raises_bind (raises_ask _) fun result => raises_ite (raises_fail _) ?_
      refine raises_ite (raises_pure _) ?_
      exact raises_bind (raises_ask _) fun now => neverRejects_drain _ _ _ _

theorem neverRejects_removeInstance (id : String) : NeverRejects (removeInstance id) :=
  raises_bind (raises_ask _) fun _ =>
    raises_bind (raises_ask _) fun _ => raises_ask _

theorem neverRejects_memberAddress (conf : MongoConf) (id : String) :
    NeverRejects (memberAddress conf id) := by
  refine raises_bind (raises_ask _) fun addresses => ?_
  cases addresses with
  | nil => exact raises_fail _
  | cons address addresses => exact raises_pure _

theorem neverRejects_tryCandidates (addresses : List String) (candidates : List Instance) :
    NeverRejects (tryCandidates addresses candidates) := by
  induction candidates with
  | nil => exact raises_pure _
  | cons candidate rest ih =>
    exact raises_bind (neverRejects_exceptException _ fun _ => raises_pure _)
      fun removed => raises_ite (raises_pure _) ih

theorem neverRejects_removeMembers (addresses : List String) (candidates : List Instance)
    (deadline : ℤ) (fuel : ℕ) :
    NeverRejects (removeMembers addresses candidates deadline fuel) := by
  induction fuel with
  | zero => exact raises_hang
  | succ fuel ih =>
    refine raises_bind (raises_ask _) fun now =>
      raises_ite ?_ (raises_fail _)
    refine raises_bind (neverRejects_tryCandidates _ _) fun removed =>
      raises_ite (raises_pure _) ?_
    exact raises_bind (raises_ask _) fun _ => ih

/-! ### Removals -/

/-- The cluster after some of its instances are removed; its row is as it was. -/
structure Without (db : Database) (cluster : String) (gone : List String) (s : Run) : Prop where
  clusters : s.db.clusters = db.clusters
  live : s.db.live cluster = kept (db.live cluster) gone

theorem without_nil (db : Database) (cluster : String) {s : Run} (h : s.db = db) :
    Without db cluster [] s := by
  rw [← h]
  exact ⟨rfl, by simp [kept]⟩

section Without

variable {db : Database} {cluster : String} {gone : List String} {s : Run}

theorem Without.reads {db' : Database} {log : List Event} (h : Without db cluster gone s)
    (hdb : db' = s.db) : Without db cluster gone ⟨db', log⟩ := by
  rw [hdb]
  exact ⟨h.clusters, h.live⟩

theorem Without.detach {log : List Event} (h : Without db cluster gone s) (id : String) :
    Without db cluster (gone ++ [id]) ⟨s.db.detach id, log⟩ :=
  ⟨h.clusters, by rw [live_detach, h.live, kept_append]⟩

theorem Without.delete {log : List Event} (h : Without db cluster gone s) {id : String}
    (hid : id ∈ gone) : Without db cluster gone ⟨s.db.delete id, log⟩ := by
  refine ⟨h.clusters, ?_⟩
  rw [live_delete, h.live]
  refine List.filter_eq_self.2 fun i hi => ?_
  obtain ⟨-, hstays⟩ := mem_kept.1 hi
  simpa using fun he : i.id = id => hstays (he ▸ hid)

end Without

/-- Only the removed instances matter, not the order or the repetitions. -/
theorem Without.congr {db : Database} {cluster : String} {gone gone' : List String} {s : Run}
    (h : Without db cluster gone s) (hgone : ∀ i ∈ db.live cluster, i.id ∈ gone ↔ i.id ∈ gone') :
    Without db cluster gone' s :=
  ⟨h.clusters, h.live.trans (List.filter_congr fun i hi => by simp [hgone i hi])⟩

theorem triple_removeInstance (db : Database) (cluster id : String) (gone : List String) :
    Triple world (fun _ => True) (Without db cluster gone) (removeInstance id)
      (fun _ => Without db cluster (gone ++ [id])) fun _ _ => True := by
  unfold removeInstance
  refine triple_bind (M := fun _ => Without db cluster gone) ?_ fun row => ?_
  · exact triple_ask (fun _ _ => trivial) (fun s a db' h hs => ⟨h.reads hs.2.2, trivial⟩)
      fun _ _ _ _ => ⟨trivial, trivial⟩
  refine triple_bind (M := fun _ => Without db cluster (gone ++ [id])) ?_ fun _ => ?_
  · refine triple_ask (fun _ _ => trivial) (fun s a db' h hs => ?_) fun _ _ _ _ =>
      ⟨trivial, trivial⟩
    rw [hs]
    exact ⟨h.detach id, trivial⟩
  · refine triple_ask (fun _ _ => trivial) (fun s a db' h hs => ?_) fun _ _ _ _ =>
      ⟨trivial, trivial⟩
    rw [hs]
    exact ⟨h.delete (List.mem_append_right _ (List.mem_singleton_self _)), trivial⟩

/-- Loading rows returns one for each name. -/
theorem triple_loadAll (db : Database) (l : List Instance) :
    Triple world (fun _ => True) (fun s => s.db = db) (collect loadInstance l)
      (fun rows s => rows.map Instance.id = l.map Instance.id ∧ s.db = db) fun _ _ => True := by
  refine (triple_collect (J := fun d rows s => rows.map Instance.id = d.map Instance.id ∧ s.db = db)
    (fun _ _ _ _ => trivial) fun pre i post rows he => ?_).consequence (fun _ h => ⟨rfl, h⟩)
    (fun _ _ h => h) fun _ _ h => h
  refine triple_ask (fun _ _ => trivial) ?_ fun _ _ _ _ => ⟨trivial, trivial⟩
  rintro s (row : Instance) db' ⟨hrows, rfl⟩ ⟨-, hid, rfl⟩
  refine ⟨⟨?_, rfl⟩, trivial⟩
  rw [List.map_append, List.map_append, hrows, List.map_singleton, List.map_singleton, hid]

theorem triple_detachAll (db : Database) (cluster : String) (removal : List Instance) :
    Triple world (fun _ => True) (Without db cluster [])
      (forEach removal fun i => ask (.detach i.id))
      (fun _ => Without db cluster (removal.map Instance.id)) fun _ _ => True := by
  refine triple_forEach (J := fun d => Without db cluster (d.map Instance.id)) (fun _ _ _ => trivial)
    fun pre i post he => triple_ask (fun _ _ => trivial) (fun s a db' h hs => ?_) fun _ _ _ _ =>
      ⟨trivial, trivial⟩
  rw [hs, List.map_append]
  exact ⟨h.detach i.id, trivial⟩

theorem triple_deleteAll (db : Database) (cluster : String) (removal : List Instance) :
    Triple world (fun _ => True) (Without db cluster (removal.map Instance.id))
      (forEach removal fun i => ask (.delete i.id))
      (fun _ => Without db cluster (removal.map Instance.id)) fun _ _ => True := by
  refine triple_forEach (J := fun _ => Without db cluster (removal.map Instance.id))
    (fun _ _ _ => trivial) fun pre i post he => triple_ask (fun _ _ => trivial)
      (fun s a db' h hs => ?_) fun _ _ _ _ => ⟨trivial, trivial⟩
  rw [hs]
  have hi : i ∈ removal := he ▸ List.mem_append_right _ List.mem_cons_self
  exact ⟨h.delete (List.mem_map_of_mem hi), trivial⟩

/-- Members that the set has given up are detached and deleted. -/
theorem triple_removal (conf : MongoConf) (fuel : ℕ) (db : Database) (cluster : String)
    (requested : List String) :
    Triple world (fun _ => True) (fun s => s.db = db) (do
        let remaining ← collect loadInstance ((db.live cluster).filter fun i => i.id ∉ requested)
        let removal ← collect loadInstance ((db.live cluster).filter fun i => i.id ∈ requested)
        let addresses ← collect (fun i => memberAddress conf i.id) removal
        let now : ℤ ← ask .clock
        removeMembers addresses (remaining ++ removal) (now + conf.addMembersTimeout) fuel
        forEach removal fun i => ask (.detach i.id)
        forEach removal fun i => ask (.delete i.id))
      (fun _ => Without db cluster requested) fun _ _ => True := by
  have hreads : ∀ {α : Type} {p : Action α},
      Respects world (fun s => s.db = db) (fun c => c.writes = false) p →
        Triple world (fun _ => True) (fun s => s.db = db) p (fun _ s => s.db = db)
          fun _ _ => True := fun hp =>
    ((triple_reads hp).weaken fun _ _ => trivial).consequence (fun _ h => h) (fun _ _ h => h)
      fun _ _ _ => trivial
  refine triple_bind (M := fun _ s => s.db = db) ?_ fun remaining => ?_
  · exact (triple_loadAll db _).consequence (fun _ h => h) (fun _ _ h => h.2) fun _ _ h => h
  refine triple_bind (triple_loadAll db _) fun removal => triple_intro ?_
  rintro s₀ ⟨hids, hs₀⟩
  refine triple_bind (M := fun _ s => s.db = db) ?_ fun addresses => ?_
  · exact (hreads (respects_collect fun i _ => (respects_memberAddress conf i.id).mono
      fun _ => Call.not_writes_of_inquires)).consequence
      (fun _ he => he ▸ hs₀) (fun _ _ h => h) fun _ _ h => h
  refine triple_bind (M := fun _ s => s.db = db) (hreads (respects_ask rfl)) fun now => ?_
  refine triple_bind (M := fun _ s => s.db = db) (hreads ((respects_removeMembers _ _ _ _).mono
    fun _ => Call.not_writes_of_inquires)) fun _ => ?_
  refine triple_bind ((triple_detachAll db cluster removal).consequence
    (fun _ h => without_nil db cluster h) (fun _ _ h => h) fun _ _ h => h) fun _ => ?_
  refine (triple_deleteAll db cluster removal).consequence (fun _ h => h) (fun _ s h => ?_)
    fun _ _ h => h
  refine h.congr fun i hi => ?_
  rw [hids]
  constructor
  · intro hmem
    obtain ⟨j, hj, hij⟩ := List.mem_map.1 hmem
    rw [← hij]
    simpa using (List.mem_filter.1 hj).2
  · intro hreq
    exact List.mem_map_of_mem (List.mem_filter.2 ⟨hi, by simpa using hreq⟩)

/-! ### Whole shrinks -/

/-- What a completed shrink leaves. -/
structure Completed (db : Database) (cluster : String) (s : Run) : Prop where
  idle : s.db.status cluster = some .none
  viable : Viable (db.live cluster) (s.db.live cluster)

/-- The reset at the end, whatever happened before it. -/
theorem triple_reset {db : Database} {cluster : String} {status : TaskStatus} {gone : List String}
    (hrow : (db.status cluster).isSome)
    (hviable : Viable (db.live cluster) (kept (db.live cluster) gone)) :
    Triple world (fun _ => True) (Without (db.setStatus cluster status) cluster gone)
      (ask (.updateDb cluster .none)) (fun _ => Completed db cluster) fun _ _ => True := by
  refine triple_ask (fun _ _ => trivial) ?_ fun _ _ _ _ => ⟨trivial, trivial⟩
  rintro s a db' h rfl
  refine ⟨⟨?_, ?_⟩, trivial⟩
  · have hstatus : s.db.status cluster = (db.setStatus cluster status).status cluster := by
      unfold Database.status
      rw [h.clusters]
    rw [status_setStatus, hstatus, status_setStatus]
    obtain ⟨old, hold⟩ := Option.isSome_iff_exists.1 hrow
    rw [hold]
    rfl
  · rw [live_setStatus, h.live, live_setStatus]
    exact hviable

section Shrink

variable {self : MongoDbCluster} {db : Database} (fuel : ℕ) (removalIds : List String)

/-- Rejections of the second part of a shrink are impossible, so what completes decides. -/
theorem triple_marked {p : Action Unit} {status : TaskStatus}
    (hp : Triple world (fun _ => True) (fun s => s.db = db.setStatus self.id status) p
      (fun _ => Completed db self.id) fun _ _ => True) (hnever : NeverRejects p) :
    Triple world (fun _ => True) (fun s => s.db = db) (do
        ask (.updateDb self.id status)
        p)
      (fun _ => Completed db self.id) fun x s => ∀ why, x = .rejected why → s.db = db := by
  refine triple_bind (M := fun _ s => s.db = db.setStatus self.id status) ?_ fun _ => ?_
  · refine triple_ask (fun _ _ => trivial) ?_ ?_
    · rintro s a db' rfl rfl
      exact ⟨rfl, trivial⟩
    · rintro s x rfl hx
      exact ⟨fun why he => absurd he (hx why), trivial⟩
  · exact ((hp.and hnever).weaken fun _ _ => trivial).consequence (fun _ h => ⟨h, trivial⟩)
      (fun _ _ h => h.1) fun _ _ h why he => absurd he (h.2 why)

theorem triple_validateClusterAvailable :
    Triple world (fun _ => True) (fun s => s.db = db) (validateClusterAvailable self)
      (fun _ s => s.db = db) fun x s => ∀ why, x = .rejected why → s.db = db :=
  triple_rejectIf (fun _ _ => trivial) (fun _ h _ => h) fun _ h _ _ _ => h

theorem triple_findInstances :
    Triple world (fun _ => True) (fun s => s.db = db) (ask (.findInstances self.id))
      (fun (rows : List Instance) s => rows = db.live self.id ∧ s.db = db)
      fun x s => ∀ why, x = .rejected why → s.db = db := by
  refine triple_ask (fun _ _ => trivial) ?_ ?_
  · rintro s rows db' rfl ⟨rfl, rfl⟩
    exact ⟨⟨rfl, rfl⟩, trivial⟩
  · rintro s x rfl -
    exact ⟨fun _ _ => rfl, trivial⟩

/-- Every shard is drained, then the requested instances are removed one by one. -/
theorem triple_shrinkSharded (hdb : Reachable db) (hrow : (db.status self.id).isSome)
    (hsharded : isSharded (db.live self.id)) :
    Triple world (fun _ => True) (fun s => s.db = db) (shrinkSharded fuel self removalIds)
      (fun _ => Completed db self.id) fun x s => ∀ why, x = .rejected why → s.db = db := by
  unfold shrinkSharded
  refine triple_bind triple_validateClusterAvailable fun _ => ?_
  refine triple_bind triple_findInstances fun rows => ?_
  refine triple_bind (M := fun plan s => plan.Accepted (db.live self.id) ∧ s.db = db) ?_ fun plan => ?_
  · refine triple_ofExcept (fun _ _ => trivial) ?_ fun _ _ h _ _ _ => h.2
    rintro s plan ⟨rfl, hs⟩ hplan
    exact ⟨planShrinkSharded_accepted (hdb.nodup_live _) hplan, hs⟩
  refine triple_intro ?_
  rintro s₀ ⟨hplan, hs₀⟩
  have hviable : Viable (db.live self.id) (kept (db.live self.id) plan.requested) := by
    unfold Viable
    rw [if_pos hsharded]
    exact hplan.viable
  refine (triple_marked ?_ ?_).consequence (fun _ he => he ▸ hs₀) (fun _ _ h => h) fun _ _ h => h
  · refine triple_ensure (M := fun o s => o = .value () →
      Without (db.setStatus self.id .shrinkingCluster) self.id plan.requested s) ?_ ?_ ?_
    · refine triple_bind (M := fun _ =>
        Without (db.setStatus self.id .shrinkingCluster) self.id []) ?_ fun _ => ?_
      · exact ((triple_reads ((respects_forEach fun target _ =>
          respects_drainTarget _ _ _ target).mono fun _ => Call.not_writes_of_inquires)).weaken fun _ _ => trivial).consequence
          (fun _ h => h) (fun _ _ h => without_nil _ _ h) fun _ _ _ h => by cases h
      · exact (triple_forEach (J := fun d =>
          Without (db.setStatus self.id .shrinkingCluster) self.id d) (fun _ _ _ => trivial)
          fun pre id post _ => triple_removeInstance _ _ id pre).consequence (fun _ h => h)
          (fun _ _ h _ => h) fun _ _ _ h => by cases h
    · exact fun _ => (triple_reset hrow hviable).consequence (fun _ h => h rfl) (fun _ _ h => h)
        fun _ _ h => h
    · exact fun x => triple_true.consequence (fun _ h => h) (fun _ _ _ => trivial) fun _ _ h => h
  · exact neverRejects_ensure (raises_bind (raises_forEach
      (fun target => neverRejects_drainTarget _ _ _ target) _) fun _ =>
        raises_forEach (fun id => neverRejects_removeInstance id) _) (raises_ask _)

/-- The requested members are removed from the set, then detached, then deleted. -/
theorem triple_shrinkReplicaSet (hdb : Reachable db) (hrow : (db.status self.id).isSome)
    (hsharded : ¬isSharded (db.live self.id)) :
    Triple world (fun _ => True) (fun s => s.db = db) (shrinkReplicaSet fuel self removalIds)
      (fun _ => Completed db self.id) fun x s => ∀ why, x = .rejected why → s.db = db := by
  unfold shrinkReplicaSet
  refine triple_bind triple_validateClusterAvailable fun _ => ?_
  refine triple_bind triple_findInstances fun rows => ?_
  refine triple_bind (M := fun requested s =>
    minReplicaSetMembers ≤ (kept (db.live self.id) requested).length ∧ rows = db.live self.id ∧
      s.db = db) ?_ fun requested => ?_
  · refine triple_ofExcept (fun _ _ => trivial) ?_ fun _ _ h _ _ _ => h.2
    rintro s requested ⟨rfl, hs⟩ hplan
    exact ⟨planShrink_accepted (hdb.nodup_live _) hplan, rfl, hs⟩
  refine triple_intro ?_
  rintro s₀ ⟨hlen, rfl, hs₀⟩
  have hviable : Viable (db.live self.id) (kept (db.live self.id) requested) := by
    unfold Viable
    rw [if_neg hsharded]
    exact hlen
  refine (triple_marked ?_ ?_).consequence (fun _ he => he ▸ hs₀) (fun _ _ h => h) fun _ _ h => h
  · refine triple_ensure (M := fun o s => o = .value () →
      Without (db.setStatus self.id .shrinkingCluster) self.id requested s) ?_ ?_ ?_
    · refine (triple_removal self.conf fuel (db.setStatus self.id .shrinkingCluster) self.id
        requested).consequence (fun _ h => h)
        (fun _ _ h _ => h) fun _ _ _ h => by cases h
    · exact fun _ => (triple_reset hrow hviable).consequence (fun _ h => h rfl) (fun _ _ h => h)
        fun _ _ h => h
    · exact fun x => triple_true.consequence (fun _ h => h) (fun _ _ _ => trivial) fun _ _ h => h
  · refine neverRejects_ensure ?_ (raises_ask _)
    refine raises_bind (raises_collect (f := loadInstance) (fun i => raises_ask _) _)
      fun remaining => ?_
    refine raises_bind (raises_collect (f := loadInstance) (fun i => raises_ask _) _)
      fun removal => ?_
    refine raises_bind (raises_collect (fun i => neverRejects_memberAddress _ _) _)
      fun addresses => ?_
    refine raises_bind (raises_ask _) fun now => ?_
    refine raises_bind (neverRejects_removeMembers _ _ _ _) fun _ => ?_
    exact raises_bind (raises_forEach (fun i => raises_ask _) _) fun _ =>
      raises_forEach (fun i => raises_ask _) _

end Shrink

/-- A rejected shrink changes nothing, and a completed one leaves an idle and viable cluster. -/
theorem shrink_viable (fuel : ℕ) (self : MongoDbCluster) (removalIds : List String) (db : Database)
    (hdb : Reachable db) (hload : db.status self.id = some self.row.taskStatus) :
    (∀ why s, Exec world (shrink fuel self removalIds) ⟨db, []⟩ (.raised (.rejected why)) s →
      s.db = db) ∧
    ∀ s, Exec world (shrink fuel self removalIds) ⟨db, []⟩ (.value ()) s →
      Completed db self.id s := by
  have hrow : (db.status self.id).isSome := by rw [hload]; rfl
  have hshrink : Triple world (fun _ => True) (fun s => s.db = db) (shrink fuel self removalIds)
      (fun _ => Completed db self.id) fun x s => ∀ why, x = .rejected why → s.db = db := by
    refine triple_bind triple_findInstances fun rows => triple_intro ?_
    rintro s₀ ⟨rfl, hs₀⟩
    refine triple_ite (fun hsharded => ?_) fun hsharded => ?_
    · exact (triple_shrinkSharded fuel removalIds hdb hrow hsharded).consequence
        (fun _ he => he ▸ hs₀) (fun _ _ h => h) fun _ _ h => h
    · exact (triple_shrinkReplicaSet fuel removalIds hdb hrow hsharded).consequence
        (fun _ he => he ▸ hs₀) (fun _ _ h => h) fun _ _ h => h
  exact ⟨fun why s h => hshrink.raised _ rfl _ s h why rfl, fun s h => hshrink.value _ rfl _ s h⟩

section Example

private def member (name : String) : Node :=
  ⟨"small", some 10, .none, some name, some "shard", none, none, none, none, none⟩

/-- A request for a sharded cluster of one shard. -/
def oneShard : CreateRequest where
  projectId := "p1"
  name := "db"
  version := ⟨"8.0", some "image"⟩
  conf := ⟨false, true, none, some 2, some 1, none, none, 600, 27017⟩
  instances := [member "a", member "b"]
  extendedProperties := some [(.str "topology", .str "sharded")]
  locality := none
  configuration := none
  imageId := none

/-- Nodes for one more shard. -/
def shardNodes : List Node := [member "c", member "d"]

/-- The cluster as a later request loads it. -/
def loadedCluster (id : String) : MongoDbCluster where
  row := ⟨id, "db", none, .none⟩
  projectId := "p1"
  version := oneShard.version
  conf := oneShard.conf

/-- A sharded cluster is created and grown by a shard, and the tasks end. -/
def twoShards : Action Unit := do
  let id ← create oneShard
  ask (.resetTask id)
  grow (loadedCluster id) shardNodes none
  ask (.resetTask id)

/-- The database that these requests leave. -/
def twoShardsDatabase : Database := (Surroundings.run {} twoShards ⟨[], []⟩).2.db

theorem reachable_twoShards : Reachable twoShardsDatabase :=
  Reachable.exec (s := ⟨⟨[], []⟩, []⟩) .empty (Surroundings.exec {} twoShards ⟨[], []⟩)

private theorem shrink_twoShards :
    Exec world (shrink 1 (loadedCluster "cluster5") ["instance7", "instance8"])
      ⟨twoShardsDatabase, []⟩ (.value ())
      (Surroundings.run {} (shrink 1 (loadedCluster "cluster5") ["instance7", "instance8"])
        twoShardsDatabase).2 := by
  have hvalue : (Surroundings.run {} (shrink 1 (loadedCluster "cluster5") ["instance7", "instance8"])
      twoShardsDatabase).1 = .value () := rfl
  have h := Surroundings.exec {} (shrink 1 (loadedCluster "cluster5") ["instance7", "instance8"])
    twoShardsDatabase
  rwa [hvalue] at h

/-- The first shard is removed, and the second keeps the cluster viable. -/
theorem shrink_twoShards_viable :
    Completed twoShardsDatabase "cluster5"
      (Surroundings.run {} (shrink 1 (loadedCluster "cluster5") ["instance7", "instance8"])
        twoShardsDatabase).2 :=
  (shrink_viable 1 (loadedCluster "cluster5") ["instance7", "instance8"] twoShardsDatabase
    reachable_twoShards rfl).2 _ shrink_twoShards

end Example

end Yggdrasil.Mongo
