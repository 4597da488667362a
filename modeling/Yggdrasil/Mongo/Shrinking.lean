import Yggdrasil.Mongo.Growth

/-! What shrinking a cluster does to the database, what an accepted plan guarantees about
the instances it keeps, and which databases can be reached at all. -/

namespace Yggdrasil.Mongo

open Effect Effect.Process

/-! ### Reachable databases -/

/-- A database that calls can have produced, in any order, from an empty one. -/
inductive Reachable : Database → Prop
  | empty : Reachable ⟨[], []⟩
  | step {db db' : Database} {c : Call} {a : c.Answer} (h : Reachable db) (hs : db.Step c a db') :
      Reachable db'

/-- No call renames an instance, and a new one has a new name. -/
theorem Database.Step.nodup {db db' : Database} {c : Call} {a : c.Answer} (hs : db.Step c a db')
    (h : (db.instances.map Instance.id).Nodup) : (db'.instances.map Instance.id).Nodup := by
  cases hw : c.writes with
  | false => rwa [hs.eq_of_not_writes hw]
  | true =>
    cases c with
    | createInstance new =>
      rw [hs.2]
      change ((db.instances ++ [_]).map Instance.id).Nodup
      rw [List.map_append, List.nodup_append]
      refine ⟨h, List.nodup_singleton _, ?_⟩
      intro id hid id' hid' he
      obtain ⟨i, hi, rfl⟩ := List.mem_map.1 hid
      rw [List.map_singleton, List.mem_singleton] at hid'
      exact hs.1 i hi (he.trans hid')
    | createCluster new => rwa [hs.2]
    | updateDb cluster status => rwa [hs]
    | resetTask cluster => rwa [hs]
    | detach id =>
      rw [hs]
      have hid : (db.detach id).instances.map Instance.id = db.instances.map Instance.id := by
        simp only [detach, List.map_map]
        exact List.map_congr_left fun i _ => by
          dsimp only [Function.comp]
          split_ifs <;> rfl
      rwa [hid]
    | delete id =>
      rw [hs]
      have hid : (db.delete id).instances.map Instance.id = db.instances.map Instance.id := by
        simp only [delete, List.map_map]
        exact List.map_congr_left fun i _ => by
          dsimp only [Function.comp]
          split_ifs <;> rfl
      rwa [hid]
    | _ => cases hw

/-- Whatever is run on a reachable database leads to reachable ones. -/
theorem Reachable.exec {α : Type} {p : Action α} {s s' : Run} {o : Outcome Error α}
    (h : Reachable s.db) (hr : Exec world p s o s') : Reachable s'.db := by
  have hp := (respects_true (W := world) (R := fun s => Reachable s.db) p).triple
    fun s c r s' hs _ hw => by
      cases r with
      | ok a => exact .step hs hw.1
      | error x => rwa [hw.2.1]
  exact hp.always s h o s' hr

theorem Reachable.nodup {db : Database} (h : Reachable db) :
    (db.instances.map Instance.id).Nodup := by
  induction h with
  | empty => exact List.nodup_nil
  | step _ hs ih => exact hs.nodup ih

theorem Reachable.nodup_live {db : Database} (h : Reachable db) (cluster : String) :
    ((db.live cluster).map Instance.id).Nodup :=
  h.nodup.sublist (List.filter_sublist.map _)

/-! ### Removing instances -/

/-- Changing the instances of one name so that they drop out leaves the others. -/
theorem filter_map_gone {p : Instance → Bool} {f : Instance → Instance} {id : String}
    (hsame : ∀ i, i.id ≠ id → f i = i) (hgone : ∀ i, i.id = id → p (f i) = false)
    (l : List Instance) : (l.map f).filter p = (l.filter p).filter fun i => i.id ≠ id := by
  induction l with
  | nil => rfl
  | cons i l ih =>
    rw [List.map_cons, List.filter_cons, List.filter_cons, ih]
    by_cases hid : i.id = id
    · rw [hgone i hid]
      cases p i <;> simp [hid]
    · rw [hsame i hid]
      cases p i <;> simp [hid]

theorem live_detach (db : Database) (id cluster : String) :
    (db.detach id).live cluster = (db.live cluster).filter fun i => i.id ≠ id :=
  filter_map_gone (fun _ hi => if_neg hi) (fun _ hi => by simp [hi]) db.instances

theorem live_delete (db : Database) (id cluster : String) :
    (db.delete id).live cluster = (db.live cluster).filter fun i => i.id ≠ id :=
  filter_map_gone (fun _ hi => if_neg hi) (fun _ hi => by simp [hi]) db.instances

theorem live_setStatus (db : Database) (id cluster : String) (status : TaskStatus) :
    (db.setStatus id status).live cluster = db.live cluster := rfl

/-! ### Accepted plans -/

/-- The instances that stay. -/
def kept (instances : List Instance) (requested : List String) : List Instance :=
  instances.filter fun i => i.id ∉ requested

theorem mem_kept {instances : List Instance} {requested : List String} {i : Instance} :
    i ∈ kept instances requested ↔ i ∈ instances ∧ i.id ∉ requested := by
  simp [kept]

theorem kept_append (instances : List Instance) (requested : List String) (id : String) :
    kept instances (requested ++ [id]) = (kept instances requested).filter fun i => i.id ≠ id := by
  unfold kept
  rw [List.filter_filter]
  refine List.filter_congr fun i _ => ?_
  simp [and_comm]

theorem mem_targetShards {members : List Instance} {requested : List String} {target : TargetShard}
    (h : target ∈ targetShards members requested) :
    ∀ m, m ∈ target.members ↔ m ∈ members ∧ m.id ∈ requested ∧ m.shardId = target.shardId := by
  intro m
  unfold targetShards at h
  obtain ⟨shard, -, hs⟩ := List.mem_filterMap.1 h
  split at hs
  · cases hs
  · rename_i first others hf
    rw [← Option.some.inj hs]
    change m ∈ first :: others ↔ _
    rw [← hf, List.mem_filter, List.mem_filter]
    simp [and_assoc]

/-- The shard of every requested member is a target. -/
theorem exists_targetShard {members : List Instance} {requested : List String} {m : Instance}
    (hm : m ∈ members) (hr : m.id ∈ requested) :
    ∃ target ∈ targetShards members requested, target.shardId = m.shardId := by
  have hmem : m ∈ members.filter fun m => m.id ∈ requested := by simp [hm, hr]
  obtain ⟨shard, hfirst, hshard⟩ := Dict.exists_isFirst id
    (List.mem_map_of_mem (f := Instance.shardId) hmem)
  dsimp only [id] at hshard
  subst hshard
  have hfilter : m ∈ (members.filter fun m => m.id ∈ requested).filter fun i =>
      i.shardId = m.shardId := by simp [hm, hr]
  cases hf : (members.filter fun m => m.id ∈ requested).filter fun i => i.shardId = m.shardId with
  | nil =>
    rw [hf] at hfilter
    cases hfilter
  | cons first others =>
    refine ⟨⟨m.shardId, first, others⟩, ?_, rfl⟩
    unfold targetShards
    refine List.mem_filterMap.2 ⟨m.shardId, (Dict.mem_firsts id).2 hfirst, ?_⟩
    rw [hf]

/-- What an accepted sharded shrink guarantees. -/
structure ShrinkPlan.Accepted (plan : ShrinkPlan) (instances : List Instance) : Prop where
  known : ∀ id ∈ plan.requested, ∃ i ∈ instances, i.id = id
  configServers : ∀ i ∈ instances, i.type = .configServer → i.id ∉ plan.requested
  router : ∃ i ∈ instances, i.type = .queryRouter ∧ i.id ∉ plan.requested
  shard : ∃ i ∈ instances, i.type = .member ∧ i.id ∉ plan.requested
  whole : ∀ i ∈ instances, ∀ j ∈ instances, i.type = .member → j.type = .member →
    i.shardId = j.shardId → i.id ∈ plan.requested → j.id ∈ plan.requested
  targets : plan.targets = targetShards (instances.filter fun i => i.type = .member) plan.requested

theorem sameIds_iff {a b : List Instance} :
    sameIds a b = true ↔ ∀ id, id ∈ a.map Instance.id ↔ id ∈ b.map Instance.id := by
  unfold sameIds
  simp only [Bool.and_eq_true, List.all_eq_true, decide_eq_true_eq]
  constructor
  · rintro ⟨hab, hba⟩ id
    constructor
    · intro h
      obtain ⟨i, hi, rfl⟩ := List.mem_map.1 h
      exact hab i hi
    · intro h
      obtain ⟨i, hi, rfl⟩ := List.mem_map.1 h
      exact hba i hi
  · intro h
    exact ⟨fun i hi => (h i.id).1 (List.mem_map_of_mem hi),
      fun i hi => (h i.id).2 (List.mem_map_of_mem hi)⟩

/-- A list without repetitions has an element outside a shorter one. -/
theorem exists_notMem_of_length_lt {l r : List String} (hnd : l.Nodup) (h : r.length < l.length) :
    ∃ x ∈ l, x ∉ r := by
  by_contra hall
  have hsub : l ⊆ r := fun x hx => by
    by_contra hr
    exact hall ⟨x, hx, hr⟩
  have hle := (List.subperm_of_subset hnd hsub).length_le
  omega

/-- Counting the requested routers shows that one stays. -/
theorem exists_router {instances : List Instance} {requested : List String}
    (hnd : (instances.map Instance.id).Nodup)
    (h : ¬(instances.filter fun i => i.type = .queryRouter).length < (requested.filter fun id =>
      id ∈ (instances.filter fun i => i.type = .queryRouter).map Instance.id).length +
        minQueryRouters) :
    ∃ i ∈ instances, i.type = .queryRouter ∧ i.id ∉ requested := by
  have hmin : minQueryRouters = 1 := rfl
  have hrouters : ((instances.filter fun i => i.type = .queryRouter).map Instance.id).Nodup :=
    hnd.sublist (List.filter_sublist.map _)
  obtain ⟨id, hid, hn⟩ := exists_notMem_of_length_lt hrouters (r := requested.filter fun id =>
      id ∈ (instances.filter fun i => i.type = .queryRouter).map Instance.id)
    (by rw [List.length_map]; omega)
  obtain ⟨i, hi, rfl⟩ := List.mem_map.1 hid
  obtain ⟨hmem, htype⟩ := List.mem_filter.1 hi
  refine ⟨i, hmem, by simpa using htype, fun hreq => hn ?_⟩
  simp [hreq, List.mem_map_of_mem hi]

/-- The members of a target shard are all of the shard's members, once every requested shard
was found complete. -/
theorem whole_of_find? {instances : List Instance} {requested : List String}
    (h : (targetShards (instances.filter fun i => i.type = .member) requested).find? (fun target =>
      !sameIds target.members ((instances.filter fun i => i.type = .member).filter fun m =>
        m.shardId = target.shardId)) = none) :
    ∀ i ∈ instances, ∀ j ∈ instances, i.type = .member → j.type = .member →
      i.shardId = j.shardId → i.id ∈ requested → j.id ∈ requested := by
  intro i hi j hj hti htj hshard hreq
  have hmem : ∀ m ∈ instances, m.type = .member →
      m ∈ instances.filter fun i => i.type = .member := fun m hm ht => by simp [hm, ht]
  obtain ⟨target, htarget, hid⟩ := exists_targetShard (hmem i hi hti) hreq
  have hsame := List.find?_eq_none.1 h target htarget
  rw [Bool.not_eq_true, Bool.not_eq_false', sameIds_iff] at hsame
  have hj' : j.id ∈ ((instances.filter fun i => i.type = .member).filter fun m =>
      m.shardId = target.shardId).map Instance.id := by
    refine List.mem_map_of_mem (List.mem_filter.2 ⟨hmem j hj htj, ?_⟩)
    rw [decide_eq_true_eq, hid, hshard]
  obtain ⟨m, hm, hmj⟩ := List.mem_map.1 ((hsame j.id).2 hj')
  obtain ⟨-, hmreq, -⟩ := (mem_targetShards htarget m).1 hm
  rwa [← hmj]

/-- The request passes the checks one after another; each leaves one guarantee. -/
theorem planShrinkSharded_accepted {instances : List Instance} {removalIds : List String}
    {plan : ShrinkPlan} (hnd : (instances.map Instance.id).Nodup)
    (h : planShrinkSharded instances removalIds = .ok plan) : plan.Accepted instances := by
  unfold planShrinkSharded at h
  dsimp only at h
  generalize Dict.firsts id removalIds = requested at h
  by_cases hempty : requested = []
  · rw [if_pos hempty] at h
    cases h
  rw [if_neg hempty] at h
  split at h
  · cases h
  next hknown =>
  by_cases hconfig : (requested.filter fun id =>
      id ∈ (instances.filter fun i => i.type = .configServer).map Instance.id) = []
  · rw [if_neg (not_not.2 hconfig)] at h
    split at h
    · cases h
    next hrouters =>
    split at h
    · cases h
    next hshards =>
    split at h
    · cases h
    next hwhole =>
    cases h
    refine ⟨fun id hid => ?_, fun i hi ht hreq => ?_, exists_router hnd hrouters, ?_,
      whole_of_find? hwhole, rfl⟩
    · have hmem := List.filter_eq_nil_iff.1 hknown id hid
      rw [decide_eq_true_eq, not_not] at hmem
      exact List.mem_map.1 hmem
    · have hmem := List.filter_eq_nil_iff.1 hconfig i.id hreq
      rw [decide_eq_true_eq] at hmem
      exact hmem (List.mem_map_of_mem (List.mem_filter.2 ⟨hi, by simpa using ht⟩))
    · rw [List.all_eq_true] at hshards
      by_contra hall
      refine hshards fun m hm => ?_
      obtain ⟨hmi, hmt⟩ := List.mem_filter.1 hm
      have hreq : m.id ∈ requested := by
        by_contra hn
        exact hall ⟨m, hmi, by simpa using hmt, hn⟩
      obtain ⟨target, htarget, hid⟩ := exists_targetShard hm hreq
      rw [decide_eq_true_eq, ← hid]
      exact List.mem_map_of_mem htarget
  · rw [if_pos hconfig] at h
    cases h

/-! ### The parts of a shrink -/

/-- The calls that ask something of an instance, a guest or the clock. -/
def Call.inquires : Call → Bool
  | .loadInstance _ => true
  | .visibleAddresses _ => true
  | .clock => true
  | .sleep _ => true
  | .getReplicaSetName _ => true
  | .removeShard .. => true
  | .rpc _ => true
  | .mongosh .. => true
  | .reply _ => true
  | _ => false

theorem Call.not_writes_of_inquires {c : Call} (h : c.inquires = true) : c.writes = false := by
  cases c <;> simp_all [inquires, writes]

section Respects

variable {S : Type} {W : World S Call Call.Answer Error} {R : S → Prop}

theorem respects_drain (router name : String) (deadline : ℤ) (fuel : ℕ) :
    Respects W R (fun c => c.inquires = true) (drain router name deadline fuel) := by
  induction fuel with
  | zero => trivial
  | succ fuel ih =>
    refine respects_bind (respects_ask rfl) fun now => respects_ite (fun _ => ?_) fun _ => trivial
    refine respects_bind (respects_ask rfl) fun result => respects_ite (fun _ => trivial) fun _ => ?_
    exact respects_bind (respects_ask rfl) fun _ => ih

theorem respects_removeShardFromRouter (conf : MongoConf) (fuel : ℕ) (router : Instance)
    (name : String) :
    Respects W R (fun c => c.inquires = true) (removeShardFromRouter conf fuel router name) := by
  unfold removeShardFromRouter
  refine respects_bind (respects_ask rfl) fun _ => respects_bind (respects_ask rfl) fun result => ?_
  refine respects_ite (fun _ => trivial) fun _ => respects_ite (fun _ => trivial) fun _ => ?_
  exact respects_bind (respects_ask rfl) fun now => respects_drain _ _ _ _

theorem respects_shardedReplicaSetName (member : Instance) :
    Respects W R (fun c => c.inquires = true) (shardedReplicaSetName member) := by
  unfold shardedReplicaSetName
  refine respects_bind (respects_ask rfl) fun _ => respects_bind (respects_ask rfl) fun name => ?_
  cases orNone name <;> trivial

/-- Draining a shard only asks. -/
theorem respects_drainTarget (conf : MongoConf) (fuel : ℕ) (routers : List Instance)
    (target : TargetShard) :
    Respects W R (fun c => c.inquires = true) (drainTarget conf fuel routers target) := by
  unfold drainTarget
  refine respects_bind (respects_shardedReplicaSetName _) fun name => ?_
  cases routers with
  | nil => trivial
  | cons router routers => exact respects_removeShardFromRouter _ _ _ _

theorem respects_memberAddress (conf : MongoConf) (id : String) :
    Respects W R (fun c => c.inquires = true) (memberAddress conf id) := by
  unfold memberAddress
  refine respects_bind (respects_ask rfl) fun addresses => ?_
  cases addresses <;> trivial

theorem respects_replicaHello (guest : String) :
    Respects W R (fun c => c.inquires = true) (replicaHello guest) := by
  unfold replicaHello runMongosh
  refine respects_bind (respects_ask rfl) fun output => ?_
  split <;> trivial

theorem respects_removeReplicaMembers (guest : String) (members : List String) :
    Respects W R (fun c => c.inquires = true) (removeReplicaMembers guest members) := by
  unfold removeReplicaMembers runMongosh
  refine respects_bind (respects_replicaHello guest) fun hello => ?_
  refine respects_ite (fun _ => ?_) fun _ => trivial
  refine respects_bind (respects_ask rfl) fun output => ?_
  cases output <;> trivial

theorem respects_tryCandidates (addresses : List String) (candidates : List Instance) :
    Respects W R (fun c => c.inquires = true) (tryCandidates addresses candidates) := by
  induction candidates with
  | nil => trivial
  | cons candidate rest ih =>
    unfold tryCandidates
    refine respects_bind (respects_exceptException ?_ fun _ => trivial) fun removed =>
      respects_ite (fun _ => trivial) fun _ => ih
    refine respects_bind ?_ fun _ => trivial
    refine respects_bind (respects_ask rfl) fun _ => ?_
    exact respects_bind (respects_removeReplicaMembers _ _) fun _ =>
      respects_bind (respects_ask rfl) fun _ => trivial

/-- So does removing members from the set. -/
theorem respects_removeMembers (addresses : List String) (candidates : List Instance)
    (deadline : ℤ) (fuel : ℕ) :
    Respects W R (fun c => c.inquires = true) (removeMembers addresses candidates deadline fuel) := by
  induction fuel with
  | zero => trivial
  | succ fuel ih =>
    refine respects_bind (respects_ask rfl) fun now => respects_ite (fun _ => ?_) fun _ => trivial
    refine respects_bind (respects_tryCandidates _ _) fun removed =>
      respects_ite (fun _ => trivial) fun _ => ?_
    exact respects_bind (respects_ask rfl) fun _ => ih

end Respects

end Yggdrasil.Mongo
