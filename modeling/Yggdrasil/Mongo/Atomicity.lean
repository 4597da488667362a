import Yggdrasil.Mongo.Growth

/-! What a failed grow leaves behind. A replica set is marked as growing before its members
are validated and created, and nothing resets the mark; a sharded cluster is marked last
and reset, but the instances that were created stay. -/

namespace Yggdrasil.Mongo

open Effect Effect.Process

/-- The cluster is as available as it was, with the instances it had. -/
def Unchanged (cluster : String) (before after : Database) : Prop :=
  (before.status cluster = some .none → after.status cluster = some .none) ∧
    after.live cluster = before.live cluster

/-- The failure came early enough: on a sharded cluster before an instance was created, on a
replica set before the status was written. -/
def FailedEarly (cluster : String) (before : Database) (log : List Event) : Prop :=
  if isSharded (before.live cluster) then ¬Created log else ¬Written cluster .growingCluster log

/-! ### The database of a grow -/

theorem status_setStatus (db : Database) (cluster : String) (status : TaskStatus) :
    (db.setStatus cluster status).status cluster = (db.status cluster).map fun _ => status := by
  unfold Database.status Database.setStatus
  induction db.clusters with
  | nil => rfl
  | cons c clusters ih =>
    by_cases hc : c.id = cluster
    · simp [hc]
    · simpa [hc] using ih

/-- The writing calls of a grow. -/
def GrowCall (cluster : String) (c : Call) : Prop :=
  c.writes = false ∨ (∃ new, c = .createInstance new ∧ new.clusterConfig.id = cluster) ∨
    c = .updateDb cluster .none ∨ c = .updateDb cluster .growingCluster

theorem GrowthCall.growCall {cluster : String} {c : Call} (h : GrowthCall cluster c) :
    GrowCall cluster c := by
  rcases h with h | rfl | h
  · exact .inl (Call.not_writes_of_validates h)
  · exact .inl rfl
  · exact .inr (.inl h)

/-- The database after the calls of a grow, as far as the log tells. -/
structure GrownFrom (db : Database) (cluster : String) (s : Run) : Prop where
  instances : ∃ news : List Instance, s.db.instances = db.instances ++ news ∧
    (∀ i ∈ news, i.clusterId = some cluster ∧ i.deleted = false) ∧ (Created s.log ↔ news ≠ [])
  status : ¬Written cluster .growingCluster s.log → db.status cluster = some .none →
    s.db.status cluster = some .none

theorem created_append {log : List Event} {e : Event} :
    Created (log ++ [e]) ↔ Created log ∨ ∃ new id, e = ⟨.createInstance new, .ok id⟩ := by
  constructor
  · rintro ⟨new, id, h⟩
    rw [List.mem_append, List.mem_singleton] at h
    exact h.imp (fun h => ⟨new, id, h⟩) fun h => ⟨new, id, h.symm⟩
  · rintro (h | ⟨new, id, rfl⟩)
    · exact h.append e
    · exact ⟨new, id, List.mem_append_right _ (List.mem_singleton_self _)⟩

theorem written_append {cluster : String} {status : TaskStatus} {log : List Event} {e : Event} :
    Written cluster status (log ++ [e]) ↔
      Written cluster status log ∨ e = ⟨.updateDb cluster status, .ok ()⟩ := by
  unfold Written
  rw [List.mem_append, List.mem_singleton, eq_comm (a := e)]

/-- A call that changes nothing keeps the account. -/
theorem GrownFrom.same {db : Database} {cluster : String} {s : Run} (h : GrownFrom db cluster s)
    {e : Event} (hc : ∀ new id, e ≠ ⟨.createInstance new, .ok id⟩) :
    GrownFrom db cluster ⟨s.db, s.log ++ [e]⟩ := by
  obtain ⟨news, hdb, hnews, hcreated⟩ := h.instances
  refine ⟨⟨news, hdb, hnews, ?_⟩, fun hn => h.status fun hwr => hn (hwr.append e)⟩
  rw [created_append, ← hcreated, or_iff_left]
  rintro ⟨new, id, he⟩
  exact hc new id he

theorem world_grownFrom {db : Database} {cluster : String} {s s' : Run} {c : Call}
    {r : Except Error c.Answer} (h : GrownFrom db cluster s) (hc : GrowCall cluster c)
    (hw : world s c r s') : GrownFrom db cluster s' := by
  obtain ⟨db', log'⟩ := s'
  obtain rfl : log' = s.log ++ [⟨c, r⟩] := world_log hw
  cases r with
  | error x =>
    obtain rfl : db' = s.db := hw.2.1
    exact h.same fun _ _ he => by cases he
  | ok a =>
    have hstep := hw.1
    dsimp only at hstep
    rcases hc with hc | ⟨new, rfl, hnew⟩ | rfl | rfl
    · obtain rfl := hstep.eq_of_not_writes hc
      refine h.same fun new id he => ?_
      cases he
      cases hc
    · obtain ⟨news, hdb, hnews, hcreated⟩ := h.instances
      refine ⟨⟨news ++ [⟨a, some new.clusterConfig.id, new.flavorId, new.volumeSize,
        new.clusterConfig, false⟩], ?_, ?_, ?_⟩, ?_⟩
      · rw [hstep.2, ← List.append_assoc, ← hdb]
        rfl
      · intro i hi
        rcases List.mem_append.1 hi with hi | hi
        · exact hnews i hi
        · rw [List.mem_singleton.1 hi]
          exact ⟨congrArg some hnew, rfl⟩
      · simp [created_append]
      · intro hn
        rw [hstep.2]
        exact h.status fun hwr => hn (hwr.append _)
    · refine ⟨?_, fun hn hdb => ?_⟩
      · obtain ⟨news, hdb, hnews, hcreated⟩ := h.instances
        refine ⟨news, by rw [hstep]; exact hdb, hnews, ?_⟩
        rw [created_append, ← hcreated, or_iff_left]
        rintro ⟨new, id, he⟩
        cases he
      · rw [hstep, status_setStatus, h.status (fun hwr => hn (hwr.append _)) hdb]
        rfl
    · refine ⟨?_, fun hn => absurd (written_append.2 (.inr rfl)) hn⟩
      obtain ⟨news, hdb, hnews, hcreated⟩ := h.instances
      refine ⟨news, by rw [hstep]; exact hdb, hnews, ?_⟩
      rw [created_append, ← hcreated, or_iff_left]
      rintro ⟨new, id, he⟩
      cases he

/-- The cluster has its old instances exactly if none was created. -/
theorem GrownFrom.live_eq_iff {db : Database} {cluster : String} {s : Run}
    (h : GrownFrom db cluster s) : s.db.live cluster = db.live cluster ↔ ¬Created s.log := by
  obtain ⟨news, hdb, hnews, hcreated⟩ := h.instances
  have hlive : s.db.live cluster = db.live cluster ++ news := by
    unfold Database.live
    rw [hdb, List.filter_append, List.append_cancel_left_eq]
    exact List.filter_eq_self.2 fun i hi => by simpa using hnews i hi
  rw [hlive, hcreated, not_not, List.append_right_eq_self]

/-! ### The order of the writes -/

theorem respects_growSharded {S : Type} {W : World S Call Call.Answer Error} {R : S → Prop}
    (self : MongoDbCluster) (existing : List Instance) (instances : List Node)
    (imageId : Option String) :
    Respects W R (GrowCall self.id) (growSharded self existing instances imageId) := by
  unfold growSharded
  refine respects_bind (respects_rejectIf _ _) fun _ => ?_
  refine respects_bind (respects_ask (.inl rfl)) fun locality => ?_
  refine respects_bind (respects_exceptException ?_ fun x => ?_) fun newIds => ?_
  · exact (respects_createShardedInstances self _ _ _ _).mono fun _ => GrowthCall.growCall
  · exact respects_bind (respects_ask (.inr (.inr (.inl rfl)))) fun _ => respects_raise _
  · exact respects_bind (respects_ask (.inr (.inr (.inr rfl)))) fun _ => respects_ask (.inl rfl)

theorem respects_growReplicaSet {S : Type} {W : World S Call Call.Answer Error} {R : S → Prop}
    (self : MongoDbCluster) (existing : List Instance) (instances : List Node)
    (imageId : Option String) :
    Respects W R (GrowCall self.id) (growReplicaSet self existing instances imageId) := by
  unfold growReplicaSet
  refine respects_bind (respects_rejectIf _ _) fun _ => respects_bind (respects_ofExcept _) fun _ => ?_
  refine respects_bind (respects_ask (.inr (.inr (.inr rfl)))) fun _ => ?_
  refine respects_bind (respects_ask (.inl rfl)) fun locality => ?_
  refine respects_bind ?_ fun newIds => respects_ask (.inl rfl)
  exact (respects_createInstances _).mono fun _ => GrowthCall.growCall

theorem respects_grow {S : Type} {W : World S Call Call.Answer Error} {R : S → Prop}
    (self : MongoDbCluster) (instances : List Node) (imageId : Option String) :
    Respects W R (GrowCall self.id) (grow self instances imageId) :=
  respects_bind (respects_ask (.inl rfl)) fun existing =>
    respects_ite (fun _ => respects_growSharded self existing instances imageId)
      fun _ => respects_growReplicaSet self existing instances imageId

/-- Calls other than the mark leave the log without it. -/
theorem triple_unwritten {α : Type} {p : Action α} {cluster : String}
    (h : Respects world (fun s => ¬Written cluster .growingCluster s.log)
      (fun c => c ≠ .updateDb cluster .growingCluster) p) :
    Triple world (fun _ => True) (fun s => ¬Written cluster .growingCluster s.log) p
      (fun _ s => ¬Written cluster .growingCluster s.log)
      fun _ s => ¬Written cluster .growingCluster s.log := by
  refine (h.triple fun s c r s' hs hc hw => ?_).weaken fun _ _ => trivial
  rw [world_log hw, written_append]
  rintro (h | h)
  · exact hs h
  · cases h
    exact hc rfl

theorem GrowthCall.ne_updateDb {cluster cluster' : String} {c : Call} (h : GrowthCall cluster c)
    (status : TaskStatus) : c ≠ .updateDb cluster' status := by
  rintro rfl
  rcases h with h | h | ⟨new, h, -⟩ <;> cases h

/-- A sharded cluster is marked after its instances are created. -/
theorem triple_growSharded (self : MongoDbCluster) (existing : List Instance)
    (instances : List Node) (imageId : Option String) :
    Triple world (fun _ => True) (fun s => ¬Written self.id .growingCluster s.log)
      (growSharded self existing instances imageId) (fun _ _ => True)
      fun _ s => Written self.id .growingCluster s.log → Created s.log := by
  unfold growSharded
  refine triple_bind (M := fun _ s => ¬Written self.id .growingCluster s.log) ?_ fun _ => ?_
  · exact triple_rejectIf (fun _ _ => trivial) (fun _ hs _ => hs) fun _ hs _ hw => absurd hw hs
  refine triple_bind (M := fun _ s => ¬Written self.id .growingCluster s.log) ?_ fun locality => ?_
  · exact (triple_unwritten (respects_ask fun h => by cases h)).consequence (fun _ h => h)
      (fun _ _ h => h) fun _ _ h hw => absurd hw h
  refine triple_bind (M := fun _ s => Created s.log) ?_ fun newIds => ?_
  · have hcreate := triple_unwritten ((respects_createShardedInstances
      (R := fun s => ¬Written self.id .growingCluster s.log) (W := world) self locality imageId
      existing instances).mono fun _ h => h.ne_updateDb .growingCluster)
    refine triple_handle (M := fun _ s => ¬Written self.id .growingCluster s.log) ?_ fun x => ?_
    · exact (hcreate.and (triple_createShardedInstances_created self locality imageId existing
        instances)).weaken (fun _ _ => trivial) |>.consequence (fun _ h => ⟨h, trivial⟩)
        (fun _ _ h => h.2) fun _ _ h => h.1
    · have hreset : Triple world (fun _ => True)
          (fun s => ¬Written self.id .growingCluster s.log)
          (do
            ask (.updateDb self.id .none)
            Process.raise x : Action (List String)) (fun _ s => Created s.log)
          fun _ s => Written self.id .growingCluster s.log → Created s.log := by
        refine triple_bind (M := fun _ s => ¬Written self.id .growingCluster s.log) ?_ fun _ =>
          triple_raise (fun _ _ => trivial) fun _ h hw => absurd hw h
        exact (triple_unwritten (respects_ask fun h => by cases h)).consequence (fun _ h => h)
          (fun _ _ h => h) fun _ _ h hw => absurd hw h
      cases x with
      | timeout own => exact triple_raise (fun _ _ => trivial) fun _ h hw => absurd hw h
      | _ => exact hreset
  · exact (triple_created _).consequence (fun _ h => h) (fun _ _ _ => trivial) fun _ _ h _ => h

/-- The cluster is marked as growing for good. -/
def Stuck (cluster : String) (s : Run) : Prop :=
  Written cluster .growingCluster s.log ∧ s.db.status cluster = some .growingCluster

theorem world_stuck {cluster : String} {s s' : Run} {c : Call} {r : Except Error c.Answer}
    (hs : Stuck cluster s) (hc : GrowthCall cluster c ∨ c.writes = false) (hw : world s c r s') :
    Stuck cluster s' := by
  refine ⟨by rw [world_log hw]; exact hs.1.append _, ?_⟩
  rw [← hs.2]
  have hstatus : c.writes = false → s'.db.status cluster = s.db.status cluster := fun h => by
    rw [world_reads hw h]
  rcases hc with (hc | rfl | ⟨new, rfl, -⟩) | hc
  · exact hstatus (Call.not_writes_of_validates hc)
  · exact hstatus rfl
  · cases r with
    | ok a => rw [hw.1.2]; rfl
    | error x => rw [hw.2.1]
  · exact hstatus hc

/-- A replica set is marked before its instances are created, and stays marked. -/
theorem triple_growReplicaSet (self : MongoDbCluster) (existing : List Instance)
    (instances : List Node) (imageId : Option String) (db : Database)
    (hload : db.status self.id = some self.row.taskStatus) :
    Triple world (fun _ => True)
      (fun s => s.db = db ∧ ¬Written self.id .growingCluster s.log ∧ ¬Created s.log)
      (growReplicaSet self existing instances imageId) (fun _ _ => True)
      fun _ s => (¬Written self.id .growingCluster s.log ∧ ¬Created s.log) ∨
        (db.status self.id = some .none ∧ Stuck self.id s) := by
  unfold growReplicaSet
  refine triple_bind (M := fun _ s => (s.db = db ∧ ¬Written self.id .growingCluster s.log ∧
    ¬Created s.log) ∧ self.row.taskStatus = .none) ?_ fun _ => ?_
  · exact triple_rejectIf (fun _ _ => trivial) (fun _ hs hc => ⟨hs, not_not.1 hc⟩)
      fun _ hs _ => .inl hs.2
  refine triple_bind (M := fun _ s => (s.db = db ∧ ¬Written self.id .growingCluster s.log ∧
    ¬Created s.log) ∧ self.row.taskStatus = .none) ?_ fun _ => ?_
  · exact triple_ofExcept (fun _ _ => trivial) (fun _ _ hs _ => hs) fun _ _ hs _ => .inl hs.1.2
  refine triple_bind (M := fun _ s => db.status self.id = some .none ∧ Stuck self.id s) ?_ fun _ => ?_
  · refine triple_ask (fun _ _ => trivial) ?_ ?_
    · rintro s a db' ⟨⟨rfl, -, -⟩, hnone⟩ rfl
      refine ⟨⟨by rw [hload, hnone], written_append.2 (.inr rfl), ?_⟩, trivial⟩
      rw [status_setStatus, hload]
      rfl
    · rintro s x ⟨⟨rfl, hw, hc⟩, -⟩ -
      refine ⟨.inl ⟨fun h => ?_, fun h => ?_⟩, trivial⟩
      · rcases written_append.1 h with h | h
        · exact hw h
        · cases h
      · rcases created_append.1 h with h | ⟨_, _, h⟩
        · exact hc h
        · cases h
  · refine triple_intro fun s₀ hs₀ => ?_
    have hrest : Respects world (Stuck self.id) (fun c => GrowthCall self.id c ∨ c.writes = false)
        (do
          let locality : Option String ← ask (.convertToHint self.id)
          let newIds ← createInstances ⟨self.projectId, self.id, self.row.name, self.version,
            self.conf, instances, locality, self.row.configurationId, false, imageId⟩
          ask (.castGrowCluster self.id newIds)) :=
      respects_bind (respects_ask (.inr rfl)) fun _ =>
        respects_bind ((respects_createInstances _).mono fun _ => .inl) fun _ =>
          respects_ask (.inr rfl)
    exact ((hrest.triple fun _ _ _ _ => world_stuck).weaken fun _ _ => trivial).consequence
      (fun _ he => he ▸ hs₀.2) (fun _ _ _ => trivial) fun _ _ h => .inr ⟨hs₀.1, h⟩

/-- How far a failed grow can have come, for either topology. -/
theorem triple_grow (self : MongoDbCluster) (instances : List Node) (imageId : Option String)
    (db : Database) (hload : db.status self.id = some self.row.taskStatus) :
    Triple world (fun _ => True) (fun s => s = ⟨db, []⟩) (grow self instances imageId)
      (fun _ _ => True) fun _ s =>
        if isSharded (db.live self.id) then Written self.id .growingCluster s.log → Created s.log
        else (¬Written self.id .growingCluster s.log ∧ ¬Created s.log) ∨
          (db.status self.id = some .none ∧ Stuck self.id s) := by
  unfold grow
  refine triple_bind (M := fun existing s => existing = db.live self.id ∧ s.db = db ∧
    ¬Written self.id .growingCluster s.log ∧ ¬Created s.log) ?_ fun existing => ?_
  · refine triple_ask (fun _ _ => trivial) ?_ ?_
    · rintro s existing db' rfl ⟨rfl, rfl⟩
      exact ⟨⟨rfl, rfl, by simp [Written], by simp [Created]⟩, trivial⟩
    · rintro s x rfl -
      refine ⟨?_, trivial⟩
      split_ifs
      · simp [Written]
      · exact .inl ⟨by simp [Written], by simp [Created]⟩
  refine triple_intro ?_
  rintro s ⟨rfl, hdb, hw, hc⟩
  refine triple_ite (fun hsharded => ?_) fun hsharded => ?_
  · simp only [if_pos hsharded]
    exact (triple_growSharded self _ instances imageId).consequence (fun _ he => he ▸ hw)
      (fun _ _ h => h) fun _ _ h => h
  · simp only [if_neg hsharded]
    exact (triple_growReplicaSet self _ instances imageId db hload).consequence
      (fun _ he => he ▸ ⟨hdb, hw, hc⟩) (fun _ _ h => h) fun _ _ h => h

/-- A grow that fails leaves the cluster as it was exactly if it failed early. -/
theorem grow_raises_iff (self : MongoDbCluster) (instances : List Node) (imageId : Option String)
    (db : Database) (hload : db.status self.id = some self.row.taskStatus) (x : Error) (s : Run)
    (h : Exec world (grow self instances imageId) ⟨db, []⟩ (.raised x) s) :
    Unchanged self.id db s.db ↔ FailedEarly self.id db s.log := by
  have hstart : GrownFrom db self.id ⟨db, []⟩ :=
    ⟨⟨[], by simp, by simp, by simp [Created]⟩, fun _ h => h⟩
  have hgrown : GrownFrom db self.id s :=
    ((respects_grow (R := GrownFrom db self.id) self instances imageId).triple
      fun _ _ _ _ => world_grownFrom).raised _ hstart x s h
  have hcases := (triple_grow self instances imageId db hload).raised ⟨db, []⟩ rfl x s h
  unfold Unchanged FailedEarly
  rw [hgrown.live_eq_iff]
  split_ifs at hcases ⊢ with hsharded
  · refine ⟨And.right, fun hc => ⟨hgrown.status fun hw => hc (hcases hw), hc⟩⟩
  · rcases hcases with ⟨hw, hc⟩ | ⟨hnone, hw, hstatus⟩
    · exact ⟨fun _ => hw, fun _ => ⟨hgrown.status hw, hc⟩⟩
    · refine ⟨fun hu => ?_, fun hn => absurd hw hn⟩
      rw [hu.1 hnone] at hstatus
      cases hstatus

section Example

private def idle (cluster : String) : Cluster := ⟨cluster, "db", none, .none⟩

/-- A replica set of two members. -/
def twoMembers : Database where
  clusters := [idle "c1"]
  instances := [⟨"i1", some "c1", "small", some 10, replicaSetConfig "c1", false⟩,
    ⟨"i2", some "c1", "small", some 10, replicaSetConfig "c1", false⟩]

def idleCluster : MongoDbCluster where
  row := idle "c1"
  projectId := "p1"
  version := ⟨"8.0", some "image"⟩
  conf := ⟨false, true, none, none, none, none, none, 600, 27017⟩

private def smallNode : Node := ⟨"small", some 10, .none, none, none, none, none, none, none, none⟩

/-- A project whose quota is exhausted. -/
def overQuota : Surroundings where
  rejects := fun
    | .quotas .. => some "quota exceeded"
    | _ => none

private theorem overQuota_run :
    (overQuota.run (grow idleCluster [smallNode] none) twoMembers).1 =
        .raised (.rejected (.stock "quota exceeded")) ∧
      (overQuota.run (grow idleCluster [smallNode] none) twoMembers).2.db.status "c1" =
        some .growingCluster := ⟨rfl, rfl⟩

private theorem overQuota_exec :
    Exec world (grow idleCluster [smallNode] none) ⟨twoMembers, []⟩
      (.raised (.rejected (.stock "quota exceeded")))
      (overQuota.run (grow idleCluster [smallNode] none) twoMembers).2 := by
  have h := overQuota.exec (grow idleCluster [smallNode] none) twoMembers
  rwa [overQuota_run.1] at h

theorem overQuota_iff :
    Unchanged "c1" twoMembers (overQuota.run (grow idleCluster [smallNode] none) twoMembers).2.db ↔
      FailedEarly "c1" twoMembers
        (overQuota.run (grow idleCluster [smallNode] none) twoMembers).2.log :=
  grow_raises_iff idleCluster [smallNode] none twoMembers rfl (.rejected (.stock "quota exceeded")) _
    overQuota_exec

/-- The grow is rejected for its quota, and the replica set stays marked as growing. -/
theorem overQuota_stuck :
    ¬∀ (self : MongoDbCluster) (instances : List Node) (imageId : Option String) (db : Database)
      (x : Error) (s : Run), db.status self.id = some self.row.taskStatus →
      Exec world (grow self instances imageId) ⟨db, []⟩ (.raised x) s →
      Unchanged self.id db s.db := by
  intro h
  have hstatus := (h idleCluster [smallNode] none twoMembers _ _ rfl overQuota_exec).1 rfl
  rw [show idleCluster.id = "c1" from rfl, overQuota_run.2] at hstatus
  cases hstatus

end Example

end Yggdrasil.Mongo
