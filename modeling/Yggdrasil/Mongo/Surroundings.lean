import Yggdrasil.Mongo.Calls

/-! A concrete Trove to run the controller against: the database is as it is, and everything
else answers as it is told to. -/

namespace Yggdrasil.Mongo

open Effect Effect.Process Python

/-- How stock Trove, the guests and the clock answer; a call may be made to fail. -/
structure Surroundings where
  fails : Run → Call → Bool := fun _ _ => false
  rejects : Check → Option String := fun _ => none
  mongosh : Run → String → Script → Output := fun _ _ _ => .text ""
  removeShard : Run → Value := fun _ => .record [("ok", .int 1), ("state", .str "completed")]
  addShard : Run → Value := fun _ => .record [("ok", .int 1)]
  replicaSetStatus : Run → Value := fun _ => .record [("members", .list [])]
  allReady : Bool := true

/-- What the database becomes after an answered call. -/
def Database.after (db : Database) : (c : Call) → c.Answer → Database
  | .createCluster new, id => db.addCluster id new
  | .createInstance new, id => db.addInstance id new
  | .updateDb id status, _ => db.setStatus id status
  | .resetTask id, _ => db.setStatus id .none
  | .detach id, _ => db.detach id
  | .delete id, _ => db.delete id
  | _, _ => db

def orFail {α : Type} : Option α → Except Error α
  | some a => .ok a
  | none => .error (.failed "not found")

/-- A name that is used only if it is new. -/
def freshName (used : List String) (s : Run) (kind : String) : Except Error String :=
  let name := kind ++ toString s.log.length
  if name ∈ used then .error (.failed "duplicate") else .ok name

def Surroundings.answer (t : Surroundings) (s : Run) : (c : Call) → Except Error c.Answer
  | .check c => .ok (t.rejects c)
  | .requiredVolumeSize sizes _ => .ok (.inr (some (sizes.map fun size => size.getD 0).sum))
  | .generateUuid => freshName (s.db.instances.filterMap Instance.shardId) s "shard"
  | .convertToHint _ => .ok none
  | .loadCluster id => orFail (s.db.clusters.find? fun c => c.id = id)
  | .findInstances id => .ok (s.db.live id)
  | .createCluster _ => freshName (s.db.clusters.map Cluster.id) s "cluster"
  | .createInstance _ => freshName (s.db.instances.map Instance.id) s "instance"
  | .loadInstance id => orFail (s.db.instances.find? fun i => i.id = id)
  | .visibleAddresses id => .ok [id]
  | .clock => (.ok (s.log.length : ℤ) : Except Error ℤ)
  | .getReplicaSetName id =>
    orFail ((s.db.instances.find? fun i => i.id = id).map fun i => i.config.replicaSetName)
  | .removeShard .. => .ok (t.removeShard s)
  | .mongosh _ host script => .ok (t.mongosh s host script)
  | .replicaSetStatus _ => .ok (t.replicaSetStatus s)
  | .addShard .. => .ok (t.addShard s)
  | .allInstancesReady .. => .ok t.allReady
  | .updateDb .. => .ok ()
  | .castCreateCluster _ => .ok ()
  | .castGrowCluster .. => .ok ()
  | .detach _ => .ok ()
  | .delete _ => .ok ()
  | .sleep _ => .ok ()
  | .rpc _ => .ok ()
  | .reply _ => .ok ()
  | .initializeReplicaSet .. => .ok ()
  | .addConfigServers .. => .ok ()
  | .clusterComplete _ => .ok ()
  | .resetTask _ => .ok ()
  | .updateStatusesOnFailure .. => .ok ()

/-- The run after a call is answered. -/
def Run.next (s : Run) (c : Call) (r : Except Error c.Answer) : Run where
  db := match r with
    | .ok a => s.db.after c a
    | .error _ => s.db
  log := s.log ++ [⟨c, r⟩]

def Surroundings.result (t : Surroundings) (s : Run) (c : Call) : Except Error c.Answer :=
  if t.fails s c then .error (.failed "refused") else t.answer s c

def Surroundings.respond (t : Surroundings) (s : Run) (c : Call) : Except Error c.Answer × Run :=
  (t.result s c, s.next c (t.result s c))

theorem freshName_eq_ok {used : List String} {s : Run} {kind name : String}
    (h : freshName used s kind = .ok name) : name ∉ used := by
  unfold freshName at h
  dsimp only at h
  split_ifs at h with hn
  rw [← Except.ok.inj h]
  exact hn

theorem freshName_ne_rejected {used : List String} {s : Run} {kind : String} {r : Rejection} :
    freshName used s kind ≠ .error (.rejected r) := by
  unfold freshName
  dsimp only
  split_ifs <;> simp

theorem orFail_ne_rejected {α : Type} {o : Option α} {r : Rejection} :
    orFail o ≠ .error (.rejected r) := by
  cases o <;> simp [orFail]

theorem orFail_eq_ok {α : Type} {o : Option α} {a : α} (h : orFail o = .ok a) : o = some a := by
  cases o with
  | none => simp [orFail] at h
  | some b => rw [← Except.ok.inj h]

theorem Surroundings.answer_ne_rejected (t : Surroundings) (s : Run) (c : Call) (r : Rejection) :
    t.answer s c ≠ .error (.rejected r) := by
  cases c <;> first
    | exact freshName_ne_rejected
    | exact orFail_ne_rejected
    | (intro h; cases h)

theorem Surroundings.answer_step (t : Surroundings) {s : Run} {c : Call} {a : c.Answer}
    (h : t.answer s c = .ok a) : s.db.Step c a (s.db.after c a) := by
  cases c with
  | generateUuid =>
    refine ⟨fun i hi he => freshName_eq_ok h ?_, rfl⟩
    exact List.mem_filterMap.2 ⟨i, hi, he⟩
  | loadCluster id =>
    have hf := orFail_eq_ok h
    exact ⟨List.mem_of_find?_eq_some hf, by simpa using List.find?_some hf, rfl⟩
  | loadInstance id =>
    have hf := orFail_eq_ok h
    exact ⟨List.mem_of_find?_eq_some hf, by simpa using List.find?_some hf, rfl⟩
  | findInstances id => exact ⟨(Except.ok.inj h).symm, rfl⟩
  | createCluster new =>
    refine ⟨fun c hc he => freshName_eq_ok h ?_, rfl⟩
    exact List.mem_map.2 ⟨c, hc, he⟩
  | createInstance new =>
    refine ⟨fun i hi he => freshName_eq_ok h ?_, rfl⟩
    exact List.mem_map.2 ⟨i, hi, he⟩
  | getReplicaSetName id =>
    obtain ⟨i, hf, hn⟩ := Option.map_eq_some_iff.1 (orFail_eq_ok h)
    exact ⟨⟨i, List.mem_of_find?_eq_some hf, by simpa using List.find?_some hf, hn.symm⟩, rfl⟩
  | _ => rfl

/-- The concrete Trove is one of those the theorems are about. -/
theorem Surroundings.world_respond (t : Surroundings) (s : Run) (c : Call) :
    world s c (t.respond s c).1 (t.respond s c).2 := by
  unfold respond
  cases hr : t.result s c with
  | ok a =>
    unfold result at hr
    split_ifs at hr
    exact ⟨t.answer_step hr, rfl⟩
  | error x =>
    refine ⟨fun r hx => ?_, rfl, rfl⟩
    subst hx
    unfold result at hr
    split_ifs at hr
    · cases hr
    · exact t.answer_ne_rejected s c r hr

/-- The run of an action in these surroundings. -/
def Surroundings.run {α : Type} (t : Surroundings) (p : Action α) (db : Database) :
    Outcome Error α × Run := p.play t.respond ⟨db, []⟩

theorem Surroundings.exec {α : Type} (t : Surroundings) (p : Action α) (db : Database) :
    Exec world p ⟨db, []⟩ (t.run p db).1 (t.run p db).2 :=
  exec_play t.world_respond p ⟨db, []⟩

end Yggdrasil.Mongo
