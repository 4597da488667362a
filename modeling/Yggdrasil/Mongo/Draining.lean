import Yggdrasil.Library.History
import Yggdrasil.Mongo.Viability

/-! Shards are drained before they are removed: whatever the router answers, the first
instance is detached after it has reported every target shard as completed. -/

namespace Yggdrasil.Mongo

open Effect Effect.Process History

/-- The calls that take an instance away. -/
def Call.removes : Call → Bool
  | .detach _ => true
  | .delete _ => true
  | _ => false

/-- A demand on what happened before an instance is taken away. -/
def BeforeRemoval (D : Event → List Event → Prop) (e : Event) (log : List Event) : Prop :=
  e.1.removes = true → D e log

section Demand

variable {D : Event → List Event → Prop}

theorem guarded_of_not_removes {log : List Event} {e : Event} (h : Guarded (BeforeRemoval D) log)
    (he : e.1.removes = false) : Guarded (BeforeRemoval D) (log ++ [e]) :=
  guarded_append.2 ⟨h, fun hr => absurd hr (by rw [he]; decide)⟩

theorem Call.not_removes_of_not_writes {c : Call} (h : c.writes = false) : c.removes = false := by
  cases c <;> simp_all [writes, removes]

/-- A process that removes nothing keeps the demand. -/
theorem triple_guarded {α : Type} {p : Action α}
    (h : Respects world (fun s => Guarded (BeforeRemoval D) s.log) (fun c => c.removes = false) p) :
    Triple world (fun s => Guarded (BeforeRemoval D) s.log)
      (fun s => Guarded (BeforeRemoval D) s.log) p (fun _ s => Guarded (BeforeRemoval D) s.log)
      fun _ s => Guarded (BeforeRemoval D) s.log :=
  h.triple fun s c r s' hs hc hw => by
    rw [world_log hw]
    exact guarded_of_not_removes hs hc

end Demand

/-- One of the routers has answered that the replica set of the shard is drained. -/
def Drained (routers : List Instance) (target : TargetShard) (log : List Event) : Prop :=
  ∃ router ∈ routers, ∃ name answer, target.first.config.replicaSetName = some name ∧
    (⟨.removeShard router.id name, .ok answer⟩ : Event) ∈ log ∧ isCompleted answer = true

theorem Drained.append {routers : List Instance} {target : TargetShard} {log : List Event}
    (h : Drained routers target log) (e : Event) : Drained routers target (log ++ [e]) := by
  obtain ⟨router, hrouter, name, answer, hname, hmem, hcompleted⟩ := h
  exact ⟨router, hrouter, name, answer, hname, List.mem_append_left _ hmem, hcompleted⟩

/-! ### One shard -/

section Drain

variable {db : Database} (conf : MongoConf) (fuel : ℕ)

/-- The router has answered that the named shard is drained. -/
def Reported (router name : String) (log : List Event) : Prop :=
  ∃ answer, (⟨.removeShard router name, .ok answer⟩ : Event) ∈ log ∧ isCompleted answer = true

theorem triple_removeShard (router name : String) :
    Triple world (fun _ => True) (fun _ => True) (ask (.removeShard router name))
      (fun (answer : Python.Value) s => isCompleted answer = true → Reported router name s.log)
      fun _ _ => True :=
  triple_ask (fun _ _ => trivial) (fun _ answer _ _ _ =>
    ⟨fun h => ⟨answer, List.mem_append_right _ (List.mem_singleton_self _), h⟩, trivial⟩)
    fun _ _ _ _ => ⟨trivial, trivial⟩

/-- The loop ends when the router reports the shard, and in no other way. -/
theorem triple_drain (router name : String) (deadline : ℤ) :
    Triple world (fun _ => True) (fun _ => True) (drain router name deadline fuel)
      (fun _ s => Reported router name s.log) fun _ _ => True := by
  induction fuel with
  | zero => exact triple_hang fun _ _ => trivial
  | succ fuel ih =>
    unfold drain
    refine triple_bind (M := fun _ _ => True) triple_true fun now => ?_
    refine triple_ite (fun _ => ?_) fun _ => triple_raise (fun _ _ => trivial) fun _ _ => trivial
    refine triple_bind (triple_removeShard router name) fun answer => ?_
    refine triple_ite (fun h => triple_ret (fun _ _ => trivial) fun _ hs => hs h) fun _ => ?_
    refine triple_bind (M := fun _ _ => True) ?_ fun _ => ih
    exact triple_true.consequence (fun _ _ => trivial) (fun _ _ h => h) fun _ _ h => h

theorem triple_removeShardFromRouter (router : Instance) (name : String) :
    Triple world (fun _ => True) (fun _ => True) (removeShardFromRouter conf fuel router name)
      (fun _ s => Reported router.id name s.log) fun _ _ => True := by
  unfold removeShardFromRouter
  refine triple_bind (M := fun _ _ => True) triple_true fun _ => ?_
  refine triple_bind (triple_removeShard router.id name) fun answer => ?_
  refine triple_ite (fun _ => triple_raise (fun _ _ => trivial) fun _ _ => trivial) fun _ => ?_
  refine triple_ite (fun h => triple_ret (fun _ _ => trivial) fun _ hs => hs h) fun _ => ?_
  refine triple_bind (M := fun _ _ => True) ?_ fun now => triple_drain fuel router.id name _
  exact triple_true.consequence (fun _ _ => trivial) (fun _ _ h => h) fun _ _ h => h

/-- The guest of a member knows the name of its replica set. -/
theorem triple_shardedReplicaSetName {member : Instance} (hmember : member ∈ db.instances)
    (hnd : (db.instances.map Instance.id).Nodup) :
    Triple world (fun _ => True) (fun s => s.db = db) (shardedReplicaSetName member)
      (fun name _ => member.config.replicaSetName = some name) fun _ _ => True := by
  unfold shardedReplicaSetName
  refine triple_bind (M := fun _ s => s.db = db) ?_ fun _ => ?_
  · exact ((triple_reads (respects_ask rfl)).weaken fun _ _ => trivial).consequence (fun _ h => h)
      (fun _ _ h => h) fun _ _ _ => trivial
  refine triple_bind (M := fun (name : Option String) _ => name = member.config.replicaSetName) ?_
    fun name => ?_
  · refine triple_ask (fun _ _ => trivial) ?_ fun _ _ _ _ => ⟨trivial, trivial⟩
    rintro s name db' rfl ⟨⟨i, hi, hid, hname⟩, -⟩
    obtain rfl : i = member := List.inj_on_of_nodup_map hnd hi hmember hid
    exact ⟨hname, trivial⟩
  · cases name with
    | none => exact triple_raise (fun _ _ => trivial) fun _ _ => trivial
    | some name =>
      by_cases hempty : name = ""
      · subst hempty
        exact triple_raise (fun _ _ => trivial) fun _ _ => trivial
      · have hsome : orNone (some name) = some name := by simp [orNone, hempty]
        rw [hsome]
        exact triple_ret (fun _ _ => trivial) fun _ h => h.symm

theorem triple_drainTarget (routers : List Instance) {target : TargetShard}
    (hfirst : target.first ∈ db.instances) (hnd : (db.instances.map Instance.id).Nodup) :
    Triple world (fun _ => True) (fun s => s.db = db) (drainTarget conf fuel routers target)
      (fun _ s => Drained routers target s.log) fun _ _ => True := by
  unfold drainTarget
  refine triple_bind (triple_shardedReplicaSetName hfirst hnd) fun name => ?_
  cases routers with
  | nil => exact triple_raise (fun _ _ => trivial) fun _ _ => trivial
  | cons router routers =>
    refine triple_intro fun s₀ hname => ?_
    refine (triple_removeShardFromRouter conf fuel router name).consequence (fun _ _ => trivial)
      (fun _ s h => ?_) fun _ _ h => h
    obtain ⟨answer, hmem, hcompleted⟩ := h
    exact ⟨router, List.mem_cons_self, name, answer, hname, hmem, hcompleted⟩

end Drain

/-! ### Whole shrinks -/

/-- The demand of a sharded shrink: an accepted plan whose shards are all drained. -/
def DrainedFirst (instances : List Instance) (removalIds : List String) :
    Event → List Event → Prop :=
  BeforeRemoval fun _ log => ∃ plan, planShrinkSharded instances removalIds = .ok plan ∧
    ∀ target ∈ plan.targets, Drained plan.remainingRouters target log

section Shrink

variable {instances : List Instance} {removalIds : List String}

/-- The state while the shards are drained one after the other. -/
structure Draining (db : Database) (instances : List Instance) (removalIds : List String)
    (routers : List Instance) (done : List TargetShard) (s : Run) : Prop where
  same : s.db = db
  guarded : Guarded (DrainedFirst instances removalIds) s.log
  drained : ∀ target ∈ done, Drained routers target s.log

/-- Calls that do not write keep what is drained. -/
theorem world_draining {db : Database} {routers : List Instance} {done : List TargetShard}
    {s s' : Run} {c : Call} {r : Except Error c.Answer}
    (hs : Draining db instances removalIds routers done s) (hc : c.writes = false)
    (hw : world s c r s') : Draining db instances removalIds routers done s' := by
  refine ⟨(world_reads hw hc).trans hs.same, ?_, fun target htarget => ?_⟩
  · rw [world_log hw]
    exact guarded_of_not_removes hs.guarded (Call.not_removes_of_not_writes hc)
  · rw [world_log hw]
    exact (hs.drained target htarget).append _

/-- After the loop every target shard is drained. -/
theorem triple_drainAll (conf : MongoConf) (fuel : ℕ) {db : Database} {plan : ShrinkPlan}
    (hnd : (db.instances.map Instance.id).Nodup)
    (hfirst : ∀ target ∈ plan.targets, target.first ∈ db.instances) :
    Triple world (fun s => Guarded (DrainedFirst instances removalIds) s.log)
      (Draining db instances removalIds plan.remainingRouters [])
      (forEach plan.targets (drainTarget conf fuel plan.remainingRouters))
      (fun _ => Draining db instances removalIds plan.remainingRouters plan.targets)
      fun _ _ => True := by
  refine triple_forEach (J := Draining db instances removalIds plan.remainingRouters)
    (fun _ _ h => h.guarded) fun pre target post he => ?_
  have htarget : target ∈ plan.targets := he ▸ List.mem_append_right _ List.mem_cons_self
  have hkeeps : Triple world (Draining db instances removalIds plan.remainingRouters pre)
      (Draining db instances removalIds plan.remainingRouters pre)
      (drainTarget conf fuel plan.remainingRouters target)
      (fun _ => Draining db instances removalIds plan.remainingRouters pre)
      (fun _ => Draining db instances removalIds plan.remainingRouters pre) :=
    ((respects_drainTarget conf fuel _ target).mono fun _ => Call.not_writes_of_inquires).triple
      fun _ _ _ _ => world_draining
  refine ((hkeeps.and (triple_drainTarget conf fuel _ (hfirst target htarget) hnd)).weaken
    fun _ h => h.1.guarded).consequence (fun _ h => ⟨h, h.same⟩) (fun _ s h => ?_)
    fun _ _ _ => trivial
  refine ⟨h.1.same, h.1.guarded, fun t ht => ?_⟩
  rcases List.mem_append.1 ht with ht | ht
  · exact h.1.drained t ht
  · rw [List.mem_singleton.1 ht]
    exact h.2

/-- Once all shards are drained anything may be removed. -/
theorem triple_removeAll {plan : ShrinkPlan} {p : Action Unit}
    (hplan : planShrinkSharded instances removalIds = .ok plan) :
    Triple world (fun s => Guarded (DrainedFirst instances removalIds) s.log)
      (fun s => Guarded (DrainedFirst instances removalIds) s.log ∧
        ∀ target ∈ plan.targets, Drained plan.remainingRouters target s.log) p
      (fun _ s => Guarded (DrainedFirst instances removalIds) s.log)
      fun _ s => Guarded (DrainedFirst instances removalIds) s.log := by
  have hkeeps := triple_keeps_log p (P := fun log =>
    Guarded (DrainedFirst instances removalIds) log ∧
      ∀ target ∈ plan.targets, Drained plan.remainingRouters target log) fun log e h =>
    ⟨guarded_append.2 ⟨h.1, fun _ => ⟨plan, hplan, h.2⟩⟩, fun t ht => (h.2 t ht).append e⟩
  exact (hkeeps.weaken fun _ h => h.1).consequence (fun _ h => h) (fun _ _ h => h.1)
    fun _ _ h => h.1

theorem triple_findInstances_guarded (self : MongoDbCluster) {db : Database} :
    Triple world (fun s => Guarded (DrainedFirst (db.live self.id) removalIds) s.log)
      (fun s => s.db = db ∧ Guarded (DrainedFirst (db.live self.id) removalIds) s.log)
      (ask (.findInstances self.id))
      (fun (rows : List Instance) s => rows = db.live self.id ∧ s.db = db ∧
        Guarded (DrainedFirst (db.live self.id) removalIds) s.log) fun _ _ => True := by
  refine triple_ask (fun _ h => h.2) ?_ ?_
  · rintro s rows db' ⟨rfl, hs⟩ ⟨rfl, rfl⟩
    exact ⟨⟨rfl, rfl, guarded_of_not_removes hs rfl⟩, guarded_of_not_removes hs rfl⟩
  · rintro s x ⟨-, hs⟩ -
    exact ⟨trivial, guarded_of_not_removes hs rfl⟩

theorem triple_shrinkSharded_guarded (fuel : ℕ) (self : MongoDbCluster) (db : Database)
    (hdb : Reachable db) :
    Triple world (fun s => Guarded (DrainedFirst (db.live self.id) removalIds) s.log)
      (fun s => s.db = db ∧ Guarded (DrainedFirst (db.live self.id) removalIds) s.log)
      (shrinkSharded fuel self removalIds) (fun _ _ => True) fun _ _ => True := by
  unfold shrinkSharded
  refine triple_bind (M := fun _ s => s.db = db ∧
    Guarded (DrainedFirst (db.live self.id) removalIds) s.log) ?_ fun _ => ?_
  · exact triple_rejectIf (fun _ h => h.2) (fun _ h _ => h) fun _ _ _ => trivial
  refine triple_bind (triple_findInstances_guarded self) fun rows => ?_
  refine triple_bind (M := fun plan s => planShrinkSharded (db.live self.id) removalIds = .ok plan ∧
    s.db = db ∧ Guarded (DrainedFirst (db.live self.id) removalIds) s.log) ?_ fun plan => ?_
  · refine triple_ofExcept (fun _ h => h.2.2) ?_ fun _ _ _ _ => trivial
    rintro s plan ⟨rfl, hs⟩ hplan
    exact ⟨hplan, hs⟩
  refine triple_intro ?_
  rintro s₀ ⟨hplan, hdb₀, hs₀⟩
  have haccepted := planShrinkSharded_accepted (hdb.nodup_live self.id) hplan
  refine triple_bind (M := fun _ s => s.db = db.setStatus self.id .shrinkingCluster ∧
    Guarded (DrainedFirst (db.live self.id) removalIds) s.log) ?_ fun _ => ?_
  · refine triple_ask (fun _ h => h ▸ hs₀) ?_ ?_
    · rintro s a db' rfl rfl
      exact ⟨⟨by rw [hdb₀], guarded_of_not_removes hs₀ rfl⟩, guarded_of_not_removes hs₀ rfl⟩
    · rintro s x rfl -
      exact ⟨trivial, guarded_of_not_removes hs₀ rfl⟩
  refine triple_ensure (M := fun _ s => Guarded (DrainedFirst (db.live self.id) removalIds) s.log)
    ?_ ?_ ?_
  · have hfirst : ∀ target ∈ plan.targets,
        target.first ∈ (db.setStatus self.id .shrinkingCluster).instances := by
      intro target htarget
      rw [haccepted.targets] at htarget
      obtain ⟨hmem, -, -⟩ := (mem_targetShards htarget target.first).1 List.mem_cons_self
      exact List.mem_of_mem_filter (List.mem_of_mem_filter hmem)
    have hnd : ((db.setStatus self.id .shrinkingCluster).instances.map Instance.id).Nodup := hdb.nodup
    refine triple_bind ((triple_drainAll self.conf fuel hnd hfirst).last.consequence
      (fun _ h => ⟨h.1, h.2, by simp⟩) (fun _ _ h => h) fun _ _ h => h.2) fun _ => ?_
    exact (triple_removeAll hplan).consequence (fun _ h => ⟨h.1.guarded, h.1.drained⟩)
      (fun _ _ h => h) fun _ _ h => h
  · exact fun _ => (triple_guarded (respects_ask rfl)).consequence (fun _ h => h)
      (fun _ _ _ => trivial) fun _ _ _ => trivial
  · exact fun _ => (triple_guarded (respects_ask rfl)).consequence (fun _ h => h)
      (fun _ _ _ => trivial) fun _ _ _ => trivial

/-- In every run of a sharded shrink, an instance is taken away only after every target shard
was reported as drained. -/
theorem drained_before_removal (fuel : ℕ) (self : MongoDbCluster) (removalIds : List String)
    (db : Database) (hdb : Reachable db) (hsharded : isSharded (db.live self.id)) (o : Outcome Error Unit)
    (s : Run) (h : Exec world (shrink fuel self removalIds) ⟨db, []⟩ o s) (pre post : List Event)
    (e : Event) (hlog : s.log = pre ++ e :: post) (he : e.1.removes = true) :
    ∃ plan, planShrinkSharded (db.live self.id) removalIds = .ok plan ∧
      ∀ target ∈ plan.targets, Drained plan.remainingRouters target pre := by
  have hshrink : Triple world (fun s => Guarded (DrainedFirst (db.live self.id) removalIds) s.log)
      (fun s => s.db = db ∧ Guarded (DrainedFirst (db.live self.id) removalIds) s.log)
      (shrink fuel self removalIds) (fun _ _ => True) fun _ _ => True := by
    unfold shrink
    refine triple_bind (M := fun (rows : List Instance) s => rows = db.live self.id ∧ s.db = db ∧
      Guarded (DrainedFirst (db.live self.id) removalIds) s.log) (triple_findInstances_guarded self)
      fun rows => triple_intro ?_
    rintro s₀ ⟨rfl, hs₀⟩
    exact triple_ite (fun _ => (triple_shrinkSharded_guarded fuel self db hdb).consequence
      (fun _ he => he ▸ hs₀) (fun _ _ h => h) fun _ _ h => h) fun hn => absurd hsharded hn
  exact hshrink.always _ ⟨rfl, guarded_nil⟩ o s h pre e post hlog he

end Shrink

section Example

private def shrunk : Outcome Error Unit × Run :=
  Surroundings.run {} (shrink 1 (loadedCluster "cluster5") ["instance7", "instance8"])
    twoShardsDatabase

/-- The first member of the shard is detached after the eight calls that drain the shard. -/
theorem shrunk_drained :
    ∃ plan, planShrinkSharded (twoShardsDatabase.live "cluster5") ["instance7", "instance8"] =
        .ok plan ∧
      ∀ target ∈ plan.targets, Drained plan.remainingRouters target (shrunk.2.log.take 8) :=
  drained_before_removal 1 (loadedCluster "cluster5") ["instance7", "instance8"] twoShardsDatabase
    reachable_twoShards rfl shrunk.1 shrunk.2
    (Surroundings.exec {} (shrink 1 (loadedCluster "cluster5") ["instance7", "instance8"])
      twoShardsDatabase) (shrunk.2.log.take 8) (shrunk.2.log.drop 9)
    ⟨.detach "instance7", .ok ()⟩ rfl rfl

end Example

end Yggdrasil.Mongo
