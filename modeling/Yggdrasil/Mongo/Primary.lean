import Yggdrasil.Mongo.Removal
import Yggdrasil.Mongo.TaskCalls

/-! Which server a grow task reconfigures the replica set on. The primary may change between
any two calls; the task always uses the first member that is not new. -/

namespace Yggdrasil.Mongo

open Effect Effect.Process

/-- A run together with the primary there was at every call. -/
structure Elected where
  run : Run
  history : List (String × Event)

/-- The world in which any member may be elected between two calls. -/
def electedWorld : World Elected Call Call.Answer Error :=
  fun s c r s' => world s.run c r s'.run ∧ ∃ primary, s'.history = s.history ++ [(primary, ⟨c, r⟩)]

/-- The instance on which `mongosh` runs a script: the guest's own, or the one of that host. -/
def executor (instanceOf : String → String) (guest host : String) : String :=
  if host = localHost then guest else instanceOf host

/-- The members of a cluster that a grow finds there. -/
def existingMembers (db : Database) (cluster : String) (newIds : List String) : List Instance :=
  (db.live cluster).filter fun i => i.id ∉ newIds

/-- Members are only added through the own server of a given instance. -/
def AddsThrough (first : Option String) (c : Call) : Prop :=
  ∀ guest host members, c = .mongosh guest host (.add members) →
    host = localHost ∧ first = some guest

/-- The calls of a grow task. -/
def GrowTaskCall (cluster : String) (first : Option String) (c : Call) : Prop :=
  (c.writes = false ∨ c = .resetTask cluster) ∧ AddsThrough first c

theorem growTaskCall_of_assembles {cluster : String} {first : Option String} {c : Call}
    (h : c.assembles = true) : GrowTaskCall cluster first c := by
  refine ⟨.inl (Call.not_writes_of_assembles h), ?_⟩
  rintro guest host members rfl
  cases h

/-- The instances are those there were, and every addition went through the given one. -/
structure Added (db : Database) (first : Option String) (s : Elected) : Prop where
  instances : s.run.db.instances = db.instances
  adds : ∀ p ∈ s.history, AddsThrough first p.2.1

theorem electedWorld_added {db : Database} {cluster : String} {first : Option String}
    {s s' : Elected} {c : Call} {r : Except Error c.Answer} (hs : Added db first s)
    (hc : GrowTaskCall cluster first c) (hw : electedWorld s c r s') : Added db first s' := by
  obtain ⟨hworld, primary, hhistory⟩ := hw
  constructor
  · rw [← hs.instances]
    rcases hc.1 with hreads | rfl
    · rw [world_reads hworld hreads]
    · cases r with
      | ok a =>
        have hdb : s'.run.db = s.run.db.setStatus cluster .none := hworld.1
        rw [hdb]
        rfl
      | error x => rw [hworld.2.1]
  · rw [hhistory]
    intro p hp
    rcases List.mem_append.1 hp with hp | hp
    · exact hs.adds p hp
    · rw [List.mem_singleton.1 hp]
      exact hc.2

section Respects

variable (conf : MongoConf) (fuel : ℕ) {db : Database} {cluster : String} {first : Option String}

theorem respects_growMembers (member : Instance) (news : List Instance) :
    Respects electedWorld (Added db (some member.id)) (GrowTaskCall cluster (some member.id))
      (growMembers conf fuel member news) := by
  unfold growMembers
  have hassembles : ∀ c : Call, c.assembles = true → GrowTaskCall cluster (some member.id) c :=
    fun _ => growTaskCall_of_assembles
  apply respects_bind ((respects_collect fun i _ => respects_address conf i).mono hassembles)
  intro addresses
  apply respects_bind (respects_ask (hassembles _ rfl))
  intro _
  apply respects_bind
  · apply respects_bind (respects_ask (hassembles _ rfl))
    intro _
    have hadd : GrowTaskCall cluster (some member.id)
        (.mongosh member.id localHost (.add addresses)) := by
      refine ⟨.inl rfl, ?_⟩
      rintro guest host members h
      cases h
      exact ⟨rfl, rfl⟩
    apply respects_bind (respects_bind (respects_ask hadd) fun _ => respects_pure _)
    exact fun _ => respects_bind (respects_ask (hassembles _ rfl)) fun _ => respects_pure _
  · exact fun _ => (respects_waitForReplicaMembers conf fuel _ _).mono hassembles

/-- The rows of the existing members are loaded in their order. -/
theorem yields_loadAll {R : Elected → Prop} (l : List Instance) :
    Yields electedWorld R (fun rows => rows.map Instance.id = l.map Instance.id)
      (collect loadInstance l) := by
  have hload : ∀ i ∈ l, Yields electedWorld R (fun row => row.id = i.id) (loadInstance i) := by
    intro i _
    unfold loadInstance
    apply yields_perform
    intro s row s' _ hw
    exact hw.1.1.2.1
  apply (yields_collect hload).mono
  intro rows hrows
  induction hrows with
  | nil => rfl
  | cons hid _ ih =>
    rw [List.map_cons, List.map_cons, hid, ih fun i hi => hload i (List.mem_cons_of_mem _ hi)]

theorem respects_growOperation (newIds : List String) :
    Respects electedWorld
      (Added db ((existingMembers db cluster newIds).head?.map Instance.id))
      (GrowTaskCall cluster ((existingMembers db cluster newIds).head?.map Instance.id))
      (growOperation conf fuel cluster newIds) := by
  have hassembles : ∀ (first : Option String) (c : Call), c.assembles = true →
      GrowTaskCall cluster first c := fun _ _ => growTaskCall_of_assembles
  have hreads : ∀ first : Option String,
      GrowTaskCall cluster first (.allInstancesReady newIds cluster) ∧
        GrowTaskCall cluster first (.findInstances cluster) := by
    intro first
    refine ⟨⟨.inl rfl, ?_⟩, .inl rfl, ?_⟩ <;>
    · intro guest host members h
      cases h
  apply respects_bind (respects_ask (hreads _).1)
  intro ready
  apply respects_ite ?_ fun _ => respects_pure _
  intro _
  apply respects_perform_bind (hreads _).2
  rintro s (rows : List Instance) s' hs ⟨⟨⟨rfl, -⟩, -⟩, -⟩
  have hlive : s.run.db.live cluster = db.live cluster := by
    unfold Database.live
    rw [hs.instances]
  rw [hlive]
  apply respects_bind_of_yields ((respects_loadAll _).mono (hassembles _))
    (yields_loadAll _)
  intro existing hids
  apply respects_bind (respects_collect (f := fun id => ask (.loadInstance id)) fun id _ =>
    respects_ask (hassembles _ _ rfl))
  intro news
  apply respects_bind
  · cases existing with
    | nil => trivial
    | cons member others =>
      have hfirst : (existingMembers db cluster newIds).head?.map Instance.id = some member.id := by
        have hhead := congrArg List.head? hids
        rw [List.head?_map, List.head?_map] at hhead
        exact hhead.symm
      rw [hfirst]
      apply respects_ite
      · exact fun _ => (respects_growShards conf fuel _ _).mono (hassembles _)
      · exact fun _ => respects_growMembers conf fuel member news
  · exact fun _ => respects_bind ((respects_complete news).mono (hassembles _)) fun _ => respects_pure _

end Respects

/-- Every script that adds members is sent to the first existing member. -/
theorem triple_growCluster (conf : MongoConf) (fuel : ℕ) (cluster : String) (newIds : List String)
    (db : Database) :
    Triple electedWorld (Added db ((existingMembers db cluster newIds).head?.map Instance.id))
      (Added db ((existingMembers db cluster newIds).head?.map Instance.id))
      (growCluster conf fuel cluster newIds) (fun _ _ => True) fun _ _ => True := by
  have hfails : ∀ first : Option String,
      GrowTaskCall cluster first (.updateStatusesOnFailure cluster "GROWING_ERROR") := by
    intro first
    refine ⟨.inl rfl, ?_⟩
    intro guest host members h
    cases h
  have hresets : ∀ first : Option String, GrowTaskCall cluster first (.resetTask cluster) := by
    intro first
    refine ⟨.inr rfl, ?_⟩
    intro guest host members h
    cases h
  have hrespects : Respects electedWorld
      (Added db ((existingMembers db cluster newIds).head?.map Instance.id))
      (GrowTaskCall cluster ((existingMembers db cluster newIds).head?.map Instance.id))
      (growCluster conf fuel cluster newIds) := by
    apply respects_handle
    · apply respects_bind (respects_growOperation conf fuel newIds)
      intro completed
      exact respects_ite (fun _ => respects_ask (hfails _)) fun _ => respects_ask (hresets _)
    · intro x
      cases x with
      | timeout own => cases own with
        | true => exact respects_ask (hfails _)
        | false => exact respects_raise _
      | _ => exact respects_ask (hfails _)
  exact (hrespects.triple fun _ _ _ _ => electedWorld_added).consequence (fun _ h => h)
    (fun _ _ _ => trivial) fun _ _ _ => trivial

/-- In every run of a grow task, the scripts that add members all go to the primary exactly if
the first existing member is the primary whenever one is sent. -/
theorem adds_on_primary_iff (conf : MongoConf) (fuel : ℕ) (cluster : String)
    (newIds : List String) (instanceOf : String → String) (db : Database)
    (o : Outcome Error Unit) (s : Elected)
    (h : Exec electedWorld (growCluster conf fuel cluster newIds) ⟨⟨db, []⟩, []⟩ o s) :
    (∀ primary guest host members r,
      (primary, (⟨.mongosh guest host (.add members), r⟩ : Event)) ∈ s.history →
        executor instanceOf guest host = primary) ↔
    (∀ primary guest host members r,
      (primary, (⟨.mongosh guest host (.add members), r⟩ : Event)) ∈ s.history →
        (existingMembers db cluster newIds).head?.map Instance.id = some primary) := by
  have hstart : Added db ((existingMembers db cluster newIds).head?.map Instance.id)
      ⟨⟨db, []⟩, []⟩ := ⟨rfl, by simp⟩
  have hadded := (triple_growCluster conf fuel cluster newIds db).always _ hstart o s h
  have hsame : ∀ primary guest host members r,
      (primary, (⟨.mongosh guest host (.add members), r⟩ : Event)) ∈ s.history →
        (existingMembers db cluster newIds).head?.map Instance.id =
          some (executor instanceOf guest host) := by
    intro primary guest host members r hmem
    obtain ⟨hhost, hfirst⟩ := hadded.adds _ hmem guest host members rfl
    rw [hfirst, hhost]
    rfl
  constructor
  · intro hall primary guest host members r hmem
    rw [hsame primary guest host members r hmem, hall primary guest host members r hmem]
  · intro hall primary guest host members r hmem
    have heq := hsame primary guest host members r hmem
    rw [hall primary guest host members r hmem] at heq
    exact (Option.some.inj heq).symm

/-- A run in which one member stays the primary. -/
theorem exec_elected {α : Type} {p : Action α} {s s' : Run} {o : Outcome Error α}
    (h : Exec world p s o s') (primary : String) :
    Exec electedWorld p ⟨s, s.log.map fun e => (primary, e)⟩ o
      ⟨s', s'.log.map fun e => (primary, e)⟩ := by
  induction h with
  | stop p s => exact .stop p _
  | ret a s => exact .ret a _
  | raise x s => exact .raise x _
  | @call c k r s s₁ s' o hw _ ih =>
    refine .call ⟨hw, primary, ?_⟩ ih
    rw [world_log hw, List.map_append, List.map_singleton]

section Example

/-- A replica set that takes new members on its primary, the second member, only. -/
private def secondPrimary : Surroundings where
  fails := fun _ c => match c with
    | .mongosh guest _ (.add _) => guest != "i2"
    | _ => false

private def grown : Outcome Error Unit × Run :=
  secondPrimary.run (growCluster idleCluster.conf 1 "c1" ["i3"]) threeMembers

private theorem exec_grown :
    Exec electedWorld (growCluster idleCluster.conf 1 "c1" ["i3"]) ⟨⟨threeMembers, []⟩, []⟩ grown.1
      ⟨grown.2, grown.2.log.map fun e => ("i2", e)⟩ :=
  exec_elected (secondPrimary.exec (growCluster idleCluster.conf 1 "c1" ["i3"]) threeMembers) "i2"

theorem grown_adds_iff :
    (∀ primary guest host members r,
      (primary, (⟨.mongosh guest host (.add members), r⟩ : Event)) ∈
        grown.2.log.map (fun e => ("i2", e)) → executor id guest host = primary) ↔
    (∀ primary guest host members r,
      (primary, (⟨.mongosh guest host (.add members), r⟩ : Event)) ∈
        grown.2.log.map (fun e => ("i2", e)) →
        (existingMembers threeMembers "c1" ["i3"]).head?.map Instance.id = some primary) :=
  adds_on_primary_iff idleCluster.conf 1 "c1" ["i3"] id threeMembers grown.1 _ exec_grown

/-- The script goes to the first member although the second is the primary. -/
theorem grown_not_on_primary :
    ¬∀ (conf : MongoConf) (fuel : ℕ) (cluster : String) (newIds : List String)
      (instanceOf : String → String) (db : Database) (o : Outcome Error Unit) (s : Elected),
      Exec electedWorld (growCluster conf fuel cluster newIds) ⟨⟨db, []⟩, []⟩ o s →
      ∀ primary guest host members r,
        (primary, (⟨.mongosh guest host (.add members), r⟩ : Event)) ∈ s.history →
          executor instanceOf guest host = primary := by
  intro h
  have hsent : (⟨.mongosh "i1" localHost (.add ["i3:27017"]), .error (.failed "refused")⟩ : Event) ∈
      grown.2.log := List.mem_of_getElem? (i := 8) rfl
  have hsame : executor id "i1" localHost = "i2" :=
    h idleCluster.conf 1 "c1" ["i3"] id threeMembers grown.1 _ exec_grown "i2" "i1" localHost
      ["i3:27017"] _ (List.mem_map_of_mem (f := fun e => ("i2", e)) hsent)
  exact absurd hsame (by decide)

end Example

end Yggdrasil.Mongo
