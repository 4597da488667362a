import Yggdrasil.Mongo.Assembly
import Yggdrasil.Mongo.Primary

/-! When a task is reset. The wrapper clears it unless the operation answers `False`, raises or
runs out of time, and records a failure otherwise; whether that is right depends on what each
operation does before it returns. -/

namespace Yggdrasil.Mongo

open Effect Effect.Process History Python

/-! ### Exceptions of the tasks -/

section Raises

variable {Q : Error → List Event → Prop} [Unplanned Q] (conf : MongoConf) (fuel : ℕ)

theorem raises_waitForReplicaMembers (guest : String) (addresses : List String) :
    Raises Q (waitForReplicaMembers conf fuel guest addresses) := by
  have hloop : ∀ deadline, Raises Q (waitLoop guest addresses deadline fuel) := by
    intro deadline
    induction fuel with
    | zero => exact raises_hang
    | succ fuel ih =>
      unfold waitLoop
      apply raises_bind (raises_ask _)
      intro now
      apply raises_ite ?_ (raises_fail _)
      apply raises_bind
      · exact raises_exceptException (raises_bind (raises_ask _) fun _ => raises_pure _)
          fun _ => raises_pure _
      · exact fun ready => raises_ite (raises_pure _) (raises_bind (raises_ask _) fun _ => ih)
  exact raises_bind (raises_ask _) fun now => hloop _

theorem raises_address (i : Instance) : Raises Q (address conf i) := by
  apply raises_bind (raises_ask _)
  intro addresses
  cases addresses with
  | nil => exact raises_fail _
  | cons address others => exact raises_pure _

theorem raises_initializeReplicaSet (members : List Instance) :
    Raises Q (initializeReplicaSet conf fuel members) := by
  cases members with
  | nil => exact raises_fail _
  | cons first others =>
    apply raises_bind (raises_collect (raises_address conf) _)
    intro addresses
    apply raises_bind (raises_ask _)
    intro _
    exact raises_bind (raises_waitForReplicaMembers conf fuel _ _) fun _ => raises_pure _

theorem raises_configureQueryRouters (routers configServers : List Instance) :
    Raises Q (configureQueryRouters conf routers configServers) := by
  apply raises_ite (raises_fail _)
  apply raises_bind (raises_collect (raises_address conf) _)
  intro addresses
  exact raises_ite (raises_fail _) (raises_forEach (fun _ => raises_ask _) _)

theorem raises_createShard (router : Instance) (members : List Instance) :
    Raises Q (createShard conf fuel router members) := by
  apply raises_bind (raises_initializeReplicaSet conf fuel members)
  intro addresses
  split
  · apply raises_bind (raises_ask _)
    intro name
    split
    · exact raises_fail _
    · exact raises_bind (raises_ask _) fun _ => raises_ite (raises_fail _) (raises_pure _)
  · exact raises_fail _

theorem raises_createShardsOf (routers members : List Instance) :
    Raises Q (createShardsOf conf fuel routers members) := by
  apply raises_forEach
  intro group
  cases routers with
  | nil => exact raises_fail _
  | cons router routers => exact raises_createShard conf fuel router group

theorem raises_complete (members : List Instance) : Raises Q (complete members) :=
  raises_forEach (fun _ => raises_ask _) _

theorem raises_createOperation (cluster : String) :
    Raises Q (createOperation conf fuel cluster) := by
  apply raises_bind (raises_ask _)
  intro rows
  apply raises_bind (raises_ask _)
  intro ready
  apply raises_ite ?_ (raises_pure _)
  apply raises_bind (raises_collect (f := loadInstance) (fun _ => raises_ask _) _)
  intro members
  apply raises_bind
  · apply raises_ite
    · exact raises_bind (raises_initializeReplicaSet conf fuel _) fun _ =>
        raises_bind (raises_configureQueryRouters conf _ _) fun _ =>
          raises_createShardsOf conf fuel _ _
    · exact raises_bind (raises_initializeReplicaSet conf fuel _) fun _ => raises_pure _
  · exact fun _ => raises_bind (raises_complete _) fun _ => raises_pure _

theorem raises_growTopology (existing news : List Instance) :
    Raises Q (growTopology conf fuel existing news) := by
  cases existing with
  | nil => exact raises_fail _
  | cons first others =>
    apply raises_ite
    · apply raises_bind
      · exact raises_ite (raises_pure _) (raises_configureQueryRouters conf _ _)
      · exact fun _ => raises_ite (raises_pure _)
          (raises_ite (raises_fail _) (raises_createShardsOf conf fuel _ _))
    · apply raises_bind (raises_collect (raises_address conf) _)
      intro addresses
      apply raises_bind (raises_ask _)
      intro _
      apply raises_bind
      · exact raises_bind (raises_ask _) fun _ =>
          raises_bind (raises_bind (raises_ask _) fun _ => raises_pure _) fun _ =>
            raises_bind (raises_ask _) fun _ => raises_pure _
      · exact fun _ => raises_waitForReplicaMembers conf fuel _ _

theorem raises_growOperation (cluster : String) (newIds : List String) :
    Raises Q (growOperation conf fuel cluster newIds) := by
  apply raises_bind (raises_ask _)
  intro ready
  apply raises_ite ?_ (raises_pure _)
  apply raises_bind (raises_ask _)
  intro rows
  apply raises_bind (raises_collect (f := loadInstance) (fun _ => raises_ask _) _)
  intro existing
  apply raises_bind (raises_collect (β := Instance) (f := fun id => ask (.loadInstance id))
    (fun _ => raises_ask _) _)
  intro news
  apply raises_bind (raises_growTopology conf fuel _ _)
  exact fun _ => raises_bind (raises_complete _) fun _ => raises_pure _

theorem raises_shrinkOperation (cluster : String) (ids : List String) :
    Raises Q (shrinkOperation cluster ids) :=
  raises_bind (raises_ask _) fun _ => raises_ite (raises_pure _) (raises_pure _)

end Raises

/-- A timeout that is not the task's own was the answer to a call. -/
def TimeoutLogged (x : Error) (log : List Event) : Prop :=
  x = .timeout false → ∃ c, (⟨c, .error (.timeout false)⟩ : Event) ∈ log

instance : Unplanned TimeoutLogged where
  answer c _ _ _ h := ⟨c, by rw [h]; exact List.mem_append_right _ (List.mem_singleton_self _)⟩
  failed _ _ h := by cases h

/-! ### The wrapper -/

/-- The calls that end a task. -/
def Call.ends : Call → Bool
  | .resetTask _ => true
  | .updateStatusesOnFailure .. => true
  | _ => false

/-- A failure was recorded with this status. -/
def isRecorded (cluster status : String) : Event → Bool
  | ⟨.updateStatusesOnFailure c s, .ok _⟩ => c == cluster && s == status
  | _ => false

def timesRecorded (cluster status : String) (log : List Event) : ℕ :=
  log.countP (isRecorded cluster status)

/-- The demand on a reset. -/
def ResetAfter (cluster : String) (goal : List Event → Prop) (e : Event) (log : List Event) : Prop :=
  e.1 = .resetTask cluster → goal log

/-- The last attempt to record the failure did not succeed. -/
def RecordingFailed (cluster status : String) (log : List Event) : Prop :=
  ∃ x, log.getLast? = some ⟨.updateStatusesOnFailure cluster status, .error x⟩

theorem isRecorded_of_not_ends {cluster status : String} {e : Event} (h : e.1.ends = false) :
    isRecorded cluster status e = false := by
  obtain ⟨c, r⟩ := e
  cases c with
  | updateStatusesOnFailure _ _ => cases h
  | _ => rfl

theorem timesRecorded_append (cluster status : String) (log : List Event) (e : Event) :
    timesRecorded cluster status (log ++ [e]) =
      timesRecorded cluster status log + if isRecorded cluster status e then 1 else 0 := by
  unfold timesRecorded
  rw [List.countP_append, List.countP_singleton]

section Wrapper

variable {cluster status : String} {goal : List Event → Prop} {db : Database}

/-- Before the wrapper decides, nothing is reset or recorded. -/
theorem triple_operation {α : Type} {p : Action α}
    (hquiet : Respects world (fun s => ∀ e ∈ s.log, e.1.ends = false) (fun c => c.ends = false) p) :
    Triple world (fun s => ∀ e ∈ s.log, e.1.ends = false) (fun s => ∀ e ∈ s.log, e.1.ends = false) p
      (fun _ s => ∀ e ∈ s.log, e.1.ends = false) fun _ s => ∀ e ∈ s.log, e.1.ends = false := by
  apply hquiet.triple
  intro s c r s' hs hc hw
  rw [world_log hw]
  intro e he
  rcases List.mem_append.1 he with he | he
  · exact hs e he
  · rw [List.mem_singleton.1 he]
    exact hc

theorem guarded_of_quiet {log : List Event} (h : ∀ e ∈ log, e.1.ends = false) :
    Guarded (ResetAfter cluster goal) log := by
  intro pre e post hlog he
  have hends := h e (hlog ▸ List.mem_append_right _ List.mem_cons_self)
  rw [he] at hends
  cases hends

theorem timesRecorded_of_quiet {log : List Event} (h : ∀ e ∈ log, e.1.ends = false) :
    timesRecorded cluster status log = 0 := by
  unfold timesRecorded
  rw [List.countP_eq_zero]
  intro e he
  rw [isRecorded_of_not_ends (h e he)]
  decide

/-- What is known when the wrapper handles an exception. -/
structure Handling (cluster status : String) (goal : List Event → Prop) (x : Error) (s : Run) :
    Prop where
  guarded : Guarded (ResetAfter cluster goal) s.log
  unrecorded : goal s.log ∨ timesRecorded cluster status s.log = 0
  logged : TimeoutLogged x s.log

/-- The end of a task, well or not. -/
def Settled (cluster status : String) (goal : List Event → Prop) (log : List Event) : Prop :=
  goal log ∨ timesRecorded cluster status log = 1

/-- Why a task may end without a record. -/
def Disturbed (cluster status : String) (log : List Event) : Prop :=
  (∃ c, (⟨c, .error (.timeout false)⟩ : Event) ∈ log) ∨ RecordingFailed cluster status log

theorem guarded_append_of_ne {log : List Event} {e : Event}
    (h : Guarded (ResetAfter cluster goal) log) (he : e.1 ≠ .resetTask cluster) :
    Guarded (ResetAfter cluster goal) (log ++ [e]) :=
  guarded_append.2 ⟨h, fun hr => absurd hr he⟩

/-- One attempt to record the failure. -/
theorem triple_record (hlast : Lasting goal) (x : Error) :
    Triple world (fun s => Guarded (ResetAfter cluster goal) s.log)
      (Handling cluster status goal x) (ask (.updateStatusesOnFailure cluster status))
      (fun _ s => Settled cluster status goal s.log)
      fun _ s => Disturbed cluster status s.log := by
  apply triple_ask
  · exact fun s h => h.guarded
  · intro s a db' h _
    refine ⟨?_, guarded_append_of_ne h.guarded (by simp)⟩
    rcases h.unrecorded with hgoal | hzero
    · exact .inl (hlast _ _ hgoal)
    · refine .inr ?_
      rw [timesRecorded_append, hzero]
      simp [isRecorded]
  · intro s y h _
    refine ⟨.inr ⟨y, ?_⟩, guarded_append_of_ne h.guarded (by simp)⟩
    simp

/-- The failure is recorded right after an operation that answers `False`. -/
theorem triple_first_record {Pre : Run → Prop}
    (hpre : ∀ s, Pre s → ∀ e ∈ s.log, e.1.ends = false) :
    Triple world (fun s => Guarded (ResetAfter cluster goal) s.log) Pre
      (ask (.updateStatusesOnFailure cluster status))
      (fun _ s => Settled cluster status goal s.log)
      fun x s => Handling cluster status goal x s := by
  apply triple_ask
  · exact fun s h => guarded_of_quiet (hpre s h)
  · intro s a db' h _
    refine ⟨.inr ?_, guarded_append_of_ne (guarded_of_quiet (hpre s h)) (by simp)⟩
    rw [timesRecorded_append, timesRecorded_of_quiet (hpre s h)]
    simp [isRecorded]
  · intro s x h hx
    have hguarded : Guarded (ResetAfter cluster goal)
        (s.log ++ [⟨.updateStatusesOnFailure cluster status, .error x⟩]) :=
      guarded_append_of_ne (guarded_of_quiet (hpre s h)) (by simp)
    refine ⟨⟨hguarded, .inr ?_, Unplanned.answer _ x s.log hx⟩, hguarded⟩
    rw [timesRecorded_append, timesRecorded_of_quiet (hpre s h)]
    rfl

/-- The reset comes after the goal. -/
theorem triple_reset_task (hlast : Lasting goal) {Pre : Run → Prop}
    (hpre : ∀ s, Pre s → Guarded (ResetAfter cluster goal) s.log ∧ goal s.log) :
    Triple world (fun s => Guarded (ResetAfter cluster goal) s.log) Pre
      (ask (.resetTask cluster)) (fun _ s => Settled cluster status goal s.log)
      fun x s => Handling cluster status goal x s := by
  have hkeeps : ∀ s (e : Event), Pre s → Guarded (ResetAfter cluster goal) (s.log ++ [e]) :=
    fun s e h => guarded_append.2 ⟨(hpre s h).1, fun _ => (hpre s h).2⟩
  apply triple_ask
  · exact fun s h => (hpre s h).1
  · exact fun s a db' h _ => ⟨.inl (hlast _ _ (hpre s h).2), hkeeps s _ h⟩
  · exact fun s x h hx => ⟨⟨hkeeps s _ h, .inl (hlast _ _ (hpre s h).2),
      Unplanned.answer _ x s.log hx⟩, hkeeps s _ h⟩

/-- The wrapper resets the task after the goal only, and otherwise records one failure unless
it is disturbed. -/
theorem triple_runWithTimeout {p : Action (Option Bool)} (hlast : Lasting goal)
    (hquiet : Respects world (fun s => ∀ e ∈ s.log, e.1.ends = false) (fun c => c.ends = false) p)
    (hraises : Raises TimeoutLogged p)
    (hvalue : Triple world (fun _ => True) (fun s => s = ⟨db, []⟩) p
      (fun completed s => completed ≠ some false → goal s.log) fun _ _ => True) :
    Triple world (fun s => Guarded (ResetAfter cluster goal) s.log) (fun s => s = ⟨db, []⟩)
      (runWithTimeout cluster status p) (fun _ s => Settled cluster status goal s.log)
      fun _ s => Disturbed cluster status s.log := by
  unfold runWithTimeout
  apply triple_handle (M := Handling cluster status goal)
  · have hguarded : ∀ s : Run, (∀ e ∈ s.log, e.1.ends = false) →
        Guarded (ResetAfter cluster goal) s.log := fun _ => guarded_of_quiet
    have hp := (((triple_operation hquiet).and hraises).and hvalue).weaken fun s h =>
      hguarded s h.1.1
    apply triple_bind (M := fun completed s => (∀ e ∈ s.log, e.1.ends = false) ∧
      (completed ≠ some false → goal s.log))
    · apply hp.consequence
      · rintro s rfl
        exact ⟨⟨by simp, trivial⟩, rfl⟩
      · exact fun completed s h => ⟨h.1.1, h.2⟩
      · exact fun x s h => ⟨guarded_of_quiet h.1.1, .inr (timesRecorded_of_quiet h.1.1), h.1.2⟩
    · intro completed
      apply triple_ite
      · exact fun _ => triple_first_record fun s h => h.1
      · exact fun hc => triple_reset_task hlast fun s h => ⟨guarded_of_quiet h.1, h.2 hc⟩
  · intro x
    cases x with
    | timeout own =>
      cases own with
      | false => exact triple_raise (fun _ h => h.guarded) fun s h => .inl (h.logged rfl)
      | true => exact triple_record hlast _
    | _ => exact triple_record hlast _

end Wrapper

/-! ### The tasks and their goals -/

inductive Task
  | create
  | grow (newIds : List String)
  | shrink (ids : List String)

def Task.run (conf : MongoConf) (fuel : ℕ) (cluster : String) : Task → Action Unit
  | .create => createCluster conf fuel cluster
  | .grow newIds => growCluster conf fuel cluster newIds
  | .shrink ids => shrinkCluster cluster ids

def Task.operation (conf : MongoConf) (fuel : ℕ) (cluster : String) : Task → Action (Option Bool)
  | .create => createOperation conf fuel cluster
  | .grow newIds => growOperation conf fuel cluster newIds
  | .shrink ids => shrinkOperation cluster ids

def Task.failureStatus : Task → String
  | .create => "BUILDING_ERROR_SERVER"
  | .grow _ => "GROWING_ERROR"
  | .shrink _ => "SHRINKING_ERROR"

theorem Task.run_eq (conf : MongoConf) (fuel : ℕ) (cluster : String) (task : Task) :
    task.run conf fuel cluster =
      runWithTimeout cluster task.failureStatus (task.operation conf fuel cluster) := by
  cases task <;> rfl

/-- All instances of the cluster are ready, assembled and told so. -/
structure CreateGoal (accepts : Value → Bool) (port : ℕ) (db : Database) (cluster : String)
    (log : List Event) : Prop where
  ready : (⟨.allInstancesReady ((db.live cluster).map Instance.id) cluster, .ok true⟩ : Event) ∈ log
  topology : TopologyCreated accepts port (db.live cluster) log
  complete : ToldComplete (db.live cluster) log

/-- The new instances are ready, part of the topology and told so. -/
structure GrowGoal (accepts : Value → Bool) (port : ℕ) (db : Database) (cluster : String)
    (newIds : List String) (news : List Instance) (log : List Event) : Prop where
  ids : news.map Instance.id = newIds
  exist : ∀ i ∈ news, i ∈ db.instances
  ready : (⟨.allInstancesReady newIds cluster, .ok true⟩ : Event) ∈ log
  topology : TopologyGrown accepts port (existingMembers db cluster newIds) news log
  complete : ToldComplete news log

/-- Equal to 1 in its `ok`: the router has taken the shard. -/
def accepted : Value → Bool
  | .dict m => isOne (Mapping.get m "ok")
  | _ => false

/-- What a reset of the task means. -/
def Task.Goal (port : ℕ) (db : Database) (cluster : String) : Task → List Event → Prop
  | .create => CreateGoal accepted port db cluster
  | .grow newIds => fun log => ∃ news, GrowGoal accepted port db cluster newIds news log
  | .shrink ids => fun _ => ∀ id ∈ ids, id ∉ (db.live cluster).map Instance.id

/-- What the task has seen when its operation returns. -/
def Task.Shown (port : ℕ) (db : Database) (cluster : String) : Task → List Event → Prop
  | .create => CreateGoal (fun v => !refused v) port db cluster
  | .grow newIds => fun log =>
    ∃ news, GrowGoal (fun v => !refused v) port db cluster newIds news log
  | .shrink _ => fun log => (⟨.findInstances cluster, .ok (db.live cluster)⟩ : Event) ∈ log

theorem lasting_createGoal (accepts : Value → Bool) (port : ℕ) (db : Database) (cluster : String) :
    Lasting (CreateGoal accepts port db cluster) := fun log e h =>
  ⟨List.mem_append_left _ h.ready, lasting_topologyCreated _ _ _ log e h.topology,
    lasting_toldComplete _ log e h.complete⟩

theorem lasting_growGoal (accepts : Value → Bool) (port : ℕ) (db : Database) (cluster : String)
    (newIds : List String) :
    Lasting fun log => ∃ news, GrowGoal accepts port db cluster newIds news log := by
  rintro log e ⟨news, h⟩
  exact ⟨news, h.ids, h.exist, List.mem_append_left _ h.ready,
    lasting_topologyGrown _ _ _ _ log e h.topology, lasting_toldComplete _ log e h.complete⟩

theorem Task.lasting_shown (port : ℕ) (db : Database) (cluster : String) (task : Task) :
    Lasting (task.Shown port db cluster) := by
  cases task with
  | create => exact lasting_createGoal _ port db cluster
  | grow newIds => exact lasting_growGoal _ port db cluster newIds
  | shrink ids => exact lasting_mem _

theorem Task.lasting_goal (port : ℕ) (db : Database) (cluster : String) (task : Task) :
    Lasting (task.Goal port db cluster) := by
  cases task with
  | create => exact lasting_createGoal _ port db cluster
  | grow newIds => exact lasting_growGoal _ port db cluster newIds
  | shrink ids => exact fun _ _ h => h

theorem Lasting.append {P : List Event → Prop} (h : Lasting P) {pre : List Event} (hpre : P pre)
    (post : List Event) : P (pre ++ post) := by
  induction post generalizing pre with
  | nil => rwa [List.append_nil]
  | cons e post ih =>
    rw [← List.singleton_append, ← List.append_assoc]
    exact ih (h pre e hpre)

/-! ### What the operations have seen -/

section Operations

variable {db : Database} (conf : MongoConf) (fuel : ℕ) (cluster : String)

/-- What was shown before stays shown. -/
theorem Achieves.keeps {α : Type} {p : Action α} {Q : α → List Event → Prop}
    {P : List Event → Prop} (h : Achieves p Q) (hlast : Lasting P) :
    Triple world (fun _ => True) (fun s => P s.log) p (fun a s => P s.log ∧ Q a s.log)
      fun _ _ => True :=
  (((triple_keeps_log p hlast).and h).weaken fun _ _ => trivial).consequence
    (fun _ h => ⟨h, trivial⟩) (fun _ _ h => h) fun _ _ _ => trivial

/-- Loading rows that exist gives the same rows. -/
theorem triple_loadAll_eq (hnd : (db.instances.map Instance.id).Nodup) {l : List Instance}
    (hl : ∀ i ∈ l, i ∈ db.instances) :
    Triple world (fun _ => True) (fun s => s.db = db) (collect loadInstance l)
      (fun rows s => rows = l ∧ s.db = db) fun _ _ => True := by
  refine (triple_collect (J := fun d rows s => rows = d ∧ s.db = db) (fun _ _ _ _ => trivial)
    fun pre i post rows he => ?_).consequence (fun _ h => ⟨rfl, h⟩) (fun _ _ h => h) fun _ _ h => h
  refine triple_ask (fun _ _ => trivial) ?_ fun _ _ _ _ => ⟨trivial, trivial⟩
  rintro s (row : Instance) db' ⟨rfl, rfl⟩ ⟨hrow, hid, rfl⟩
  have hi : i ∈ s.db.instances := hl i (he ▸ List.mem_append_right _ List.mem_cons_self)
  have heq : row = i := List.inj_on_of_nodup_map hnd hrow hi hid
  exact ⟨⟨by rw [heq], rfl⟩, trivial⟩

/-- Loading by name gives rows of these names. -/
theorem triple_loadIds (ids : List String) :
    Triple world (fun _ => True) (fun s => s.db = db)
      (collect (fun id => (ask (.loadInstance id) : Action Instance)) ids)
      (fun rows s => (rows.map Instance.id = ids ∧ ∀ i ∈ rows, i ∈ db.instances) ∧ s.db = db)
      fun _ _ => True := by
  refine (triple_collect (J := fun d (rows : List Instance) s =>
    (rows.map Instance.id = d ∧ ∀ i ∈ rows, i ∈ db.instances) ∧ s.db = db) (fun _ _ _ _ => trivial)
    fun pre id post rows he => ?_).consequence (fun _ h => ⟨⟨rfl, by simp⟩, h⟩) (fun _ _ h => h)
    fun _ _ h => h
  refine triple_ask (c := .loadInstance id) (fun _ _ => trivial) ?_ fun _ _ _ _ => ⟨trivial, trivial⟩
  rintro s (row : Instance) db' ⟨⟨rfl, hrows⟩, rfl⟩ ⟨hrow, rfl, rfl⟩
  refine ⟨⟨⟨by rw [List.map_append, List.map_singleton], fun i hi => ?_⟩, rfl⟩, trivial⟩
  rcases List.mem_append.1 hi with hi | hi
  · exact hrows i hi
  · rw [List.mem_singleton.1 hi]
    exact hrow

theorem triple_createOperation (hdb : Reachable db) :
    Triple world (fun _ => True) (fun s => s = ⟨db, []⟩) (createOperation conf fuel cluster)
      (fun completed s => completed ≠ some false →
        CreateGoal (fun v => !refused v) conf.mongodbPort db cluster s.log) fun _ _ => True := by
  unfold createOperation
  apply triple_bind (M := fun (rows : List Instance) s => rows = db.live cluster ∧ s.db = db)
  · refine triple_ask (fun _ _ => trivial) ?_ fun _ _ _ _ => ⟨trivial, trivial⟩
    rintro s rows db' rfl ⟨rfl, rfl⟩
    exact ⟨⟨rfl, rfl⟩, trivial⟩
  intro rows
  apply triple_intro
  rintro s₀ ⟨rfl, hs₀⟩
  apply triple_bind (M := fun (ready : Bool) s => s.db = db ∧
    (⟨.allInstancesReady ((db.live cluster).map Instance.id) cluster, .ok ready⟩ : Event) ∈ s.log)
  · refine triple_ask (fun _ _ => trivial) ?_ fun _ _ _ _ => ⟨trivial, trivial⟩
    rintro s ready db' rfl rfl
    exact ⟨⟨hs₀, List.mem_append_right _ (List.mem_singleton_self _)⟩, trivial⟩
  intro ready
  apply triple_ite
  · rintro rfl
    apply triple_bind (M := fun members s => members = db.live cluster ∧
      (⟨.allInstancesReady ((db.live cluster).map Instance.id) cluster, .ok true⟩ : Event) ∈ s.log)
    · have hload := triple_loadAll_eq hdb.nodup (l := db.live cluster)
        fun i hi => List.mem_of_mem_filter hi
      exact ((hload.and (triple_keeps_log (collect loadInstance (db.live cluster))
        (lasting_mem _))).weaken fun _ _ => trivial).consequence (fun _ h => h)
        (fun _ _ h => ⟨h.1.1, h.2⟩) fun _ _ _ => trivial
    · intro members
      apply triple_intro
      rintro s₁ ⟨rfl, hready⟩
      have hrest : Achieves (do
            createTopology conf fuel (db.live cluster)
            complete (db.live cluster)
            pure none) fun (_ : Option Bool) log =>
          TopologyCreated (fun v => !refused v) conf.mongodbPort (db.live cluster) log ∧
            ToldComplete (db.live cluster) log := by
        apply (achieves_bind (fun _ => lasting_topologyCreated _ _ _)
          (achieves_createTopology conf fuel (db.live cluster)) fun _ =>
            achieves_bind (fun _ => lasting_toldComplete _) (achieves_complete (db.live cluster))
              fun _ => achieves_pure (Q := fun _ _ => True) fun _ => trivial).mono
        rintro _ log ⟨_, htopology, _, hcomplete, -⟩
        exact ⟨htopology, hcomplete⟩
      exact (hrest.keeps (lasting_mem _)).consequence (fun _ he => he ▸ hready)
        (fun _ _ h _ => ⟨h.1, h.2.1, h.2.2⟩) fun _ _ _ => trivial
  · exact fun _ => triple_ret (fun _ _ => trivial) fun _ _ h => absurd rfl h

theorem triple_growOperation (hdb : Reachable db) (newIds : List String) :
    Triple world (fun _ => True) (fun s => s = ⟨db, []⟩) (growOperation conf fuel cluster newIds)
      (fun completed s => completed ≠ some false → ∃ news,
        GrowGoal (fun v => !refused v) conf.mongodbPort db cluster newIds news s.log)
      fun _ _ => True := by
  unfold growOperation
  apply triple_bind (M := fun (ready : Bool) s => s.db = db ∧
    (⟨.allInstancesReady newIds cluster, .ok ready⟩ : Event) ∈ s.log)
  · refine triple_ask (fun _ _ => trivial) ?_ fun _ _ _ _ => ⟨trivial, trivial⟩
    rintro s ready db' rfl rfl
    exact ⟨⟨rfl, List.mem_append_right _ (List.mem_singleton_self _)⟩, trivial⟩
  intro ready
  apply triple_ite
  · rintro rfl
    apply triple_bind (M := fun (rows : List Instance) s => (rows = db.live cluster ∧ s.db = db) ∧
      (⟨.allInstancesReady newIds cluster, .ok true⟩ : Event) ∈ s.log)
    · refine triple_ask (fun _ _ => trivial) ?_ fun _ _ _ _ => ⟨trivial, trivial⟩
      rintro s rows db' ⟨rfl, hready⟩ ⟨rfl, rfl⟩
      exact ⟨⟨⟨rfl, rfl⟩, List.mem_append_left _ hready⟩, trivial⟩
    intro rows
    apply triple_intro
    rintro s₀ ⟨⟨rfl, hs₀⟩, hready₀⟩
    apply triple_bind (M := fun existing s => (existing = existingMembers db cluster newIds ∧
      s.db = db) ∧ (⟨.allInstancesReady newIds cluster, .ok true⟩ : Event) ∈ s.log)
    · have hload := triple_loadAll_eq hdb.nodup (l := existingMembers db cluster newIds)
        fun i hi => List.mem_of_mem_filter (List.mem_of_mem_filter hi)
      exact ((hload.and (triple_keeps_log (collect loadInstance (existingMembers db cluster newIds))
        (lasting_mem _))).weaken fun _ _ => trivial).consequence (fun _ he => he ▸ ⟨hs₀, hready₀⟩)
        (fun _ _ h => h) fun _ _ _ => trivial
    intro existing
    apply triple_intro
    rintro s₁ ⟨⟨rfl, hs₁⟩, hready₁⟩
    apply triple_bind (M := fun (news : List Instance) s =>
      (news.map Instance.id = newIds ∧ ∀ i ∈ news, i ∈ db.instances) ∧
        (⟨.allInstancesReady newIds cluster, .ok true⟩ : Event) ∈ s.log)
    · exact (((triple_loadIds newIds).and (triple_keeps_log _ (lasting_mem _))).weaken
        fun _ _ => trivial).consequence (fun _ he => he ▸ ⟨hs₁, hready₁⟩)
        (fun _ _ h => ⟨h.1.1, h.2⟩) fun _ _ _ => trivial
    intro news
    apply triple_intro
    rintro s₂ ⟨⟨hids, hexist⟩, hready₂⟩
    have hrest : Achieves (do
          growTopology conf fuel (existingMembers db cluster newIds) news
          complete news
          pure none) fun (_ : Option Bool) log =>
        TopologyGrown (fun v => !refused v) conf.mongodbPort (existingMembers db cluster newIds) news
          log ∧ ToldComplete news log := by
      apply (achieves_bind (fun _ => lasting_topologyGrown _ _ _ _)
        (achieves_growTopology conf fuel (existingMembers db cluster newIds) news) fun _ =>
          achieves_bind (fun _ => lasting_toldComplete _) (achieves_complete news)
            fun _ => achieves_pure (Q := fun _ _ => True) fun _ => trivial).mono
      rintro _ log ⟨_, htopology, _, hcomplete, -⟩
      exact ⟨htopology, hcomplete⟩
    exact (hrest.keeps (lasting_mem _)).consequence (fun _ he => he ▸ hready₂)
      (fun _ _ h _ => ⟨news, hids, hexist, h.1, h.2.1, h.2.2⟩) fun _ _ _ => trivial
  · exact fun _ => triple_ret (fun _ _ => trivial) fun _ _ h => absurd rfl h

theorem triple_shrinkOperation (ids : List String) :
    Triple world (fun _ => True) (fun s => s = ⟨db, []⟩) (shrinkOperation cluster ids)
      (fun completed s => completed ≠ some false →
        (⟨.findInstances cluster, .ok (db.live cluster)⟩ : Event) ∈ s.log) fun _ _ => True := by
  unfold shrinkOperation
  apply triple_bind (M := fun _ s =>
    (⟨.findInstances cluster, .ok (db.live cluster)⟩ : Event) ∈ s.log)
  · refine triple_ask (fun _ _ => trivial) ?_ fun _ _ _ _ => ⟨trivial, trivial⟩
    rintro s rows db' rfl ⟨rfl, -⟩
    exact ⟨List.mem_append_right _ (List.mem_singleton_self _), trivial⟩
  · exact fun rows => triple_ite (fun _ => triple_ret (fun _ _ => trivial) fun _ h _ => h)
      fun _ => triple_ret (fun _ _ => trivial) fun _ h _ => h

theorem Task.triple_operation (hdb : Reachable db) (task : Task) :
    Triple world (fun _ => True) (fun s => s = ⟨db, []⟩) (task.operation conf fuel cluster)
      (fun completed s => completed ≠ some false →
        task.Shown conf.mongodbPort db cluster s.log) fun _ _ => True := by
  cases task with
  | create => exact triple_createOperation conf fuel cluster hdb
  | grow newIds => exact triple_growOperation conf fuel cluster hdb newIds
  | shrink ids => exact triple_shrinkOperation cluster ids

theorem Task.raises_operation {Q : Error → List Event → Prop} [Unplanned Q] (task : Task) :
    Raises Q (task.operation conf fuel cluster) := by
  cases task with
  | create => exact raises_createOperation conf fuel cluster
  | grow newIds => exact raises_growOperation conf fuel cluster newIds
  | shrink ids => exact raises_shrinkOperation cluster ids

theorem Call.not_ends_of_assembles {c : Call} (h : c.assembles = true) : c.ends = false := by
  cases c <;> simp_all [assembles, ends]

/-- No operation ends its task itself. -/
theorem Task.respects_operation {R : Run → Prop} (task : Task) :
    Respects world R (fun c => c.ends = false) (task.operation conf fuel cluster) := by
  have hassembles : ∀ c : Call, c.assembles = true → c.ends = false :=
    fun _ => Call.not_ends_of_assembles
  cases task with
  | create =>
    refine respects_bind (respects_ask rfl) fun rows => respects_bind (respects_ask rfl) fun ready => ?_
    apply respects_ite ?_ fun _ => respects_pure _
    intro _
    apply respects_bind ((respects_loadAll rows).mono hassembles)
    intro members
    apply respects_bind
    · apply respects_ite
      · intro _
        apply respects_bind ((respects_initializeReplicaSet conf fuel _).mono hassembles)
        intro _
        apply respects_bind ((respects_configureQueryRouters conf _ _).mono hassembles)
        exact fun _ => (respects_createShardsOf conf fuel _ _).mono hassembles
      · intro _
        apply respects_bind ((respects_initializeReplicaSet conf fuel _).mono hassembles)
        exact fun _ => respects_pure _
    · exact fun _ => respects_bind ((respects_complete _).mono hassembles) fun _ => respects_pure _
  | grow newIds =>
    refine respects_bind (respects_ask rfl) fun ready => respects_ite ?_ fun _ => respects_pure _
    refine fun _ => respects_bind (respects_ask rfl) fun rows => ?_
    apply respects_bind ((respects_loadAll _).mono hassembles)
    intro existing
    refine respects_bind (respects_collect (β := Instance) (f := fun id => ask (.loadInstance id))
      fun id _ => respects_ask rfl) fun news => ?_
    apply respects_bind
    · cases existing with
      | nil => exact respects_raise _
      | cons first others =>
        apply respects_ite
        · exact fun _ => (respects_growShards conf fuel _ _).mono hassembles
        · intro _
          apply respects_bind ((respects_collect fun i _ => respects_address conf i).mono hassembles)
          intro addresses
          refine respects_bind (respects_ask rfl) fun _ => ?_
          refine respects_bind (respects_bind (respects_ask rfl) fun _ => ?_) fun _ => ?_
          · exact respects_bind (respects_bind (respects_ask rfl) fun _ => respects_pure _) fun _ =>
              respects_bind (respects_ask rfl) fun _ => respects_pure _
          · exact (respects_waitForReplicaMembers conf fuel _ _).mono hassembles
    · exact fun _ => respects_bind ((respects_complete _).mono hassembles) fun _ => respects_pure _
  | shrink ids =>
    exact respects_bind (respects_ask rfl) fun rows =>
      respects_ite (fun _ => respects_pure _) fun _ => respects_pure _

end Operations

/-! ### Resets -/

/-- A run without what misleads the wrapper: timeouts of others, a failure that cannot be
recorded, a router that answers without accepting or refusing, and removed instances that are
still listed. -/
structure Regular (task : Task) (cluster : String) (log : List Event) : Prop where
  timeouts : ∀ c, (⟨c, .error (.timeout false)⟩ : Event) ∉ log
  recorded : ¬RecordingFailed cluster task.failureStatus log
  shards : ∀ router name address result,
    (⟨.addShard router name address, .ok result⟩ : Event) ∈ log → refused result = false →
      accepted result = true
  gone : ∀ ids, task = .shrink ids → ∀ rows : List Instance,
    (⟨.findInstances cluster, .ok rows⟩ : Event) ∈ log → ∀ id ∈ ids, id ∉ rows.map Instance.id

section Reset

variable {port : ℕ} {db : Database} {cluster : String} {task : Task}

theorem ShardAdded.accepted {members : List Instance} {pre log : List Event}
    (h : ShardAdded (fun v => !refused v) port members pre) (hregular : Regular task cluster log)
    (hsub : ∀ e ∈ pre, e ∈ log) : ShardAdded accepted port members pre := by
  obtain ⟨primary, hprimary, router, name, address, result, hname, haddress, hadd, htaken⟩ := h
  have hrefused : refused result = false := (Bool.not_eq_eq_eq_not.1 htaken).trans rfl
  exact ⟨primary, hprimary, router, name, address, result, hname, haddress, hadd,
    hregular.shards router name address result (hsub _ hadd) hrefused⟩

/-- In a regular run, what the task has seen is its goal. -/
theorem Task.Shown.goal {pre log : List Event} (h : task.Shown port db cluster pre)
    (hregular : Regular task cluster log) (hsub : ∀ e ∈ pre, e ∈ log) :
    task.Goal port db cluster pre := by
  cases task with
  | create =>
    refine ⟨h.ready, ⟨h.topology.sets, fun hs group hg => ?_⟩, h.complete⟩
    exact (h.topology.shards hs group hg).accepted hregular hsub
  | grow newIds =>
    obtain ⟨news, hgoal⟩ := h
    refine ⟨news, hgoal.ids, hgoal.exist, hgoal.ready, ⟨fun hs group hg => ?_,
      hgoal.topology.extended⟩, hgoal.complete⟩
    obtain ⟨hinit, hadded⟩ := hgoal.topology.shards hs group hg
    exact ⟨hinit, hadded.accepted hregular hsub⟩
  | shrink ids => exact hregular.gone ids rfl _ (hsub _ h)

/-- In a regular run of a task, a reset comes after the goal, and a task that ends without its
goal has recorded one failure and no reset. -/
theorem reset_only_on_success (conf : MongoConf) (fuel : ℕ) (cluster : String) (task : Task)
    (db : Database) (hdb : Reachable db) (o : Outcome Error Unit) (s : Run)
    (h : Exec world (task.run conf fuel cluster) ⟨db, []⟩ o s)
    (hregular : Regular task cluster s.log) :
    (∀ pre e post, s.log = pre ++ e :: post → e.1 = .resetTask cluster →
      task.Goal conf.mongodbPort db cluster pre) ∧
    (o ≠ .running → ¬task.Goal conf.mongodbPort db cluster s.log →
      timesRecorded cluster task.failureStatus s.log = 1 ∧ ∀ e ∈ s.log, e.1 ≠ .resetTask cluster) := by
  have hwrapper : Triple world
      (fun s => Guarded (ResetAfter cluster (task.Shown conf.mongodbPort db cluster)) s.log)
      (fun s => s = ⟨db, []⟩) (task.run conf fuel cluster)
      (fun _ s => Settled cluster task.failureStatus (task.Shown conf.mongodbPort db cluster) s.log)
      fun _ s => Disturbed cluster task.failureStatus s.log := by
    rw [task.run_eq]
    exact triple_runWithTimeout (task.lasting_shown _ db cluster)
      (task.respects_operation conf fuel cluster) (task.raises_operation conf fuel cluster)
      (task.triple_operation conf fuel cluster hdb)
  have hguarded := hwrapper.always _ rfl o s h
  have hreset : ∀ pre e post, s.log = pre ++ e :: post → e.1 = .resetTask cluster →
      task.Goal conf.mongodbPort db cluster pre := by
    intro pre e post hlog he
    exact (hguarded pre e post hlog he).goal hregular fun e' he' =>
      hlog ▸ List.mem_append_left _ he'
  refine ⟨hreset, fun ho hgoal => ⟨?_, fun e he hre => hgoal ?_⟩⟩
  · have hsettled : Settled cluster task.failureStatus
        (task.Shown conf.mongodbPort db cluster) s.log := by
      cases o with
      | running => exact absurd rfl ho
      | value a => exact hwrapper.value _ rfl a s h
      | raised x =>
        rcases hwrapper.raised _ rfl x s h with ⟨c, hc⟩ | hfailed
        · exact absurd hc (hregular.timeouts c)
        · exact absurd hfailed hregular.recorded
    exact hsettled.resolve_left fun hshown => hgoal (hshown.goal hregular fun _ he => he)
  · obtain ⟨pre, post, hlog⟩ := List.append_of_mem he
    rw [hlog]
    exact (task.lasting_goal _ db cluster).append (hreset pre e post hlog hre) (e :: post)

end Reset

section Example

/-- A replica set of two members, as its create request leaves it. -/
def newPair : Database := (Surroundings.run {} (create { oneShard with extendedProperties := none })
  ⟨[], []⟩).2.db

theorem reachable_newPair : Reachable newPair :=
  Reachable.exec (s := ⟨⟨[], []⟩, []⟩) .empty
    (Surroundings.exec {} (create { oneShard with extendedProperties := none }) ⟨[], []⟩)

/-- Another instance of the cluster was removed, and is no longer listed. -/
private def gone : Outcome Error Unit × Run :=
  Surroundings.run {} (Task.run oneShard.conf 1 "cluster0" (.shrink ["instance99"])) newPair

private theorem gone_log : gone.2.log =
    [⟨.findInstances "cluster0", .ok (newPair.live "cluster0")⟩, ⟨.resetTask "cluster0", .ok ()⟩] :=
  rfl

private theorem gone_regular : Regular (.shrink ["instance99"]) "cluster0" gone.2.log := by
  rw [gone_log]
  refine ⟨?_, ?_, ?_, ?_⟩
  · intro c hc
    simp only [List.mem_cons, List.not_mem_nil, or_false] at hc
    rcases hc with hc | hc <;> cases hc
  · rintro ⟨x, hx⟩
    cases hx
  · intro router name address result hadd
    simp only [List.mem_cons, List.not_mem_nil, or_false] at hadd
    rcases hadd with hadd | hadd <;> cases hadd
  · intro ids hids rows hrows id hid
    cases hids
    simp only [List.mem_cons, List.not_mem_nil, or_false] at hrows
    rcases hrows with hrows | hrows
    · cases hrows
      rw [List.mem_singleton.1 hid]
      decide
    · cases hrows

/-- The task of a shrink is reset after the instance is gone. -/
theorem gone_reset :
    (∀ pre e post, gone.2.log = pre ++ e :: post → e.1 = .resetTask "cluster0" →
      Task.Goal 27017 newPair "cluster0" (.shrink ["instance99"]) pre) ∧
    (gone.1 ≠ .running → ¬Task.Goal 27017 newPair "cluster0" (.shrink ["instance99"]) gone.2.log →
      timesRecorded "cluster0" "SHRINKING_ERROR" gone.2.log = 1 ∧
        ∀ e ∈ gone.2.log, e.1 ≠ .resetTask "cluster0") :=
  reset_only_on_success oneShard.conf 1 "cluster0" (.shrink ["instance99"]) newPair
    reachable_newPair gone.1 gone.2 (Surroundings.exec {} (Task.run oneShard.conf 1 "cluster0"
      (.shrink ["instance99"])) newPair) gone_regular

private def unshrunk : Outcome Error Unit × Run :=
  Surroundings.run {} (Task.run oneShard.conf 1 "cluster0" (.shrink ["instance6"])) newPair

/-- The task of a shrink is reset although the removed instance is still listed. -/
theorem unshrunk_reset :
    ¬∀ (conf : MongoConf) (fuel : ℕ) (cluster : String) (task : Task) (db : Database),
      Reachable db → ∀ (o : Outcome Error Unit) (s : Run),
      Exec world (task.run conf fuel cluster) ⟨db, []⟩ o s →
      (∀ pre e post, s.log = pre ++ e :: post → e.1 = .resetTask cluster →
        task.Goal conf.mongodbPort db cluster pre) ∧
      (o ≠ .running → ¬task.Goal conf.mongodbPort db cluster s.log →
        timesRecorded cluster task.failureStatus s.log = 1 ∧
          ∀ e ∈ s.log, e.1 ≠ .resetTask cluster) := by
  intro h
  have hgoal := (h oneShard.conf 1 "cluster0" (.shrink ["instance6"]) newPair reachable_newPair
    unshrunk.1 unshrunk.2 (Surroundings.exec {} (Task.run oneShard.conf 1 "cluster0"
      (.shrink ["instance6"])) newPair)).1 (unshrunk.2.log.take 1) ⟨.resetTask "cluster0", .ok ()⟩ []
    rfl rfl
  have hlisted : "instance6" ∈ (newPair.live "cluster0").map Instance.id :=
    List.mem_of_getElem? (i := 0) rfl
  exact hgoal "instance6" (List.mem_singleton_self _) hlisted

end Example

end Yggdrasil.Mongo
