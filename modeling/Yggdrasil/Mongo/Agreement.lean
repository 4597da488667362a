import Yggdrasil.Mongo.Leaving

/-! The replica set and the database agree over the life of a cluster. -/

namespace Yggdrasil.Mongo

open Effect Effect.Process History Python

variable {port : ℕ} {host : String → String} {cluster : String}

/-- The database and the set in the life of a replica-set cluster. Requests and tasks follow one
another; each may be answered anything and stop anywhere, as long as step-downs are reported. -/
inductive Life (port : ℕ) (host : String → String) (cluster : String) :
    Database → List String → Prop
  | start {db : Database} (hdb : Reachable db) (hset : isSharded (db.live cluster) = false) :
      Life port host cluster db []
  | create {db : Database} {members : List String} {conf : MongoConf} {fuel : ℕ}
      {o : Outcome Error Unit} {s : Replicated} (h : Life port host cluster db members)
      (hport : conf.mongodbPort = port)
      (hr : Exec (setWorld port host) (createCluster conf fuel cluster) ⟨⟨db, []⟩, members⟩ o s) :
      Life port host cluster s.run.db s.members
  | request {db : Database} {members : List String} {self : MongoDbCluster} {nodes : List Node}
      {imageId : Option String} {o : Outcome Error Unit} {s : Replicated}
      (h : Life port host cluster db members) (hself : self.id = cluster)
      (hr : Exec (setWorld port host) (grow self nodes imageId) ⟨⟨db, []⟩, members⟩ o s) :
      Life port host cluster s.run.db s.members
  | grow {db : Database} {members : List String} {self : MongoDbCluster} {nodes : List Node}
      {imageId : Option String} {o o' : Outcome Error Unit} {s s' : Replicated}
      {ids : List String} {r : Except Error Unit} {conf : MongoConf} {fuel : ℕ}
      (h : Life port host cluster db members) (hself : self.id = cluster)
      (hr : Exec (setWorld port host) (grow self nodes imageId) ⟨⟨db, []⟩, members⟩ o s)
      (hcast : (⟨.castGrowCluster cluster ids, r⟩ : Event) ∈ s.run.log)
      (hport : conf.mongodbPort = port)
      (htask : Exec (setWorld port host) (growCluster conf fuel cluster ids)
        ⟨⟨s.run.db, []⟩, s.members⟩ o' s') : Life port host cluster s'.run.db s'.members
  | shrink {db : Database} {members : List String} {self : MongoDbCluster} {fuel : ℕ}
      {removalIds : List String} {o : Outcome Error Unit} {s : Replicated}
      (h : Life port host cluster db members) (hself : self.id = cluster)
      (hport : self.conf.mongodbPort = port)
      (hr : Exec (setWorld port host) (shrink fuel self removalIds) ⟨⟨db, []⟩, members⟩ o s)
      (hreported : StepDownsReported s.run.log) : Life port host cluster s.run.db s.members
  | elsewhere {db db' : Database} {members : List String} (h : Life port host cluster db members)
      (hdb : Reachable db') (hlive : db'.live cluster = db.live cluster) :
      Life port host cluster db' members

/-- The database and the set in a life in which everything succeeds: tasks are reset, and a
request to shrink returns. -/
inductive Smooth (port : ℕ) (host : String → String) (cluster : String) :
    Database → List String → Prop
  | created {db : Database} {conf : MongoConf} {fuel : ℕ} {o : Outcome Error Unit}
      {s : Replicated} {r : Except Error Unit} (hdb : Reachable db)
      (hset : isSharded (db.live cluster) = false)
      (hdistinct : DistinctHosts host (db.live cluster)) (hport : conf.mongodbPort = port)
      (hr : Exec (setWorld port host) (createCluster conf fuel cluster) ⟨⟨db, []⟩, []⟩ o s)
      (hreset : (⟨.resetTask cluster, r⟩ : Event) ∈ s.run.log) :
      Smooth port host cluster s.run.db s.members
  | grown {db : Database} {members : List String} {self : MongoDbCluster} {nodes : List Node}
      {imageId : Option String} {o o' : Outcome Error Unit} {s s' : Replicated}
      {ids : List String} {r r' : Except Error Unit} {conf : MongoConf} {fuel : ℕ}
      (h : Smooth port host cluster db members) (hself : self.id = cluster)
      (hr : Exec (setWorld port host) (grow self nodes imageId) ⟨⟨db, []⟩, members⟩ o s)
      (hcast : (⟨.castGrowCluster cluster ids, r⟩ : Event) ∈ s.run.log)
      (hport : conf.mongodbPort = port)
      (htask : Exec (setWorld port host) (growCluster conf fuel cluster ids)
        ⟨⟨s.run.db, []⟩, s.members⟩ o' s')
      (hreset : (⟨.resetTask cluster, r'⟩ : Event) ∈ s'.run.log) :
      Smooth port host cluster s'.run.db s'.members
  | shrunk {db : Database} {members : List String} {self : MongoDbCluster} {fuel : ℕ}
      {removalIds : List String} {s : Replicated} (h : Smooth port host cluster db members)
      (hself : self.id = cluster) (hport : self.conf.mongodbPort = port)
      (hr : Exec (setWorld port host) (shrink fuel self removalIds) ⟨⟨db, []⟩, members⟩
        (.value ()) s) (hreported : StepDownsReported s.run.log) :
      Smooth port host cluster s.run.db s.members
  | elsewhere {db db' : Database} {members : List String}
      (h : Smooth port host cluster db members) (hdb : Reachable db')
      (hlive : db'.live cluster = db.live cluster) : Smooth port host cluster db' members

theorem Sound.elsewhere {db db' : Database} {members : List String}
    (h : Sound host cluster db members) (hdb : Reachable db')
    (hlive : db'.live cluster = db.live cluster) : Sound host cluster db' members :=
  ⟨hdb, by rw [hlive]; exact h.unsharded, by rw [hlive]; exact h.subset⟩

/-- The task of a grow is told of instances that the cluster has. -/
theorem GrownSet.told {db : Database} {start : List String} {s : Replicated}
    (h : GrownSet host cluster db start s) {ids : List String} {r : Except Error Unit}
    (hcast : (⟨.castGrowCluster cluster ids, r⟩ : Event) ∈ s.run.log) :
    ids ⊆ (s.run.db.live cluster).map Instance.id := by
  obtain ⟨created, hlive, hids⟩ := h.news ids r hcast
  rw [hlive, List.map_append, hids]
  exact List.subset_append_right _ _

theorem Life.sound {db : Database} {members : List String}
    (h : Life port host cluster db members) : Sound host cluster db members := by
  induction h with
  | start hdb hset => exact ⟨hdb, hset, List.nil_subset _⟩
  | create _ hport hr ih =>
    subst hport
    exact ih.tasked (tasked_create ih hr) hr
  | request _ hself hr ih =>
    subst hself
    exact (grownSet_of_grow ih hr).sound
  | grow _ hself hr hcast hport htask ih =>
    subst hself hport
    have hgrown := grownSet_of_grow ih hr
    exact hgrown.sound.tasked (tasked_grow hgrown.sound (hgrown.told hcast) htask) htask
  | shrink _ hself hport hr hreported ih =>
    subst hself hport
    exact ih.shrink hr hreported
  | elsewhere _ hdb hlive ih => exact ih.elsewhere hdb hlive

/-- The set has all the instances, and tells them apart. -/
structure Whole (host : String → String) (cluster : String) (db : Database)
    (members : List String) : Prop where
  sound : Sound host cluster db members
  whole : hostsOf host (db.live cluster) ⊆ members
  distinct : DistinctHosts host (db.live cluster)

theorem Smooth.whole {db : Database} {members : List String}
    (h : Smooth port host cluster db members) : Whole host cluster db members := by
  induction h with
  | created hdb hset hdistinct hport hr hreset =>
    subst hport
    have hstart : Sound host cluster _ [] := ⟨hdb, hset, List.nil_subset _⟩
    exact ⟨hstart.tasked (tasked_create hstart hr) hr, whole_of_created hstart hr hreset,
      distinct_exec hdistinct hr⟩
  | grown _ hself hr hcast hport htask hreset ih =>
    subst hself hport
    have hgrown := grownSet_of_grow ih.sound hr
    have hids := hgrown.told hcast
    have htasked := tasked_grow hgrown.sound hids htask
    obtain ⟨hkept, hnews⟩ := whole_of_grown hgrown.sound hids htask hreset
    have hdistinct := distinct_exec (s := ⟨⟨_, []⟩, _⟩) ih.distinct hr
    refine ⟨hgrown.sound.tasked htasked htask, ?_, distinct_exec (s := ⟨⟨_, []⟩, _⟩) hdistinct
      htask⟩
    rw [htasked.live]
    obtain ⟨created, hlive, rfl⟩ := hgrown.news _ _ hcast
    rw [hlive, hostsOf, List.map_append]
    apply List.append_subset.2
    constructor
    · exact fun x hx => hkept ((hgrown.same x).2 (ih.whole hx))
    · rwa [List.map_map] at hnews
  | shrunk _ hself hport hr hreported ih =>
    subst hself hport
    exact ⟨ih.sound.shrink hr hreported, whole_of_shrunk ih.sound ih.whole ih.distinct hr,
      distinct_exec ih.distinct hr⟩
  | elsewhere _ hdb hlive ih =>
    exact ⟨ih.sound.elsewhere hdb hlive, by rw [hlive]; exact ih.whole,
      by rw [hlive]; exact ih.distinct⟩

/-- In the life of a replica-set cluster, whatever fails and wherever it stops, every member of
the set is the host of an instance of the cluster; and as long as everything succeeds, every
instance of the cluster is a member. -/
theorem set_of_life (port : ℕ) (host : String → String) (cluster : String) (db : Database)
    (members : List String) :
    (Life port host cluster db members → ∀ h ∈ members, h ∈ hostsOf host (db.live cluster)) ∧
    (Smooth port host cluster db members →
      ∀ h, h ∈ members ↔ h ∈ hostsOf host (db.live cluster)) :=
  ⟨fun h _ hm => h.sound.subset hm,
    fun h _ => ⟨fun hm => h.whole.sound.subset hm, fun hm => h.whole.whole hm⟩⟩

section Example

/-- The status of a set whose members are all secondary. -/
private def statusOf (members : List String) : Value :=
  .record [("members", .list (members.map fun name =>
    .record [("name", .str name), ("state", .int 2)]))]

private theorem allReady_statusOf (members addresses : List String) :
    allReady (statusOf members) addresses = addresses.all fun address => address ∈ members := by
  have hmembers : statusMembers (statusOf members) = some (members.map fun name =>
      .record [("name", .str name), ("state", .int 2)]) := rfl
  have hname (name : String) : readyName (.record [("name", .str name), ("state", .int 2)]) =
      some (some (.str name)) := by
    simp [readyName, Mapping.get, Dict.get?, isOne, isTwo, hashable]
  have hnames (l : List String) : (l.map fun name =>
      Value.record [("name", .str name), ("state", .int 2)]).mapM readyName =
        some (l.map fun name => some (.str name)) := by
    induction l with
    | nil => rfl
    | cons name l ih =>
      rw [List.map_cons, List.mapM_cons, hname, ih]
      rfl
  unfold allReady
  rw [hmembers, Option.bind_some, hnames]
  dsimp only
  congr 1
  funext address
  rw [List.any_map, Bool.eq_iff_iff, List.any_eq_true, decide_eq_true_eq]
  simp

private def hostAt (id : String) : String := id ++ ":" ++ toString 27017

private theorem hostAt_injective {a b : String} (h : hostAt a = hostAt b) : a = b := by
  have hlist := congrArg String.toList h
  simp only [hostAt, String.toList_append, List.append_assoc] at hlist
  exact String.toList_injective (List.append_cancel_right hlist)

/-- A Trove in which nothing fails, and whose guests report these members. -/
private def trove (members : List String) : Surroundings where
  replicaSetStatus := fun _ => statusOf members

/-- The members after a call that does all of its work. -/
private def membersAfter (members : List String) : Call → List String
  | .initializeReplicaSet _ hosts => members ++ hosts
  | .mongosh _ _ (.add hosts) => members ++ hosts
  | .mongosh _ _ (.remove hosts) => members.filter fun h => h ∉ hosts
  | _ => members

/-- The replica set beside it. -/
private def besideTrove (s : Replicated) (c : Call) : Except Error c.Answer × Replicated :=
  (((trove s.members).respond s.run c).1,
    ⟨((trove s.members).respond s.run c).2, membersAfter s.members c⟩)

private theorem setWorld_besideTrove (s : Replicated) (c : Call) :
    setWorld 27017 hostAt s c (besideTrove s c).1 (besideTrove s c).2 := by
  refine ⟨Surroundings.world_respond (trove s.members) s.run c, ?_⟩
  have hsame : membersAfter s.members c = s.members → Told 27017 hostAt s c (besideTrove s c).1
      s.members → SetStep 27017 hostAt s c (besideTrove s c).1 (membersAfter s.members c) :=
    fun hm htold => by
      rw [hm]
      exact ⟨fun _ h => .inl h, fun _ h _ => h, htold⟩
  cases c with
  | createInstance new =>
    have htold (r : Except Error String)
        (hname : freshName (s.run.db.instances.map Instance.id) s.run "instance" = r) :
        Told 27017 hostAt s (.createInstance new) r s.members := by
      cases r with
      | error x => trivial
      | ok id =>
        intro i hi _ heq
        exact freshName_eq_ok hname (List.mem_map.2 ⟨i, hi, hostAt_injective heq⟩)
    exact hsame rfl (htold _ rfl)
  | visibleAddresses id =>
    refine hsame rfl fun a ha => ?_
    cases ha
    rfl
  | replicaSetStatus guest =>
    refine hsame rfl fun name hname => ?_
    have hmem : allReady (statusOf s.members) [name] = true := hname
    rw [allReady_statusOf] at hmem
    simpa using hmem
  | initializeReplicaSet guest hosts =>
    exact ⟨fun _ => List.mem_append.1, fun _ h _ => List.mem_append_left _ h, trivial⟩
  | mongosh guest server script =>
    cases script with
    | add hosts =>
      exact ⟨fun _ => List.mem_append.1, fun _ h _ => List.mem_append_left _ h, trivial⟩
    | remove hosts =>
      refine ⟨fun _ h => .inl (List.mem_of_mem_filter h), fun h hh hl => ?_, fun h hh hmem => ?_⟩
      · exact List.mem_filter.2 ⟨hh, decide_eq_true hl⟩
      · exact of_decide_eq_true (List.mem_filter.1 hmem).2 hh
    | _ => exact hsame rfl trivial
  | _ => exact hsame rfl trivial

private def play {α : Type} (p : Action α) (db : Database) (members : List String) :
    Outcome Error α × Replicated :=
  p.play besideTrove ⟨⟨db, []⟩, members⟩

private theorem exec_besideTrove {α : Type} (p : Action α) (db : Database)
    (members : List String) : Exec (setWorld 27017 hostAt) p ⟨⟨db, []⟩, members⟩
      (play p db members).1 (play p db members).2 :=
  exec_play setWorld_besideTrove p _

/-- The state after some answered calls that change nothing. -/
private def Replicated.heard (s : Replicated) (events : List Event) : Replicated :=
  ⟨⟨s.run.db, s.run.log ++ events⟩, s.members⟩

/-- Waiting for members that the set has ends at once. -/
private theorem play_waitLoop (guest : String) (addresses : List String) (deadline : ℤ)
    (s : Replicated) (hready : ∀ a ∈ addresses, a ∈ s.members)
    (htime : (s.run.log.length : ℤ) < deadline) :
    ∃ events, (waitLoop guest addresses deadline 1).play besideTrove s =
      (.value (), s.heard events) := by
  have hall : allReady (statusOf s.members) addresses = true := by
    rw [allReady_statusOf, List.all_eq_true]
    simpa using hready
  have hasked : (exceptException (do
        let status : Value ← ask (.replicaSetStatus guest)
        pure (allReady status addresses)) fun _ => pure false : Action Bool).play besideTrove
          (s.heard [⟨.clock, .ok (s.run.log.length : ℤ)⟩]) =
      (.value true, (s.heard [⟨.clock, .ok (s.run.log.length : ℤ)⟩]).heard
        [⟨.replicaSetStatus guest, .ok (statusOf s.members)⟩]) := by
    rw [← hall]
    rfl
  refine ⟨[⟨.clock, .ok (s.run.log.length : ℤ)⟩,
    ⟨.replicaSetStatus guest, .ok (statusOf s.members)⟩], ?_⟩
  unfold waitLoop
  refine (play_bind_value (b := (s.run.log.length : ℤ))
    (u := s.heard [⟨.clock, .ok (s.run.log.length : ℤ)⟩]) rfl).trans ?_
  rw [if_pos htime, play_bind_value hasked, if_pos rfl]
  simp [Replicated.heard, Process.play]

private theorem play_wait (guest : String) (addresses : List String) (s : Replicated)
    (hready : ∀ a ∈ addresses, a ∈ s.members) :
    ∃ events, (waitForReplicaMembers idleCluster.conf 1 guest addresses).play besideTrove s =
      (.value (), s.heard events) := by
  obtain ⟨events, hloop⟩ := play_waitLoop guest addresses
    (s.run.log.length + 600) (s.heard [⟨.clock, .ok (s.run.log.length : ℤ)⟩]) hready (by simp [Replicated.heard])
  refine ⟨⟨.clock, .ok (s.run.log.length : ℤ)⟩ :: events, ?_⟩
  unfold waitForReplicaMembers
  refine (play_bind_value (b := (s.run.log.length : ℤ))
    (u := s.heard [⟨.clock, .ok (s.run.log.length : ℤ)⟩]) rfl).trans ?_
  exact hloop.trans (by simp [Replicated.heard])

private def pair : List Instance :=
  [⟨"i1", some "c1", "small", some 10, replicaSetConfig "c1", false⟩,
    ⟨"i2", some "c1", "small", some 10, replicaSetConfig "c1", false⟩]

/-- The set is initiated, and the task waits for it. -/
private def initiated : Replicated :=
  ⟨⟨twoMembers, [⟨.findInstances "c1", .ok pair⟩, ⟨.allInstancesReady ["i1", "i2"] "c1", .ok true⟩,
    ⟨.loadInstance "i1", .ok pair[0]⟩, ⟨.loadInstance "i2", .ok pair[1]⟩,
    ⟨.visibleAddresses "i1", .ok ["i1"]⟩, ⟨.visibleAddresses "i2", .ok ["i2"]⟩,
    ⟨.initializeReplicaSet "i1" ["i1:27017", "i2:27017"], .ok ()⟩]⟩, ["i1:27017", "i2:27017"]⟩

private theorem play_complete (s : Replicated) (i j : Instance) :
    (complete [i, j]).play besideTrove s = (.value (),
      s.heard [⟨.clusterComplete i.id, .ok ()⟩, ⟨.clusterComplete j.id, .ok ()⟩]) := by
  refine (play_bind_value (u := s.heard [⟨.clusterComplete i.id, .ok ()⟩]) rfl).trans ?_
  refine (play_bind_value (u := (s.heard [⟨.clusterComplete i.id, .ok ()⟩]).heard
    [⟨.clusterComplete j.id, .ok ()⟩]) rfl).trans ?_
  simp only [Replicated.heard, List.append_assoc, List.singleton_append]
  rfl

private theorem play_created : ∃ waited,
    (createCluster idleCluster.conf 1 "c1").play besideTrove ⟨⟨twoMembers, []⟩, []⟩ =
      (.value (), ⟨⟨twoMembers, waited ++ [⟨.resetTask "c1", .ok ()⟩]⟩, initiated.members⟩) := by
  obtain ⟨waited, hwait⟩ := play_wait "i1" initiated.members initiated (by decide)
  have htopology : (createTopology idleCluster.conf 1 pair).play besideTrove
      ⟨⟨twoMembers, initiated.run.log.take 4⟩, []⟩ = (.value (), initiated.heard waited) := by
    refine (play_bind_value (b := initiated.members) (u := initiated.heard waited) ?_).trans rfl
    refine (play_bind_value (b := initiated.members)
      (u := ⟨⟨twoMembers, initiated.run.log.take 6⟩, []⟩) rfl).trans ?_
    refine (play_bind_value (b := ()) (u := initiated) rfl).trans ?_
    exact (play_bind_value hwait).trans rfl
  have hoperation : ∃ told, (createOperation idleCluster.conf 1 "c1").play besideTrove
      ⟨⟨twoMembers, []⟩, []⟩ = (.value none, initiated.heard told) := by
    refine ⟨waited ++ [⟨.clusterComplete "i1", .ok ()⟩, ⟨.clusterComplete "i2", .ok ()⟩], ?_⟩
    refine (play_bind_value (b := pair)
      (u := ⟨⟨twoMembers, initiated.run.log.take 1⟩, []⟩) rfl).trans ?_
    refine (play_bind_value (b := true)
      (u := ⟨⟨twoMembers, initiated.run.log.take 2⟩, []⟩) rfl).trans ?_
    refine (play_bind_value (b := pair)
      (u := ⟨⟨twoMembers, initiated.run.log.take 4⟩, []⟩) rfl).trans ?_
    refine (play_bind_value htopology).trans ((play_bind_value (play_complete _ _ _)).trans ?_)
    simp [Replicated.heard, Process.play]
  obtain ⟨told, hoperation⟩ := hoperation
  refine ⟨initiated.run.log ++ told, play_handle_value ((play_bind_value hoperation).trans ?_)⟩
  rfl

private def node : Node := ⟨"small", some 10, .none, none, none, none, none, none, none, none⟩

/-- A third member is requested. -/
private def requested : Replicated :=
  (play (grow idleCluster [node] none) twoMembers initiated.members).2

private def thirdMember : Instance :=
  ⟨"instance8", some "c1", "small", some 10, replicaSetConfig "c1", false⟩

private theorem cast_requested :
    (⟨.castGrowCluster "c1" ["instance8"], .ok ()⟩ : Event) ∈ requested.run.log :=
  List.mem_of_getElem? (i := 9) rfl

/-- The set is told of the new member, and the task waits for it. -/
private def extended : Replicated :=
  ⟨⟨requested.run.db, [⟨.allInstancesReady ["instance8"] "c1", .ok true⟩,
    ⟨.findInstances "c1", .ok (pair ++ [thirdMember])⟩, ⟨.loadInstance "i1", .ok pair[0]⟩,
    ⟨.loadInstance "i2", .ok pair[1]⟩, ⟨.loadInstance "instance8", .ok thirdMember⟩,
    ⟨.visibleAddresses "instance8", .ok ["instance8"]⟩, ⟨.loadInstance "i1", .ok pair[0]⟩,
    ⟨.rpc "i1", .ok ()⟩, ⟨.mongosh "i1" localHost (.add ["instance8:27017"]), .ok (.text "")⟩,
    ⟨.reply "i1", .ok ()⟩]⟩, initiated.members ++ ["instance8:27017"]⟩

private theorem play_grown : ∃ waited,
    (growCluster idleCluster.conf 1 "c1" ["instance8"]).play besideTrove
        ⟨⟨requested.run.db, []⟩, initiated.members⟩ =
      (.value (), ⟨⟨requested.run.db.setStatus "c1" .none,
        waited ++ [⟨.resetTask "c1", .ok ()⟩]⟩, extended.members⟩) := by
  obtain ⟨waited, hwait⟩ := play_wait "i1" ["instance8:27017"] extended (by decide)
  have htopology : (growTopology idleCluster.conf 1 pair [thirdMember]).play besideTrove
      ⟨⟨requested.run.db, extended.run.log.take 5⟩, initiated.members⟩ =
        (.value (), extended.heard waited) := by
    refine (play_bind_value (b := ["instance8:27017"])
      (u := ⟨⟨requested.run.db, extended.run.log.take 6⟩, initiated.members⟩) rfl).trans ?_
    refine (play_bind_value (b := pair[0])
      (u := ⟨⟨requested.run.db, extended.run.log.take 7⟩, initiated.members⟩) rfl).trans ?_
    exact (play_bind_value (b := ()) (u := extended) rfl).trans hwait
  have hoperation : ∃ told, (growOperation idleCluster.conf 1 "c1" ["instance8"]).play besideTrove
      ⟨⟨requested.run.db, []⟩, initiated.members⟩ = (.value none, extended.heard told) := by
    refine ⟨waited ++ [⟨.clusterComplete "instance8", .ok ()⟩], ?_⟩
    refine (play_bind_value (b := true)
      (u := ⟨⟨requested.run.db, extended.run.log.take 1⟩, initiated.members⟩) rfl).trans ?_
    refine (play_bind_value (b := pair ++ [thirdMember])
      (u := ⟨⟨requested.run.db, extended.run.log.take 2⟩, initiated.members⟩) rfl).trans ?_
    refine (play_bind_value (b := pair)
      (u := ⟨⟨requested.run.db, extended.run.log.take 4⟩, initiated.members⟩) rfl).trans ?_
    refine (play_bind_value (b := [thirdMember])
      (u := ⟨⟨requested.run.db, extended.run.log.take 5⟩, initiated.members⟩) rfl).trans ?_
    refine (play_bind_value htopology).trans ((play_bind_value (b := ())
      (u := (extended.heard waited).heard [⟨.clusterComplete "instance8", .ok ()⟩]) rfl).trans ?_)
    simp [Replicated.heard, Process.play]
  obtain ⟨told, hoperation⟩ := hoperation
  refine ⟨extended.run.log ++ told, play_handle_value ((play_bind_value hoperation).trans ?_)⟩
  rfl

private theorem reachable_twoMembers : Reachable twoMembers := by
  have hcluster : Reachable ⟨[⟨"c1", "db", none, .none⟩], []⟩ :=
    .step .empty (c := .createCluster ⟨"db", "p1", "8.0", none, .none⟩) (a := "c1")
      ⟨by simp, rfl⟩
  have hmember {db : Database} (h : Reachable db) (id : String)
      (hid : ∀ i ∈ db.instances, i.id ≠ id) : Reachable ⟨db.clusters, db.instances ++
        [⟨id, some "c1", "small", some 10, replicaSetConfig "c1", false⟩]⟩ :=
    .step h (c := .createInstance ⟨id, "small", none, some 10, none, none, none,
      replicaSetConfig "c1", .none, none, none, none⟩) (a := id) ⟨hid, rfl⟩
  exact hmember (hmember hcluster "i1" (by simp)) "i2" (by simp)

private theorem smooth_grown :
    Smooth 27017 hostAt "c1" (requested.run.db.setStatus "c1" .none) extended.members := by
  obtain ⟨told, hcreated⟩ := play_created
  obtain ⟨waited, hgrown⟩ := play_grown
  have hcreate := exec_play setWorld_besideTrove (createCluster idleCluster.conf 1 "c1")
    ⟨⟨twoMembers, []⟩, []⟩
  have hgrow := exec_play setWorld_besideTrove (growCluster idleCluster.conf 1 "c1" ["instance8"])
    ⟨⟨requested.run.db, []⟩, initiated.members⟩
  rw [hcreated] at hcreate
  rw [hgrown] at hgrow
  have hport : idleCluster.conf.mongodbPort = 27017 := rfl
  have hset := Smooth.created reachable_twoMembers rfl (fun _ _ _ _ h => hostAt_injective h)
    hport hcreate (List.mem_append_right _ (List.mem_singleton_self _))
  exact .grown hset rfl (exec_besideTrove (grow idleCluster [node] none) twoMembers
    initiated.members) cast_requested hport hgrow
      (List.mem_append_right _ (List.mem_singleton_self _))

/-- A replica set of two members is created and grown by a third. -/
theorem set_of_life_grown : ∀ h, h ∈ ["i1:27017", "i2:27017", "instance8:27017"] ↔
    h ∈ hostsOf hostAt ((requested.run.db.setStatus "c1" .none).live "c1") :=
  (set_of_life 27017 hostAt "c1" _ _).2 smooth_grown

end Example

end Yggdrasil.Mongo
