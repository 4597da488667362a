import Yggdrasil.Mongo.Joining

/-! Members that leave: the request to shrink takes a host out of the set before its instance. -/

namespace Yggdrasil.Mongo

open Effect Effect.Process History Python

variable {port : ℕ} {host : String → String} {cluster : String}

/-- The instances that a request to shrink removes, if it is accepted. -/
def removalOf (instances : List Instance) (removalIds : List String) : List Instance :=
  match planShrink instances removalIds with
  | .ok requested => instances.filter fun i => i.id ∈ requested
  | .error _ => []

/-- The calls of a request that takes no other hosts out of the set, and brings none in. -/
def ShrinkCall (hosts : List String) (c : Call) : Prop :=
  c.joins = [] ∧ c.quiet = true ∧ c.leaves ⊆ hosts

theorem shrinkCall_of_watches {hosts : List String} {c : Call} (h : c.watches = true) :
    ShrinkCall hosts c := by
  cases c <;> simp_all [Call.watches, ShrinkCall, Call.quiet, Call.joins, Call.leaves]

section Shrink

variable {S : Type} {W : World S Call Call.Answer Error} {R : S → Prop} {hosts removed : List String}

theorem respects_remove (hremoved : removed ⊆ hosts) (guest : String) :
    Respects W R (ShrinkCall hosts) (removeReplicaMembers guest removed) := by
  apply respects_bind
  · refine respects_bind (respects_ask ⟨rfl, rfl, List.nil_subset _⟩) fun output => ?_
    split <;> trivial
  · intro hello
    refine respects_ite (fun _ => ?_) fun _ => trivial
    refine respects_bind (respects_ask ?_) fun output => ?_
    · split_ifs
      · exact ⟨rfl, rfl, List.nil_subset _⟩
      · exact ⟨rfl, rfl, hremoved⟩
    · cases output <;> trivial

theorem respects_removeMembers_hosts (hremoved : removed ⊆ hosts) (candidates : List Instance)
    (deadline : ℤ) (fuel : ℕ) :
    Respects W R (ShrinkCall hosts) (removeMembers removed candidates deadline fuel) := by
  have hwatches : ∀ c : Call, c.watches = true → ShrinkCall hosts c :=
    fun _ => shrinkCall_of_watches
  have htry : Respects W R (ShrinkCall hosts) (tryCandidates removed candidates) := by
    induction candidates with
    | nil => trivial
    | cons candidate rest ih =>
      refine respects_bind (respects_exceptException ?_ fun _ => trivial) fun _ =>
        respects_ite (fun _ => trivial) fun _ => ih
      refine respects_bind ?_ fun _ => trivial
      refine respects_bind (respects_ask (hwatches _ rfl)) fun _ => ?_
      exact respects_bind (respects_remove hremoved _) fun _ =>
        respects_bind (respects_ask (hwatches _ rfl)) fun _ => trivial
  induction fuel with
  | zero => trivial
  | succ fuel ih =>
    refine respects_bind (respects_ask (hwatches _ rfl)) fun now =>
      respects_ite (fun _ => ?_) fun _ => trivial
    refine respects_bind htry fun removed => respects_ite (fun _ => trivial) fun _ => ?_
    exact respects_bind (respects_ask (hwatches _ rfl)) fun _ => ih

end Shrink

section Removal

variable {hosts : List String} {R : Replicated → Prop}

theorem yields_ids (l : List Instance) :
    Yields (setWorld port host) R (fun rows => rows.map Instance.id = l.map Instance.id)
      (collect loadInstance l) := by
  have hload : ∀ i ∈ l, Yields (setWorld port host) R (fun row => row.id = i.id)
      (loadInstance i) := by
    intro i _
    apply yields_perform
    rintro s (row : Instance) s' _ ⟨⟨⟨-, hid, -⟩, -⟩, -⟩
    exact hid
  exact yields_map hload

theorem yields_memberHosts (conf : MongoConf) (l : List Instance) :
    Yields (setWorld conf.mongodbPort host) R (fun addresses => addresses = hostsOf host l)
      (collect (fun i => memberAddress conf i.id) l) :=
  yields_hostsOf fun i _ => yields_host i.id (fun _ _ => rfl) rfl

/-- The part of a shrink after its plan takes only the hosts of the removed instances out. -/
theorem respects_removal (conf : MongoConf) (fuel : ℕ) (instances : List Instance)
    (requested : List String) :
    Respects (setWorld conf.mongodbPort host) R
      (ShrinkCall (hostsOf host (instances.filter fun i => i.id ∈ requested))) (do
        let remaining ← collect loadInstance (instances.filter fun i => i.id ∉ requested)
        let removal ← collect loadInstance (instances.filter fun i => i.id ∈ requested)
        let addresses ← collect (fun i => memberAddress conf i.id) removal
        let now : ℤ ← ask .clock
        removeMembers addresses (remaining ++ removal) (now + conf.addMembersTimeout) fuel
        forEach removal fun i => ask (.detach i.id)
        forEach removal fun i => ask (.delete i.id)) := by
  have hwatches : ∀ c : Call, c.watches = true →
      ShrinkCall (hostsOf host (instances.filter fun i => i.id ∈ requested)) c :=
    fun _ => shrinkCall_of_watches
  apply respects_bind ((respects_load _).mono hwatches)
  intro remaining
  apply respects_bind_of_yields ((respects_load _).mono hwatches) (yields_ids _)
  intro removal hids
  apply respects_bind_of_yields (respects_collect fun i _ => ?_) (yields_memberHosts conf removal)
  · rintro _ rfl
    have hhosts : hostsOf host removal =
        hostsOf host (instances.filter fun i => i.id ∈ requested) := by
      have hmap := congrArg (List.map host) hids
      rwa [List.map_map, List.map_map] at hmap
    refine respects_bind (respects_ask (hwatches _ rfl)) fun now => ?_
    apply respects_bind (respects_removeMembers_hosts (by rw [hhosts]; exact List.Subset.refl _)
      _ _ _)
    intro _
    apply respects_bind (respects_forEach fun i _ => respects_ask ⟨rfl, rfl, List.nil_subset _⟩)
    exact fun _ => respects_forEach fun i _ => respects_ask ⟨rfl, rfl, List.nil_subset _⟩
  · refine respects_bind (respects_ask (hwatches _ rfl)) fun addresses => ?_
    cases addresses <;> trivial

end Removal


section ShrinkRun

variable {self : MongoDbCluster} {fuel : ℕ} {removalIds : List String} {db : Database}
  {start : List String} {s : Replicated} {o : Outcome Error Unit}

theorem triple_shrink {I : Replicated → Prop} {Post : Unit → Replicated → Prop}
    (hset : isSharded (db.live self.id) = false) (hstart : I ⟨⟨db, []⟩, start⟩)
    (hfind : ∀ r members, I ⟨⟨db, [⟨.findInstances self.id, r⟩]⟩, members⟩)
    (hp : Triple (setWorld port host) I
      (fun s => s.run = ⟨db, [⟨.findInstances self.id, .ok (db.live self.id)⟩]⟩)
      (shrinkReplicaSet fuel self removalIds) Post fun _ _ => True) :
    Triple (setWorld port host) I (fun s => s = ⟨⟨db, []⟩, start⟩)
      (Mongo.shrink fuel self removalIds) Post fun _ _ => True :=
  triple_unsharded (p := fun _ => shrinkReplicaSet fuel self removalIds)
    (q := fun _ => shrinkSharded fuel self removalIds) hset hstart hfind hp

theorem triple_shrinkReplicaSet_calls :
    Triple (setWorld self.conf.mongodbPort host)
      (Calls (ShrinkCall (hostsOf host (removalOf (db.live self.id) removalIds))))
      (fun s => s.run.db = db ∧
        Calls (ShrinkCall (hostsOf host (removalOf (db.live self.id) removalIds))) s)
      (shrinkReplicaSet fuel self removalIds) (fun _ _ => True) fun _ _ => True := by
  have hfind : ShrinkCall (hostsOf host (removalOf (db.live self.id) removalIds))
      (.findInstances self.id) := shrinkCall_of_watches rfl
  have hwrite (status : TaskStatus) :
      ShrinkCall (hostsOf host (removalOf (db.live self.id) removalIds))
        (.updateDb self.id status) := ⟨rfl, rfl, List.nil_subset _⟩
  unfold shrinkReplicaSet
  apply triple_bind (M := fun _ s => s.run.db = db ∧
    Calls (ShrinkCall (hostsOf host (removalOf (db.live self.id) removalIds))) s)
  · exact triple_ite (fun _ => triple_raise (fun _ h => h.2) fun _ _ => trivial)
      fun _ => triple_ret (fun _ h => h.2) fun _ h => h
  intro _
  apply triple_bind (M := fun (rows : List Instance) s => rows = db.live self.id ∧
    Calls (ShrinkCall (hostsOf host (removalOf (db.live self.id) removalIds))) s)
  · apply triple_perform
    · exact fun s h => h.2
    · rintro s rows s' ⟨hdb, hs⟩ hw
      have hstep := hs.step hfind hw
      exact ⟨⟨by rw [hw.1.1.1, hdb], hstep⟩, hstep⟩
    · exact fun s x s' h hw => ⟨trivial, h.2.step hfind hw⟩
  intro rows
  apply triple_intro
  rintro s₀ ⟨rfl, hs₀⟩
  cases hplan : planShrink (db.live self.id) removalIds with
  | error x => exact triple_raise (fun _ he => he ▸ hs₀) fun _ _ => trivial
  | ok requested =>
    have hremoval : removalOf (db.live self.id) removalIds =
        (db.live self.id).filter fun i => i.id ∈ requested := by
      rw [removalOf, hplan]
    rw [hremoval] at hwrite hs₀ ⊢
    apply (triple_calls ?_).consequence (fun _ he => he ▸ hs₀) (fun _ _ _ => trivial)
      fun _ _ h => h
    apply respects_bind_of_yields (respects_ofExcept _)
      (yields_ofExcept fun _ h => (Except.ok.inj h).symm)
    rintro _ rfl
    refine respects_bind (respects_ask (hwrite _)) fun _ => ?_
    exact respects_ensure (respects_removal self.conf fuel _ _) (respects_ask (hwrite _))

theorem calls_of_shrink (hset : isSharded (db.live self.id) = false)
    (hr : Exec (setWorld self.conf.mongodbPort host) (shrink fuel self removalIds)
      ⟨⟨db, []⟩, start⟩ o s) :
    Calls (ShrinkCall (hostsOf host (removalOf (db.live self.id) removalIds))) s := by
  have hfind (r : Except Error (List Instance)) (members : List String) :
      Calls (ShrinkCall (hostsOf host (removalOf (db.live self.id) removalIds)))
        ⟨⟨db, [⟨.findInstances self.id, r⟩]⟩, members⟩ :=
    List.forall_mem_singleton.2 (shrinkCall_of_watches rfl)
  have hrest : Triple (setWorld self.conf.mongodbPort host)
      (Calls (ShrinkCall (hostsOf host (removalOf (db.live self.id) removalIds))))
      (fun s => s.run = ⟨db, [⟨.findInstances self.id, .ok (db.live self.id)⟩]⟩)
      (shrinkReplicaSet fuel self removalIds) (fun _ _ => True) fun _ _ => True := by
    apply triple_shrinkReplicaSet_calls.consequence ?_ (fun _ _ h => h) fun _ _ h => h
    intro s hs
    rw [Calls, hs]
    exact ⟨rfl, hfind _ []⟩
  exact (triple_shrink hset (by simp [Calls]) hfind hrest).always _ rfl o s hr

theorem guarded_of_shrink (hset : isSharded (db.live self.id) = false)
    (hr : Exec (setWorld port host) (Mongo.shrink fuel self removalIds) ⟨⟨db, []⟩, start⟩ o s) :
    Guarded (RemovedFirst self.conf.mongodbPort) s.run.log := by
  have hfind (r : Except Error (List Instance)) : Guarded (RemovedFirst self.conf.mongodbPort)
      [⟨.findInstances self.id, r⟩] :=
    guarded_of_not_removes (guarded_nil (P := RemovedFirst self.conf.mongodbPort)) rfl
  have hrest : Triple (setWorld port host)
      (fun s => Guarded (RemovedFirst self.conf.mongodbPort) s.run.log)
      (fun s => s.run = ⟨db, [⟨.findInstances self.id, .ok (db.live self.id)⟩]⟩)
      (shrinkReplicaSet fuel self removalIds) (fun _ _ => True) fun _ _ => True := by
    apply (triple_withSet (triple_shrinkReplicaSet_guarded fuel self removalIds)).consequence
    · intro s (hs : s.run = _)
      rw [hs]
      exact hfind _
    · exact fun _ _ _ => trivial
    · exact fun _ _ _ => trivial
  exact (triple_shrink hset guarded_nil (fun r _ => hfind r) hrest).always _ rfl o s hr

/-- A request to shrink keeps the set sound, as long as step-downs are reported: what it takes
away it has taken out of the set before. -/
theorem Sound.shrink (h : Sound host self.id db start)
    (hr : Exec (setWorld self.conf.mongodbPort host) (Mongo.shrink fuel self removalIds)
      ⟨⟨db, []⟩, start⟩ o s) (hreported : StepDownsReported s.run.log) :
    Sound host self.id s.run.db s.members := by
  have hcalls := calls_of_shrink h.unsharded hr
  have haccounted := accounted_exec hr
  refine ⟨h.reachable.exec (exec_run hr), isSharded_of_subset h.unsharded
    (live_subset_of_quiet (exec_run hr) fun e he => (hcalls e he).2.1), fun x hx => ?_⟩
  have hstart : x ∈ start := by
    rcases haccounted.joined x hx with hx | ⟨e, he, hx⟩
    · exact hx
    · rw [(hcalls e he).1] at hx
      cases hx
  obtain ⟨i, hi, rfl⟩ := List.mem_map.1 (h.subset hstart)
  rcases live_or_removed (exec_run hr) hi with hlive | ⟨e, he, hgone⟩
  · exact List.mem_map_of_mem (f := fun i => host i.id) hlive
  · obtain ⟨pre, post, hlog⟩ := List.append_of_mem he
    have hguarded := guarded_of_shrink h.unsharded hr
    have hpre : StepDownsReported pre := fun guest server output hmem =>
      hreported guest server output (hlog ▸ List.mem_append_left _ hmem)
    have hremoves : e.1.removes = true := by rcases hgone with hgone | hgone <;> rw [hgone] <;> rfl
    obtain ⟨guest, hosts, ⟨hello, output, -, hscript, -⟩, address, haddress, hof⟩ :=
      hguarded pre e post hlog hremoves i.id hgone hpre
    have hof' : AddressOf self.conf.mongodbPort i.id address s.run.log := by
      rw [hlog]
      exact (lasting_addressOf _ _ _).append hof _
    rw [haccounted.host_eq hof'] at haddress
    exact absurd hx (haccounted.removed (fun e he => (hcalls e he).1) guest _ hosts output
      (hlog ▸ List.mem_append_left _ hscript) _ haddress)

theorem triple_shrinkReplicaSet_live :
    Triple world (fun _ => True) (fun s => s.db = db) (shrinkReplicaSet fuel self removalIds)
      (fun _ s => ∀ i ∈ s.db.live self.id,
        i ∈ db.live self.id ∧ i ∉ removalOf (db.live self.id) removalIds) fun _ _ => True := by
  unfold shrinkReplicaSet
  apply triple_bind (triple_validateClusterAvailable.consequence (fun _ h => h) (fun _ _ h => h)
    fun _ _ _ => trivial)
  intro _
  apply triple_bind (triple_findInstances.consequence (fun _ h => h) (fun _ _ h => h)
    fun _ _ _ => trivial)
  intro rows
  apply triple_bind (M := fun requested s =>
    planShrink (db.live self.id) removalIds = .ok requested ∧ rows = db.live self.id ∧ s.db = db)
  · apply triple_ofExcept (fun _ _ => trivial) ?_ fun _ _ _ _ => trivial
    rintro s requested ⟨rfl, hs⟩ hplan
    exact ⟨hplan, rfl, hs⟩
  intro requested
  apply triple_intro
  rintro s₀ ⟨hplan, rfl, hs₀⟩
  apply triple_bind (M := fun _ s => s.db = db.setStatus self.id .shrinkingCluster)
  · apply triple_ask (fun _ _ => trivial) ?_ fun _ _ _ _ => ⟨trivial, trivial⟩
    rintro s a db' rfl rfl
    rw [hs₀]
    exact ⟨rfl, trivial⟩
  intro _
  apply triple_ensure (M := fun o s => o = .value () →
    Without (db.setStatus self.id .shrinkingCluster) self.id requested s)
  · exact (triple_removal self.conf fuel (db.setStatus self.id .shrinkingCluster) self.id
      requested).consequence (fun _ h => h) (fun _ _ h _ => h) fun _ _ _ h => by cases h
  · intro _
    apply triple_ask (fun _ _ => trivial) ?_ fun _ _ _ _ => ⟨trivial, trivial⟩
    rintro s a db' h rfl
    refine ⟨fun i hi => ?_, trivial⟩
    rw [live_setStatus, (h rfl).live, live_setStatus] at hi
    obtain ⟨hi, hstays⟩ := mem_kept.1 hi
    refine ⟨hi, fun hmem => hstays ?_⟩
    rw [removalOf, hplan] at hmem
    simpa using (List.mem_filter.1 hmem).2
  · exact fun x => triple_true.consequence (fun _ h => h) (fun _ _ _ => trivial) fun _ _ h => h

theorem removalOf_subset (instances : List Instance) (removalIds : List String) :
    removalOf instances removalIds ⊆ instances := by
  unfold removalOf
  split
  · exact List.filter_subset_self _
  · exact List.nil_subset _

/-- What a shrunk cluster keeps is still in the set. -/
theorem whole_of_shrunk (h : Sound host self.id db start)
    (hwhole : hostsOf host (db.live self.id) ⊆ start)
    (hdistinct : DistinctHosts host (db.live self.id))
    (hr : Exec (setWorld self.conf.mongodbPort host) (Mongo.shrink fuel self removalIds)
      ⟨⟨db, []⟩, start⟩ (.value ()) s) : hostsOf host (s.run.db.live self.id) ⊆ s.members := by
  have hlive : ∀ i ∈ s.run.db.live self.id,
      i ∈ db.live self.id ∧ i ∉ removalOf (db.live self.id) removalIds :=
    (triple_shrink (I := fun _ => True) h.unsharded trivial (fun _ _ => trivial)
      ((triple_withSet triple_shrinkReplicaSet_live).consequence
        (fun s (hs : s.run = _) => by rw [hs]) (fun _ _ h => h) fun _ _ h => h)).value _ rfl _ s hr
  intro x hx
  obtain ⟨i, hi, rfl⟩ := List.mem_map.1 hx
  obtain ⟨hold, hstays⟩ := hlive i hi
  have hstart : host i.id ∈ start := hwhole (List.mem_map_of_mem (f := fun i => host i.id) hold)
  rcases (accounted_exec hr).stayed _ hstart with hin | ⟨e, he, hleaves⟩
  · exact hin
  · obtain ⟨j, hj, heq⟩ := List.mem_map.1 ((calls_of_shrink h.unsharded hr e he).2.2 hleaves)
    have hlisted := removalOf_subset _ _ hj
    have hsame : j = i := List.inj_on_of_nodup_map (h.reachable.nodup_live self.id) hlisted hold
      (hdistinct j hlisted i hold heq)
    exact absurd (hsame ▸ hj) hstays

end ShrinkRun

end Yggdrasil.Mongo
