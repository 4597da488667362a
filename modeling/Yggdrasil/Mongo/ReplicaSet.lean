import Yggdrasil.Library.Combination
import Yggdrasil.Mongo.Names
import Yggdrasil.Mongo.TaskReset

/-! The replica set beside the database. MongoDB keeps its own list of the members of a set, and
scripts of the controller change it. -/

namespace Yggdrasil.Mongo

open Effect Effect.Process History Python Combination

/-! ### The set beside the run -/

/-- A run, and the hosts the replica set consists of. -/
structure Replicated where
  run : Run
  members : List String

/-- The hosts that a call may bring into the set. -/
def Call.joins : Call → List String
  | .initializeReplicaSet _ hosts => hosts
  | .mongosh _ _ (.add hosts) => hosts
  | _ => []

/-- The hosts that a call may take out of the set. -/
def Call.leaves : Call → List String
  | .mongosh _ _ (.remove hosts) => hosts
  | _ => []

section World

variable (port : ℕ) (host : String → String)

/-- What an answer says about the set and the hosts: an address belongs to one instance at a
time, a status lists members only, and a removal that ran has removed its hosts. -/
def Told (s : Replicated) : (c : Call) → Except Error c.Answer → List String → Prop
  | .createInstance _, .ok id, _ =>
    ∀ i ∈ s.run.db.instances, i.deleted = false → host i.id ≠ host id
  | .visibleAddresses id, .ok addresses, _ =>
    ∀ a ∈ addresses.head?, a ++ ":" ++ toString port = host id
  | .replicaSetStatus _, .ok status, members =>
    ∀ name, allReady status [name] = true → name ∈ members
  | .mongosh _ _ (.remove hosts), .ok _, members => ∀ h ∈ hosts, h ∉ members
  | _, _, _ => True

/-- The set after a call. A call that fails, or a script that stops halfway, may have done
anything from nothing to all of its work. -/
structure SetStep (s : Replicated) (c : Call) (r : Except Error c.Answer)
    (members : List String) : Prop where
  joined : ∀ h ∈ members, h ∈ s.members ∨ h ∈ c.joins
  stayed : ∀ h ∈ s.members, h ∉ c.leaves → h ∈ members
  told : Told port host s c r members

/-- The world with the replica set. -/
def setWorld : World Replicated Call Call.Answer Error :=
  fun s c r s' => world s.run c r s'.run ∧ SetStep port host s c r s'.members

end World

variable {port : ℕ} {host : String → String} {cluster : String}

theorem exec_run {α : Type} {p : Action α} {s s' : Replicated} {o : Outcome Error α}
    (h : Exec (setWorld port host) p s o s') : Exec world p s.run o s'.run := by
  induction h with
  | stop p s => exact .stop p _
  | ret a s => exact .ret a _
  | raise x s => exact .raise x _
  | call hw _ ih => exact .call hw.1 ih

/-- A rule about the run holds with the set beside it. -/
theorem triple_withSet {α : Type} {I Pre : Run → Prop} {p : Action α} {Post : α → Run → Prop}
    {Err : Error → Run → Prop} (h : Triple world I Pre p Post Err) :
    Triple (setWorld port host) (fun s => I s.run) (fun s => Pre s.run) p
      (fun a s => Post a s.run) fun x s => Err x s.run :=
  ⟨fun s hs o s' hr => h.always s.run hs o s'.run (exec_run hr),
    fun s hs a s' hr => h.value s.run hs a s'.run (exec_run hr),
    fun s hs x s' hr => h.raised s.run hs x s'.run (exec_run hr)⟩

/-- Every call of the run is of this kind. -/
def Calls (G : Call → Prop) (s : Replicated) : Prop := ∀ e ∈ s.run.log, G e.1

theorem Calls.step {G : Call → Prop} {s s' : Replicated} {c : Call} {r : Except Error c.Answer}
    (hs : Calls G s) (hc : G c) (hw : setWorld port host s c r s') : Calls G s' := by
  unfold Calls
  rw [world_log hw.1]
  exact List.forall_mem_append.2 ⟨hs, List.forall_mem_singleton.2 hc⟩

theorem triple_calls {α : Type} {G : Call → Prop} {p : Action α}
    (hp : Respects (setWorld port host) (Calls G) G p) :
    Triple (setWorld port host) (Calls G) (Calls G) p (fun _ => Calls G) fun _ _ => True :=
  (hp.triple fun _ _ _ _ hs hc hw => hs.step hc hw).consequence (fun _ h => h) (fun _ _ h => h)
    fun _ _ _ => trivial

/-! ### What a log says about the set -/

/-- The members of the set, accounted for by the calls since it had the members `start`. -/
structure Accounted (port : ℕ) (host : String → String) (start : List String) (s : Replicated) :
    Prop where
  joined : ∀ h ∈ s.members, h ∈ start ∨ ∃ e ∈ s.run.log, h ∈ e.1.joins
  stayed : ∀ h ∈ start, h ∈ s.members ∨ ∃ e ∈ s.run.log, h ∈ e.1.leaves
  addresses : ∀ id (addresses : List String),
    (⟨.visibleAddresses id, .ok addresses⟩ : Event) ∈ s.run.log →
      ∀ a ∈ addresses.head?, a ++ ":" ++ toString port = host id
  seen : (∀ e ∈ s.run.log, e.1.leaves = []) → ∀ guest (status : Value),
    (⟨.replicaSetStatus guest, .ok status⟩ : Event) ∈ s.run.log →
      ∀ name, allReady status [name] = true → name ∈ s.members
  removed : (∀ e ∈ s.run.log, e.1.joins = []) → ∀ guest server hosts output,
    (⟨.mongosh guest server (.remove hosts), .ok output⟩ : Event) ∈ s.run.log →
      ∀ h ∈ hosts, h ∉ s.members

theorem accounted_start {db : Database} {start : List String} :
    Accounted port host start ⟨⟨db, []⟩, start⟩ :=
  ⟨fun _ h => .inl h, fun _ h => .inl h, by simp, by simp, by simp⟩

theorem setWorld_accounted {start : List String} {s s' : Replicated} {c : Call}
    {r : Except Error c.Answer} (hs : Accounted port host start s)
    (hw : setWorld port host s c r s') : Accounted port host start s' := by
  obtain ⟨hworld, hjoined, hstayed, htold⟩ := hw
  have hlog := world_log hworld
  have hnew : (⟨c, r⟩ : Event) ∈ s'.run.log := by
    rw [hlog]
    exact List.mem_append_right _ (List.mem_singleton_self _)
  have hold : ∀ e ∈ s.run.log, e ∈ s'.run.log := by
    intro e he
    rw [hlog]
    exact List.mem_append_left _ he
  have hcases : ∀ e ∈ s'.run.log, e ∈ s.run.log ∨ e = ⟨c, r⟩ := by
    intro e he
    rw [hlog] at he
    simpa using he
  constructor
  · intro h hh
    rcases hjoined h hh with hh | hh
    · rcases hs.joined h hh with hh | ⟨e, he, hh⟩
      · exact .inl hh
      · exact .inr ⟨e, hold e he, hh⟩
    · exact .inr ⟨_, hnew, hh⟩
  · intro h hh
    rcases hs.stayed h hh with hh | ⟨e, he, hh⟩
    · by_cases hl : h ∈ c.leaves
      · exact .inr ⟨_, hnew, hl⟩
      · exact .inl (hstayed h hh hl)
    · exact .inr ⟨e, hold e he, hh⟩
  · intro id addresses he
    rcases hcases _ he with he | he
    · exact hs.addresses id addresses he
    · cases he
      exact htold
  · intro hleaves guest status he name hname
    rcases hcases _ he with he | he
    · apply hstayed name (hs.seen (fun e he => hleaves e (hold e he)) guest status he name hname)
      rw [hleaves _ hnew]
      exact List.not_mem_nil
    · cases he
      exact htold name hname
  · intro hjoins guest server hosts output he h hh hmem
    rcases hcases _ he with he | he
    · rcases hjoined h hmem with hold' | hj
      · exact hs.removed (fun e he => hjoins e (hold e he)) guest server hosts output he h hh hold'
      · rw [hjoins _ hnew] at hj
        cases hj
    · cases he
      exact htold h hh hmem

/-- Whatever is run, its log accounts for the set. -/
theorem accounted_exec {α : Type} {p : Action α} {db : Database} {start : List String}
    {s : Replicated} {o : Outcome Error α}
    (h : Exec (setWorld port host) p ⟨⟨db, []⟩, start⟩ o s) : Accounted port host start s :=
  ((respects_true (R := Accounted port host start) p).triple fun _ _ _ _ hs _ hw =>
    setWorld_accounted hs hw).always _ accounted_start o s h

/-- An address that was asked for is the host of its instance. -/
theorem Accounted.host_eq {start : List String} {s : Replicated}
    (hs : Accounted port host start s) {id address : String}
    (h : AddressOf port id address s.run.log) : address = host id := by
  obtain ⟨a, others, hmem, rfl⟩ := h
  exact hs.addresses id _ hmem a (by simp)

def hostsOf (host : String → String) (instances : List Instance) : List String :=
  instances.map fun i => host i.id

theorem Accounted.hosts_eq {start : List String} {s : Replicated}
    (hs : Accounted port host start s) {instances : List Instance} {addresses : List String}
    (h : AddressesOf port instances addresses s.run.log) : addresses = hostsOf host instances := by
  have hall : List.Forall₂ (fun (i : Instance) a => id a = host i.id) instances addresses :=
    List.Forall₂.imp (fun _ _ => hs.host_eq) h
  simpa [hostsOf] using map_eq_of_forall₂ hall

theorem allReady_mem {status : Value} {addresses : List String} {name : String}
    (h : allReady status addresses = true) (hname : name ∈ addresses) :
    allReady status [name] = true := by
  unfold allReady at h ⊢
  split at h
  · simpa using List.all_eq_true.1 h name hname
  · cases h

/-- Instances whose hosts were seen ready are in the set, if nothing was removed. -/
theorem Accounted.ready {start : List String} {s : Replicated}
    (hs : Accounted port host start s) (hleaves : ∀ e ∈ s.run.log, e.1.leaves = [])
    {instances : List Instance} {addresses : List String} {guest : String}
    (haddresses : AddressesOf port instances addresses s.run.log)
    (hready : MembersReady guest addresses s.run.log) : hostsOf host instances ⊆ s.members := by
  obtain ⟨status, hmem, hall⟩ := hready
  rw [← hs.hosts_eq haddresses]
  exact fun name hname => hs.seen hleaves guest status hmem name (allReady_mem hall hname)

/-! ### Instances that leave and instances that stay -/

/-- An instance only leaves its cluster by a call that takes it away. -/
theorem live_or_removed {α : Type} {p : Action α} {db : Database} {s : Run} {o : Outcome Error α}
    (h : Exec world p ⟨db, []⟩ o s) {i : Instance} (hi : i ∈ db.live cluster) :
    i ∈ s.db.live cluster ∨ ∃ e ∈ s.log, e.1 = .detach i.id ∨ e.1 = .delete i.id := by
  refine ((respects_true (R := fun s : Run => i ∈ s.db.live cluster ∨
    ∃ e ∈ s.log, e.1 = .detach i.id ∨ e.1 = .delete i.id) p).triple ?_).always _ (.inl hi) o s h
  intro s c r s' hs _ hw
  have hlog := world_log hw
  rcases hs with hs | ⟨e, he, hgone⟩
  · cases r with
    | error x =>
      rw [hw.2.1]
      exact .inl hs
    | ok a =>
      have hstep := hw.1
      have hnew : (⟨c, .ok a⟩ : Event) ∈ s'.log := by
        rw [hlog]
        exact List.mem_append_right _ (List.mem_singleton_self _)
      cases hwrites : c.writes with
      | false =>
        rw [hstep.eq_of_not_writes hwrites]
        exact .inl hs
      | true =>
        cases c with
        | createInstance new =>
          rw [hstep.2]
          refine .inl ?_
          unfold Database.live Database.addInstance
          rw [List.filter_append]
          exact List.mem_append_left _ hs
        | createCluster new =>
          rw [hstep.2]
          exact .inl hs
        | updateDb id status =>
          rw [hstep]
          exact .inl hs
        | resetTask id =>
          rw [hstep]
          exact .inl hs
        | detach id =>
          rw [hstep, live_detach]
          by_cases hid : i.id = id
          · exact .inr ⟨_, hnew, .inl (by rw [hid])⟩
          · exact .inl (List.mem_filter.2 ⟨hs, by simpa using hid⟩)
        | delete id =>
          rw [hstep, live_delete]
          by_cases hid : i.id = id
          · exact .inr ⟨_, hnew, .inr (by rw [hid])⟩
          · exact .inl (List.mem_filter.2 ⟨hs, by simpa using hid⟩)
        | _ => cases hwrites
  · refine .inr ⟨e, ?_, hgone⟩
    rw [hlog]
    exact List.mem_append_left _ he

/-- Calls that create no instance leave a cluster no others than it had. -/
theorem live_subset_of_quiet {α : Type} {p : Action α} {db : Database} {s : Run}
    {o : Outcome Error α} (h : Exec world p ⟨db, []⟩ o s)
    (hquiet : ∀ e ∈ s.log, e.1.quiet = true) : s.db.live cluster ⊆ db.live cluster := by
  refine ((respects_true (R := fun s : Run => (∀ e ∈ s.log, e.1.quiet = true) →
    s.db.live cluster ⊆ db.live cluster) p).triple ?_).always _ (fun _ => List.Subset.refl _) o s h
    hquiet
  intro s c r s' hs _ hw hall
  rw [world_log hw] at hall
  obtain ⟨hold, hnew⟩ := List.forall_mem_append.1 hall
  exact List.Subset.trans (world_live_subset cluster hw (hnew _ (List.mem_singleton_self _)))
    (hs hold)

/-- No two of the instances have one host. -/
def DistinctHosts (host : String → String) (instances : List Instance) : Prop :=
  ∀ i ∈ instances, ∀ j ∈ instances, host i.id = host j.id → i.id = j.id

theorem DistinctHosts.mono {l l' : List Instance} (h : DistinctHosts host l) (hsub : l' ⊆ l) :
    DistinctHosts host l' :=
  fun i hi j hj => h i (hsub hi) j (hsub hj)

theorem distinct_exec {α : Type} {p : Action α} {s s' : Replicated} {o : Outcome Error α}
    (h : DistinctHosts host (s.run.db.live cluster)) (hr : Exec (setWorld port host) p s o s') :
    DistinctHosts host (s'.run.db.live cluster) := by
  refine ((respects_true (R := fun s : Replicated =>
    DistinctHosts host (s.run.db.live cluster)) p).triple ?_).always _ h o s' hr
  intro s c r s' hs _ hw
  by_cases hquiet : c.quiet = true
  · exact hs.mono (world_live_subset cluster hw.1 hquiet)
  cases r with
  | error x =>
    rw [hw.1.2.1]
    exact hs
  | ok a =>
    cases c with
    | castGrowCluster cluster ids =>
      have hdb : s'.run.db = s.run.db := hw.1.1
      rw [hdb]
      exact hs
    | createInstance new =>
      obtain ⟨⟨⟨-, hdb⟩, -⟩, hset⟩ := hw
      have htold : ∀ i ∈ s.run.db.instances, i.deleted = false → host i.id ≠ host a := hset.told
      have hfresh (i : Instance) (hi : i ∈ s.run.db.live cluster) : host i.id ≠ host a := by
        have hlive := List.mem_filter.1 hi
        simp only [decide_eq_true_eq] at hlive
        exact htold i hlive.1 hlive.2.2
      have hcases (i : Instance) (hi : i ∈ s'.run.db.live cluster) :
          i ∈ s.run.db.live cluster ∨ i.id = a := by
        rw [hdb] at hi
        unfold Database.live Database.addInstance at hi
        rw [List.filter_append] at hi
        rcases List.mem_append.1 hi with hi | hi
        · exact .inl hi
        · rw [List.mem_singleton.1 (List.mem_of_mem_filter hi)]
          exact .inr rfl
      intro i hi j hj heq
      rcases hcases i hi with hi | hi <;> rcases hcases j hj with hj | hj
      · exact hs i hi j hj heq
      · exact (hfresh i hi (heq.trans (congrArg host hj))).elim
      · exact (hfresh j hj (heq.symm.trans (congrArg host hi))).elim
      · rw [hi, hj]
    | _ => exact absurd rfl hquiet

/-! ### Sound sets -/

/-- A replica-set cluster whose set consists of hosts of its instances. -/
structure Sound (host : String → String) (cluster : String) (db : Database)
    (members : List String) : Prop where
  reachable : Reachable db
  unsharded : isSharded (db.live cluster) = false
  subset : members ⊆ hostsOf host (db.live cluster)

/-! ### Hosts that are looked up -/

section Hosts

variable {R : Replicated → Prop}

theorem yields_map {α β γ : Type} {f : α → Action β} {g : β → γ} {k : α → γ} {l : List α}
    {W : World Replicated Call Call.Answer Error}
    (hf : ∀ a ∈ l, Yields W R (fun b => g b = k a) (f a)) :
    Yields W R (fun bs => bs.map g = l.map k) (collect f l) :=
  (yields_collect hf).mono fun _ => map_eq_of_forall₂

/-- Whoever takes the first address of an instance has its host. -/
theorem yields_host (id : String) {f : List String → Action String}
    (hf : ∀ a others, f (a :: others) = pure (a ++ ":" ++ toString port)) {x : Error}
    (hnil : f [] = .raise x) :
    Yields (setWorld port host) R (fun a => a = host id) (ask (.visibleAddresses id) >>= f) := by
  apply yields_bind (N := fun (addresses : List String) => ∀ a ∈ addresses.head?,
    a ++ ":" ++ toString port = host id)
  · apply yields_perform
    exact fun s addresses s' _ hw => hw.2.told
  · intro addresses h
    cases addresses with
    | nil =>
      rw [hnil]
      trivial
    | cons a others =>
      rw [hf]
      exact h a rfl

theorem yields_hostsOf {f : Instance → Action String} {l : List Instance}
    (hf : ∀ i ∈ l, Yields (setWorld port host) R (fun a => a = host i.id) (f i)) :
    Yields (setWorld port host) R (fun addresses => addresses = hostsOf host l) (collect f l) := by
  apply (yields_map (g := id) hf).mono
  intro addresses h
  rwa [List.map_id] at h

end Hosts

end Yggdrasil.Mongo
