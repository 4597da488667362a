import Yggdrasil.Mongo.Removal
import Yggdrasil.Mongo.TaskCalls

/-! What the log says once a part of a task has returned: which replica sets are initialised
or extended, which shards the router has taken, which guests were told that the cluster is
complete. -/

namespace Yggdrasil.Mongo

open Effect Effect.Process Python

/-! ### Facts that the log shows -/

/-- What the log says once it keeps saying. -/
def Lasting (P : List Event → Prop) : Prop := ∀ log e, P log → P (log ++ [e])

theorem lasting_mem (e : Event) : Lasting fun log => e ∈ log :=
  fun _ _ h => List.mem_append_left _ h

/-- When the process returns, the log says `Q` about the result. -/
def Achieves {α : Type} (p : Action α) (Q : α → List Event → Prop) : Prop :=
  Triple world (fun _ => True) (fun _ => True) p (fun a s => Q a s.log) fun _ _ => True

section Achieves

variable {α β : Type} {p : Action α} {Q Q' : α → List Event → Prop}

theorem Achieves.mono (h : Achieves p Q) (hQ : ∀ a log, Q a log → Q' a log) : Achieves p Q' :=
  h.consequence (fun _ h => h) (fun a s hs => hQ a s.log hs) fun _ _ h => h

theorem achieves_true (p : Action α) : Achieves p fun _ _ => True := triple_true

theorem achieves_pure {a : α} (h : ∀ log, Q a log) : Achieves (pure a) Q :=
  triple_ret (fun _ _ => trivial) fun s _ => h s.log

theorem achieves_fail (message : String) : Achieves (fail message) Q :=
  triple_raise (fun _ _ => trivial) fun _ _ => trivial

theorem achieves_hang : Achieves .hang Q := triple_hang fun _ _ => trivial

theorem achieves_ask (c : Call) : Achieves (ask c) fun a log => (⟨c, .ok a⟩ : Event) ∈ log :=
  triple_ask (fun _ _ => trivial)
    (fun _ _ _ _ _ => ⟨List.mem_append_right _ (List.mem_singleton_self _), trivial⟩)
    fun _ _ _ _ => ⟨trivial, trivial⟩

theorem achieves_ite {c : Prop} [Decidable c] {q : Action α} (hp : c → Achieves p Q)
    (hq : ¬c → Achieves q Q) : Achieves (if c then p else q) Q := triple_ite hp hq

theorem achieves_exceptException {h : Error → Action α} (hp : Achieves p Q)
    (hh : ∀ x, Achieves (h x) Q) : Achieves (exceptException p h) Q := by
  refine triple_handle (M := fun _ _ => True) hp fun x => ?_
  cases x with
  | timeout own => exact triple_raise (fun _ _ => trivial) fun _ _ => trivial
  | _ => exact hh _

/-- What was achieved first is still there at the end. -/
theorem achieves_bind {R : α → β → List Event → Prop} {f : α → Action β}
    (hlast : ∀ a, Lasting (Q a)) (hp : Achieves p Q) (hf : ∀ a, Achieves (f a) (R a)) :
    Achieves (p >>= f) fun b log => ∃ a, Q a log ∧ R a b log := by
  apply triple_bind hp
  intro a
  have hkeeps : Triple world (fun _ => True) (fun s => Q a s.log) (f a) (fun _ s => Q a s.log)
      fun _ s => Q a s.log := (triple_keeps_log (f a) (hlast a)).weaken fun _ _ => trivial
  exact ((hkeeps.and (hf a)).weaken fun _ _ => trivial).consequence (fun _ h => ⟨h, trivial⟩)
    (fun _ _ h => ⟨a, h⟩) fun _ _ _ => trivial

/-- What the last part achieves is achieved. -/
theorem achieves_last {R : β → List Event → Prop} (p : Action α) {f : α → Action β}
    (hf : ∀ a, Achieves (f a) R) : Achieves (p >>= f) R :=
  triple_bind (M := fun _ _ => True) triple_true fun a => hf a

theorem achieves_forEach {P : α → List Event → Prop} {f : α → Action Unit} {l : List α}
    (hlast : ∀ a, Lasting (P a)) (hf : ∀ a ∈ l, Achieves (f a) fun _ => P a) :
    Achieves (forEach l f) fun _ log => ∀ a ∈ l, P a log := by
  unfold forEach
  induction l with
  | nil => exact achieves_pure fun _ a ha => by cases ha
  | cons a l ih =>
    rw [List.foldlM_cons]
    apply (achieves_bind (fun _ => hlast a) (hf a List.mem_cons_self) fun _ =>
      ih fun b hb => hf b (List.mem_cons_of_mem _ hb)).mono
    rintro _ log ⟨_, ha, hl⟩ b hb
    rcases List.mem_cons.1 hb with rfl | hb
    · exact ha
    · exact hl b hb

theorem achieves_collect {P : α → β → List Event → Prop} {f : α → Action β} {l : List α}
    (hlast : ∀ a b, Lasting (P a b)) (hf : ∀ a ∈ l, Achieves (f a) (P a)) :
    Achieves (collect f l) fun bs log => List.Forall₂ (fun a b => P a b log) l bs := by
  have hloop : ∀ done : List β, Achieves (l.foldlM (fun done a => do
        let b ← f a
        pure (done ++ [b])) done) fun bs log =>
      ∃ new, bs = done ++ new ∧ List.Forall₂ (fun a b => P a b log) l new := by
    induction l with
    | nil => exact fun done => achieves_pure fun _ => ⟨[], (List.append_nil done).symm, .nil⟩
    | cons a l ih =>
      intro done
      rw [List.foldlM_cons]
      have hstep : Achieves (do
          let b ← f a
          pure (done ++ [b])) fun bs log => ∃ b, P a b log ∧ bs = done ++ [b] :=
        achieves_bind (hlast a) (hf a List.mem_cons_self) fun b => achieves_pure fun _ => rfl
      apply (achieves_bind (fun bs log e h => ?_) hstep fun bs =>
        ih (fun b hb => hf b (List.mem_cons_of_mem _ hb)) bs).mono
      · rintro bs log ⟨_, ⟨b, hb, rfl⟩, new, rfl, hnew⟩
        exact ⟨b :: new, List.append_assoc _ _ _, .cons hb hnew⟩
      · obtain ⟨b, hb, hbs⟩ := h
        exact ⟨b, hlast a b log e hb, hbs⟩
  apply (hloop []).mono
  rintro _ log ⟨new, rfl, hnew⟩
  exact hnew

end Achieves

/-! ### Replica sets and shards -/

/-- These are the addresses of the members. -/
def AddressesOf (port : ℕ) (members : List Instance) (addresses : List String)
    (log : List Event) : Prop :=
  List.Forall₂ (fun i address => AddressOf port i.id address log) members addresses

/-- A guest has reported all the addresses as ready members. -/
def MembersReady (guest : String) (addresses : List String) (log : List Event) : Prop :=
  ∃ status, (⟨.replicaSetStatus guest, .ok status⟩ : Event) ∈ log ∧ allReady status addresses = true

/-- The replica set of these members is initialised. -/
def Initialized (port : ℕ) (members : List Instance) (log : List Event) : Prop :=
  ∃ first ∈ members, ∃ addresses, AddressesOf port members addresses log ∧
    (⟨.initializeReplicaSet first.id addresses, .ok ()⟩ : Event) ∈ log ∧
    MembersReady first.id addresses log

/-- A replica set is extended by new members through one of the existing. -/
def Extended (port : ℕ) (existing news : List Instance) (log : List Event) : Prop :=
  ∃ first ∈ existing, ∃ addresses output, AddressesOf port news addresses log ∧
    (⟨.mongosh first.id localHost (.add addresses), .ok output⟩ : Event) ∈ log ∧
    MembersReady first.id addresses log

/-- A router has taken the shard of these members, as far as `accepts` tells. -/
def ShardAdded (accepts : Value → Bool) (port : ℕ) (members : List Instance) (log : List Event) :
    Prop :=
  ∃ primary ∈ members, ∃ router name address result,
    (⟨.getReplicaSetName primary.id, .ok (some name)⟩ : Event) ∈ log ∧
    AddressOf port primary.id address log ∧
    (⟨.addShard router name address, .ok result⟩ : Event) ∈ log ∧ accepts result = true

/-- Every guest was told that its cluster is complete. -/
def ToldComplete (members : List Instance) (log : List Event) : Prop :=
  ∀ m ∈ members, (⟨.clusterComplete m.id, .ok ()⟩ : Event) ∈ log

theorem lasting_addressOf (port : ℕ) (id address : String) : Lasting (AddressOf port id address) := by
  rintro log e ⟨a, others, hmem, heq⟩
  exact ⟨a, others, List.mem_append_left _ hmem, heq⟩

theorem lasting_addressesOf (port : ℕ) (members : List Instance) (addresses : List String) :
    Lasting (AddressesOf port members addresses) := by
  intro log e h
  unfold AddressesOf at h ⊢
  exact h.imp fun (i : Instance) address => lasting_addressOf port i.id address log e

theorem lasting_membersReady (guest : String) (addresses : List String) :
    Lasting (MembersReady guest addresses) := by
  rintro log e ⟨status, hmem, hready⟩
  exact ⟨status, List.mem_append_left _ hmem, hready⟩

theorem lasting_initialized (port : ℕ) (members : List Instance) :
    Lasting (Initialized port members) := by
  rintro log e ⟨first, hfirst, addresses, haddresses, hmem, hready⟩
  exact ⟨first, hfirst, addresses, lasting_addressesOf port members addresses log e haddresses,
    List.mem_append_left _ hmem, lasting_membersReady first.id addresses log e hready⟩

theorem lasting_shardAdded (accepts : Value → Bool) (port : ℕ) (members : List Instance) :
    Lasting (ShardAdded accepts port members) := by
  rintro log e ⟨primary, hprimary, router, name, address, result, hname, haddress, hadd, haccepts⟩
  exact ⟨primary, hprimary, router, name, address, result, List.mem_append_left _ hname,
    lasting_addressOf port primary.id address log e haddress, List.mem_append_left _ hadd, haccepts⟩

theorem lasting_extended (port : ℕ) (existing news : List Instance) :
    Lasting (Extended port existing news) := by
  rintro log e ⟨first, hfirst, addresses, output, haddresses, hmem, hready⟩
  exact ⟨first, hfirst, addresses, output, lasting_addressesOf port news addresses log e haddresses,
    List.mem_append_left _ hmem, lasting_membersReady first.id addresses log e hready⟩

theorem lasting_toldComplete (members : List Instance) : Lasting (ToldComplete members) :=
  fun _ _ h m hm => List.mem_append_left _ (h m hm)

section Parts

variable (conf : MongoConf) (fuel : ℕ)

theorem achieves_address (i : Instance) :
    Achieves (address conf i) (AddressOf conf.mongodbPort i.id) := by
  unfold address
  apply (achieves_bind (fun _ => lasting_mem _) (achieves_ask _) (R := fun addresses host _ =>
    ∃ address others, addresses = address :: others ∧
      host = address ++ ":" ++ toString conf.mongodbPort) fun addresses => ?_).mono
  · rintro host log ⟨_, hmem, address, others, rfl, heq⟩
    exact ⟨address, others, hmem, heq⟩
  · cases addresses with
    | nil => exact achieves_fail _
    | cons address others => exact achieves_pure fun _ => ⟨address, others, rfl, rfl⟩

theorem achieves_addresses (members : List Instance) :
    Achieves (collect (address conf) members) (AddressesOf conf.mongodbPort members) :=
  achieves_collect (fun i => lasting_addressOf _ i.id) fun i _ => achieves_address conf i

theorem achieves_waitLoop (guest : String) (addresses : List String) (deadline : ℤ) :
    Achieves (waitLoop guest addresses deadline fuel) fun _ => MembersReady guest addresses := by
  induction fuel with
  | zero => exact achieves_hang
  | succ fuel ih =>
    unfold waitLoop
    apply achieves_last
    intro now
    apply achieves_ite ?_ fun _ => achieves_fail _
    intro _
    have hready : Achieves (exceptException (do
          let status : Value ← ask (.replicaSetStatus guest)
          pure (allReady status addresses)) fun _ => pure false) fun ready log =>
        ready = true → MembersReady guest addresses log := by
      have hasked : Achieves (do
          let status : Value ← ask (.replicaSetStatus guest)
          pure (allReady status addresses)) fun ready log => ∃ status : Value,
            (⟨.replicaSetStatus guest, .ok status⟩ : Event) ∈ log ∧
              ready = allReady status addresses :=
        achieves_bind (fun _ => lasting_mem _) (achieves_ask (.replicaSetStatus guest))
          fun status => achieves_pure fun _ => rfl
      apply achieves_exceptException
      · apply hasked.mono
        rintro ready log ⟨status, hmem, rfl⟩ htrue
        exact ⟨status, hmem, htrue⟩
      · exact fun _ => achieves_pure fun _ h => by cases h
    apply triple_bind hready
    intro ready
    apply triple_ite
    · exact fun htrue => triple_ret (fun _ _ => trivial) fun _ h => h htrue
    · intro _
      apply Triple.consequence (achieves_last (ask (.sleep 2)) fun _ => ih) (fun _ _ => trivial)
        (fun _ _ h => h) fun _ _ h => h

theorem achieves_waitForReplicaMembers (guest : String) (addresses : List String) :
    Achieves (waitForReplicaMembers conf fuel guest addresses) fun _ =>
      MembersReady guest addresses :=
  achieves_last _ fun _ => achieves_waitLoop fuel guest addresses _

theorem achieves_initializeReplicaSet (members : List Instance) :
    Achieves (initializeReplicaSet conf fuel members) fun addresses log =>
      Initialized conf.mongodbPort members log ∧
        AddressesOf conf.mongodbPort members addresses log := by
  cases members with
  | nil => exact achieves_fail _
  | cons first others =>
    unfold initializeReplicaSet
    have hrest : ∀ addresses, Achieves (do
          ask (.initializeReplicaSet first.id addresses)
          waitForReplicaMembers conf fuel first.id addresses
          pure addresses) fun result log => result = addresses ∧
        (⟨.initializeReplicaSet first.id addresses, .ok ()⟩ : Event) ∈ log ∧
          MembersReady first.id addresses log := by
      intro addresses
      apply (achieves_bind (fun _ => lasting_mem _) (achieves_ask _) fun _ =>
        achieves_bind (fun _ => lasting_membersReady _ _)
          (achieves_waitForReplicaMembers conf fuel first.id addresses) fun _ =>
            achieves_pure (Q := fun result _ => result = addresses) fun _ => rfl).mono
      rintro result log ⟨_, hmem, _, hready, heq⟩
      exact ⟨heq, hmem, hready⟩
    apply (achieves_bind (fun _ => lasting_addressesOf _ _ _)
      (achieves_addresses conf (first :: others)) hrest).mono
    rintro result log ⟨addresses, haddresses, rfl, hmem, hready⟩
    exact ⟨⟨first, List.mem_cons_self, result, haddresses, hmem, hready⟩, haddresses⟩

theorem eq_some_of_orNone {answer : Option String} {name : String} (h : orNone answer = some name) :
    answer = some name := Option.filter_eq_some_iff.1 h |>.1

/-- A returned shard is initialised, and the router did not refuse it. -/
theorem achieves_createShard (router : Instance) (members : List Instance) :
    Achieves (createShard conf fuel router members) fun _ log =>
      Initialized conf.mongodbPort members log ∧
        ShardAdded (fun v => !refused v) conf.mongodbPort members log := by
  unfold createShard
  have hlast : ∀ addresses, Lasting fun log => Initialized conf.mongodbPort members log ∧
      AddressesOf conf.mongodbPort members addresses log := fun addresses log e h =>
    ⟨lasting_initialized _ members log e h.1, lasting_addressesOf _ members addresses log e h.2⟩
  apply (achieves_bind hlast (achieves_initializeReplicaSet conf fuel members)
    (R := fun addresses _ log => ∃ primary others first rest name, ∃ result : Value,
      members = primary :: others ∧ addresses = first :: rest ∧
      (⟨.getReplicaSetName primary.id, .ok (some name)⟩ : Event) ∈ log ∧
      (⟨.addShard router.id name first, .ok result⟩ : Event) ∈ log ∧ refused result = false)
    fun addresses => ?_).mono
  · rintro _ log ⟨addresses, ⟨hinit, haddresses⟩, primary, others, first, rest, name, result, rfl,
      rfl, hname, hadd, haccepts⟩
    obtain ⟨hfirst, -⟩ := List.forall₂_cons.1 haddresses
    exact ⟨hinit, primary, List.mem_cons_self, router.id, name, first, result, hname, hfirst, hadd,
      congrArg Bool.not haccepts⟩
  cases members with
  | nil => exact achieves_fail _
  | cons primary others =>
    cases addresses with
    | nil => exact achieves_fail _
    | cons first rest =>
      apply (achieves_bind (fun _ => lasting_mem _) (achieves_ask (.getReplicaSetName primary.id))
        (R := fun (answer : Option String) _ log => ∃ name, ∃ result : Value, answer = some name ∧
          (⟨.addShard router.id name first, .ok result⟩ : Event) ∈ log ∧ refused result = false)
        fun answer => ?_).mono
      · rintro _ log ⟨_, hname, name, result, rfl, hadd, haccepts⟩
        exact ⟨primary, others, first, rest, name, result, rfl, rfl, hname, hadd, haccepts⟩
      cases hname : orNone answer with
      | none => exact achieves_fail _
      | some name =>
        have hanswer : answer = some name := eq_some_of_orNone hname
        apply (achieves_bind (fun _ => lasting_mem _)
          (achieves_ask (.addShard router.id name first)) (R := fun (result : Value) _ _ =>
            refused result = false) fun result => ?_).mono
        · rintro _ log ⟨result, hadd, haccepts⟩
          exact ⟨name, result, hanswer, hadd, haccepts⟩
        · exact achieves_ite (fun _ => achieves_fail _) fun hn =>
            achieves_pure fun _ => by simpa using hn

theorem achieves_createShardsOf (routers members : List Instance) :
    Achieves (createShardsOf conf fuel routers members) fun _ log =>
      ∀ group ∈ shardGroups members, Initialized conf.mongodbPort group log ∧
        ShardAdded (fun v => !refused v) conf.mongodbPort group log := by
  apply achieves_forEach
  · intro group log e h
    exact ⟨lasting_initialized _ group log e h.1, lasting_shardAdded _ _ group log e h.2⟩
  · intro group _
    cases routers with
    | nil => exact achieves_fail _
    | cons router routers => exact achieves_createShard conf fuel router group

theorem achieves_complete (members : List Instance) :
    Achieves (complete members) fun _ => ToldComplete members :=
  achieves_forEach (fun _ => lasting_mem _) fun m _ => achieves_ask (.clusterComplete m.id)

/-- The extension of a replica set goes through its first member. -/
theorem achieves_growMembers (first : Instance) (others news : List Instance) :
    Achieves (growMembers conf fuel first news) fun _ log =>
      Extended conf.mongodbPort (first :: others) news log := by
  unfold growMembers
  have hadd : ∀ addresses, Achieves (rpc first.id (addReplicaMembers first.id addresses))
      fun _ log => ∃ output : Output,
        (⟨.mongosh first.id localHost (.add addresses), .ok output⟩ : Event) ∈ log := by
    intro addresses
    have hscript : Achieves (addReplicaMembers first.id addresses) fun _ log => ∃ output : Output,
        (⟨.mongosh first.id localHost (.add addresses), .ok output⟩ : Event) ∈ log := by
      apply (achieves_bind (fun _ => lasting_mem _)
        (achieves_ask (.mongosh first.id localHost (.add addresses))) fun _ =>
          achieves_pure (Q := fun _ _ => True) fun _ => trivial).mono
      rintro _ log ⟨output, hmem, -⟩
      exact ⟨output, hmem⟩
    unfold rpc
    apply achieves_last
    intro _
    apply (achieves_bind (fun _ log e h => ?_) hscript fun _ => achieves_true _).mono
    · rintro _ log ⟨_, h, -⟩
      exact h
    · obtain ⟨output, hmem⟩ := h
      exact ⟨output, List.mem_append_left _ hmem⟩
  have hrest : ∀ addresses, Achieves (do
        let _ ← ask (.loadInstance first.id)
        rpc first.id (addReplicaMembers first.id addresses)
        waitForReplicaMembers conf fuel first.id addresses) fun _ log =>
      (∃ output : Output,
        (⟨.mongosh first.id localHost (.add addresses), .ok output⟩ : Event) ∈ log) ∧
        MembersReady first.id addresses log := by
    intro addresses
    apply achieves_last
    intro _
    apply (achieves_bind (fun _ log e h => ?_) (hadd addresses) fun _ =>
      achieves_waitForReplicaMembers conf fuel first.id addresses).mono
    · rintro _ log ⟨_, hmem, hready⟩
      exact ⟨hmem, hready⟩
    · obtain ⟨output, hmem⟩ := h
      exact ⟨output, List.mem_append_left _ hmem⟩
  apply (achieves_bind (fun _ => lasting_addressesOf _ _ _) (achieves_addresses conf news) hrest).mono
  rintro _ log ⟨addresses, haddresses, ⟨output, hmem⟩, hready⟩
  exact ⟨first, List.mem_cons_self, addresses, output, haddresses, hmem, hready⟩

/-- The replica sets of a new cluster. -/
def setsOf (rows : List Instance) : List (List Instance) :=
  if isSharded rows then byType rows .configServer :: shardGroups (byType rows .member) else [rows]

/-- What creating a topology is to achieve. -/
structure TopologyCreated (accepts : Value → Bool) (port : ℕ) (rows : List Instance)
    (log : List Event) : Prop where
  sets : ∀ set ∈ setsOf rows, Initialized port set log
  shards : isSharded rows → ∀ group ∈ shardGroups (byType rows .member),
    ShardAdded accepts port group log

/-- What growing a topology is to achieve. -/
structure TopologyGrown (accepts : Value → Bool) (port : ℕ) (existing news : List Instance)
    (log : List Event) : Prop where
  shards : isSharded (existing ++ news) → ∀ group ∈ shardGroups (byType news .member),
    Initialized port group log ∧ ShardAdded accepts port group log
  extended : ¬isSharded (existing ++ news) → Extended port existing news log

theorem lasting_topologyCreated (accepts : Value → Bool) (port : ℕ) (rows : List Instance) :
    Lasting (TopologyCreated accepts port rows) := fun log e h =>
  ⟨fun set hset => lasting_initialized port set log e (h.sets set hset),
    fun hs group hg => lasting_shardAdded accepts port group log e (h.shards hs group hg)⟩

theorem lasting_topologyGrown (accepts : Value → Bool) (port : ℕ) (existing news : List Instance) :
    Lasting (TopologyGrown accepts port existing news) := fun log e h =>
  ⟨fun hs group hg => ⟨lasting_initialized port group log e (h.shards hs group hg).1,
      lasting_shardAdded accepts port group log e (h.shards hs group hg).2⟩,
    fun hn => lasting_extended port existing news log e (h.extended hn)⟩

theorem achieves_createTopology (rows : List Instance) :
    Achieves (createTopology conf fuel rows) fun _ =>
      TopologyCreated (fun v => !refused v) conf.mongodbPort rows := by
  unfold createTopology
  apply achieves_ite
  · intro hsharded
    have hshards : Achieves (do
          configureQueryRouters conf (byType rows .queryRouter) (byType rows .configServer)
          createShardsOf conf fuel (byType rows .queryRouter) (byType rows .member)) fun _ log =>
        ∀ group ∈ shardGroups (byType rows .member), Initialized conf.mongodbPort group log ∧
          ShardAdded (fun v => !refused v) conf.mongodbPort group log :=
      achieves_last _ fun _ => achieves_createShardsOf conf fuel _ _
    apply (achieves_bind (fun addresses log e h => ?_)
      (achieves_initializeReplicaSet conf fuel (byType rows .configServer)) fun _ => hshards).mono
    · rintro _ log ⟨_, ⟨hconfig, -⟩, hgroups⟩
      refine ⟨fun set hset => ?_, fun _ group hg => (hgroups group hg).2⟩
      rw [setsOf, if_pos hsharded] at hset
      rcases List.mem_cons.1 hset with rfl | hset
      · exact hconfig
      · exact (hgroups set hset).1
    · exact ⟨lasting_initialized _ _ log e h.1, lasting_addressesOf _ _ addresses log e h.2⟩
  · intro hsharded
    apply (achieves_bind (fun addresses log e h => ?_)
      (achieves_initializeReplicaSet conf fuel rows) fun _ => achieves_true _).mono
    · rintro _ log ⟨_, ⟨hinit, -⟩, -⟩
      refine ⟨fun set hset => ?_, fun hs => absurd hs hsharded⟩
      rw [setsOf, if_neg hsharded, List.mem_singleton] at hset
      rwa [hset]
    · exact ⟨lasting_initialized _ _ log e h.1, lasting_addressesOf _ _ addresses log e h.2⟩

theorem achieves_growTopology (existing news : List Instance) :
    Achieves (growTopology conf fuel existing news) fun _ =>
      TopologyGrown (fun v => !refused v) conf.mongodbPort existing news := by
  cases existing with
  | nil => exact achieves_fail _
  | cons first others =>
    apply achieves_ite
    · intro hsharded
      unfold growShards
      apply achieves_last
      intro _
      have hgrown : ∀ log, (∀ group ∈ shardGroups (byType news .member),
          Initialized conf.mongodbPort group log ∧
            ShardAdded (fun v => !refused v) conf.mongodbPort group log) →
          TopologyGrown (fun v => !refused v) conf.mongodbPort (first :: others) news log :=
        fun log h => ⟨fun _ => h, fun hn => absurd hsharded hn⟩
      apply achieves_ite
      · intro hempty
        apply achieves_pure
        intro log
        apply hgrown
        rw [hempty]
        intro group hg
        cases hg
      · intro _
        apply achieves_ite
        · exact fun _ => achieves_fail _
        · exact fun _ => (achieves_createShardsOf conf fuel _ _).mono fun _ log h => hgrown log h
    · intro hsharded
      exact (achieves_growMembers conf fuel first others news).mono fun _ log h =>
        ⟨fun hs => absurd hs hsharded, fun _ => h⟩

end Parts

end Yggdrasil.Mongo
