import Mathlib.Algebra.BigOperators.Group.List.Basic
import Yggdrasil.Mongo.ShardOrder
import Yggdrasil.Mongo.Viability

/-! The figures given to the quota check and the instances created after it. What an action
does is told by the events it adds to the log when it returns. -/

namespace Yggdrasil.Mongo

open Effect Effect.Process

/-! ### Events of an action -/

/-- When the action returns, it has added events that satisfy `Q` to the log. -/
def Logs {α : Type} (p : Action α) (Q : α → List Event → Prop) : Prop :=
  ∀ log, Triple world (fun _ => True) (fun s => s.log = log) p
    (fun a s => ∃ events, s.log = log ++ events ∧ Q a events)
    fun _ s => ∃ events, s.log = log ++ events

section Logs

variable {α β : Type} {p : Action α} {Q Q' : α → List Event → Prop}

theorem Logs.mono (h : Logs p Q) (hQ : ∀ a events, Q a events → Q' a events) : Logs p Q' := by
  intro log
  refine (h log).consequence (fun _ hs => hs) ?_ fun _ _ hs => hs
  rintro a s ⟨events, hlog, hq⟩
  exact ⟨events, hlog, hQ a events hq⟩

theorem logs_pure {a : α} (h : Q a []) : Logs (pure a) Q := fun _ =>
  triple_ret (fun _ _ => trivial) fun _ hs => ⟨[], by rw [hs, List.append_nil], h⟩

theorem logs_raise (x : Error) : Logs (.raise x : Action α) Q := fun _ =>
  triple_raise (fun _ _ => trivial) fun _ hs => ⟨[], by rw [hs, List.append_nil]⟩

theorem logs_ask {c : Call} {Q : c.Answer → List Event → Prop} (h : ∀ a, Q a [⟨c, .ok a⟩]) :
    Logs (ask c) Q := fun _ => triple_ask (fun _ _ => trivial)
  (fun _ a _ hs _ => ⟨⟨_, by rw [hs], h a⟩, trivial⟩) fun _ _ hs _ => ⟨⟨_, by rw [hs]⟩, trivial⟩

/-- The events of a sequence are those of its parts. -/
theorem logs_bind {M : β → List Event → Prop} {m : Action β} {f : β → Action α} (hm : Logs m M)
    (hf : ∀ b before, M b before → Logs (f b) fun a after => Q a (before ++ after)) :
    Logs (m >>= f) Q := by
  intro log
  refine triple_bind (hm log) fun b => triple_intro fun s hs => ?_
  obtain ⟨before, hlog, hM⟩ := hs
  refine (hf b before hM (log ++ before)).consequence (fun u hu => hu ▸ hlog) ?_ ?_
  · rintro a u ⟨after, hu, hQ⟩
    exact ⟨before ++ after, by rw [hu, List.append_assoc], hQ⟩
  · rintro x u ⟨after, hu⟩
    exact ⟨before ++ after, by rw [hu, List.append_assoc]⟩

theorem logs_ask_bind {c : Call} {f : c.Answer → Action α}
    (h : ∀ a, Logs (f a) fun b after => Q b (⟨c, .ok a⟩ :: after)) : Logs (ask c >>= f) Q := by
  refine logs_bind (logs_ask (Q := fun a events => events = [⟨c, .ok a⟩]) fun _ => rfl)
    fun a before hb => ?_
  subst hb
  exact h a

theorem logs_ofExcept_bind {r : Except Error β} {f : β → Action α}
    (h : ∀ b, r = .ok b → Logs (f b) Q) : Logs (ofExcept r >>= f) Q := by
  cases r with
  | ok b => exact h b rfl
  | error x => exact logs_raise x

theorem logs_rejectIf_bind {c : Prop} [Decidable c] {r : Rejection} {f : Unit → Action α}
    (h : ¬c → Logs (f ()) Q) : Logs (rejectIf c r >>= f) Q := by
  unfold rejectIf
  split_ifs with hc
  · exact logs_raise _
  · exact h hc

/-- A handler that never returns adds nothing to what is returned. -/
theorem logs_exceptException {h : Error → Action α} (hp : Logs p Q)
    (hh : ∀ x, Logs (h x) fun _ _ => False) : Logs (exceptException p h) Q := by
  intro log
  refine triple_handle (hp log) fun x => ?_
  cases x with
  | timeout own => exact triple_raise (fun _ _ => trivial) fun _ hs => hs
  | _ =>
    refine triple_intro fun s hs => ?_
    obtain ⟨events, hlog⟩ := hs
    refine (hh _ (log ++ events)).consequence (fun u hu => hu ▸ hlog) ?_ ?_
    · rintro a u ⟨after, hu, hfalse⟩
      exact hfalse.elim
    · rintro x u ⟨after, hu⟩
      exact ⟨events ++ after, by rw [hu, List.append_assoc]⟩

/-- A check that lets the request pass. -/
theorem logs_check {c : Check} {Q : Unit → List Event → Prop}
    (h : Q () [⟨.check c, .ok none⟩]) : Logs (check c) Q := by
  unfold check
  refine logs_ask_bind fun verdict => ?_
  cases verdict with
  | none => exact logs_pure h
  | some reason => exact logs_raise _

theorem logs_check_bind {c : Check} {f : Unit → Action α}
    (h : Logs (f ()) fun a after => Q a (⟨.check c, .ok none⟩ :: after)) :
    Logs (check c >>= f) Q := by
  refine logs_bind (logs_check (Q := fun _ events => events = [⟨.check c, .ok none⟩]) rfl)
    fun _ before hb => ?_
  subst hb
  exact h

theorem logs_requiredVolumeSize_bind {sizes : List (Option ℤ)} {volumeSupport : Bool}
    {f : Option ℤ → Action α} (h : ∀ volumes, Logs (f volumes) fun a after =>
      Q a (⟨.requiredVolumeSize sizes volumeSupport, .ok (.inr volumes)⟩ :: after)) :
    Logs (requiredVolumeSize sizes volumeSupport >>= f) Q := by
  unfold requiredVolumeSize
  refine logs_bind (M := fun volumes events => events =
    [⟨.requiredVolumeSize sizes volumeSupport, .ok (.inr volumes)⟩])
    (logs_ask_bind fun answer => ?_) fun volumes before hb => ?_
  · cases answer with
    | inl reason => exact logs_raise _
    | inr volumes => exact logs_pure rfl
  · subst hb
    exact h volumes

/-- Each pass of a loop adds its events. -/
theorem logs_foldlM {J : List β → α → List Event → Prop} {f : α → β → Action α} {l : List β}
    (hf : ∀ pre b post, l = pre ++ b :: post → ∀ a before, J pre a before →
      Logs (f a b) fun a' after => J (pre ++ [b]) a' (before ++ after))
    {a : α} (ha : J [] a []) : Logs (l.foldlM f a) (J l) := by
  have hloop : ∀ rest done a before, l = done ++ rest → J done a before →
      Logs (rest.foldlM f a) fun a' after => J l a' (before ++ after) := by
    intro rest
    induction rest with
    | nil =>
      intro done a before hl hJ
      rw [List.append_nil] at hl
      exact logs_pure (by rwa [List.append_nil, hl])
    | cons b rest ih =>
      intro done a before hl hJ
      rw [List.foldlM_cons]
      refine logs_bind (hf done b rest hl a before hJ) fun a' after hJ' => ?_
      refine (ih (done ++ [b]) a' (before ++ after) ?_ hJ').mono fun _ _ h => ?_
      · rw [hl, List.append_assoc]
        rfl
      · rwa [List.append_assoc] at h
  exact hloop l [] a [] rfl ha

end Logs

/-! ### Figures -/

/-- The arguments of an `Instance.create` call. -/
def Call.news? : Call → Option NewInstance
  | .createInstance new => some new
  | _ => none

def Call.isQuotas : Call → Bool
  | .check (.quotas ..) => true
  | _ => false

/-- The instances that the events create. -/
def newsOf (events : List Event) : List NewInstance := events.filterMap fun e => e.1.news?

/-- The volume size that an instance or a node counts with. -/
def gigabytes (size : Option ℤ) : ℤ := size.getD 0

/-- What the stock functions are known to do: the required volume size is the sum of the
sizes, if volumes are supported, and no size is there otherwise; the members of a homogeneous
cluster have one size. -/
def Documented : Event → Prop
  | ⟨.requiredVolumeSize sizes support, .ok (.inr volumes)⟩ =>
    if support then volumes = some (sizes.map gigabytes).sum
    else volumes = none ∧ ∀ size ∈ sizes, gigabytes size = 0
  | ⟨.check (.homogeneous nodes), .ok none⟩ =>
    ∀ a ∈ nodes, ∀ b ∈ nodes, a.volumeSize = b.volumeSize
  | _ => True

/-- Neither a quota check nor a creation. -/
def Event.Idle (e : Event) : Prop := e.1.news? = none ∧ e.1.isQuotas = false

/-- One quota check passed, for as many instances and gigabytes as are created after it. -/
def Conserved (projectId : String) (support : Bool) (events : List Event) : Prop :=
  ∃ before instances volumes after,
    events = before ++ ⟨.check (.quotas projectId instances volumes), .ok none⟩ :: after ∧
      (∀ e ∈ before, Event.Idle e) ∧ (∀ e ∈ after, e.1.isQuotas = false) ∧
      instances = (newsOf after).length ∧
      gigabytes volumes = ((newsOf after).map fun new => gigabytes new.volumeSize).sum ∧
      volumes.isSome = support

theorem newsOf_append (events events' : List Event) :
    newsOf (events ++ events') = newsOf events ++ newsOf events' := List.filterMap_append

theorem newsOf_idle {events : List Event} (h : ∀ e ∈ events, Event.Idle e) :
    newsOf events = [] := List.filterMap_eq_nil_iff.2 fun e he => (h e he).1

/-- The documented answer as a sum that a missing total stands for too. -/
theorem gigabytes_of_documented {sizes : List (Option ℤ)} {support : Bool} {volumes : Option ℤ}
    (h : Documented ⟨.requiredVolumeSize sizes support, .ok (.inr volumes)⟩) :
    gigabytes volumes = (sizes.map gigabytes).sum ∧ volumes.isSome = support := by
  cases support with
  | true =>
    have hv : volumes = some (sizes.map gigabytes).sum := h
    rw [hv]
    exact ⟨rfl, rfl⟩
  | false =>
    have hv : volumes = none ∧ ∀ size ∈ sizes, gigabytes size = 0 := h
    rw [hv.1]
    refine ⟨(List.sum_eq_zero fun n hn => ?_).symm, rfl⟩
    obtain ⟨size, hsize, rfl⟩ := List.mem_map.1 hn
    exact hv.2 size hsize

/-! ### Creations -/

/-- The events create these instances and check no quota. -/
def Makes (news : List NewInstance) (events : List Event) : Prop :=
  newsOf events = news ∧ ∀ e ∈ events, e.1.isQuotas = false

theorem creates_of_idle {events : List Event} (h : ∀ e ∈ events, Event.Idle e) :
    Makes [] events := ⟨newsOf_idle h, fun e he => (h e he).2⟩

theorem Makes.append {news news' : List NewInstance} {events events' : List Event}
    (h : Makes news events) (h' : Makes news' events') :
    Makes (news ++ news') (events ++ events') :=
  ⟨by rw [newsOf_append, h.1, h'.1], fun e he => (List.mem_append.1 he).elim (h.2 e) (h'.2 e)⟩

theorem logs_createAll (news : List NewInstance) :
    Logs (createAll news) fun _ => Makes news := by
  unfold createAll collect
  refine logs_foldlM (J := fun done _ => Makes done) (fun pre new post _ ids before hb => ?_)
    (creates_of_idle fun e he => by cases he)
  refine logs_bind (logs_ask (Q := fun _ => Makes [new]) fun id => ⟨rfl, fun e he => ?_⟩)
    fun id after ha => logs_pure ?_
  · rw [List.mem_singleton.1 he]
    rfl
  · rw [List.append_nil]
    exact hb.append ha

/-- The call is neither a quota check nor a creation. -/
theorem logs_ask_idle {c : Call} (hnews : c.news? = none) (hq : c.isQuotas = false) :
    Logs (ask c) fun _ events => ∀ e ∈ events, Event.Idle e :=
  logs_ask fun a e he => by
    rw [List.mem_singleton.1 he]
    exact ⟨hnews, hq⟩

theorem logs_check_idle {c : Check} (hq : (Call.check c).isQuotas = false) :
    Logs (check c) fun _ events => ∀ e ∈ events, Event.Idle e :=
  logs_check fun e he => by
    rw [List.mem_singleton.1 he]
    exact ⟨rfl, hq⟩

/-- An instance for each node, with its size. -/
theorem sizes_of_zipIdx {f : Node × ℕ → NewInstance} (size : Node → Option ℤ)
    (hf : ∀ p, (f p).volumeSize = size p.1) (nodes : List Node) (start : ℕ) :
    ((nodes.zipIdx start).map f).map NewInstance.volumeSize = nodes.map size := by
  have hcomp : NewInstance.volumeSize ∘ f = size ∘ Prod.fst := funext hf
  rw [List.map_map, hcomp, ← List.map_map, List.zipIdx_map_fst]

/-! ### Creating a sharded cluster -/

theorem logs_validateShardMembers (members : List Node) (conf : MongoConf) :
    Logs (validateShardMembers members conf) fun _ events => (∀ e ∈ events, Event.Idle e) ∧
      (⟨.check (.homogeneous members), .ok none⟩ : Event) ∈ events := by
  unfold validateShardMembers
  refine logs_rejectIf_bind fun _ => logs_check_bind <| logs_check_bind <|
    (logs_check_idle rfl).mono fun _ nics hnics => ⟨fun e he => ?_, by simp⟩
  rcases List.mem_cons.1 he with rfl | he
  · exact ⟨rfl, rfl⟩
  rcases List.mem_cons.1 he with rfl | he
  · exact ⟨rfl, rfl⟩
  · exact hnics e he

/-- The sizes that the quota figure of a plan sums up. -/
def ShardedPlan.sizes (plan : ShardedPlan) (r : CreateRequest) : List (Option ℤ) :=
  r.instances.map Node.volumeSize ++
    List.replicate plan.numConfigServers (some plan.configVolumeSize) ++
    List.replicate plan.numQueryRouters (some plan.routerVolumeSize)

/-- What a passed validation has checked. -/
def Validated (r : CreateRequest) (plan : ShardedPlan) (events : List Event) : Prop :=
  ∃ volumes pre post,
    plan.first ∈ r.instances ∧
      events = pre ++ ⟨.check (.quotas r.projectId (r.instances.length + plan.numConfigServers +
        plan.numQueryRouters) volumes), .ok none⟩ :: post ∧
      (∀ e ∈ pre, Event.Idle e) ∧ (∀ e ∈ post, Event.Idle e) ∧
      (⟨.check (.homogeneous r.instances), .ok none⟩ : Event) ∈ pre ∧
      (⟨.requiredVolumeSize (plan.sizes r) r.conf.volumeSupport, .ok (.inr volumes)⟩ : Event) ∈ pre

theorem logs_validateSharded (r : CreateRequest) : Logs (validateSharded r) (Validated r) := by
  unfold validateSharded
  refine logs_rejectIf_bind fun _ => ?_
  refine logs_bind (logs_validateShardMembers _ _) fun _ pre hpre => ?_
  refine logs_ofExcept_bind fun numConfigServers _ => logs_ofExcept_bind fun numQueryRouters _ => ?_
  refine logs_bind (M := fun first events => events = [] ∧ first ∈ r.instances) ?_
    fun first before hb => ?_
  · cases r.instances with
    | nil => exact logs_raise _
    | cons first rest => exact logs_pure ⟨rfl, List.mem_cons_self⟩
  obtain ⟨rfl, hfirst⟩ := hb
  refine logs_ofExcept_bind fun configVolumeSize _ => logs_ofExcept_bind fun routerVolumeSize _ => ?_
  refine logs_requiredVolumeSize_bind fun volumes => logs_check_bind ?_
  refine logs_bind (M := fun _ events => ∀ e ∈ events, Event.Idle e) ?_ fun _ post hpost => ?_
  · unfold findConfiguration
    cases orNone r.configuration with
    | none => exact logs_pure fun e he => by cases he
    | some id => exact logs_check_idle rfl
  refine logs_pure ⟨volumes, pre ++ [⟨.requiredVolumeSize _ _, .ok (.inr volumes)⟩], post, hfirst,
    ?_, fun e he => ?_, hpost, List.mem_append_left _ hpre.2,
    List.mem_append_right _ (List.mem_singleton_self _)⟩
  · simp [ShardedPlan.sizes]
  · rcases List.mem_append.1 he with he | he
    · exact hpre.1 e he
    · rw [List.mem_singleton.1 he]
      exact ⟨rfl, rfl⟩

/-- The members get the size of the first one, every other instance that of its role. -/
theorem ShardedPlan.sizes_instances (plan : ShardedPlan) (r : CreateRequest)
    (clusterId shardId : String) (h : ∀ a ∈ r.instances, a.volumeSize = plan.first.volumeSize) :
    (plan.instances r clusterId shardId).map NewInstance.volumeSize = plan.sizes r := by
  have hmembers : ∀ configurationId config, (shardMembers r plan.first configurationId config).map
      NewInstance.volumeSize = r.instances.map Node.volumeSize := by
    intro configurationId config
    refine (sizes_of_zipIdx (fun _ => plan.first.volumeSize) (fun _ => rfl) _ _).trans ?_
    exact List.map_congr_left fun a ha => (h a ha).symm
  have hroles : ∀ config label count (size : ℤ) type, (roleInstances r plan.first
      plan.configurationId config label count size type).map NewInstance.volumeSize =
        List.replicate count (some size) := by
    intro config label count size type
    unfold roleInstances
    rw [List.map_map]
    refine List.map_const'.trans ?_
    rw [List.length_range']
  unfold ShardedPlan.instances ShardedPlan.sizes
  rw [List.map_append, List.map_append, hmembers, hroles, hroles]

/-- Figures of the quota check that fit the sizes fit the instances that have them. -/
theorem conserved_of_sizes (projectId : String) {support : Bool} {volumes : Option ℤ}
    {sizes : List (Option ℤ)} {pre after : List Event} {news : List NewInstance}
    (hpre : ∀ e ∈ pre, Event.Idle e) (hafter : Makes news after)
    (hsizes : (news.map NewInstance.volumeSize).Perm sizes)
    (hdoc : Documented ⟨.requiredVolumeSize sizes support, .ok (.inr volumes)⟩) :
    Conserved projectId support
      (pre ++ ⟨.check (.quotas projectId sizes.length volumes), .ok none⟩ :: after) := by
  obtain ⟨hsum, hsome⟩ := gigabytes_of_documented hdoc
  refine ⟨pre, _, volumes, after, rfl, hpre, hafter.2, ?_, ?_, hsome⟩
  · rw [hafter.1, ← hsizes.length_eq, List.length_map]
  · rw [hafter.1, hsum, ← (hsizes.map gigabytes).sum_eq, List.map_map]
    rfl

theorem logs_createSharded (r : CreateRequest) :
    Logs (createSharded r) fun _ events => (∀ e ∈ events, Documented e) →
      Conserved r.projectId r.conf.volumeSupport events := by
  unfold createSharded
  refine logs_bind (logs_validateSharded r) fun plan checked hchecked => ?_
  refine logs_bind (logs_ask_idle rfl rfl) fun clusterId cluster hcluster => ?_
  refine logs_bind (logs_ask_idle rfl rfl) fun shardId uuid huuid => ?_
  refine logs_bind (logs_createAll _) fun _ creations hcreations => ?_
  refine logs_bind (logs_ask_idle rfl rfl) fun _ cast hcast => logs_pure fun hdoc => ?_
  obtain ⟨volumes, pre, post, hfirst, rfl, hpre, hpost, hhomogeneous, hvolume⟩ := hchecked
  have hmem : ∀ e ∈ pre, Documented e := fun e he => hdoc e (by simp [he])
  have hsame : ∀ a ∈ r.instances, a.volumeSize = plan.first.volumeSize := fun a ha =>
    (show ∀ a ∈ r.instances, ∀ b ∈ r.instances, a.volumeSize = b.volumeSize from
      hmem _ hhomogeneous) a ha _ hfirst
  have hlength : (plan.sizes r).length =
      r.instances.length + plan.numConfigServers + plan.numQueryRouters := by
    simp [ShardedPlan.sizes, Nat.add_assoc]
  have hafter := ((creates_of_idle hpost).append ((creates_of_idle hcluster).append
    ((creates_of_idle huuid).append (hcreations.append (creates_of_idle hcast)))))
  rw [List.nil_append, List.nil_append, List.nil_append, List.append_nil] at hafter
  have hconserved := conserved_of_sizes r.projectId hpre hafter
    (.of_eq (plan.sizes_instances r clusterId shardId hsame)) (hmem _ hvolume)
  rw [hlength] at hconserved
  simpa only [List.append_assoc, List.cons_append, List.append_nil] using hconserved

/-! ### Growing a sharded cluster -/

section Grow

variable (self : MongoDbCluster) (locality imageId : Option String)

theorem logs_forEach_idle {α : Type} {f : α → Action Unit} {l : List α}
    (hf : ∀ a ∈ l, Logs (f a) fun _ events => ∀ e ∈ events, Event.Idle e) :
    Logs (forEach l f) fun _ events => ∀ e ∈ events, Event.Idle e := by
  refine logs_foldlM (J := fun _ _ events => ∀ e ∈ events, Event.Idle e)
    (fun pre a post hl _ before hb => ?_) fun e he => by cases he
  refine (hf a (by simp [hl])).mono fun _ after ha e he => ?_
  exact (List.mem_append.1 he).elim (hb e) (ha e)

/-- What a passed validation of a grow request has checked. -/
def GrowthValidated (asked : List (List Node) × List Node) (events : List Event) : Prop :=
  ∃ nodes volumes pre,
    (asked.1.flatten ++ asked.2).Perm nodes ∧
      events = pre ++ [⟨.check (.quotas self.projectId nodes.length volumes), .ok none⟩] ∧
      (∀ e ∈ pre, Event.Idle e) ∧
      (⟨.requiredVolumeSize (nodes.map Node.volumeSize) self.conf.volumeSupport,
        .ok (.inr volumes)⟩ : Event) ∈ pre

theorem logs_validateShardedGrowth (instances : List Node) :
    Logs (validateShardedGrowth self instances) (GrowthValidated self) := by
  unfold validateShardedGrowth
  refine logs_ofExcept_bind fun sorted _ => ?_
  obtain ⟨replicas, routers⟩ := sorted
  refine logs_ofExcept_bind fun groups hgroups => ?_
  have hperm := (groupShardInstances_grouped hgroups).flatten
  refine logs_bind (logs_forEach_idle fun group _ =>
    (logs_validateShardMembers group self.conf).mono fun _ _ h => h.1) fun _ members hmembers => ?_
  refine logs_bind (logs_forEach_idle fun router _ => ?_) fun _ checks hchecks => ?_
  · refine logs_check_bind <| (logs_check_idle rfl).mono fun _ nics hnics e he => ?_
    rcases List.mem_cons.1 he with rfl | he
    · exact ⟨rfl, rfl⟩
    · exact hnics e he
  refine logs_rejectIf_bind fun _ => logs_requiredVolumeSize_bind fun volumes => logs_check_bind ?_
  refine logs_pure ⟨replicas ++ routers, volumes,
    members ++ checks ++ [⟨.requiredVolumeSize _ _, .ok (.inr volumes)⟩],
    hperm.append_right routers, ?_, fun e he => ?_,
    List.mem_append_right _ (List.mem_singleton_self _)⟩
  · simp
  · rcases List.mem_append.1 he with he | he
    · exact (List.mem_append.1 he).elim (hmembers e) (hchecks e)
    · rw [List.mem_singleton.1 he]
      exact ⟨rfl, rfl⟩

/-- The shards get an instance for each node of their groups. -/
theorem logs_createShards (number : ℕ) (groups : List (List Node)) :
    Logs (createShards self locality imageId number groups) fun _ events =>
      ∃ news, Makes news events ∧
        news.map NewInstance.volumeSize = groups.flatten.map Node.volumeSize := by
  unfold createShards
  have hloop := logs_foldlM (l := groups.zipIdx number) (a := ([] : List String))
    (f := fun ids (p : List Node × ℕ) => do
      let shardId : String ← ask .generateUuid
      let created ← createAll (grownMembers self locality imageId shardId p.2 p.1)
      pure (ids ++ created))
    (J := fun done _ events => ∃ news, Makes news events ∧
      news.map NewInstance.volumeSize = (done.map Prod.fst).flatten.map Node.volumeSize) ?_ ?_
  · refine hloop.mono fun _ events h => ?_
    rwa [List.zipIdx_map_fst] at h
  · rintro pre p post _ ids before ⟨news, hnews, hsizes⟩
    refine logs_bind (logs_ask_idle rfl rfl) fun shardId uuid huuid => ?_
    refine logs_bind (logs_createAll _) fun created creations hcreations => logs_pure ?_
    refine ⟨news ++ grownMembers self locality imageId shardId p.2 p.1, ?_, ?_⟩
    · have hall := hnews.append ((creates_of_idle huuid).append hcreations)
      rwa [List.nil_append, ← List.append_nil creations] at hall
    · have hgroup : (grownMembers self locality imageId shardId p.2 p.1).map
          NewInstance.volumeSize = p.1.map Node.volumeSize :=
        sizes_of_zipIdx Node.volumeSize (fun _ => rfl) _ _
      simp [hsizes, hgroup]
  · exact ⟨[], creates_of_idle (fun e he => by cases he), rfl⟩

theorem logs_createShardedInstances (existing : List Instance) (instances : List Node) :
    Logs (createShardedInstances self locality imageId existing instances) fun _ events =>
      (∀ e ∈ events, Documented e) → Conserved self.projectId self.conf.volumeSupport events := by
  unfold createShardedInstances
  refine logs_bind (logs_validateShardedGrowth self instances) fun asked checked hchecked => ?_
  obtain ⟨groups, routers⟩ := asked
  refine logs_bind (logs_createShards self locality imageId _ groups) fun _ shards hshards => ?_
  refine logs_bind (logs_createAll _) fun _ creations hcreations => logs_pure fun hdoc => ?_
  obtain ⟨nodes, volumes, pre, hperm, rfl, hpre, hvolume⟩ := hchecked
  obtain ⟨news, hnews, hsizes⟩ := hshards
  have hrouters : (grownRouters self locality imageId routers).map NewInstance.volumeSize =
      routers.map Node.volumeSize := sizes_of_zipIdx Node.volumeSize (fun _ => rfl) _ _
  have hall : ((news ++ grownRouters self locality imageId routers).map
      NewInstance.volumeSize).Perm (nodes.map Node.volumeSize) := by
    rw [List.map_append, hsizes, hrouters, ← List.map_append]
    exact hperm.map _
  have hconserved := conserved_of_sizes self.projectId hpre (hnews.append hcreations) hall
    (hdoc _ (List.mem_append_left _ (List.mem_append_left _ hvolume)))
  rw [List.length_map] at hconserved
  simpa only [List.append_assoc, List.cons_append, List.nil_append, List.append_nil]
    using hconserved

end Grow

theorem logs_growSharded (self : MongoDbCluster) (existing : List Instance)
    (instances : List Node) (imageId : Option String) :
    Logs (growSharded self existing instances imageId) fun _ events =>
      (∀ e ∈ events, Documented e) → Conserved self.projectId self.conf.volumeSupport events := by
  unfold growSharded validateClusterAvailable
  refine logs_rejectIf_bind fun _ => ?_
  refine logs_bind (logs_ask_idle rfl rfl) fun locality hint hhint => ?_
  refine logs_bind (logs_exceptException
    (logs_createShardedInstances self locality imageId existing instances) fun x =>
      logs_bind (logs_ask_idle rfl rfl) fun _ _ _ => logs_raise x) fun newIds created hcreated => ?_
  refine logs_bind (logs_ask_idle rfl rfl) fun _ update hupdate => ?_
  refine (logs_ask_idle rfl rfl).mono fun _ cast hcast hdoc => ?_
  obtain ⟨before, count, volumes, after, rfl, hbefore, hafter, hcount, hsum, hsome⟩ :=
    hcreated fun e he => hdoc e (by simp [he])
  have hidle : ∀ e ∈ update ++ cast, Event.Idle e := fun e he =>
    (List.mem_append.1 he).elim (hupdate e) (hcast e)
  have hnews : newsOf (after ++ (update ++ cast)) = newsOf after := by
    rw [newsOf_append, newsOf_idle hidle, List.append_nil]
  refine ⟨hint ++ before, count, volumes, after ++ (update ++ cast), ?_, ?_, ?_, ?_, ?_, hsome⟩
  · simp
  · exact fun e he => (List.mem_append.1 he).elim (hhint e) (hbefore e)
  · exact fun e he => (List.mem_append.1 he).elim (hafter e) fun h => (hidle e h).2
  · rw [hnews, hcount]
  · rw [hnews, hsum]

/-! ### Accepted requests -/

/-- An accepted request to create or to grow a sharded cluster creates what its quota check
was asked about, if the stock functions do what they are known to do. -/
theorem quotas_conserved :
    (∀ r s id s', Exec world (createSharded r) s (.value id) s' →
      ∃ events, s'.log = s.log ++ events ∧ ((∀ e ∈ events, Documented e) →
        Conserved r.projectId r.conf.volumeSupport events)) ∧
    ∀ self existing instances imageId s s',
      Exec world (growSharded self existing instances imageId) s (.value ()) s' →
        ∃ events, s'.log = s.log ++ events ∧ ((∀ e ∈ events, Documented e) →
          Conserved self.projectId self.conf.volumeSupport events) :=
  ⟨fun r s id s' => (logs_createSharded r s.log).value s rfl id s',
    fun self existing instances imageId s s' =>
      (logs_growSharded self existing instances imageId s.log).value s rfl () s'⟩

section Example

private def createdShard : Outcome Error String × Run :=
  Surroundings.run {} (createSharded oneShard) ⟨[], []⟩

private def grownShard : Outcome Error Unit × Run :=
  Surroundings.run {} (growSharded (loadedCluster "cluster5") [] shardNodes none) ⟨[], []⟩

private theorem documented_createdShard : createdShard.2.log.Forall Documented :=
  show True ∧ (∀ a ∈ oneShard.instances, ∀ b ∈ oneShard.instances, a.volumeSize = b.volumeSize) ∧
    True ∧ some 50 = some 50 ∧ True ∧ True ∧ True ∧ True ∧ True ∧ True ∧ True ∧ True ∧ True from
  ⟨trivial, by decide, trivial, rfl, trivial, trivial, trivial, trivial, trivial,
    trivial, trivial, trivial, trivial⟩

private theorem documented_grownShard : grownShard.2.log.Forall Documented :=
  show True ∧ True ∧ (∀ a ∈ shardNodes, ∀ b ∈ shardNodes, a.volumeSize = b.volumeSize) ∧ True ∧
    some 20 = some 20 ∧ True ∧ True ∧ True ∧ True ∧ True ∧ True from
  ⟨trivial, trivial, by decide, trivial, rfl, trivial, trivial, trivial, trivial,
    trivial, trivial⟩

/-- A cluster of one shard, and a second shard for it. -/
theorem quotas_conserved_shards :
    Conserved "p1" true createdShard.2.log ∧ Conserved "p1" true grownShard.2.log := by
  obtain ⟨events, hlog, hconserved⟩ := quotas_conserved.1 oneShard ⟨⟨[], []⟩, []⟩ "cluster5"
    createdShard.2 (Surroundings.exec {} (createSharded oneShard) ⟨[], []⟩)
  obtain ⟨events', hlog', hconserved'⟩ := quotas_conserved.2 (loadedCluster "cluster5") []
    shardNodes none ⟨⟨[], []⟩, []⟩ grownShard.2
    (Surroundings.exec {} (growSharded (loadedCluster "cluster5") [] shardNodes none) ⟨[], []⟩)
  rw [List.nil_append] at hlog hlog'
  subst hlog hlog'
  exact ⟨hconserved (List.forall_iff_forall_mem.1 documented_createdShard),
    hconserved' (List.forall_iff_forall_mem.1 documented_grownShard)⟩

end Example

end Yggdrasil.Mongo
