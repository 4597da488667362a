import Yggdrasil.Inventory.Provenance

/-! Isolation of projects. An object may enter the report of a project if the run shows that
it is the project's: its owner says so, the request that listed it was limited to the
project, or it is a child of such an object. A provider keeps an object without an owner
after any request, so the report is isolated when every request that nothing limits is
answered with objects that name their owner. -/

namespace Yggdrasil.Inventory

open Combination Effect Effect.Program Python

/-- The request is limited to the project, by its connection or by a filter. -/
def Request.Scoped (r : Request) (projectId : String) : Prop :=
  r.connection.currentProject = projectId ∨
    (∃ key ∈ projectKeys, (key, .str projectId) ∈ r.query) ∨
    ("filters", .record [("project_id", .str projectId)]) ∈ r.query

/-- The run shows that the object is the project's. -/
inductive Attributed (project : Project) (t : List Event) : Value → Prop
  | record : Attributed project t project.raw
  | owned {r : Request} {answer : Answer} {o : Value} : .listing r answer ∈ t → o ∈ answer.items →
      (projectValue o).isNone = false → text (projectValue o) = project.projectId →
      Attributed project t o
  | requested {r : Request} {answer : Answer} {o : Value} : .listing r answer ∈ t →
      o ∈ answer.items → r.Scoped project.projectId → Attributed project t o
  | child {r : Request} {answer : Answer} {o : Value} (parent : String × Value → Value) :
      .listing r answer ∈ t → o ∈ answer.items → r.path ≠ [] →
      (∀ kv ∈ r.path, Attributed project t (parent kv)) →
      (∀ kv ∈ r.path, Identifies (parent kv) kv) → Attributed project t o
  | contained {o container : Value} {entry : Mapping} : Attributed project t o →
      containedEntry container o = some entry → Attributed project t (.dict entry)

/-- Every entry of the report is one of an object that the run shows to be the project's. -/
def Report.Isolated (report : Report) (project : Project) (t : List Event) : Prop :=
  ∀ service types, (service, types) ∈ report.resources → ∀ name entries, (name, entries) ∈ types →
    ∀ entry ∈ entries, ∃ o, Attributed project t o ∧ EntryOf o entry

/-- The answer to a request that nothing limits to the project names the owner of each
object; where no owner is checked, it is the project. -/
def Event.Attributable (projectId : String) : Event → Prop
  | .listing r (.objects items) => r.Scoped projectId ∨ r.path ≠ [] ∨ ∀ o ∈ items,
      (projectValue o).isNone = false ∧ (r.Unchecked → text (projectValue o) = projectId)
  | _ => True

variable {project : Project} {t : List Event}

theorem Attributed.append {o : Value} (h : Attributed project t o) (s : List Event) :
    Attributed project (t ++ s) o := by
  induction h with
  | record => exact .record
  | owned hm ho hn hp => exact .owned (List.mem_append_left s hm) ho hn hp
  | requested hm ho hs => exact .requested (List.mem_append_left s hm) ho hs
  | child parent hm ho hp _ hi ih => exact .child parent (List.mem_append_left s hm) ho hp ih hi
  | contained _ he ih => exact .contained ih he

/-- What the listings of a run establish if their answers are attributable. -/
def Attribution (project : Project) : Claim := fun t _ o =>
  (∀ e ∈ t, e.Attributable project.projectId) → Attributed project t o

theorem attributed_of_parents {r : Request} {answer : Answer} {o : Value}
    (hm : .listing r answer ∈ t) (hr : r.path ≠ [])
    (hp : FromParents (Attribution project t) r.path) (ho : o ∈ answer.items)
    (ht : ∀ e ∈ t, e.Attributable project.projectId) : Attributed project t o := by
  choose! name parent hQ hi using hp
  exact .child parent hm ho hr (fun kv hkv => hQ kv hkv ht) hi

theorem evidence_attribution (K : Request → Prop) (service : String) :
    Evidence K (Attribution project) service project where
  mono t s name o h ht := (h fun e he => ht e (List.mem_append_left s he)).append s
  record t _ _ := .record
  checked t r items o hm _ hp ho hb ht := by
    rcases ht _ hm with hs | hr | hitems
    · exact .requested hm ho hs
    · exact attributed_of_parents hm hr hp ho ht
    · obtain ⟨hn, _⟩ := hitems o ho
      simp only [belongsToProject, hn, Bool.false_or, beq_iff_eq] at hb
      exact .owned hm ho hn hb
  child t r answer o hm _ _ hr hp ho ht := attributed_of_parents hm hr hp ho ht
  container t r items o hm _ hu ho ht := by
    rcases ht _ hm with hs | hr | hitems
    · exact .requested hm ho hs
    · exact absurd hu.2.2.1 hr
    · obtain ⟨hn, hp⟩ := hitems o ho
      exact .owned hm ho hn (hp hu)
  contained t r o container entry _ _ _ h he ht := .contained (h ht) he

/-! ### The inventory -/

/-- Every entry of the report is backed by evidence. -/
def Report.Backed (Q : Claim) (t : List Event) (report : Report) : Prop :=
  ∀ service types, (service, types) ∈ report.resources →
    ∀ name entries, (name, entries) ∈ types → Inventory.Backed Q t name entries

theorem Report.Backed.append {Q : Claim} {report : Report}
    (hE : ∀ K service, Evidence K Q service project) (h : report.Backed Q t) (s : List Event) :
    report.Backed Q (t ++ s) := fun service types hm name entries he =>
  (hE (fun _ => True) service).backed_append (h service types hm name entries he) s

theorem Report.Backed.set {Q : Claim} {report report' : Report} {service : String}
    {types : List (String × List Mapping)} (h : report.Backed Q t)
    (hr : report'.resources = Dict.set report.resources service types)
    (ht : ∀ name entries, (name, entries) ∈ types → Inventory.Backed Q t name entries) :
    report'.Backed Q t := by
  intro service' types' hm
  rw [hr] at hm
  rcases Dict.mem_set hm with he | hm
  · obtain ⟨rfl, rfl⟩ := Prod.mk.inj he
    exact ht
  · exact h service' types' hm

theorem triple_collectEndpoint {sdk : Sdk} {strict : Bool} {Q : Claim}
    (hE : ∀ K service, Evidence K Q service project) (report : Report)
    (entry : Endpoint × Provider) :
    Triple True (fun t => report.Backed Q t) (collectEndpoint sdk strict project report entry)
      (fun report t => report.Backed Q t) (fun _ _ => True) := by
  unfold collectEndpoint
  dsimp only
  refine triple_bind (M := fun r t => report.Backed Q t ∧ ∀ types, r.1 = .ok types →
      ∀ name entries, (name, entries) ∈ types → Backed Q t name entries)
    (triple_attempt ((triple_collect (hE _ _)).keep (I := fun t => report.Backed Q t)
      fun t s h => h.append hE s) (fun types s t h => ⟨h.2, fun types' he => ?_⟩)
      fun x s t h => ⟨h.2, by simp⟩) fun r => ?_
  · obtain rfl := Except.ok.inj he
    exact h.1
  · obtain ⟨outcome, events⟩ := r
    cases outcome with
    | ok types => exact triple_pure fun t h => h.1.set rfl (h.2 types rfl)
    | error x =>
      refine triple_ite (fun _ => triple_throw fun _ _ => trivial) fun _ => ?_
      exact triple_pure fun t h => h.1.set rfl (by simp)

theorem triple_inventory {sdk : Sdk} {endpoints : List Endpoint} {connection : Connection}
    {strict : Bool} {Q : Claim} (hE : ∀ K service, Evidence K Q service project) :
    Triple True (fun _ => True) (inventory sdk endpoints connection project strict)
      (fun report t => report.Backed Q t) (fun _ _ => True) := by
  unfold inventory
  refine triple_bind (M := fun _ _ => True) triple_true fun acc => ?_
  refine triple_ite (fun _ => triple_throw fun _ _ => trivial) fun _ => ?_
  exact (triple_foldlM (fun report entry _ => triple_collectEndpoint hE report entry) _).consequence
    (fun t _ service types hm => by simp at hm) (fun _ _ => id) fun _ _ => id

/-- In every run that answers each unlimited request with objects that name their owner, the
report is isolated. -/
theorem inventory_isolated {sdk : Sdk} {endpoints : List Endpoint} {connection : Connection}
    {strict : Bool} {s : List Event} {report : Report}
    (hrun : (inventory sdk endpoints connection project strict).run [] = (.value report, s))
    (hs : ∀ e ∈ s, e.Attributable project.projectId) : report.Isolated project s := by
  have hback : report.Backed (Attribution project) ([] ++ s) :=
    (triple_inventory fun K service => evidence_attribution K service).value trivial hrun
  rw [List.nil_append] at hback
  intro service types hm name entries he entry hentry
  obtain ⟨o, ho, heo⟩ := hback service types hm name entries he entry hentry
  exact ⟨o, ho hs, heo⟩

/-! ### An administrator's connection -/

def groupRegistry : Registry := ⟨[("group", ⟨"group", "/groups", true, [], []⟩)], by simp⟩

def adminConnection : Connection := ⟨"session", "admin"⟩

def volumeEndpoint : Endpoint :=
  ⟨"e1", "region", "cinder", "volumev3", "block-storage", "public", "https://cinder", true⟩

def tenant : Project := ⟨"p1", "tenant", .record [("id", .str "p1")]⟩

/-- A block-storage service that answers every request with one group. -/
def groupSdk (group : Value) : Sdk where
  answer _ _ := .objects [group]
  resolveProvider _ connection :=
    .ok (.builtin ⟨connection, "block-storage", "Proxy", true, groupRegistry⟩)
  connectAsProject connection _ := .ok connection
  connect _ := .ok adminConnection
  endpoints _ _ := .ok [volumeEndpoint]
  resolveProject _ _ := .ok tenant

def groupRequest : Request :=
  ⟨adminConnection, "block-storage", "group", some ⟨"group", "/groups", true, [], []⟩, [], []⟩

def groupReport (entry : Mapping) : Report :=
  ⟨tenant, [volumeEndpoint], [("block-storage", ⟨"openstacksdk", volumeEndpoint⟩)],
    [("block-storage", [("group", [entry])])], []⟩

def ownedGroup : Value := .record [("id", .str "g2"), ("project_id", .str "p1")]

theorem ownedGroup_isolated :
    (groupReport [(.str "id", .str "g2"), (.str "project_id", .str "p1")]).Isolated tenant
      [.listing groupRequest (.objects [ownedGroup])] :=
  inventory_isolated
    (show (inventory (groupSdk ownedGroup) [volumeEndpoint] adminConnection tenant true).run [] = _
      from rfl) (by
    intro e he
    rw [List.mem_singleton.1 he]
    refine .inr (.inr fun o ho => ?_)
    rw [List.mem_singleton.1 ho]
    exact ⟨by decide, fun _ => by decide⟩)

def strayGroup : Value := .record [("id", .str "g1")]

theorem run_strayGroup :
    (inventory (groupSdk strayGroup) [volumeEndpoint] adminConnection tenant true).run [] =
      (.value (groupReport [(.str "id", .str "g1")]),
        [.listing groupRequest (.objects [strayGroup])]) := by
  rfl

theorem attributed_tenant {o : Value}
    (h : Attributed tenant [.listing groupRequest (.objects [strayGroup])] o) :
    ∃ m, o = .dict m ∧ IsEntry [("id", "p1")] m := by
  induction h with
  | record => exact ⟨_, rfl, .inl rfl⟩
  | owned hm ho hn _ =>
    simp only [List.mem_singleton, Event.listing.injEq] at hm
    obtain ⟨rfl, rfl⟩ := hm
    rw [List.mem_singleton.1 ho] at hn
    exact absurd hn (by decide)
  | requested hm _ hs =>
    simp only [List.mem_singleton, Event.listing.injEq] at hm
    obtain ⟨rfl, rfl⟩ := hm
    exact absurd hs (by simp [Request.Scoped, groupRequest, adminConnection, tenant])
  | child _ hm _ hr _ _ _ =>
    simp only [List.mem_singleton, Event.listing.injEq] at hm
    obtain ⟨rfl, rfl⟩ := hm
    exact absurd rfl hr
  | contained _ he ih =>
    obtain ⟨m, rfl, hm⟩ := ih
    exact ⟨_, rfl, isEntry_entryOf (by decide) hm (.inr ⟨_, he⟩)⟩

/-- An administrator's group without an owner enters the report of another project. -/
theorem strayGroup_reported : ∃ (sdk : Sdk) (endpoints : List Endpoint) (connection : Connection)
    (project : Project) (strict : Bool) (s : List Event) (report : Report),
    connection.currentProject ≠ "" ∧ connection.currentProject ≠ project.projectId ∧
      (inventory sdk endpoints connection project strict).run [] = (.value report, s) ∧
      ¬report.Isolated project s := by
  refine ⟨groupSdk strayGroup, [volumeEndpoint], adminConnection, tenant, true, _, _, by decide,
    by decide, run_strayGroup, fun h => ?_⟩
  obtain ⟨o, ho, he⟩ := h "block-storage" [("group", [[(.str "id", .str "g1")]])]
    (by simp [groupReport]) "group" [[(.str "id", .str "g1")]] (by simp)
    [(.str "id", .str "g1")] (by simp)
  obtain ⟨m, rfl, hm⟩ := attributed_tenant ho
  rcases isEntry_entryOf (by decide) hm he with h | ⟨c, h⟩ <;> simp [stringRecord] at h

end Yggdrasil.Inventory
