import Yggdrasil.Inventory.Evidence

/-! Where the objects of a provider come from: each listing of both providers gives a reason
to keep its objects, so a collection is sound for every property that the reasons give. -/

namespace Yggdrasil.Inventory

open Combination Effect Effect.Program Python

variable {cloud : Cloud} {K : Request → Prop} {Q : Claim} {project : Project} {names : List String}
  {c : Collected}

/-! ### The builtin provider -/

section Builtin

variable {p : BuiltinProvider} {spec : Spec}

abbrev BuiltinProvider.request (p : BuiltinProvider) (name : String) (c : ResourceClass)
    (path query : List (String × Value)) : Request :=
  ⟨p.connection, p.service, name, some c, path, query⟩

/-- The provider makes requests for the listable types of its registry. -/
def BuiltinProvider.Makes (p : BuiltinProvider) (r : Request) : Prop :=
  r.service = p.service ∧ ∃ c, r.resourceClass = some c ∧ (r.resource, c) ∈ p.resources

theorem mem_specs {f : Spec → Bool} : spec ∈ (p.resources.map specOf).filter f ↔
    (spec.name, spec.resourceClass) ∈ p.resources ∧
      spec.placeholders = resourcePlaceholders spec.resourceClass ∧ f spec = true := by
  simp only [List.mem_filter, List.mem_map]
  constructor
  · rintro ⟨⟨e, he, rfl⟩, hf⟩
    exact ⟨he, rfl, hf⟩
  · intro ⟨hm, hp, hf⟩
    refine ⟨⟨(spec.name, spec.resourceClass), hm, ?_⟩, hf⟩
    rw [specOf, ← hp]

theorem mem_directSpecs : spec ∈ p.directSpecs ↔
    (spec.name, spec.resourceClass) ∈ p.resources ∧
      spec.placeholders = resourcePlaceholders spec.resourceClass ∧ p.isDirect spec = true := by
  rw [BuiltinProvider.directSpecs, List.mem_insertionSort, mem_specs]

theorem mem_nestedSpecs : spec ∈ p.nestedSpecs ↔
    (spec.name, spec.resourceClass) ∈ p.resources ∧
      spec.placeholders = resourcePlaceholders spec.resourceClass ∧ p.isNested spec = true := by
  rw [BuiltinProvider.nestedSpecs, List.mem_insertionSort, mem_specs]

theorem nodup_resources : (p.resources.map Prod.fst).Nodup :=
  p.registry.nodup.sublist (List.filter_sublist.map Prod.fst)

/-- The class of a nested type has path parameters. -/
theorem placeholders_of_nested {resourceClass : ResourceClass}
    (hm : (spec.name, resourceClass) ∈ p.resources) (hspec : spec ∈ p.nestedSpecs) :
    resourcePlaceholders resourceClass ≠ [] := by
  obtain ⟨hspec, hp, hn⟩ := mem_nestedSpecs.1 hspec
  have hclass : resourceClass = spec.resourceClass := by
    have h₁ := Dict.get?_of_mem nodup_resources hm
    have h₂ := Dict.get?_of_mem nodup_resources hspec
    exact Option.some.inj (h₁.symm.trans h₂)
  rw [hclass, ← hp]
  intro he
  simp [BuiltinProvider.isNested, he] at hn

theorem nodup_specs {f : Spec → Bool} {r : Spec → Spec → Prop} [DecidableRel r] :
    ((((p.resources.map specOf).filter f).insertionSort r).map Spec.name).Nodup := by
  rw [((List.perm_insertionSort r _).map Spec.name).nodup_iff]
  refine List.Nodup.sublist (List.filter_sublist.map Spec.name) ?_
  rw [List.map_map]
  exact nodup_resources

theorem triple_listAll (name : String) (resourceClass : ResourceClass) (path query : List (String × Value)) :
    Triple True (fun _ => True) (listAll cloud p name resourceClass path query)
      (fun objects t => Listed t (p.request name resourceClass path query) objects) (fun _ _ => True) := by
  unfold listAll
  refine triple_ite (fun _ => triple_throw fun _ _ => trivial) fun _ => ?_
  refine triple_bind (M := fun answer t => .listing (p.request name resourceClass path query) answer ∈ t)
    (triple_send fun t _ => by simp) fun answer => ?_
  cases answer with
  | objects items => exact triple_pure fun _ h => .inr h
  | nothing => exact triple_pure fun _ _ => .inl rfl
  | failed yielded error => exact triple_throw fun _ _ => trivial

theorem triple_listWithProjectFilterFallback (name : String) (resourceClass : ResourceClass)
    (path filter : List (String × Value)) :
    Triple True (fun _ => True) (listWithProjectFilterFallback cloud p name resourceClass path filter)
      (fun objects t => ∃ query, Listed t (p.request name resourceClass path query) objects)
      (fun _ _ => True) := by
  unfold listWithProjectFilterFallback
  refine triple_handle (M := fun _ _ => True) ((triple_listAll name resourceClass path filter).consequence
    (fun _ => id) (fun _ _ h => ⟨filter, h⟩) fun _ _ => id) fun x => ?_
  cases x with
  | other message => exact triple_throw fun _ _ => trivial
  | inventory kind message =>
    refine triple_ite (fun _ => triple_throw fun _ _ => trivial) fun _ => ?_
    exact (triple_listAll name resourceClass path []).consequence (fun _ => id) (fun _ _ h => ⟨[], h⟩)
      fun _ _ => id

/-- The objects of a listing for kept parents, once their owner is checked. -/
theorem Evidence.listed (hE : Evidence K Q p.service project)
    (hK : ∀ path query, K (p.request spec.name spec.resourceClass path query))
    {t : List Event} {path query : List (String × Value)} {objects : List Value}
    (hpath : FromParents (Q t) path)
    (h : Listed t (p.request spec.name spec.resourceClass path query) objects) :
    ∀ o ∈ objects, belongsToProject o project.projectId = true → Q t spec.name o := by
  intro o ho hb
  rcases h with h | h
  · simp [h] at ho
  · exact hE.checked t _ objects o h (hK path query) hpath ho hb

theorem fromParents_of_parentKwargs {P : String → Value → Prop} {placeholders : List String}
    {combination : List Value} {parents filter : List (String × Value)}
    (h : parentKwargs placeholders combination = some parents)
    (hP : ∀ parent ∈ combination, ∃ name, P name parent) :
    FromParents P (withoutKeys parents filter) := by
  intro kv hkv
  have hmem : kv ∈ parents := (List.mem_filter.1 hkv).1
  simp only [parentKwargs] at h
  split_ifs at h
  simp only [Option.some.injEq] at h
  subst h
  rcases Dict.mem_update hmem with hm | hm
  · simp at hm
  · obtain ⟨placeholder, _, parent, hparent, rfl⟩ := exists_of_mem_zipWith hm
    obtain ⟨name, hp⟩ := hP parent hparent
    exact ⟨name, parent, hp, .inl rfl⟩

theorem mem_of_parentOption {parents : List (String × List Value)} {placeholder : String}
    {objects : List Value} (h : parentOption parents placeholder = some objects) :
    ∃ name, normalizedName name = parentName placeholder ∧ (name, objects) ∈ parents := by
  simp only [parentOption, Option.map_eq_some_iff] at h
  obtain ⟨e, he, rfl⟩ := h
  exact ⟨e.1, by simpa using List.find?_some he, List.mem_of_find?_eq_some he⟩

/-- The parents of a combination are kept objects. -/
theorem Sound.parents {t : List Event} (hc : Sound Q names t c) {options : List (List Value)}
    {combination : List Value} (h : spec.placeholders.mapM (parentOption c.objects) = some options)
    (hm : combination ∈ product options) : ∀ parent ∈ combination, ∃ name, Q t name parent := by
  intro parent hparent
  obtain ⟨objects, hobjects, ho⟩ := mem_of_mem_product hm hparent
  obtain ⟨placeholder, _, hplaceholder⟩ := mem_of_mapM h hobjects
  obtain ⟨name, _, hentry⟩ := mem_of_parentOption hplaceholder
  exact ⟨name, hc.objects name objects hentry parent ho⟩

theorem triple_listCombination (hE : Evidence K Q p.service project)
    (hK : ∀ path query, K (p.request spec.name spec.resourceClass path query))
    {options : List (List Value)} {combination : List Value}
    (ho : spec.placeholders.mapM (parentOption c.objects) = some options)
    (hm : combination ∈ product options) (acc : List (List (String × String)) × List Value) :
    Triple True
      (fun t => Sound Q names t c ∧
        ∀ o ∈ acc.2, belongsToProject o project.projectId = true → Q t spec.name o)
      (listCombination cloud p spec project.projectId acc combination)
      (fun acc t => Sound Q names t c ∧
        ∀ o ∈ acc.2, belongsToProject o project.projectId = true → Q t spec.name o)
      (fun _ t => Sound Q names t c) := by
  unfold listCombination
  cases hk : parentKwargs spec.placeholders combination with
  | none => exact triple_pure fun _ => id
  | some parents =>
    refine triple_ite (fun _ => triple_pure fun _ => id) fun _ => ?_
    refine triple_bind (((triple_listWithProjectFilterFallback spec.name spec.resourceClass
      (withoutKeys parents (projectKwargs spec.resourceClass project.projectId))
      (projectKwargs spec.resourceClass project.projectId)).keep
        (I := fun t => Sound Q names t c ∧
          ∀ o ∈ acc.2, belongsToProject o project.projectId = true → Q t spec.name o)
        fun t s h => ⟨hE.sound_append h.1 s, fun o ho hb => hE.mono t s _ o (h.2 o ho hb)⟩).consequence
      (fun _ => id) (fun _ _ => id) fun _ _ h => h.2.1) fun objects => ?_
    refine triple_pure fun t ⟨⟨query, hl⟩, hc, hacc⟩ => ⟨hc, fun o hmem hb => ?_⟩
    rcases List.mem_append.1 hmem with hmem | hmem
    · exact hacc o hmem hb
    · exact hE.listed hK (fromParents_of_parentKwargs hk (hc.parents ho hm)) hl o hmem hb

theorem mem_ownedBy {projectId : String} {objects : List Value} {o : Value} :
    o ∈ ownedBy projectId objects ↔ o ∈ objects ∧ belongsToProject o projectId = true :=
  List.mem_filter

theorem triple_listSpec (hE : Evidence K Q p.service project)
    (hK : ∀ path query, K (p.request spec.name spec.resourceClass path query)) :
    Triple True (fun t => Sound Q names t c)
      (listSpec cloud p spec project.projectId c.objects)
      (fun objects t => Sound Q names t c ∧ ∀ o ∈ objects, Q t spec.name o)
      (fun _ t => Sound Q names t c) := by
  unfold listSpec
  refine triple_ite (fun _ => ?_) fun _ => ?_
  · refine triple_bind (((triple_listWithProjectFilterFallback spec.name spec.resourceClass []
      (projectKwargs spec.resourceClass project.projectId)).keep (I := fun t => Sound Q names t c)
        fun t s h => hE.sound_append h s).consequence (fun _ => id) (fun _ _ => id)
      fun _ _ h => h.2) fun objects => ?_
    refine triple_pure fun t ⟨⟨query, hl⟩, hc⟩ => ⟨hc, fun o hmem => ?_⟩
    obtain ⟨hmem, hb⟩ := mem_ownedBy.1 hmem
    exact hE.listed hK (fun kv hkv => by simp at hkv) hl o hmem hb
  · cases ho : spec.placeholders.mapM (parentOption c.objects) with
    | none => exact triple_pure fun t h => ⟨h, by simp⟩
    | some options =>
      refine triple_ite (fun _ => triple_pure fun t h => ⟨h, by simp⟩) fun _ => ?_
      refine triple_bind ((triple_foldlM (fun acc combination hm =>
        triple_listCombination hE hK ho hm acc) ([], [])).consequence (fun t h => ⟨h, by simp⟩)
        (fun _ _ => id) fun _ _ => id) fun acc => ?_
      refine triple_pure fun t ⟨hc, hacc⟩ => ⟨hc, fun o hmem => ?_⟩
      obtain ⟨hmem, hb⟩ := mem_ownedBy.1 hmem
      exact hacc o hmem hb

theorem triple_collectSpec {strict : Bool} (hE : Evidence K Q p.service project)
    (hK : ∀ path query, K (p.request spec.name spec.resourceClass path query)) :
    Triple True (fun t => Sound Q names t c)
      (collectSpec cloud p strict project.projectId c spec)
      (fun c' t => Sound Q names t c ∧ Stores Q t spec.name c c') (fun _ _ => True) := by
  unfold collectSpec
  refine triple_bind (triple_tolerate ((triple_listSpec hE hK).consequence (fun _ => id)
    (fun _ _ => id) fun _ t h s => ⟨hE.sound_append h s, by simp⟩)) fun objects => ?_
  exact (triple_store fun t h => h.2).consequence (fun _ => id) (fun _ _ h => ⟨h.1.1, h.2⟩)
    fun _ _ => id

theorem triple_projectRecord (hE : Evidence K Q p.service project) :
    Triple True (fun _ => True) (projectRecord p project) (fun c t => Sound Q [] t c)
      (fun _ _ => True) := by
  unfold projectRecord
  refine triple_ite (fun hs => ?_) fun _ => triple_pure fun _ _ => sound_empty
  refine triple_bind (M := fun entry _ => resourceToDict project.raw = some entry)
    (triple_ofOption fun entry _ he _ => he) fun entry => triple_pure fun t he => ?_
  have hraw : Q t "project" project.raw := hE.record t hs
  refine ⟨fun name objects hm => ?_, fun name entries hm => ?_, by simp⟩
  · simp only [List.mem_singleton, Prod.mk.injEq] at hm
    simpa [hm] using hraw
  · simp only [List.mem_singleton, Prod.mk.injEq] at hm
    obtain ⟨rfl, rfl⟩ := hm
    exact fun entry' he' => ⟨project.raw, hraw, .inl (he.trans (by rw [List.mem_singleton.1 he']))⟩

theorem triple_dropByIds {ids : List String} {name key : String} :
    Triple True (fun t => Sound Q names t c) (dropByIds ids name key c)
      (fun c t => Sound Q names t c) (fun _ _ => True) := by
  unfold dropByIds
  exact (triple_store fun t hc o ho => hc.get o (List.mem_filter.1 ho).1).consequence
    (fun _ => id) (fun _ _ h => (h.1.stores h.2).fewer (by simp +contextual)) fun _ _ => id

theorem triple_excludeDefaultSecurityGroup :
    Triple True (fun t => Sound Q names t c) (excludeDefaultSecurityGroup p c)
      (fun c t => Sound Q names t c) (fun _ _ => True) := by
  unfold excludeDefaultSecurityGroup
  refine triple_ite (fun _ => triple_pure fun _ => id) fun _ => ?_
  refine triple_bind triple_dropByIds fun c => ?_
  exact triple_ite (fun _ => triple_dropByIds) fun _ => triple_pure fun _ => id

theorem triple_collectDirect {strict : Bool} (hE : Evidence K Q p.service project)
    (hK : ∀ spec ∈ p.directSpecs, ∀ path query,
      K (p.request spec.name spec.resourceClass path query)) :
    Triple True (fun _ => True) (collectDirect cloud p strict project)
      (fun c t => Sound Q (p.directSpecs.map Spec.name) t c) (fun _ _ => True) := by
  unfold collectDirect
  refine triple_bind (triple_projectRecord hE) fun c => ?_
  refine triple_bind (triple_foldlM_done (I := fun done c t => Sound Q (done.map Spec.name) t c)
    (fun pre spec post c he => ?_) c) fun c => ?_
  · have hspec : spec ∈ p.directSpecs := by
      rw [he]
      simp
    rw [List.map_append]
    exact (triple_collectSpec hE (hK spec hspec)).consequence (fun _ => id)
      (fun _ _ h => h.1.stores h.2) fun _ _ => id
  · refine triple_bind triple_excludeDefaultSecurityGroup fun c => ?_
    exact triple_filterRelated

theorem makes_request {name : String} {resourceClass : ResourceClass}
    {path query : List (String × Value)} (h : (name, resourceClass) ∈ p.resources) :
    p.Makes (p.request name resourceClass path query) :=
  ⟨rfl, resourceClass, rfl, h⟩

/-- Containers that are no direct type are listed without a check. -/
theorem unchecked_container {resourceClass : ResourceClass} (hs : p.service = "object-store")
    (hm : ("container", resourceClass) ∈ p.resources)
    (hn : "container" ∉ p.directSpecs.map Spec.name) :
    (p.request "container" resourceClass [] []).Unchecked := by
  refine ⟨hs, rfl, rfl, resourceClass, rfl, fun ⟨hf, hp⟩ => hn ?_⟩
  refine List.mem_map.2 ⟨specOf ("container", resourceClass), mem_directSpecs.2 ⟨hm, rfl, ?_⟩, rfl⟩
  have he : excluded "object-store" "container" = false := by decide
  simp [BuiltinProvider.isDirect, specOf, hs, he, hf, hp]

theorem triple_collectContainers {strict : Bool} {resourceClass : ResourceClass}
    (hE : Evidence p.Makes Q p.service project) (hs : p.service = "object-store")
    (hm : ("container", resourceClass) ∈ p.resources) :
    Triple True (fun t => Sound Q (p.directSpecs.map Spec.name) t c)
      (collectContainers cloud p strict resourceClass c) (fun c t => Sound Q [] t c)
      (fun _ _ => True) := by
  unfold collectContainers
  refine triple_ite (fun _ => triple_pure fun t hc => hc.fewer (by simp)) fun hn => ?_
  refine triple_bind (M := fun containers t => Sound Q (p.directSpecs.map Spec.name) t c ∧
      ∀ o ∈ containers, Q t "container" o)
    (triple_tolerate (((triple_listAll "container" resourceClass [] []).keep
      (I := fun t => Sound Q (p.directSpecs.map Spec.name) t c)
      fun t s h => hE.sound_append h s).consequence (fun _ => id)
        (fun containers t ⟨hl, hc⟩ => ⟨hc, fun o ho => ?_⟩)
        fun _ t h s => ⟨hE.sound_append h.2 s, by simp⟩)) fun containers => ?_
  · rcases hl with hl | hl
    · simp [hl] at ho
    · exact hE.container t _ containers o hl (makes_request hm)
        (unchecked_container hs hm fun hmem => hn (hc.keys _ hmem)) ho
  · exact (triple_store fun t h => h.2).consequence (fun _ => id)
      (fun _ _ h => (h.1.1.stores h.2).fewer (by simp)) fun _ _ => id

theorem triple_collectContainer {strict : Bool} {resourceClass : ResourceClass} {container : Value}
    (hE : Evidence p.Makes Q p.service project) (hs : p.service = "object-store")
    (hm : ("object", resourceClass) ∈ p.resources)
    (hcontainer : container ∈ (Dict.get? c.objects "container").getD []) (entries : List Mapping) :
    Triple True (fun t => Sound Q names t c ∧ Backed Q t "object" entries)
      (collectContainer cloud p strict resourceClass entries container)
      (fun entries t => Sound Q names t c ∧ Backed Q t "object" entries) (fun _ _ => True) := by
  unfold collectContainer
  refine triple_ite (fun _ => triple_pure fun _ => id) fun _ => ?_
  refine triple_bind (M := fun objects t => (Sound Q names t c ∧ Backed Q t "object" entries) ∧
      ∀ o ∈ objects, Q t "object" o)
    (triple_tolerate (((triple_listAll "object" resourceClass
      [("container", resourceAttr container "container")] []).keep
        (I := fun t => Sound Q names t c ∧ Backed Q t "object" entries)
        fun t s h => ⟨hE.sound_append h.1 s, hE.backed_append h.2 s⟩).consequence
      (fun _ => id) (fun objects t ⟨hl, hc⟩ => ⟨hc, fun o ho => ?_⟩)
      fun _ t h s => ⟨⟨hE.sound_append h.2.1 s, hE.backed_append h.2.2 s⟩, by simp⟩)) fun objects => ?_
  · rcases hl with hl | hl
    · simp [hl] at ho
    · refine hE.child t _ _ o hl (makes_request hm) (.inr ⟨hs, rfl, rfl⟩) (by simp) (fun kv hkv => ?_) ho
      rw [List.mem_singleton] at hkv
      exact ⟨"container", container, hc.1.get container hcontainer, .inl (by rw [hkv])⟩
  · refine triple_bind (M := fun added t => (Sound Q names t c ∧ Backed Q t "object" entries) ∧
        Backed Q t "object" added)
      (triple_ofOption fun added t ha ⟨hc, ho⟩ => ⟨hc, fun entry he => ?_⟩) fun added => ?_
    · obtain ⟨o, hmem, hentry⟩ := mem_of_mapM ha he
      exact ⟨o, ho o hmem, .inr ⟨_, hentry⟩⟩
    · refine triple_pure fun t ⟨hc, ha⟩ => ⟨hc.1, fun entry he => ?_⟩
      exact (List.mem_append.1 he).elim (hc.2 entry) (ha entry)

theorem triple_collectObjectStore {strict : Bool} (hE : Evidence p.Makes Q p.service project) :
    Triple True (fun t => Sound Q (p.directSpecs.map Spec.name) t c)
      (collectObjectStore cloud p strict c) (fun c t => Sound Q [] t c) (fun _ _ => True) := by
  unfold collectObjectStore
  refine triple_ite (fun _ => triple_pure fun t hc => hc.fewer (by simp)) fun hs => ?_
  have hs := not_not.1 hs
  split
  · rename_i container object hcontainer hobject
    refine triple_bind (triple_collectContainers hE hs (Dict.mem_of_get? hcontainer)) fun c => ?_
    refine triple_bind ((triple_foldlM (fun entries container hm => triple_collectContainer hE hs
      (Dict.mem_of_get? hobject) hm entries) []).consequence (fun t h => ⟨h, fun entry he => by simp at he⟩)
      (fun _ _ => id) fun _ _ => id) fun entries => ?_
    exact triple_pure fun t h => h.1.setResult h.2
  · refine triple_bind (M := fun _ t => Sound Q (p.directSpecs.map Spec.name) t c)
      (triple_emit fun t h => hE.sound_append h _) fun _ => ?_
    exact triple_ite (fun _ => triple_throw fun _ _ => trivial) fun _ =>
      triple_pure fun t hc => hc.fewer (by simp)

/-- What every listing of a nested type keeps, the loop over the nested types keeps. -/
theorem triple_nestedLoop {strict : Bool} {projectId : String} {I : Collected → List Event → Prop}
    (hstep : ∀ c, ∀ spec ∈ p.nestedSpecs, Triple True (I c)
      (collectSpec cloud p strict projectId c spec) I (fun _ _ => True))
    (fuel : ℕ) (pending : List Spec) (hpending : ∀ spec ∈ pending, spec ∈ p.nestedSpecs) :
    Triple True (I c) (nestedLoop cloud p strict projectId fuel c pending) I (fun _ _ => True) := by
  induction fuel generalizing c pending with
  | zero => exact triple_pure fun _ => id
  | succ fuel ih =>
    rw [nestedLoop]
    refine triple_ite (fun _ => triple_pure fun _ => id) fun _ => ?_
    refine triple_bind (M := fun (s : Pass) t => I s.collected t ∧
        ∀ spec ∈ s.remaining, spec ∈ p.nestedSpecs)
      ((triple_foldlM (I := fun (s : Pass) t => I s.collected t ∧
        ∀ spec ∈ s.remaining, spec ∈ p.nestedSpecs) (fun s spec hspec => ?_) ⟨c, [], false⟩).consequence
        (fun t h => ⟨h, by simp⟩) (fun _ _ => id) fun _ _ => id) fun s => ?_
    · have hnested := hpending spec hspec
      unfold nestedStep
      refine triple_ite (fun _ => ?_) fun _ => triple_pure fun t h => ⟨h.1, fun spec' hm => ?_⟩
      · refine triple_intro fun t h => ?_
        exact triple_bind ((hstep s.collected spec hnested).consequence (fun u hu => hu ▸ h.1)
          (fun _ _ => id) fun _ _ => id) fun c => triple_pure fun u hc => ⟨hc, h.2⟩
      · rcases List.mem_append.1 hm with hm | hm
        · exact h.2 spec' hm
        · rwa [List.mem_singleton.1 hm]
    · refine triple_ite (fun _ => ?_) fun _ => triple_pure fun t h => h.1
      exact triple_intro fun t h => (ih s.remaining h.2).consequence (fun u hu => hu ▸ h.1)
        (fun _ _ => id) fun _ _ => id

theorem triple_collectSpec_nested {strict : Bool} (hE : Evidence p.Makes Q p.service project)
    (hspec : spec ∈ p.nestedSpecs) :
    Triple True (fun t => Sound Q [] t c) (collectSpec cloud p strict project.projectId c spec)
      (fun c' t => Sound Q [] t c ∧ Stores Q t spec.name c c') (fun _ _ => True) :=
  triple_collectSpec hE fun _ _ => makes_request (mem_nestedSpecs.1 hspec).1

theorem triple_collectAll {strict : Bool} (hE : Evidence p.Makes Q p.service project) :
    Triple True (fun _ => True) (p.collectAll cloud strict project) (fun c t => Sound Q [] t c)
      (fun _ _ => True) := by
  unfold BuiltinProvider.collectAll
  refine triple_bind (triple_collectDirect hE fun spec hspec path query =>
    makes_request (mem_directSpecs.1 hspec).1) fun c => ?_
  refine triple_bind (triple_collectObjectStore hE) fun c => ?_
  exact triple_nestedLoop (fun c spec hspec => (triple_collectSpec_nested hE hspec).consequence
    (fun _ => id) (fun _ _ h => (h.1.stores h.2).fewer (by simp)) fun _ _ => id) _ _ fun _ => id

end Builtin

/-! ### The legacy provider -/

section Legacy

variable {p : LegacyProvider} {m : Manager}

/-- The provider makes requests for the managers of its client, with parents where the list
method requires arguments. -/
def LegacyProvider.Makes (p : LegacyProvider) (r : Request) : Prop :=
  r.service = p.service ∧ r.resourceClass = none ∧
    ∃ m ∈ p.listable, m.name = r.resource ∧ (r.path = [] ↔ requiredParameters m.signature = [])

theorem nodup_listable : (p.listable.map Manager.name).Nodup := by
  refine List.Nodup.sublist (List.filter_sublist.map Manager.name) ?_
  rw [((List.perm_insertionSort _ p.client.managers).map Manager.name).nodup_iff]
  exact p.client.nodup

theorem nodup_managers : (p.managers.map Manager.name).Nodup :=
  nodup_listable.sublist (List.filter_sublist.map Manager.name)

/-- A nested manager is listed for parents. -/
theorem path_of_nested {r : Request} (hr : p.Makes r) (hm : m ∈ p.nestedManagers)
    (hn : m.name = r.resource) : r.path ≠ [] := by
  obtain ⟨_, _, m', hm', hn', hpath⟩ := hr
  obtain ⟨hm, hrequired⟩ := List.mem_filter.1 hm
  have hsame : m' = m := List.inj_on_of_nodup_map nodup_listable hm' hm (hn'.trans hn.symm)
  rw [Ne, hpath, hsame]
  simpa using hrequired

theorem triple_listManager (name : String) (kwargs : List (String × Value)) :
    Triple True (fun _ => True) (listManager cloud p name kwargs)
      (fun objects t => Listed t ⟨p.connection, p.service, name, none, [], kwargs⟩ objects)
      (fun _ _ => True) := by
  unfold listManager
  refine triple_bind (M := fun answer t =>
      .listing ⟨p.connection, p.service, name, none, [], kwargs⟩ answer ∈ t)
    (triple_send fun t _ => by simp) fun answer => ?_
  cases answer with
  | objects items => exact triple_pure fun _ h => .inr h
  | nothing => exact triple_pure fun _ _ => .inl rfl
  | failed yielded error => exact triple_throw fun _ _ => trivial

/-- A type without objects has no entries. -/
theorem stores_nil {t : List Event} {name : String} :
    Stores Q t name c ⟨Dict.set c.objects name [], c.result⟩ :=
  ⟨[], [], by simp, rfl, rfl, .inr ⟨rfl, rfl⟩⟩

theorem triple_keep {name : String} {objects : List Value} :
    Triple True (fun t => Sound Q names t c ∧ ∀ o ∈ objects, Q t name o) (keep c name objects)
      (fun c' t => Sound Q names t c ∧ Stores Q t name c c') (fun _ _ => True) := by
  unfold keep
  refine triple_ite (fun _ => triple_pure fun t h => ⟨h.1, stores_nil⟩) fun _ => ?_
  exact (triple_store fun t h => h.2).consequence (fun _ => id) (fun _ _ h => ⟨h.1.1, h.2⟩)
    fun _ _ => id

theorem makes_manager (hm : m ∈ p.managers) {query : List (String × Value)} :
    p.Makes ⟨p.connection, p.service, m.name, none, [], query⟩ := by
  obtain ⟨hl, hr⟩ := List.mem_filter.1 hm
  exact ⟨rfl, rfl, m, hl, rfl, by simpa using hr⟩

theorem triple_collectManager {strict : Bool} (hE : Evidence K Q p.service project)
    (hK : ∀ query, K ⟨p.connection, p.service, m.name, none, [], query⟩) :
    Triple True (fun t => Sound Q names t c)
      (collectManager cloud p strict project.projectId c m)
      (fun c' t => Sound Q names t c ∧ Stores Q t m.name c c') (fun _ _ => True) := by
  unfold collectManager
  refine triple_bind (M := fun objects t => Sound Q names t c ∧
      ∀ o ∈ objects, belongsToProject o project.projectId = true → Q t m.name o)
    (triple_tolerate (((triple_listManager m.name _).keep (I := fun t => Sound Q names t c)
      fun t s h => hE.sound_append h s).consequence (fun _ => id)
        (fun objects t ⟨hl, hc⟩ => ⟨hc, fun o ho hb => ?_⟩)
        fun _ t h s => ⟨hE.sound_append h.2 s, by simp⟩)) fun objects => ?_
  · rcases hl with hl | hl
    · simp [hl] at ho
    · exact hE.checked t _ objects o hl (hK _) (fun kv hkv => by simp at hkv) ho hb
  · refine triple_keep.consequence (fun t h => ⟨h.1, fun o ho => ?_⟩) (fun _ _ => id) fun _ _ => id
    obtain ⟨ho, hb⟩ := List.mem_filter.1 ho
    exact h.2 o ho hb

theorem triple_collectManagers {strict : Bool} (hE : Evidence K Q p.service project)
    (hK : ∀ m ∈ p.managers, ∀ query, K ⟨p.connection, p.service, m.name, none, [], query⟩) :
    Triple True (fun _ => True) (collectManagers cloud p strict project.projectId)
      (fun c t => Sound Q (p.managers.map Manager.name) t c) (fun _ _ => True) := by
  unfold collectManagers
  refine triple_bind ((triple_foldlM_done (I := fun done c t => Sound Q (done.map Manager.name) t c)
    (fun pre m post c he => ?_) ⟨[], []⟩).consequence
      (fun _ _ => sound_empty) (fun _ _ => id) fun _ _ => id) fun c => triple_filterRelated
  have hm : m ∈ p.managers := by
    rw [he]
    simp
  rw [List.map_append]
  exact (triple_collectManager hE (hK m hm)).consequence (fun _ => id) (fun _ _ h => h.1.stores h.2)
    fun _ _ => id

theorem mem_containedValues {container v : Value} {items : List Value}
    (h : v ∈ (containedValues container items).1) :
    ∃ o ∈ items, ∃ entry, containedEntry container o = some entry ∧ v = .dict entry := by
  induction items with
  | nil => simp [containedValues] at h
  | cons o items ih =>
    rw [containedValues] at h
    cases hentry : containedEntry container o with
    | none => simp [hentry] at h
    | some entry =>
      simp only [hentry] at h
      rcases List.mem_cons.1 h with he | h
      · exact ⟨o, by simp, entry, hentry, he⟩
      · obtain ⟨o', ho', hv⟩ := ih h
        exact ⟨o', by simp [ho'], hv⟩

/-- A value of a nested listing is an object of its answer, or the entry of one. -/
theorem mem_nestedValues {name : String} {container v : Value} {answer : Answer}
    (h : v ∈ (nestedValues p name container answer).1) :
    v ∈ answer.items ∨ p.service = "object-store" ∧
      ∃ o ∈ answer.items, ∃ entry, containedEntry container o = some entry ∧ v = .dict entry := by
  unfold nestedValues at h
  simp only at h
  split_ifs at h with hs
  · refine .inr ⟨?_, mem_containedValues h⟩
    simp only [isObjectStoreObject, Bool.and_eq_true, beq_iff_eq] at hs
    exact hs.1
  · exact .inl h

theorem zipWith_zipWith_self {α β γ δ : Type} (f : α → γ → δ) (g : α → β → γ) (l : List α)
    (l' : List β) : l.zipWith f (l.zipWith g l') = l.zipWith (fun a b => f a (g a b)) l' := by
  induction l generalizing l' with
  | nil => rfl
  | cons a l ih =>
    cases l' with
    | nil => rfl
    | cons b l' => simp [ih]

/-- The arguments of a manager for one combination of parents. -/
def parentArguments (m : Manager) (combination : List Value) : List Value :=
  (requiredParameters m.signature).zipWith (fun q resource => parentArgument resource q.name)
    combination

theorem path_nestedRequest (combination : List Value) :
    (nestedRequest p m (parentArguments m combination)).path =
      (requiredParameters m.signature).zipWith (fun q resource =>
        (q.name, parentArgument resource q.name)) combination :=
  zipWith_zipWith_self _ _ _ _

theorem arguments_nestedRequest (combination : List Value) :
    (nestedRequest p m (parentArguments m combination)).path.map Prod.snd =
      parentArguments m combination := by
  rw [path_nestedRequest, List.map_zipWith]
  rfl

theorem mem_of_parentValues {parameter : String} {parents : List (String × List Value)}
    {objects : List Value} (h : parentValues parameter parents = some objects) :
    ∃ name, isParent parameter name = true ∧ (name, objects) ∈ parents := by
  simp only [parentValues, Option.map_eq_some_iff] at h
  obtain ⟨e, he, rfl⟩ := h
  exact ⟨e.1, by simpa using List.find?_some he, List.mem_of_find?_eq_some he⟩

/-- A combination names one parent for each required parameter. -/
theorem length_combination {parents : List (String × List Value)} {options : List (List Value)}
    {combination : List Value}
    (h : (requiredParameters m.signature).mapM (fun q => parentValues q.name parents) = some options)
    (hm : combination ∈ product options) :
    combination.length = (requiredParameters m.signature).length :=
  (mem_product.1 hm).length_eq.trans (forall₂_of_mapM h).length_eq.symm

theorem path_nestedRequest_ne {combination : List Value} (hm : m ∈ p.nestedManagers)
    (hl : combination.length = (requiredParameters m.signature).length) :
    (nestedRequest p m (parentArguments m combination)).path ≠ [] := by
  have hr : requiredParameters m.signature ≠ [] := by simpa using (List.mem_filter.1 hm).2
  rw [path_nestedRequest]
  intro h
  rcases List.zipWith_eq_nil_iff.1 h with h | h
  · exact hr h
  · rw [h] at hl
    exact hr (List.length_eq_zero_iff.1 hl.symm)

theorem makes_nestedRequest {combination : List Value} (hm : m ∈ p.nestedManagers)
    (hl : combination.length = (requiredParameters m.signature).length) :
    p.Makes (nestedRequest p m (parentArguments m combination)) := by
  obtain ⟨hlistable, hr⟩ := List.mem_filter.1 hm
  refine ⟨rfl, rfl, m, hlistable, rfl, ?_⟩
  exact iff_of_false (path_nestedRequest_ne hm hl) (by simpa using hr)

/-- The parents of a combination are kept objects. -/
theorem Sound.fromParents {t : List Event} (hc : Sound Q names t c) {options : List (List Value)}
    {combination : List Value}
    (h : (requiredParameters m.signature).mapM (fun q => parentValues q.name c.objects) = some options)
    (hm : combination ∈ product options) :
    FromParents (Q t) (nestedRequest p m (parentArguments m combination)).path := by
  intro kv hkv
  rw [path_nestedRequest] at hkv
  obtain ⟨q, _, parent, hparent, rfl⟩ := exists_of_mem_zipWith hkv
  obtain ⟨objects, hobjects, ho⟩ := mem_of_mem_product hm hparent
  obtain ⟨q', _, hq⟩ := mem_of_mapM h hobjects
  obtain ⟨name, _, hentry⟩ := mem_of_parentValues hq
  exact ⟨name, parent, hc.objects name objects hentry parent ho, .inr rfl⟩

theorem triple_collectCombination {strict : Bool} (hE : Evidence p.Makes Q p.service project)
    (hm : m ∈ p.nestedManagers) {options : List (List Value)} {combination : List Value}
    (ho : (requiredParameters m.signature).mapM (fun q => parentValues q.name c.objects) = some options)
    (hcomb : combination ∈ product options) (acc : Nested) :
    Triple True (fun t => Sound Q names t c ∧ ∀ v ∈ acc.values, Q t m.name v)
      (collectCombination cloud p strict m acc combination)
      (fun acc t => Sound Q names t c ∧ ∀ v ∈ acc.values, Q t m.name v) (fun _ _ => True) := by
  unfold collectCombination
  refine triple_ite (fun _ => triple_pure fun _ => id) fun _ => ?_
  have hmakes := makes_nestedRequest (p := p) hm (length_combination ho hcomb)
  refine triple_bind (M := fun answer t => (Sound Q names t c ∧ ∀ v ∈ acc.values, Q t m.name v) ∧
      .listing (nestedRequest p m (parentArguments m combination)) answer ∈ t)
    (triple_send fun t h => ⟨⟨hE.sound_append h.1 _, fun v hv => hE.mono t _ _ v (h.2 v hv)⟩,
      by simp [parentArguments]⟩) fun answer => ?_
  have hvalues : ∀ t, Sound Q names t c →
      .listing (nestedRequest p m (parentArguments m combination)) answer ∈ t →
      ∀ v ∈ (nestedValues p m.name ((parentArguments m combination).headD .none) answer).1,
        Q t m.name v := by
    intro t hc hl v hv
    have hitems : ∀ o ∈ answer.items, Q t m.name o := by
      intro o ho'
      exact hE.child t _ answer o hl hmakes (.inl rfl)
        (path_nestedRequest_ne hm (length_combination ho hcomb)) (hc.fromParents ho hcomb) ho'
    rcases mem_nestedValues hv with hv | ⟨hs, o, hmem, entry, hentry, rfl⟩
    · exact hitems v hv
    · exact hE.contained t _ o _ entry hmakes rfl hs (hitems o hmem) hentry
  have hacc : ∀ t, ((Sound Q names t c ∧ ∀ v ∈ acc.values, Q t m.name v) ∧
      .listing (nestedRequest p m (parentArguments m combination)) answer ∈ t) →
      Sound Q names t c ∧ ∀ v ∈ acc.values ++
        (nestedValues p m.name ((parentArguments m combination).headD .none) answer).1,
        Q t m.name v := by
    intro t ⟨⟨hc, hv⟩, hl⟩
    exact ⟨hc, fun v hm => (List.mem_append.1 hm).elim (hv v) (hvalues t hc hl v)⟩
  dsimp only
  split
  · exact triple_pure hacc
  · refine triple_ite (fun _ => triple_pure hacc) fun _ => ?_
    refine triple_bind (M := fun _ t => Sound Q names t c ∧ ∀ v ∈ acc.values ++
        (nestedValues p m.name ((parentArguments m combination).headD .none) answer).1, Q t m.name v)
      (triple_emit fun t h => ⟨hE.sound_append (hacc t h).1 _,
        fun v hv => hE.mono t _ _ v ((hacc t h).2 v hv)⟩) fun _ => ?_
    exact triple_ite (fun _ => triple_throw fun _ _ => trivial) fun _ => triple_pure fun _ => id

theorem triple_collectNested {strict : Bool} (hE : Evidence p.Makes Q p.service project)
    (hm : m ∈ p.nestedManagers) (unlisted : List String) :
    Triple True (fun t => Sound Q names t c) (collectNested cloud p strict (c, unlisted) m)
      (fun s t => Sound Q names t c ∧ (s.1 = c ∨ Stores Q t m.name c s.1)) (fun _ _ => True) := by
  unfold collectNested
  dsimp only
  cases ho : (requiredParameters m.signature).mapM fun q => parentValues q.name c.objects with
  | none => exact triple_pure fun t h => ⟨h, .inl rfl⟩
  | some options =>
    refine triple_ite (fun _ => triple_pure fun t h => ⟨h, .inr stores_nil⟩) fun _ => ?_
    refine triple_bind ((triple_foldlM
      (I := fun (acc : Nested) t => Sound Q names t c ∧ ∀ v ∈ acc.values, Q t m.name v)
      (fun acc combination hcomb => triple_collectCombination hE hm ho hcomb acc)
      ⟨[], unlisted⟩).consequence (fun t h => ⟨h, by simp⟩) (fun _ _ => id) fun _ _ => id)
      fun nested => ?_
    exact triple_bind triple_keep fun c => triple_pure fun t h => ⟨h.1, .inr h.2⟩

theorem triple_complain {strict : Bool} {resources : List String} {x : Exc}
    (hE : Evidence K Q p.service project) :
    Triple True (fun t => Sound Q names t c) (complain strict resources x)
      (fun _ t => Sound Q names t c) (fun _ _ => True) := by
  unfold complain
  refine triple_bind (triple_foldlM (I := fun _ t => Sound Q names t c) (fun _ resource _ =>
    triple_emit fun t h => hE.sound_append h _) ()) fun _ => ?_
  exact triple_ite (fun _ => triple_throw fun _ _ => trivial) fun _ => triple_pure fun _ => id

theorem triple_collectAll_legacy {strict : Bool} (hE : Evidence p.Makes Q p.service project) :
    Triple True (fun _ => True) (p.collectAll cloud strict project) (fun c t => Sound Q [] t c)
      (fun _ _ => True) := by
  unfold LegacyProvider.collectAll
  refine triple_bind (M := fun _ _ => True) triple_true fun _ => ?_
  refine triple_bind (M := fun c t => Sound Q [] t c)
    ((triple_collectManagers hE fun m hm query => makes_manager hm).consequence (fun _ => id)
      (fun _ _ h => h.fewer (by simp)) fun _ _ => id) fun c => ?_
  refine triple_bind (triple_foldlM (I := fun (s : Collected × List String) t => Sound Q [] t s.1)
    (fun s m hm => (triple_collectNested hE hm s.2).consequence (fun _ => id)
      (fun _ _ h => h.2.elim (fun he => he ▸ h.1) fun hs => (h.1.stores hs).fewer (by simp))
      fun _ _ => id) (c, [])) fun s => ?_
  refine triple_bind (M := fun _ t => Sound Q [] t s.1) ?_ fun _ => triple_pure fun _ => id
  unfold checkUnlisted
  exact triple_ite (fun _ => triple_pure fun _ => id) fun _ => triple_complain hE

end Legacy

/-! ### Both providers -/

def Provider.service : Provider → String
  | .builtin p => p.service
  | .legacy p => p.service

def Provider.Makes : Provider → Request → Prop
  | .builtin p => p.Makes
  | .legacy p => p.Makes

theorem Provider.Makes.service {provider : Provider} {r : Request} (h : provider.Makes r) :
    r.service = provider.service := by
  cases provider with
  | builtin p => exact h.1
  | legacy p => exact h.1

/-- What a provider returns is backed by evidence. -/
theorem triple_collect {provider : Provider} {strict : Bool}
    (hE : Evidence provider.Makes Q provider.service project) :
    Triple True (fun _ => True) (provider.collect cloud strict project)
      (fun types t => ∀ name entries, (name, entries) ∈ types → Backed Q t name entries)
      (fun _ _ => True) := by
  cases provider with
  | builtin p =>
    exact triple_bind (triple_collectAll hE) fun c => triple_pure fun t hc => hc.result
  | legacy p =>
    exact triple_bind (triple_collectAll_legacy hE) fun c => triple_pure fun t hc => hc.result

end Yggdrasil.Inventory
