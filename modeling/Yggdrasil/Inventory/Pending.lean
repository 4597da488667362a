import Yggdrasil.Inventory.Enumeration

/-! The nested types of the builtin provider in strict mode. Passes over the pending types list
each type whose parents have objects, and end with types that never become ready. -/

namespace Yggdrasil.Inventory

open Combination Effect Effect.Program Python

def Spec.nestedType (spec : Spec) : NestedType := ⟨spec.name, spec.placeholders⟩

namespace BuiltinProvider

variable (p : BuiltinProvider)

/-- How the provider reads its nested types. -/
def hierarchy : Hierarchy where
  types := p.nestedSpecs.map Spec.nestedType
  names q type := normalizedName type == parentName q
  identifier := resourceAttr
  missing
    | ⟨_, _, _, some c, _, _⟩, .failed _ error => isMissingResourceError
        ("listing SDK resource " ++ Python.reprStr c.key ++ " failed: " ++ error)
    | _, _ => false

/-- The project itself counts as a type of the identity service. -/
def recordNames : List String := if p.service = "identity" then ["project"] else []

/-- The object store has its containers, whatever their class says. -/
def containerNames : List String := if p.service = "object-store" then ["container"] else []

/-- The types that are listed without parents. -/
def baseNames : List String := p.recordNames ++ p.directSpecs.map Spec.name ++ p.containerNames

def typeNames : List String := p.baseNames ++ p.nestedSpecs.map Spec.name

/-- A type that can be listed: without parents, or for parents that can be listed. -/
inductive Grounded : String → Prop
  | base {name : String} : name ∈ p.baseNames → Grounded name
  | nested {spec : Spec} (parent : String → String) : spec ∈ p.nestedSpecs →
      (∀ q ∈ spec.placeholders, normalizedName (parent q) = parentName q) →
      (∀ q ∈ spec.placeholders, Grounded (parent q)) → Grounded spec.name

/-- The objects that a run may keep as parents: the project record, and the objects in the
answers for a type. -/
def Answers (project : Project) : Claim := fun t name o =>
  (p.service = "identity" ∧ name = "project" ∧ o = project.raw) ∨
    ∃ r answer, .listing r answer ∈ t ∧ r.resource = name ∧ o ∈ answer.items ∧
      (belongsToProject o project.projectId = true ∨ r.Unchecked ∨ name = "object")

/-- Every parent has the identifier that its children are listed by. -/
def Identifies (project : Project) (t : List Event) : Prop :=
  ∀ name o, p.Answers project t name o → ∀ spec ∈ p.nestedSpecs, ∀ q ∈ spec.placeholders,
    normalizedName name = parentName q → (resourceAttr o q).isNone = false

/-- The message for a proxy without a generic list method. -/
def unlistable : String := "SDK proxy " ++ p.proxyName ++ " has no generic list method"

/-- What the nested loop relies on: a placeholder names one type, the type's own listing does not
replace it, the project filter is none of the placeholders, and parents have identifiers. -/
structure Enumerable (project : Project) (t : List Event) : Prop where
  unambiguous : p.hierarchy.Unambiguous p.typeNames
  fresh : ∀ spec ∈ p.nestedSpecs, spec.name ∉ p.baseNames
  filter : ∀ spec ∈ p.nestedSpecs, ∀ kv ∈ projectKwargs spec.resourceClass project.projectId,
    kv.1 ∉ spec.placeholders
  listable : p.hasList = true ∨ isMissingResourceError p.unlistable = false
  identified : p.Identifies project t

end BuiltinProvider

variable {cloud : Cloud} {p : BuiltinProvider} {project : Project} {spec : Spec} {c : Collected}
  {names : List String}

/-! ### Types listed without parents -/

theorem triple_projectRecord_lists :
    Triple True (fun _ => True) (projectRecord p project) (fun c _ => Lists p.recordNames c)
      (fun _ _ => True) := by
  unfold projectRecord
  unfold BuiltinProvider.recordNames
  apply triple_ite
  · intro hs
    rw [if_pos hs]
    apply triple_bind (M := fun _ _ => True)
    · exact triple_ofOption fun _ _ _ => id
    · exact fun entry => triple_pure fun _ _ => ⟨List.nodup_singleton _, fun _ => Iff.rfl⟩
  · intro hs
    rw [if_neg hs]
    exact triple_pure fun _ _ => lists_nil

theorem triple_collectSpec_lists {strict : Bool} {projectId : String} :
    Triple True (fun _ => Lists names c) (collectSpec cloud p strict projectId c spec)
      (fun c' _ => Lists (names ++ [spec.name]) c') (fun _ _ => True) := by
  apply triple_const
  intro hlists
  apply triple_bind (M := fun _ _ => True)
  · exact triple_true
  intro objects
  apply triple_bind (M := fun _ _ => True)
  · exact triple_ofOption fun _ _ _ => id
  · exact fun entries => triple_pure fun _ _ => hlists.set _ _

theorem triple_dropByIds_lists {ids : List String} {name key : String} (hn : name ∈ names) :
    Triple True (fun _ => Lists names c) (dropByIds ids name key c) (fun c' _ => Lists names c')
      (fun _ _ => True) := by
  apply triple_bind (M := fun _ _ => Lists names c)
  · exact triple_ofOption fun _ _ _ => id
  · exact fun entries => triple_pure fun _ h => h.set_of_mem hn _

theorem triple_excludeDefaultSecurityGroup_lists :
    Triple True (fun _ => Lists names c) (excludeDefaultSecurityGroup p c)
      (fun c' _ => Lists names c') (fun _ _ => True) := by
  apply triple_const
  intro hlists
  unfold excludeDefaultSecurityGroup
  dsimp only
  refine triple_ite (fun _ => triple_pure fun _ => id) fun hids => ?_
  have hgroup : "security_group" ∈ names := by
    apply hlists.of_get?
    by_contra hnone
    rw [Option.not_isSome_iff_eq_none] at hnone
    apply hids
    right
    unfold defaultGroupIds
    rw [hnone]
    rfl
  apply triple_bind (triple_dropByIds_lists hgroup)
  intro c'
  apply triple_const
  intro hlists'
  apply triple_ite
  · exact fun hrule => triple_dropByIds_lists (hlists'.of_get? hrule)
  · exact fun _ => triple_pure fun _ => id

theorem triple_collectDirect_lists {strict : Bool} :
    Triple True (fun _ => True) (collectDirect cloud p strict project)
      (fun c _ => Lists (p.recordNames ++ p.directSpecs.map Spec.name) c) (fun _ _ => True) := by
  apply triple_bind triple_projectRecord_lists
  intro c
  apply triple_bind (M := fun c _ => Lists (p.recordNames ++ p.directSpecs.map Spec.name) c)
  · have hloop : Triple True (fun _ => Lists (p.recordNames ++ [].map Spec.name) c)
        (p.directSpecs.foldlM (collectSpec cloud p strict project.projectId) c)
        (fun c _ => Lists (p.recordNames ++ p.directSpecs.map Spec.name) c) (fun _ _ => True) := by
      apply triple_foldlM_done (I := fun done c _ => Lists (p.recordNames ++ done.map Spec.name) c)
      intro pre spec post c he
      rw [List.map_append, ← List.append_assoc]
      exact triple_collectSpec_lists
    simpa using hloop
  · intro c
    apply triple_bind triple_excludeDefaultSecurityGroup_lists
    exact fun c => triple_filterRelated_lists p.service

theorem triple_collectContainers_lists {strict : Bool} {resourceClass : ResourceClass} :
    Triple True (fun _ => Lists names c) (collectContainers cloud p strict resourceClass c)
      (fun c' _ => Lists (names ++ ["container"]) c') (fun _ _ => True) := by
  apply triple_const
  intro hlists
  apply triple_ite
  · intro hsome
    have hmem := hlists.of_get? hsome
    apply triple_pure
    refine fun _ _ => hlists.congr fun name => ?_
    rw [List.mem_append, List.mem_singleton]
    constructor
    · exact .inl
    · rintro (h | rfl)
      · exact h
      · exact hmem
  · intro _
    apply triple_bind (M := fun _ _ => True)
    · exact triple_true
    intro containers
    apply triple_bind (M := fun _ _ => True)
    · exact triple_ofOption fun _ _ _ => id
    · exact fun entries => triple_pure fun _ _ => hlists.set _ _

/-- In strict mode the object store has both of its classes. -/
theorem triple_collectObjectStore_lists :
    Triple True (fun _ => Lists names c) (collectObjectStore cloud p true c)
      (fun c' _ => Lists (names ++ p.containerNames) c') (fun _ _ => True) := by
  unfold BuiltinProvider.containerNames
  apply triple_ite
  · intro hs
    rw [if_neg hs, List.append_nil]
    exact triple_pure fun _ => id
  · intro hs
    rw [if_pos (not_not.1 hs)]
    split
    · apply triple_bind triple_collectContainers_lists
      intro c'
      apply triple_const
      intro hlists
      apply triple_bind (M := fun _ _ => True)
      · exact triple_true
      · exact fun entries => triple_pure fun _ _ => ⟨hlists.nodup, hlists.mem⟩
    · apply triple_bind (M := fun _ _ => True)
      · exact triple_true
      · exact fun _ => triple_throw fun _ _ => trivial

/-! ### Listing one type -/

/-- The arguments that the parents give. -/
def parentPath (placeholders : List String) (combination : List Value) : List (String × Value) :=
  placeholders.zipWith (fun q o => (q, resourceAttr o q)) combination

/-- Every parent of the combination has its identifier. -/
def Identified (placeholders : List String) (combination : List Value) : Prop :=
  List.Forall₂ (fun q o => (resourceAttr o q).isNone = false) placeholders combination

section Path

variable {placeholders : List String} {combination : List Value} {filter : List (String × Value)}

theorem keys_parentPath (h : Identified placeholders combination) :
    (parentPath placeholders combination).map Prod.fst = placeholders := by
  unfold parentPath
  induction h with
  | nil => rfl
  | cons _ _ ih => rw [List.zipWith_cons_cons, List.map_cons, ih]

theorem parentKwargs_of_identified (hnd : placeholders.Nodup)
    (h : Identified placeholders combination) :
    parentKwargs placeholders combination = some (parentPath placeholders combination) := by
  have hnone : (parentPath placeholders combination).any (·.2.isNone) = false := by
    unfold parentPath
    induction h with
    | nil => rfl
    | cons hq _ ih =>
      rw [List.zipWith_cons_cons, List.any_cons, hq, ih (List.nodup_cons.1 hnd).2]
      rfl
  have hupdate : Dict.update [] (parentPath placeholders combination) =
      parentPath placeholders combination := by
    apply Dict.update_of_nodup
    rw [List.nil_append, keys_parentPath h]
    exact hnd
  unfold parentKwargs
  dsimp only
  rw [← parentPath, hnone, hupdate]
  rfl

theorem withoutKeys_parentPath (hfilter : ∀ kv ∈ filter, kv.1 ∉ placeholders)
    (h : Identified placeholders combination) :
    withoutKeys (parentPath placeholders combination) filter = parentPath placeholders combination := by
  apply List.filter_eq_self.2
  intro kv hkv
  have hq : kv.1 ∈ placeholders := by
    rw [← keys_parentPath h]
    exact List.mem_map_of_mem hkv
  have hnot : kv.1 ∉ filter.map Prod.fst := by
    intro hmem
    obtain ⟨kv', hkv', he⟩ := List.mem_map.1 hmem
    exact hfilter kv' hkv' (he ▸ hq)
  simpa using hnot

/-- Equal keys name equal arguments. -/
theorem mem_of_requestKey_eq {args args' : List (String × Value)}
    (h : requestKey args = requestKey args') {kv : String × Value} (hkv : kv ∈ args) :
    ∃ v, (kv.1, v) ∈ args' ∧ text v = text kv.2 := by
  have hmem : (kv.1, text kv.2) ∈ requestKey args := by
    unfold requestKey
    rw [List.mem_insertionSort]
    exact List.mem_map_of_mem (f := fun kv : String × Value => (kv.1, text kv.2)) hkv
  rw [h] at hmem
  unfold requestKey at hmem
  rw [List.mem_insertionSort] at hmem
  obtain ⟨⟨q, v⟩, hv, he⟩ := List.mem_map.1 hmem
  obtain ⟨hq, htext⟩ : q = kv.1 ∧ text v = text kv.2 := Prod.mk.inj he
  rw [hq] at hv
  exact ⟨v, hv, htext⟩

/-- A request with the key of the combination is one for its parents. -/
theorem gives_of_requestKey (hfilter : ∀ kv ∈ filter, kv.1 ∉ placeholders)
    (h : Identified placeholders combination) {r : Request}
    (hkey : requestKey (r.path ++ filter) =
      requestKey (parentPath placeholders combination ++ filter)) :
    p.hierarchy.Gives r placeholders combination := by
  have hgives : ∀ q o, (q, resourceAttr o q) ∈ parentPath placeholders combination →
      ∃ v, (q, v) ∈ r.path ∧ text v = text (resourceAttr o q) := by
    intro q o hmem
    obtain ⟨v, hv, htext⟩ := mem_of_requestKey_eq hkey.symm (List.mem_append_left filter hmem)
    rcases List.mem_append.1 hv with hv | hv
    · exact ⟨v, hv, htext⟩
    · have hq : q ∈ placeholders := by
        rw [← keys_parentPath h]
        exact List.mem_map_of_mem hmem
      exact absurd hq (hfilter _ hv)
  clear hkey hfilter
  unfold Hierarchy.Gives
  induction h with
  | nil => exact .nil
  | @cons q o qs os _ _ ih =>
    refine .cons (hgives q o List.mem_cons_self) (ih fun q' o' hmem => hgives q' o' ?_)
    exact List.mem_cons_of_mem _ hmem

end Path

/-- If the error says that the type is missing, an answer says so. -/
def Missed (p : BuiltinProvider) (name : String) (x : Exc) (t : List Event) : Prop :=
  ∀ kind message, x = .inventory kind message → isMissingResourceError message = true →
    p.hierarchy.AnsweredMissing t name

/-- A request for the type was answered, with these arguments next to the filter. -/
def Sent (name : String) (filter : List (String × Value)) (key : List (String × String))
    (t : List Event) : Prop :=
  ∃ r answer, .listing r answer ∈ t ∧ answer.answered = true ∧ r.resource = name ∧
    requestKey (r.path ++ filter) = key

section Sent

variable {name : String} {filter : List (String × Value)} {resourceClass : ResourceClass}
  {path query : List (String × Value)}

theorem Sent.append {key : List (String × String)} {t : List Event} (h : Sent name filter key t)
    (s : List Event) : Sent name filter key (t ++ s) := by
  obtain ⟨r, answer, hm, hr⟩ := h
  exact ⟨r, answer, List.mem_append_left s hm, hr⟩

theorem missing_failed (yielded : List Value) (error : String) :
    p.hierarchy.missing (p.request name resourceClass path query) (.failed yielded error) =
      isMissingResourceError
        ("listing SDK resource " ++ Python.reprStr resourceClass.key ++ " failed: " ++ error) := by
  simp only [BuiltinProvider.hierarchy]

theorem triple_listAll_sent
    (hl : p.hasList = true ∨ isMissingResourceError p.unlistable = false) :
    Triple True (fun _ => True) (listAll cloud p name resourceClass path query)
      (fun _ t => Sent name filter (requestKey (path ++ filter)) t) (Missed p name) := by
  unfold listAll
  apply triple_ite
  · intro hnone
    apply triple_throw
    intro t _ kind message he hmissing
    have hunlistable := hl.resolve_left (by simp [hnone])
    obtain ⟨-, rfl⟩ := Exc.inventory.inj he
    exact absurd hmissing (by simpa [BuiltinProvider.unlistable] using hunlistable)
  · intro _
    apply triple_bind (M := fun answer t =>
      .listing (p.request name resourceClass path query) answer ∈ t)
    · exact triple_send fun t _ => List.mem_append_right t (List.mem_singleton_self _)
    · intro answer
      cases answer with
      | objects items => exact triple_pure fun t h => ⟨_, _, h, rfl, rfl, rfl⟩
      | nothing => exact triple_pure fun t h => ⟨_, _, h, rfl, rfl, rfl⟩
      | failed yielded error =>
        apply triple_throw
        intro t h kind message he hmissing
        rw [← (Exc.inventory.inj he).2] at hmissing
        refine ⟨p.request name resourceClass path query, .failed yielded error, h, rfl, ?_⟩
        rw [missing_failed]
        exact hmissing

theorem triple_listWithProjectFilterFallback_sent
    (hl : p.hasList = true ∨ isMissingResourceError p.unlistable = false) :
    Triple True (fun _ => True) (listWithProjectFilterFallback cloud p name resourceClass path filter)
      (fun _ t => Sent name filter (requestKey (path ++ filter)) t) (Missed p name) := by
  apply triple_handle (triple_listAll_sent hl)
  intro x
  cases x with
  | other message => exact triple_throw fun _ => id
  | inventory kind message =>
    apply triple_ite
    · exact fun _ => triple_throw fun _ => id
    · exact fun _ => (triple_listAll_sent hl).consequence (fun _ _ => trivial) (fun _ _ => id)
        fun _ _ => id

end Sent

/-- The request of a combination of parents. -/
def combinationKey (spec : Spec) (projectId : String) (combination : List Value) :
    List (String × String) :=
  requestKey (parentPath spec.placeholders combination ++ projectKwargs spec.resourceClass projectId)

/-- The requests of these combinations were answered. -/
def AllSent (spec : Spec) (projectId : String) (combinations : List (List Value))
    (acc : List (List (String × String)) × List Value) (t : List Event) : Prop :=
  (∀ key ∈ acc.1, Sent spec.name (projectKwargs spec.resourceClass projectId) key t) ∧
    ∀ combination ∈ combinations, combinationKey spec projectId combination ∈ acc.1

theorem triple_listCombination_sent
    (hl : p.hasList = true ∨ isMissingResourceError p.unlistable = false)
    (hnd : spec.placeholders.Nodup) {projectId : String}
    (hfilter : ∀ kv ∈ projectKwargs spec.resourceClass projectId, kv.1 ∉ spec.placeholders)
    {combination : List Value} (hid : Identified spec.placeholders combination)
    {done : List (List Value)} (acc : List (List (String × String)) × List Value) :
    Triple True (AllSent spec projectId done acc)
      (listCombination cloud p spec projectId acc combination)
      (AllSent spec projectId (done ++ [combination])) (Missed p spec.name) := by
  unfold listCombination
  rw [parentKwargs_of_identified hnd hid]
  dsimp only
  rw [withoutKeys_parentPath hfilter hid]
  apply triple_ite
  · intro hkey
    have hmem : combinationKey spec projectId combination ∈ acc.1 := by
      simpa [combinationKey] using hkey
    apply triple_pure
    intro t h
    refine ⟨h.1, fun combination' hc => ?_⟩
    rcases List.mem_append.1 hc with hc | hc
    · exact h.2 combination' hc
    · rwa [List.mem_singleton.1 hc]
  · intro _
    apply triple_bind (((triple_listWithProjectFilterFallback_sent hl).keep
      (I := AllSent spec projectId done acc) fun t s h =>
        ⟨fun key hk => (h.1 key hk).append s, h.2⟩).consequence (fun _ => id) (fun _ _ => id)
      fun _ _ h => h.1)
    intro objects
    apply triple_pure
    rintro t ⟨hsent, hacc, hdone⟩
    constructor
    · intro key hk
      rcases List.mem_append.1 hk with hk | hk
      · exact hacc key hk
      · rwa [List.mem_singleton.1 hk]
    · intro combination' hc
      rw [List.mem_append]
      rcases List.mem_append.1 hc with hc | hc
      · exact .inl (hdone combination' hc)
      · rw [List.mem_singleton.1 hc]
        exact .inr (List.mem_singleton_self _)

/-! ### Listing a type whose parents have objects -/

/-- The listed objects have the identifiers that the nested types ask for. -/
def BuiltinProvider.Identified (p : BuiltinProvider) (c : Collected) : Prop :=
  ∀ name objects, (name, objects) ∈ c.objects → ∀ o ∈ objects, ∀ spec ∈ p.nestedSpecs,
    ∀ q ∈ spec.placeholders, normalizedName name = parentName q → (resourceAttr o q).isNone = false

theorem nodup_placeholders (hspec : spec ∈ p.nestedSpecs) : spec.placeholders.Nodup := by
  rw [(mem_nestedSpecs.1 hspec).2.1]
  have h := Dict.nodup_firsts id (scanPlaceholders .outside spec.resourceClass.basePath.toList)
  rwa [List.map_id] at h

theorem mem_hierarchy_types (hspec : spec ∈ p.nestedSpecs) : spec.nestedType ∈ p.hierarchy.types :=
  List.mem_map_of_mem hspec

theorem enumerates_iff {objects : Objects} {q : String} {parents : List Value} :
    p.hierarchy.Enumerates objects q parents ↔
      ∃ name, normalizedName name = parentName q ∧ Dict.get? objects name = some parents := by
  constructor
  · rintro ⟨name, hn, hg⟩
    exact ⟨name, eq_of_beq hn, hg⟩
  · rintro ⟨name, hn, hg⟩
    exact ⟨name, beq_iff_eq.2 hn, hg⟩

theorem enumerates_of_parentOption {objects : Objects} (hk : (objects.map Prod.fst).Nodup)
    {q : String} {parents : List Value} (h : parentOption objects q = some parents) :
    p.hierarchy.Enumerates objects q parents := by
  obtain ⟨name, hn, hm⟩ := mem_of_parentOption h
  exact enumerates_iff.2 ⟨name, hn, Dict.get?_of_mem hk hm⟩

theorem exists_of_ready {objects : Objects} (h : ready objects spec = true) {q : String}
    (hq : q ∈ spec.placeholders) :
    ∃ name parents, (name, parents) ∈ objects ∧ normalizedName name = parentName q ∧ parents ≠ [] := by
  obtain ⟨e, he, hmatch⟩ := List.any_eq_true.1 (List.all_eq_true.1 h q hq)
  rw [Bool.and_eq_true, beq_iff_eq] at hmatch
  refine ⟨e.1, e.2, he, hmatch.1, fun hnil => ?_⟩
  simp [hnil] at hmatch

theorem not_ready {objects : Objects} (h : ready objects spec = false) :
    ∃ q ∈ spec.placeholders, ∀ name parents, (name, parents) ∈ objects →
      normalizedName name = parentName q → parents = [] := by
  obtain ⟨q, hq, hnone⟩ := List.all_eq_false.1 h
  refine ⟨q, hq, fun name parents hm hn => ?_⟩
  by_contra hne
  apply hnone
  rw [List.any_eq_true]
  exact ⟨(name, parents), hm, by simp [hn, hne]⟩

section Ready

variable (hu : p.hierarchy.Unambiguous p.typeNames) (hspec : spec ∈ p.nestedSpecs)
  (hk : ∀ name ∈ c.objects.map Prod.fst, name ∈ p.typeNames)
  (hnd : (c.objects.map Prod.fst).Nodup) (hready : ready c.objects spec = true)

include hu hspec hk hnd hready

/-- The parents that are looked up are those that make the type ready. -/
theorem parentOption_of_ready {q : String} (hq : q ∈ spec.placeholders) :
    ∃ parents, parentOption c.objects q = some parents ∧ parents ≠ [] := by
  obtain ⟨name, parents, hm, hn, hne⟩ := exists_of_ready hready hq
  cases ho : parentOption c.objects q with
  | none =>
    exfalso
    simp only [parentOption, Option.map_eq_none_iff, List.find?_eq_none] at ho
    exact ho _ hm (beq_iff_eq.2 hn)
  | some parents' =>
    have he := enumerates_of_parentOption (p := p) hnd ho
    have he' : p.hierarchy.Enumerates c.objects q parents :=
      enumerates_iff.2 ⟨name, hn, Dict.get?_of_mem hnd hm⟩
    have hsame := Hierarchy.Enumerates.unique hu (mem_hierarchy_types hspec) hq hk he he'
    exact ⟨parents', rfl, hsame ▸ hne⟩

theorem options_of_ready : ∃ options, spec.placeholders.mapM (parentOption c.objects) = some options ∧
    options.any List.isEmpty = false := by
  obtain ⟨options, ho⟩ := exists_mapM fun q hq =>
    (parentOption_of_ready hu hspec hk hnd hready hq).imp fun _ => And.left
  refine ⟨options, ho, ?_⟩
  rw [List.any_eq_false]
  intro parents hm hempty
  obtain ⟨q, hq, he⟩ := mem_of_mapM ho hm
  obtain ⟨parents', he', hne⟩ := parentOption_of_ready hu hspec hk hnd hready hq
  rw [he] at he'
  rw [Option.some.inj he'] at hempty
  exact hne (List.isEmpty_iff.1 hempty)

theorem triple_listSpec_covered {projectId : String}
    (hl : p.hasList = true ∨ isMissingResourceError p.unlistable = false)
    (hfilter : ∀ kv ∈ projectKwargs spec.resourceClass projectId, kv.1 ∉ spec.placeholders)
    (hid : p.Identified c) :
    Triple True (fun _ => True) (listSpec cloud p spec projectId c.objects)
      (fun _ t => p.hierarchy.Covered t c.objects spec.nestedType) (Missed p spec.name) := by
  obtain ⟨options, ho, hempty⟩ := options_of_ready hu hspec hk hnd hready
  have hparents : List.Forall₂ (fun q parents => parentOption c.objects q = some parents)
      spec.placeholders options := forall₂_of_mapM ho
  have hidentified : ∀ combination ∈ product options, Identified spec.placeholders combination := by
    intro combination hc
    apply forall₂_of_mem_product hparents hc
    intro q hq parents hp o hmem
    obtain ⟨name, hn, hm⟩ := mem_of_parentOption hp
    exact hid name parents hm o hmem spec hspec q hq hn
  have hplaceholders : ¬spec.placeholders = [] := by
    rw [(mem_nestedSpecs.1 hspec).2.1]
    exact placeholders_of_nested (mem_nestedSpecs.1 hspec).1 hspec
  unfold listSpec
  rw [if_neg hplaceholders, ho]
  dsimp only
  rw [if_neg (by simp [hempty])]
  apply triple_bind (M := AllSent spec projectId (product options))
  · apply Triple.consequence (triple_foldlM_done (I := AllSent spec projectId) ?_ ([], []))
      (fun _ _ => ⟨fun _ h => by simp at h, fun _ h => by simp at h⟩) (fun _ _ => id) fun _ _ => id
    intro pre combination post acc he
    apply triple_listCombination_sent hl (nodup_placeholders hspec) hfilter
    apply hidentified
    rw [he]
    exact List.mem_append_right pre List.mem_cons_self
  · intro acc
    apply triple_pure
    intro t h
    apply Hierarchy.covered_of_product hu (mem_hierarchy_types hspec) hk
    · exact forall₂_of_mem hparents fun q _ parents => enumerates_of_parentOption hnd
    · intro combination hc
      obtain ⟨r, answer, hm, ha, hr, hkey⟩ := h.1 _ (h.2 combination hc)
      exact ⟨r, answer, hm, ha, hr, gives_of_requestKey hfilter (hidentified combination hc) hkey⟩

/-- In strict mode a type whose parents have objects is listed for all of them, or is missing. -/
theorem triple_collectSpec_covered {projectId : String}
    (hl : p.hasList = true ∨ isMissingResourceError p.unlistable = false)
    (hfilter : ∀ kv ∈ projectKwargs spec.resourceClass projectId, kv.1 ∉ spec.placeholders)
    (hid : p.Identified c) :
    Triple True (fun _ => True) (collectSpec cloud p true projectId c spec)
      (fun _ t => p.hierarchy.Covered t c.objects spec.nestedType ∨
        p.hierarchy.AnsweredMissing t spec.name) (fun _ _ => True) := by
  apply triple_bind (triple_tolerate_strict
    (triple_listSpec_covered hu hspec hk hnd hready hl hfilter hid))
  intro objects
  apply triple_bind (triple_ofOption fun _ _ _ => id)
  exact fun entries => triple_pure fun _ => id

end Ready

end Yggdrasil.Inventory
