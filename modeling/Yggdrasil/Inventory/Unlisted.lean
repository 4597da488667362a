import Mathlib.Data.List.Dedup
import Yggdrasil.Inventory.Enumeration

/-! The nested managers of a legacy client in strict mode. A manager that cannot be listed for
its parents is noted, and the note raises an error at the end, so a run that returns has
accounted for every nested manager. -/

namespace Yggdrasil.Inventory

open Combination Effect Effect.Program Python

def Manager.parameters (m : Manager) : List String :=
  (requiredParameters m.signature).map Parameter.name

def Manager.nestedType (m : Manager) : NestedType := ⟨m.name, m.parameters⟩

namespace LegacyProvider

variable (p : LegacyProvider)

/-- How the provider reads its nested managers. -/
def hierarchy : Hierarchy where
  types := p.nestedManagers.map Manager.nestedType
  names := isParent
  identifier := parentArgument
  missing r answer :=
    match (nestedValues p r.resource ((r.path.map Prod.snd).headD .none) answer).2 with
    | some error =>
      isMissingResourceError (listFailure p "nested legacy SDK resource" r.resource error)
    | none => false

def typeNames : List String := p.listable.map Manager.name

end LegacyProvider

variable {cloud : Cloud} {p : LegacyProvider} {project : Project} {m : Manager} {c : Collected}
  {names : List String} {t : List Event}

theorem mem_managers : m ∈ p.managers ↔ m ∈ p.listable ∧ requiredParameters m.signature = [] := by
  simp [LegacyProvider.managers]

theorem mem_nestedManagers :
    m ∈ p.nestedManagers ↔ m ∈ p.listable ∧ requiredParameters m.signature ≠ [] := by
  simp [LegacyProvider.nestedManagers]

theorem mem_hierarchy_types_legacy (hm : m ∈ p.nestedManagers) :
    m.nestedType ∈ p.hierarchy.types :=
  List.mem_map_of_mem hm

/-! ### Managers listed without parents -/

theorem triple_keep_objects {name : String} {objects : List Value} :
    Triple True (fun _ => True) (keep c name objects)
      (fun c' _ => c'.objects = Dict.set c.objects name objects) (fun _ _ => True) := by
  apply triple_ite
  · intro hnil
    rw [hnil]
    exact triple_pure fun _ _ => rfl
  · intro _
    apply triple_bind (M := fun _ _ => True)
    · exact triple_ofOption fun _ _ _ => id
    · exact fun entries => triple_pure fun _ _ => rfl

theorem triple_collectManagers_lists {strict : Bool} {projectId : String} :
    Triple True (fun _ => True) (collectManagers cloud p strict projectId)
      (fun c _ => Lists (p.managers.map Manager.name) c) (fun _ _ => True) := by
  apply triple_bind (M := fun c _ => Lists (p.managers.map Manager.name) c)
  · apply (triple_foldlM_done (I := fun done c _ => Lists (done.map Manager.name) c) ?_
      ⟨[], []⟩).consequence (fun _ _ => lists_nil) (fun _ _ => id) fun _ _ => id
    intro pre m post c he
    rw [List.map_append]
    apply triple_const
    intro hlists
    apply triple_bind (M := fun _ _ => True)
    · exact triple_true
    · exact fun values => triple_keep_objects.consequence (fun _ _ => trivial)
        (fun _ _ => hlists.of_set) fun _ _ => id
  · exact fun c => triple_filterRelated_lists p.service

/-! ### Listing a nested manager -/

/-- The request of a combination gives every parameter its parent. -/
theorem gives_nestedRequest {combination : List Value}
    (hl : combination.length = (requiredParameters m.signature).length) :
    p.hierarchy.Gives (nestedRequest p m (parentArguments m combination)) m.parameters
      combination := by
  unfold Hierarchy.Gives
  rw [path_nestedRequest, Manager.parameters]
  generalize requiredParameters m.signature = required at hl
  have hgives : ∀ path : List (String × Value),
      (∀ kv ∈ required.zipWith (fun q o => (q.name, parentArgument o q.name)) combination,
        kv ∈ path) →
      List.Forall₂ (fun q o => ∃ v, (q, v) ∈ path ∧ text v = text (p.hierarchy.identifier o q))
        (required.map Parameter.name) combination := by
    intro path hpath
    induction required generalizing combination with
    | nil =>
      rw [List.length_eq_zero_iff.1 hl]
      exact .nil
    | cons q required ih =>
      cases combination with
      | nil => simp at hl
      | cons o combination =>
        rw [List.zipWith_cons_cons, List.forall_mem_cons] at hpath
        refine .cons ⟨_, hpath.1, rfl⟩ (ih ?_ hpath.2)
        simpa using hl
  exact hgives _ fun _ => id

/-- The combination was listed. -/
def Answered (p : LegacyProvider) (m : Manager) (combination : List Value) (t : List Event) : Prop :=
  ∃ r answer, .listing r answer ∈ t ∧ answer.answered = true ∧ r.resource = m.name ∧
    p.hierarchy.Gives r m.parameters combination

/-- Unless a manager is noted, these combinations were listed or the manager is missing. -/
def NotedOr (p : LegacyProvider) (m : Manager) (unlisted : List String)
    (combinations : List (List Value)) (acc : Nested) (t : List Event) : Prop :=
  acc.unlisted = [] → unlisted = [] ∧ ((∀ combination ∈ combinations, Answered p m combination t) ∨
    p.hierarchy.AnsweredMissing t m.name)

/-- An answer without an error is an answered request. -/
theorem answered_of_nestedValues {name : String} {container : Value} {answer : Answer}
    (h : (nestedValues p name container answer).2 = none) : answer.answered = true := by
  cases answer with
  | objects items => rfl
  | nothing => rfl
  | failed yielded error =>
    exfalso
    unfold nestedValues at h
    dsimp only at h
    split_ifs at h
    cases hc : (containedValues container yielded).2 <;> simp [Answer.items, hc] at h

theorem Answered.append {combination : List Value} (h : Answered p m combination t)
    (s : List Event) : Answered p m combination (t ++ s) := by
  obtain ⟨r, answer, hm, hr⟩ := h
  exact ⟨r, answer, List.mem_append_left s hm, hr⟩

theorem NotedOr.append {unlisted : List String} {combinations : List (List Value)} {acc : Nested}
    (h : NotedOr p m unlisted combinations acc t) (s : List Event) :
    NotedOr p m unlisted combinations acc (t ++ s) := by
  intro hnil
  obtain ⟨hu, h⟩ := h hnil
  refine ⟨hu, ?_⟩
  rcases h with h | h
  · exact .inl fun combination hc => (h combination hc).append s
  · exact .inr (h.append s)

/-- One more combination that was listed, or a missing manager. -/
theorem NotedOr.snoc {unlisted : List String} {combinations : List (List Value)} {acc : Nested}
    {combination : List Value} {values : List Value}
    (h : NotedOr p m unlisted combinations acc t)
    (hnew : Answered p m combination t ∨ p.hierarchy.AnsweredMissing t m.name) :
    NotedOr p m unlisted (combinations ++ [combination]) { acc with values := values } t := by
  intro hnil
  obtain ⟨hu, h⟩ := h hnil
  refine ⟨hu, ?_⟩
  rcases h with h | h
  · rcases hnew with hnew | hnew
    · left
      intro combination' hc
      rcases List.mem_append.1 hc with hc | hc
      · exact h combination' hc
      · rwa [List.mem_singleton.1 hc]
    · exact .inr hnew
  · exact .inr h

theorem triple_collectCombination_noted {unlisted : List String} {done : List (List Value)}
    {combination : List Value}
    (hl : combination.length = (requiredParameters m.signature).length) (acc : Nested) :
    Triple True (NotedOr p m unlisted done acc) (collectCombination cloud p true m acc combination)
      (NotedOr p m unlisted (done ++ [combination])) (fun _ _ => True) := by
  unfold collectCombination
  apply triple_ite
  · intro _
    apply triple_pure
    intro t _ hnil
    simp at hnil
  · intro _
    apply triple_bind (M := fun answer t => NotedOr p m unlisted done acc t ∧
      .listing (nestedRequest p m (parentArguments m combination)) answer ∈ t)
    · exact triple_send fun t h =>
        ⟨h.append _, List.mem_append_right t (List.mem_singleton_self _)⟩
    · intro answer
      dsimp only
      split
      · rename_i hnone
        apply triple_pure
        rintro t ⟨h, hm⟩
        exact h.snoc (.inl ⟨_, answer, hm, answered_of_nestedValues hnone, rfl,
          gives_nestedRequest hl⟩)
      · rename_i error herror
        apply triple_ite
        · intro hmissing
          apply triple_pure
          rintro t ⟨h, hm⟩
          refine h.snoc (.inr ⟨_, answer, hm, rfl, ?_⟩)
          simp only [LegacyProvider.hierarchy, arguments_nestedRequest]
          have herror : (nestedValues p m.name ((parentArguments m combination).headD .none)
              answer).2 = some error := herror
          rw [show (nestedRequest p m (parentArguments m combination)).resource = m.name from rfl,
            herror]
          exact hmissing
        · intro _
          apply triple_bind (M := fun _ _ => True)
          · exact triple_emit fun _ _ => trivial
          · exact fun _ => triple_throw fun _ _ => trivial

/-! ### The pass over the nested managers -/

/-- What holds between two nested managers of a strict run. -/
structure Traversed (p : LegacyProvider) (done : List Manager) (s : Collected × List String)
    (t : List Event) : Prop where
  nodup : (s.1.objects.map Prod.fst).Nodup
  keys : ∀ name ∈ s.1.objects.map Prod.fst,
    name ∈ p.managers.map Manager.name ∨ name ∈ done.map Manager.name
  accounted : s.2 = [] → ∀ m ∈ done, p.hierarchy.Accounted t s.1.objects m.nestedType

theorem enumerates_iff_legacy {objects : Objects} {q : String} {parents : List Value} :
    p.hierarchy.Enumerates objects q parents ↔
      ∃ name, isParent q name = true ∧ Dict.get? objects name = some parents := by
  simp only [Hierarchy.Enumerates, LegacyProvider.hierarchy]

theorem enumerates_of_parentValues {objects : Objects} (hnd : (objects.map Prod.fst).Nodup)
    {q : String} {parents : List Value} (h : parentValues q objects = some parents) :
    p.hierarchy.Enumerates objects q parents := by
  obtain ⟨name, hn, hm⟩ := mem_of_parentValues h
  exact enumerates_iff_legacy.2 ⟨name, hn, Dict.get?_of_mem hnd hm⟩

theorem nodup_nestedManagers : (p.nestedManagers.map Manager.name).Nodup :=
  nodup_listable.sublist (List.filter_sublist.map Manager.name)

section Nested

variable {done post : List Manager} {unlisted : List String}

/-- The name of a manager that is yet to come is free. -/
theorem Traversed.fresh (h : Traversed p done (c, unlisted) t)
    (he : p.nestedManagers = done ++ m :: post) : m.name ∉ c.objects.map Prod.fst := by
  have hm : m ∈ p.nestedManagers := by
    rw [he]
    exact List.mem_append_right done List.mem_cons_self
  obtain ⟨hlistable, hrequired⟩ := mem_nestedManagers.1 hm
  intro hn
  rcases h.keys m.name hn with hn | hn
  · obtain ⟨m', hm', hname⟩ := List.mem_map.1 hn
    obtain ⟨hlistable', hrequired'⟩ := mem_managers.1 hm'
    have hsame : m' = m := List.inj_on_of_nodup_map nodup_listable hlistable' hlistable hname
    exact hrequired (hsame ▸ hrequired')
  · have hd := nodup_nestedManagers (p := p)
    rw [he, List.map_append, List.map_cons, List.nodup_middle, List.nodup_cons] at hd
    exact hd.1 (List.mem_append_left _ hn)

theorem Traversed.mem_typeNames (h : Traversed p done (c, unlisted) t)
    (hdone : ∀ m ∈ done, m ∈ p.nestedManagers) :
    ∀ name ∈ c.objects.map Prod.fst, name ∈ p.typeNames := by
  intro name hn
  rcases h.keys name hn with hn | hn
  · obtain ⟨m, hm, rfl⟩ := List.mem_map.1 hn
    exact List.mem_map_of_mem (mem_managers.1 hm).1
  · obtain ⟨m, hm, rfl⟩ := List.mem_map.1 hn
    exact List.mem_map_of_mem (mem_nestedManagers.1 (hdone m hm)).1

/-- Storing the objects of the next manager, once it is accounted for. -/
theorem Traversed.store (hu : p.hierarchy.Unambiguous p.typeNames) {s : List Event}
    {c' : Collected} {unlisted' : List String} {objects : List Value}
    (h : Traversed p done (c, unlisted) t) (he : p.nestedManagers = done ++ m :: post)
    (hobjects : c'.objects = Dict.set c.objects m.name objects)
    (hnew : unlisted' = [] → unlisted = [] ∧
      p.hierarchy.Accounted (t ++ s) c.objects m.nestedType) :
    Traversed p (done ++ [m]) (c', unlisted') (t ++ s) := by
  have hnested : ∀ m' ∈ done ++ [m], m' ∈ p.nestedManagers := by
    intro m' hm'
    rw [he]
    rw [List.mem_append, List.mem_singleton] at hm'
    rw [List.mem_append, List.mem_cons]
    exact hm'.imp_right .inl
  have hkeys : ∀ name ∈ c'.objects.map Prod.fst,
      name ∈ p.managers.map Manager.name ∨ name ∈ (done ++ [m]).map Manager.name := by
    intro name hn
    rw [hobjects, Dict.mem_keys_set] at hn
    rw [List.map_append, List.mem_append]
    rcases hn with rfl | hn
    · exact .inr (.inr (List.mem_singleton_self _))
    · exact (h.keys name hn).imp_right .inl
  have hnodup : (c'.objects.map Prod.fst).Nodup := by
    rw [hobjects]
    exact Dict.nodup_set h.nodup _ _
  have hx : Extends c.objects c'.objects := by
    rw [hobjects]
    exact extends_set (Dict.get?_eq_none (h.fresh he))
  -- the objects of the done managers have not changed
  have hk : ∀ name ∈ c'.objects.map Prod.fst, name ∈ p.typeNames := by
    have hs : Traversed p (done ++ [m]) (c', [m.name]) (t ++ s) :=
      ⟨hnodup, hkeys, fun h => by simp at h⟩
    exact hs.mem_typeNames hnested
  refine ⟨hnodup, hkeys, fun hnil m' hm' => ?_⟩
  obtain ⟨hunlisted, hnow⟩ := hnew hnil
  have ht : m'.nestedType ∈ p.hierarchy.types := mem_hierarchy_types_legacy (hnested m' hm')
  rcases List.mem_append.1 hm' with hm' | hm'
  · exact (h.accounted hunlisted m' hm').extend hu ht hk hx s
  · rw [List.mem_singleton.1 hm'] at ht ⊢
    have hthen := hnow.extend hu ht hk hx []
    rwa [List.append_nil] at hthen

theorem triple_collectNested_traversed (hu : p.hierarchy.Unambiguous p.typeNames)
    (he : p.nestedManagers = done ++ m :: post) :
    Triple True (Traversed p done (c, unlisted)) (collectNested cloud p true (c, unlisted) m)
      (Traversed p (done ++ [m])) (fun _ _ => True) := by
  apply triple_intro
  intro t h
  have hm : m ∈ p.nestedManagers := by
    rw [he]
    exact List.mem_append_right done List.mem_cons_self
  unfold collectNested
  dsimp only
  cases ho : (requiredParameters m.signature).mapM fun q => parentValues q.name c.objects with
  | none =>
    apply triple_pure
    rintro u rfl
    refine ⟨h.nodup, fun name hn => ?_, fun hnil => by simp at hnil⟩
    rw [List.map_append, List.mem_append]
    exact (h.keys name hn).imp_right .inl
  | some options =>
    have hoptions : List.Forall₂ (p.hierarchy.Enumerates c.objects) m.parameters options := by
      rw [Manager.parameters, List.forall₂_map_left_iff]
      exact forall₂_of_mem (forall₂_of_mapM ho) fun q _ parents =>
        enumerates_of_parentValues h.nodup
    apply triple_ite
    · intro hempty
      apply triple_pure
      rintro u rfl
      obtain ⟨parents, hp, hnil⟩ := List.any_eq_true.1 hempty
      obtain ⟨q, hq, hvalues⟩ := mem_of_mapM ho hp
      rw [List.isEmpty_iff.1 hnil] at hvalues
      have hchildless : p.hierarchy.Accounted (u ++ []) c.objects m.nestedType :=
        .inr (.inr ⟨q.name, List.mem_map_of_mem hq,
          .listed (enumerates_of_parentValues h.nodup hvalues)⟩)
      have hstored : Traversed p (done ++ [m])
          (⟨Dict.set c.objects m.name [], c.result⟩, unlisted) (u ++ []) :=
        h.store hu he rfl fun hnil => ⟨hnil, hchildless⟩
      rwa [List.append_nil] at hstored
    · intro _
      have hloop : Triple True (NotedOr p m unlisted [] ⟨[], unlisted⟩)
          ((product options).foldlM (collectCombination cloud p true m) ⟨[], unlisted⟩)
          (NotedOr p m unlisted (product options)) (fun _ _ => True) := by
        apply triple_foldlM_done
        intro pre combination post acc hcombination
        apply triple_collectCombination_noted
        apply length_combination ho
        rw [hcombination]
        exact List.mem_append_right pre List.mem_cons_self
      have hadded : ∀ u s, (∃ s', u = t ++ s') → ∃ s', u ++ s = t ++ s' := by
        rintro u s ⟨s', rfl⟩
        exact ⟨s' ++ s, List.append_assoc t s' s⟩
      apply triple_bind ((hloop.frame hadded).consequence (fun u hu => ?_) (fun _ _ => id)
        fun _ _ _ => trivial)
      · intro nested
        have hkeep : Triple True
            (fun u => NotedOr p m unlisted (product options) nested u ∧ ∃ s, u = t ++ s)
            (keep c m.name nested.values)
            (fun c' u => c'.objects = Dict.set c.objects m.name nested.values ∧
              NotedOr p m unlisted (product options) nested u ∧ ∃ s, u = t ++ s)
            (fun _ _ => True) :=
          (triple_keep_objects.keep fun u s h => ⟨h.1.append s, hadded u s h.2⟩).consequence
            (fun _ => id) (fun _ _ => id) fun _ _ _ => trivial
        apply triple_bind hkeep
        intro c'
        apply triple_pure
        rintro u ⟨hobjects, hnoted, s, rfl⟩
        apply h.store hu he hobjects
        intro hnil
        obtain ⟨hunlisted, hdone⟩ := hnoted hnil
        refine ⟨hunlisted, ?_⟩
        rcases hdone with hdone | hmissing
        · exact .inl (Hierarchy.covered_of_product hu (mem_hierarchy_types_legacy hm)
            (h.mem_typeNames fun m' hm' => he ▸ List.mem_append_left _ hm') hoptions hdone)
        · exact .inr (.inl hmissing)
      · subst hu
        exact ⟨fun hnil => ⟨hnil, .inl fun _ hc => by simp at hc⟩, [], (List.append_nil u).symm⟩

end Nested

/-- In strict mode the check passes only if no manager is noted. -/
theorem triple_checkUnlisted {unlisted : List String} {Pre : List Event → Prop} :
    Triple True Pre (checkUnlisted p true unlisted) (fun _ t => unlisted = [] ∧ Pre t)
      (fun _ _ => True) := by
  unfold checkUnlisted
  dsimp only
  apply triple_ite
  · intro hempty
    apply triple_pure
    intro t h
    refine ⟨List.eq_nil_iff_forall_not_mem.2 fun name hn => ?_, h⟩
    have hname : name ∈ unlisted.dedup.insertionSort (· ≤ ·) := by
      rw [List.mem_insertionSort]
      exact List.mem_dedup.2 hn
    rw [List.isEmpty_iff.1 hempty] at hname
    simp at hname
  · intro _
    apply triple_bind (M := fun _ _ => True)
    · exact triple_true
    · exact fun _ => triple_throw fun _ _ => trivial

/-- A strict run that returns accounts for every nested manager. -/
theorem triple_collectAll_accounted (hu : p.hierarchy.Unambiguous p.typeNames) :
    Triple True (fun _ => True) (p.collectAll cloud true project)
      (fun c t => ∀ m ∈ p.nestedManagers, p.hierarchy.Accounted t c.objects m.nestedType)
      (fun _ _ => True) := by
  apply triple_bind (M := fun _ _ => True)
  · exact triple_true
  intro _
  apply triple_bind triple_collectManagers_lists
  intro c
  have hloop : Triple True (Traversed p [] (c, []))
      (p.nestedManagers.foldlM (collectNested cloud p true) (c, [])) (Traversed p p.nestedManagers)
      (fun _ _ => True) := by
    apply triple_foldlM_done
    rintro done m post ⟨c, unlisted⟩ he
    exact triple_collectNested_traversed hu he
  apply triple_bind (hloop.consequence (fun t hlists => ?_) (fun _ _ => id) fun _ _ => id)
  · rintro ⟨c, unlisted⟩
    apply triple_bind triple_checkUnlisted
    intro _
    apply triple_pure
    rintro t ⟨hnil, h⟩
    exact h.accounted hnil
  · exact ⟨hlists.nodup, fun name hn => .inl ((hlists.mem name).1 hn), fun _ m hm => by simp at hm⟩

end Yggdrasil.Inventory
