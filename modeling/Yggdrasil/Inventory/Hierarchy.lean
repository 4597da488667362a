import Yggdrasil.Inventory.Session

/-! Nested types and their parents. A nested type is listed for every combination of parents,
one for each parameter. It is accounted for if the run lists it for all of them, if the
service answers that it is missing, or if it has a parent type without objects. What has
been accounted for stays so when further types are listed. -/

namespace Yggdrasil.Inventory

open Combination Python

/-- A type that is listed for the objects its parameters name. -/
structure NestedType where
  name : String
  parameters : List String
  deriving DecidableEq

/-- How a provider reads its nested types: the types that a parameter names, the identifier of
a parent under a parameter, and the answers that say that a type is missing. -/
structure Hierarchy where
  types : List NestedType
  names : String → String → Bool
  identifier : Value → String → Value
  missing : Request → Answer → Bool

/-- The objects of the listed types. -/
abbrev Objects := List (String × List Value)

def Answer.answered : Answer → Bool
  | .failed _ _ => false
  | _ => true

namespace Hierarchy

variable (h : Hierarchy)

/-- The parameter names a listed type with these objects. -/
def Enumerates (objects : Objects) (parameter : String) (parents : List Value) : Prop :=
  ∃ type, h.names parameter type = true ∧ Dict.get? objects type = some parents

/-- The request gives every parameter the identifier of its parent. -/
def Gives (r : Request) (parameters : List String) (combination : List Value) : Prop :=
  List.Forall₂ (fun q o => ∃ v, (q, v) ∈ r.path ∧ text v = text (h.identifier o q))
    parameters combination

/-- The parents of the type are listed, and it is listed for every combination of them. -/
structure Covered (t : List Event) (objects : Objects) (type : NestedType) : Prop where
  enumerated : ∀ q ∈ type.parameters, ∃ parents, h.Enumerates objects q parents
  listed : ∀ combination,
    List.Forall₂ (fun q o => ∃ parents, h.Enumerates objects q parents ∧ o ∈ parents)
      type.parameters combination →
    ∃ r answer, .listing r answer ∈ t ∧ answer.answered = true ∧ r.resource = type.name ∧
      h.Gives r type.parameters combination

/-- The service answers that the type is missing. -/
def AnsweredMissing (t : List Event) (name : String) : Prop :=
  ∃ r answer, .listing r answer ∈ t ∧ r.resource = name ∧ h.missing r answer = true

/-- The parameter names a type without objects: it is listed and has none, or it is nested and
one of its own parameters names such a type. -/
inductive Childless (objects : Objects) : String → Prop
  | listed {q : String} : h.Enumerates objects q [] → Childless objects q
  | nested {q q' : String} {type : NestedType} : type ∈ h.types → h.names q type.name = true →
      q' ∈ type.parameters → Childless objects q' → Childless objects q

def Accounted (t : List Event) (objects : Objects) (type : NestedType) : Prop :=
  h.Covered t objects type ∨ h.AnsweredMissing t type.name ∨
    ∃ q ∈ type.parameters, h.Childless objects q

/-- Every nested type is accounted for. -/
def Complete (t : List Event) (objects : Objects) : Prop :=
  ∀ type ∈ h.types, h.Accounted t objects type

/-- No parameter names two of the types. -/
def Unambiguous (names : List String) : Prop :=
  ∀ type ∈ h.types, ∀ q ∈ type.parameters, ∀ a ∈ names, ∀ b ∈ names,
    h.names q a = true → h.names q b = true → a = b

end Hierarchy

/-- Further types are listed. -/
def Extends (objects objects' : Objects) : Prop :=
  ∀ type parents, Dict.get? objects type = some parents → Dict.get? objects' type = some parents

theorem extends_set {objects : Objects} {name : String} {parents : List Value}
    (hn : Dict.get? objects name = none) : Extends objects (Dict.set objects name parents) := by
  intro type parents' ht
  have hne : type ≠ name := by
    rintro rfl
    rw [hn] at ht
    cases ht
  rwa [Dict.get?_set_of_ne hne]

namespace Hierarchy

variable {h : Hierarchy} {t : List Event} {objects objects' : Objects} {names : List String}
  {type : NestedType} {q : String}

theorem Enumerates.extend {parents : List Value} (he : h.Enumerates objects q parents)
    (hx : Extends objects objects') : h.Enumerates objects' q parents := by
  obtain ⟨type, hn, hg⟩ := he
  exact ⟨type, hn, hx type parents hg⟩

/-- The objects that a parameter names do not change when further types are listed. -/
theorem Enumerates.unique (hu : h.Unambiguous names) (ht : type ∈ h.types) (hq : q ∈ type.parameters)
    (hk : ∀ name ∈ objects.map Prod.fst, name ∈ names) {parents parents' : List Value}
    (he : h.Enumerates objects q parents) (he' : h.Enumerates objects q parents') :
    parents = parents' := by
  obtain ⟨a, ha, hga⟩ := he
  obtain ⟨b, hb, hgb⟩ := he'
  have hka : a ∈ names := hk a (List.mem_map_of_mem (Dict.mem_of_get? hga))
  have hkb : b ∈ names := hk b (List.mem_map_of_mem (Dict.mem_of_get? hgb))
  have hab : a = b := hu type ht q hq a hka b hkb ha hb
  rw [hab, hgb] at hga
  exact (Option.some.inj hga).symm

theorem Covered.extend (hu : h.Unambiguous names) (ht : type ∈ h.types)
    (hk : ∀ name ∈ objects'.map Prod.fst, name ∈ names) (hx : Extends objects objects')
    (hc : h.Covered t objects type) (s : List Event) : h.Covered (t ++ s) objects' type where
  enumerated q hq := by
    obtain ⟨parents, he⟩ := hc.enumerated q hq
    exact ⟨parents, he.extend hx⟩
  listed combination hcomb := by
    -- the parents of a parameter are those it had when the type was listed
    have hsame : List.Forall₂ (fun q o => ∃ parents, h.Enumerates objects q parents ∧ o ∈ parents)
        type.parameters combination := by
      refine forall₂_of_mem hcomb fun q hq o ⟨parents, he, ho⟩ => ?_
      obtain ⟨parents', he'⟩ := hc.enumerated q hq
      rw [Enumerates.unique hu ht hq hk he (he'.extend hx)] at ho
      exact ⟨parents', he', ho⟩
    obtain ⟨r, answer, hm, hr⟩ := hc.listed combination hsame
    exact ⟨r, answer, List.mem_append_left s hm, hr⟩

theorem AnsweredMissing.append {name : String} (hm : h.AnsweredMissing t name) (s : List Event) :
    h.AnsweredMissing (t ++ s) name := by
  obtain ⟨r, answer, hl, hr⟩ := hm
  exact ⟨r, answer, List.mem_append_left s hl, hr⟩

theorem Childless.extend (hx : Extends objects objects') (hc : h.Childless objects q) :
    h.Childless objects' q := by
  induction hc with
  | listed he => exact .listed (he.extend hx)
  | nested ht hn hq _ ih => exact .nested ht hn hq ih

theorem Accounted.extend (hu : h.Unambiguous names) (ht : type ∈ h.types)
    (hk : ∀ name ∈ objects'.map Prod.fst, name ∈ names) (hx : Extends objects objects')
    (ha : h.Accounted t objects type) (s : List Event) : h.Accounted (t ++ s) objects' type := by
  rcases ha with hc | hm | ⟨q, hq, hc⟩
  · exact .inl (hc.extend hu ht hk hx s)
  · exact .inr (.inl (hm.append s))
  · exact .inr (.inr ⟨q, hq, hc.extend hx⟩)

end Hierarchy

end Yggdrasil.Inventory
