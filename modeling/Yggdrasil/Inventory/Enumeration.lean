import Yggdrasil.Inventory.Hierarchy
import Yggdrasil.Inventory.Modes
import Yggdrasil.Inventory.Provenance

/-! Which types a provider has listed, and how a nested type becomes accounted for: its
parents are looked up among the listed types, and it is listed for every combination of them. -/

namespace Yggdrasil.Inventory

open Combination Effect Effect.Program Python

/-! ### Listed types -/

/-- Exactly these types are listed, each once. -/
structure Lists (names : List String) (c : Collected) : Prop where
  nodup : (c.objects.map Prod.fst).Nodup
  mem : ∀ name, name ∈ c.objects.map Prod.fst ↔ name ∈ names

variable {names : List String} {c : Collected} {name : String} {objects : List Value}
  {result : List (String × List Mapping)}

theorem Lists.set (h : Lists names c) (name : String) (objects : List Value) :
    Lists (names ++ [name]) ⟨Dict.set c.objects name objects, result⟩ := by
  refine ⟨Dict.nodup_set h.nodup name objects, fun name' => ?_⟩
  rw [Dict.mem_keys_set, h.mem, List.mem_append, List.mem_singleton]
  exact or_comm

theorem Lists.of_set {c' : Collected} (h : Lists names c)
    (hobjects : c'.objects = Dict.set c.objects name objects) : Lists (names ++ [name]) c' := by
  have hset : Lists (names ++ [name]) ⟨Dict.set c.objects name objects, c'.result⟩ :=
    h.set name objects
  rwa [← hobjects] at hset

/-- Listing a type again adds none. -/
theorem Lists.set_of_mem (h : Lists names c) (hn : name ∈ names) (objects : List Value) :
    Lists names ⟨Dict.set c.objects name objects, result⟩ := by
  refine ⟨Dict.nodup_set h.nodup name objects, fun name' => ?_⟩
  rw [Dict.mem_keys_set, h.mem]
  constructor
  · rintro (rfl | h)
    · exact hn
    · exact h
  · exact .inr

theorem Lists.congr {names' : List String} (h : Lists names c)
    (hn : ∀ name, name ∈ names ↔ name ∈ names') : Lists names' c :=
  ⟨h.nodup, fun name => (h.mem name).trans (hn name)⟩

theorem lists_nil : Lists [] ⟨[], result⟩ := ⟨List.nodup_nil, fun _ => Iff.rfl⟩

theorem Lists.of_get? (h : Lists names c) (hg : (Dict.get? c.objects name).isSome) : name ∈ names := by
  obtain ⟨objects, ho⟩ := Option.isSome_iff_exists.1 hg
  exact (h.mem name).1 (List.mem_map_of_mem (Dict.mem_of_get? ho))

/-- A precondition on the state alone may be used to prove the rule. -/
theorem triple_const {α : Type} {P : Prop} {m : Prog α} {Post : α → List Event → Prop}
    {Err : Exc → List Event → Prop} (h : P → Triple True (fun _ => P) m Post Err) :
    Triple True (fun _ => P) m Post Err :=
  triple_intro fun _ hP => (h hP).consequence (fun _ _ => hP) (fun _ _ => id) fun _ _ => id

/-- Filtering the listed types lists no other. -/
theorem triple_filterRelated_lists (service : String) :
    Triple True (fun _ => Lists names c) (filterRelated service c) (fun c' _ => Lists names c')
      (fun _ _ => True) := by
  apply triple_const
  intro hlists
  apply triple_foldlM (I := fun c' _ => Lists names c')
  intro c' entry hentry
  have hn : entry.1 ∈ names := (hlists.mem entry.1).1 (List.mem_map_of_mem hentry)
  unfold filterType
  apply triple_ite
  · intro _
    apply triple_bind (M := fun _ _ => Lists names c')
    · exact triple_ofOption fun _ _ _ => id
    · exact fun entries => triple_pure fun _ h => h.set_of_mem hn _
  · exact fun _ => triple_pure fun _ h => h.set_of_mem hn _

/-! ### Covered types -/

namespace Hierarchy

variable {h : Hierarchy} {t : List Event} {objects : Objects} {type : NestedType}
  {options : List (List Value)}

/-- A combination of parents is one of the looked-up ones. -/
theorem mem_product_of_enumerated (hu : h.Unambiguous names) (ht : type ∈ h.types)
    (hk : ∀ name ∈ objects.map Prod.fst, name ∈ names)
    (ho : List.Forall₂ (h.Enumerates objects) type.parameters options) {combination : List Value}
    (hc : List.Forall₂ (fun q o => ∃ parents, h.Enumerates objects q parents ∧ o ∈ parents)
      type.parameters combination) : combination ∈ product options := by
  rw [mem_product]
  have hsame : ∀ qs, (∀ q ∈ qs, q ∈ type.parameters) → ∀ options combination,
      List.Forall₂ (h.Enumerates objects) qs options →
      List.Forall₂ (fun q o => ∃ parents, h.Enumerates objects q parents ∧ o ∈ parents) qs
        combination → List.Forall₂ (fun o parents => o ∈ parents) combination options := by
    intro qs hqs options combination ho
    induction ho generalizing combination with
    | nil =>
      intro hc
      cases hc
      exact .nil
    | @cons q parents qs options hq _ ih =>
      rintro (_ | ⟨⟨parents', hq', hmem⟩, hrest⟩)
      have hparents : parents' = parents :=
        Enumerates.unique hu ht (hqs q List.mem_cons_self) hk hq' hq
      rw [hparents] at hmem
      exact .cons hmem (ih (fun q hq => hqs q (List.mem_cons_of_mem _ hq)) _ hrest)
  exact hsame _ (fun _ => id) _ _ ho hc

/-- A type that is listed for all combinations of the looked-up parents is covered. -/
theorem covered_of_product (hu : h.Unambiguous names) (ht : type ∈ h.types)
    (hk : ∀ name ∈ objects.map Prod.fst, name ∈ names)
    (ho : List.Forall₂ (h.Enumerates objects) type.parameters options)
    (hlisted : ∀ combination ∈ product options, ∃ r answer, .listing r answer ∈ t ∧
      answer.answered = true ∧ r.resource = type.name ∧ h.Gives r type.parameters combination) :
    h.Covered t objects type where
  enumerated q hq := by
    obtain ⟨parents, -, hparents⟩ := exists_of_forall₂ ho hq
    exact ⟨parents, hparents⟩
  listed combination hc := hlisted combination (mem_product_of_enumerated hu ht hk ho hc)

end Hierarchy

/-- In strict mode a tolerated listing returns what it lists, or the type is missing. -/
theorem triple_tolerate_strict {Pre Missing : List Event → Prop} {resource : String}
    {listing : Prog (List Value)} {Post : List Value → List Event → Prop}
    (h : Triple True Pre listing Post (fun x t => ∀ kind message, x = .inventory kind message →
      isMissingResourceError message = true → Missing t)) :
    Triple True Pre (tolerate true resource listing) (fun objects t => Post objects t ∨ Missing t)
      (fun _ _ => True) := by
  apply triple_handle (h.consequence (fun _ => id) (fun _ _ => .inl) fun _ _ => id)
  intro x
  cases x with
  | other message => exact triple_throw fun _ _ => trivial
  | inventory kind message =>
    apply triple_ite
    · exact fun hmissing => triple_pure fun t ht => .inr (ht kind message rfl hmissing)
    · intro _
      apply triple_bind (M := fun _ _ => True)
      · exact triple_emit fun _ _ => trivial
      · exact fun _ => triple_throw fun _ _ => trivial

end Yggdrasil.Inventory
