import Mathlib.Data.Multiset.MapFold
import Mathlib.Logic.Relation

/-! Lists cut into groups by a relation. The relation decides the groups up to their order
and the order inside each. -/

namespace Yggdrasil

variable {α : Type*} {R : α → α → Prop}

/-- The groups are non-empty, hold every element of the list once, and two elements share a
group exactly when they are related. -/
structure Grouped (R : α → α → Prop) (l : List α) (groups : List (List α)) : Prop where
  nonempty : ∀ g ∈ groups, g ≠ []
  flatten : groups.flatten.Perm l
  related : ∀ g ∈ groups, ∀ a ∈ g, ∀ b ∈ g, R a b
  unrelated : groups.Pairwise fun g g' => ∀ a ∈ g, ∀ b ∈ g', ¬R a b

/-- The groups without an order. -/
def partition (groups : List (List α)) : Multiset (Multiset α) :=
  Multiset.ofList (groups.map Multiset.ofList)

@[simp] theorem partition_nil : partition ([] : List (List α)) = 0 := rfl

@[simp] theorem partition_cons (g : List α) (groups : List (List α)) :
    partition (g :: groups) = Multiset.ofList g ::ₘ partition groups := rfl

theorem partition_perm {groups groups' : List (List α)} (h : groups.Perm groups') :
    partition groups = partition groups' :=
  Multiset.coe_eq_coe.2 (h.map _)

namespace Grouped

variable {l l' : List α} {groups groups' : List (List α)}

theorem of_perm (h : Grouped R l groups) (hl : l.Perm l') : Grouped R l' groups :=
  ⟨h.nonempty, h.flatten.trans hl, h.related, h.unrelated⟩

theorem mono {R' : α → α → Prop} (h : Grouped R l groups)
    (hR : ∀ a ∈ l, ∀ b ∈ l, R a b ↔ R' a b) : Grouped R' l groups := by
  have hmem : ∀ g ∈ groups, ∀ a ∈ g, a ∈ l := fun g hg a ha =>
    h.flatten.mem_iff.1 (List.mem_flatten.2 ⟨g, hg, ha⟩)
  refine ⟨h.nonempty, h.flatten, fun g hg a ha b hb => ?_, ?_⟩
  · exact (hR a (hmem g hg a ha) b (hmem g hg b hb)).1 (h.related g hg a ha b hb)
  · refine h.unrelated.imp_of_mem ?_
    intro g g' hg hg' hn a ha b hb hab
    exact hn a ha b hb ((hR a (hmem g hg a ha) b (hmem g' hg' b hb)).2 hab)

theorem of_perm_groups (h : Grouped R l groups) (hsymm : ∀ a b, R a b → R b a)
    (hg : groups.Perm groups') : Grouped R l groups' := by
  refine ⟨fun g hm => h.nonempty g (hg.mem_iff.2 hm), hg.symm.flatten.trans h.flatten,
    fun g hm => h.related g (hg.mem_iff.2 hm), ?_⟩
  refine (List.Perm.pairwise_iff ?_ hg).1 h.unrelated
  intro g g' hn a ha b hb hab
  exact hn b hb a ha (hsymm a b hab)

theorem tail {g : List α} (h : Grouped R l (g :: groups)) :
    Grouped R groups.flatten groups :=
  ⟨fun g' hg => h.nonempty g' (List.mem_cons_of_mem _ hg), .refl _,
    fun g' hg => h.related g' (List.mem_cons_of_mem _ hg), (List.pairwise_cons.1 h.unrelated).2⟩

/-- The group of an element is what is related to it. -/
theorem head_perm_filter [DecidableRel R] {g : List α} {a : α} (h : Grouped R l (g :: groups))
    (ha : a ∈ g) : g.Perm (l.filter fun b => R a b) := by
  have hin : g.filter (fun b => R a b) = g :=
    List.filter_eq_self.2 fun b hb => by simpa using h.related g List.mem_cons_self a ha b hb
  have hout : groups.flatten.filter (fun b => R a b) = [] := by
    refine List.filter_eq_nil_iff.2 fun b hb => ?_
    obtain ⟨g', hg', hb'⟩ := List.mem_flatten.1 hb
    simpa using (List.pairwise_cons.1 h.unrelated).1 g' hg' a ha b hb'
  have hperm := h.flatten.filter fun b => decide (R a b)
  rw [List.flatten_cons, List.filter_append, hin, hout, List.append_nil] at hperm
  exact hperm

/-- The relation decides the partition. -/
theorem partition_eq (hsymm : ∀ a b, R a b → R b a) (h : Grouped R l groups) (h' : Grouped R l groups') :
    partition groups = partition groups' := by
  classical
  induction groups generalizing l groups' with
  | nil =>
    have hl : l = [] := h.flatten.symm.eq_nil
    cases groups' with
    | nil => rfl
    | cons g' rest =>
      have hnil : (g' :: rest).flatten = [] := (hl ▸ h'.flatten).eq_nil
      exact absurd (List.append_eq_nil_iff.1 hnil).1 (h'.nonempty g' List.mem_cons_self)
  | cons g groups ih =>
    obtain ⟨a, ha⟩ := List.exists_mem_of_ne_nil g (h.nonempty g List.mem_cons_self)
    have hal : a ∈ l := h.flatten.mem_iff.1 (List.mem_append_left _ ha)
    obtain ⟨g', hg', ha'⟩ := List.mem_flatten.1 (h'.flatten.mem_iff.2 hal)
    have hfirst : groups'.Perm (g' :: groups'.erase g') := List.perm_cons_erase hg'
    have h'' := h'.of_perm_groups hsymm hfirst
    have hgg : g.Perm g' := (h.head_perm_filter ha).trans (h''.head_perm_filter ha').symm
    have hrest : (groups'.erase g').flatten.Perm groups.flatten := by
      have hboth := h''.flatten.trans h.flatten.symm
      rw [List.flatten_cons, List.flatten_cons] at hboth
      exact (List.perm_append_left_iff g').1 (hboth.trans (hgg.append_right _))
    rw [partition_perm hfirst, partition_cons, partition_cons,
      ih h.tail (h''.tail.of_perm hrest), Multiset.coe_eq_coe.2 hgg]

end Grouped

end Yggdrasil
