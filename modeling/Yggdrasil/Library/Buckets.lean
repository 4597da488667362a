import Mathlib.Data.List.Induction
import Mathlib.Data.List.Sort
import Yggdrasil.Library.Dict

/-! A list cut into buckets by a key, in a dictionary whose keys stand in the order of their
first element; the least element of a list as the head of its sorted form; and loops whose
steps can fail. -/

namespace Yggdrasil.Dict

variable {κ α : Type} [DecidableEq κ] (key : α → κ)

def addTo (d : List (κ × List α)) (a : α) : List (κ × List α) :=
  set d (key a) ((get? d (key a)).getD [] ++ [a])

/-- The elements of each key, in their order. -/
def buckets (l : List α) : List (κ × List α) := l.foldl (addTo key) []

variable {key}

theorem buckets_concat (l : List α) (a : α) : buckets key (l ++ [a]) = addTo key (buckets key l) a := by
  rw [buckets, buckets, List.foldl_append, List.foldl_cons, List.foldl_nil]

theorem nodup_buckets (l : List α) : ((buckets key l).map Prod.fst).Nodup := by
  induction l using List.reverseRecOn with
  | nil => exact List.nodup_nil
  | append_singleton l a ih =>
    rw [buckets_concat]
    exact nodup_set ih _ _

/-- A bucket holds what has its key, and is there as soon as something has. -/
theorem get?_buckets (l : List α) (k : κ) :
    get? (buckets key l) k =
      if k ∈ l.map key then some (l.filter fun a => key a = k) else none := by
  induction l using List.reverseRecOn with
  | nil => rfl
  | append_singleton l a ih =>
    rw [buckets_concat, addTo]
    by_cases hk : k = key a
    · subst hk
      rw [get?_set_self, ih]
      by_cases hmem : key a ∈ l.map key
      · simp [hmem]
      · have hnone : l.filter (fun b => key b = key a) = [] :=
          List.filter_eq_nil_iff.2 fun b hb hba => hmem (by
            rw [← of_decide_eq_true hba]; exact List.mem_map_of_mem hb)
        simp [hmem, hnone]
    · rw [get?_set_of_ne hk, ih]
      simp [hk, Ne.symm hk]

theorem mem_buckets {l : List α} {k : κ} {g : List α} :
    (k, g) ∈ buckets key l ↔ k ∈ l.map key ∧ g = l.filter fun a => key a = k := by
  constructor
  · intro h
    have hget := get?_of_mem (nodup_buckets l) h
    rw [get?_buckets] at hget
    split_ifs at hget with hk
    exact ⟨hk, (Option.some.inj hget).symm⟩
  · rintro ⟨hk, rfl⟩
    exact mem_of_get? (by rw [get?_buckets, if_pos hk])

/-- The buckets together hold the list. -/
theorem flatMap_addTo_perm (d : List (κ × List α)) (a : α) :
    ((addTo key d a).flatMap Prod.snd).Perm (a :: d.flatMap Prod.snd) := by
  unfold addTo
  induction d with
  | nil => exact .refl _
  | cons p d ih =>
    obtain ⟨k, g⟩ := p
    by_cases hk : k = key a
    · simp only [set, get?, hk, if_true, Option.getD_some, List.flatMap_cons]
      rw [List.append_assoc]
      exact List.perm_middle
    · simp only [set, get?, hk, if_false, List.flatMap_cons]
      exact (ih.append_left g).trans List.perm_middle

theorem flatMap_buckets_perm (l : List α) : ((buckets key l).flatMap Prod.snd).Perm l := by
  induction l using List.reverseRecOn with
  | nil => exact .refl _
  | append_singleton l a ih =>
    rw [buckets_concat]
    exact ((flatMap_addTo_perm _ a).trans (ih.cons a)).trans (List.perm_append_singleton a l).symm

end Yggdrasil.Dict

namespace Yggdrasil

variable {α : Type} {r : α → α → Prop} [DecidableRel r]

/-- The head of a sorted list is one of its least elements. -/
theorem least_of_head?_insertionSort [Std.Total r] [IsTrans α r] {l : List α} {a : α}
    (h : (l.insertionSort r).head? = some a) : a ∈ l ∧ ∀ b ∈ l, r a b := by
  obtain ⟨rest, hsort⟩ := List.head?_eq_some_iff.1 h
  have hmem : ∀ b, b ∈ l ↔ b = a ∨ b ∈ rest := fun b => by
    rw [← List.mem_insertionSort r, hsort, List.mem_cons]
  have hpairwise := List.pairwise_insertionSort r l
  rw [hsort, List.pairwise_cons] at hpairwise
  refine ⟨(hmem a).2 (.inl rfl), fun b hb => ?_⟩
  rcases (hmem b).1 hb with rfl | hb
  · exact (Std.Total.total b b).elim id id
  · exact hpairwise.1 b hb

theorem head?_insertionSort_isSome {l : List α} (h : l ≠ []) :
    ∃ a, (l.insertionSort r).head? = some a := by
  cases hsort : l.insertionSort r with
  | nil =>
    have hlength := List.length_insertionSort r l
    rw [hsort] at hlength
    exact absurd (List.length_eq_zero_iff.1 hlength.symm) h
  | cons a rest => exact ⟨a, rfl⟩

variable {ε β : Type} {f : α → Except ε β} {l : List α}

/-- A step and its continuation succeed one after the other. -/
theorem bind_eq_ok {x : Except ε α} {b : β} : (x >>= f) = .ok b ↔ ∃ a, x = .ok a ∧ f a = .ok b := by
  cases x with
  | error e => simp [bind, Except.bind]
  | ok a => simp [bind, Except.bind]

theorem mapM_eq_ok {l' : List β} :
    l.mapM f = .ok l' ↔ List.Forall₂ (fun a b => f a = .ok b) l l' := by
  induction l generalizing l' with
  | nil => cases l' <;> simp [pure, Except.pure]
  | cons a l ih =>
    rw [List.mapM_cons]
    cases ha : f a with
    | error x => cases l' <;> simp [bind, Except.bind, ha]
    | ok b =>
      cases hl : l.mapM f with
      | error x => cases l' <;> simp [bind, Except.bind, ha, ← ih, hl]
      | ok bs => cases l' <;> simp [bind, Except.bind, pure, Except.pure, ha, ← ih, hl]

theorem mapM_eq_ok_map {g : α → β} (h : ∀ a ∈ l, f a = .ok (g a)) : l.mapM f = .ok (l.map g) := by
  refine mapM_eq_ok.2 ?_
  rw [List.forall₂_map_right_iff, List.forall₂_same]
  exact h

/-- The loop fails exactly if one of its steps does. -/
theorem mapM_fails : (∃ x, l.mapM f = .error x) ↔ ∃ a ∈ l, ∃ x, f a = .error x := by
  induction l with
  | nil => simp [pure, Except.pure]
  | cons a l ih =>
    rw [List.mapM_cons, List.exists_mem_cons_iff, ← ih]
    cases ha : f a with
    | error x => simp [bind, Except.bind]
    | ok b => cases hl : l.mapM f <;> simp [bind, Except.bind, pure, Except.pure]

end Yggdrasil
