import Mathlib.Data.List.Basic
import Mathlib.Data.List.Forall2

/-! Combinations of one element from each of several lists, and maps that can fail. -/

namespace Yggdrasil.Combination

variable {α β : Type}

/-- All combinations of one element of each list, the last list varying fastest. -/
def product : List (List α) → List (List α)
  | [] => [[]]
  | l :: ls => l.flatMap fun a => (product ls).map (a :: ·)

theorem mem_product {ls : List (List α)} {c : List α} :
    c ∈ product ls ↔ List.Forall₂ (fun a l => a ∈ l) c ls := by
  induction ls generalizing c with
  | nil => simp [product]
  | cons l ls ih =>
    simp only [product, List.mem_flatMap, List.mem_map]
    constructor
    · intro ⟨a, ha, d, hd, he⟩
      subst he
      exact List.Forall₂.cons ha (ih.1 hd)
    · intro h
      cases h with
      | cons ha hd => exact ⟨_, ha, _, ih.2 hd, rfl⟩

/-- What the lists say about their elements, a combination says about its own. -/
theorem forall₂_of_mem_product {R : β → List α → Prop} {S : β → α → Prop} {l : List β}
    {ls : List (List α)} (h : List.Forall₂ R l ls) {c : List α} (hc : c ∈ product ls)
    (hRS : ∀ b ∈ l, ∀ as, R b as → ∀ a ∈ as, S b a) : List.Forall₂ S l c := by
  rw [mem_product] at hc
  induction h generalizing c with
  | nil =>
    cases hc
    exact .nil
  | cons hb _ ih =>
    cases hc with
    | cons ha hrest =>
      exact .cons (hRS _ List.mem_cons_self _ hb _ ha)
        (ih hrest fun b hb => hRS b (List.mem_cons_of_mem _ hb))

/-- Every element of a combination is in one of the lists. -/
theorem mem_of_mem_product {ls : List (List α)} {c : List α} (h : c ∈ product ls) {a : α}
    (ha : a ∈ c) : ∃ l ∈ ls, a ∈ l := by
  have hall := mem_product.1 h
  clear h
  induction hall with
  | nil => simp at ha
  | cons hal _ ih =>
    rcases List.mem_cons.1 ha with he | ha
    · exact ⟨_, by simp, he ▸ hal⟩
    · obtain ⟨l, hl, hm⟩ := ih ha
      exact ⟨l, by simp [hl], hm⟩

theorem exists_of_mem_zipWith {γ : Type} {f : α → β → γ} {l : List α} {l' : List β} {x : γ}
    (h : x ∈ l.zipWith f l') : ∃ a ∈ l, ∃ b ∈ l', x = f a b := by
  induction l generalizing l' with
  | nil => simp at h
  | cons a l ih =>
    cases l' with
    | nil => simp at h
    | cons b l' =>
      rw [List.zipWith_cons_cons] at h
      rcases List.mem_cons.1 h with he | h
      · exact ⟨a, by simp, b, by simp, he⟩
      · obtain ⟨a', ha', b', hb', he⟩ := ih h
        exact ⟨a', by simp [ha'], b', by simp [hb'], he⟩

theorem forall₂_of_mem {R S : α → β → Prop} {l : List α} {l' : List β} (h : List.Forall₂ R l l')
    (hRS : ∀ a ∈ l, ∀ b, R a b → S a b) : List.Forall₂ S l l' := by
  induction h with
  | nil => exact List.Forall₂.nil
  | cons hab _ ih =>
    exact List.Forall₂.cons (hRS _ (by simp) _ hab) (ih fun a ha => hRS a (by simp [ha]))

theorem forall₂_of_mapM {f : α → Option β} {l : List α} {l' : List β} (h : l.mapM f = some l') :
    List.Forall₂ (fun a b => f a = some b) l l' := by
  induction l generalizing l' with
  | nil =>
    simp only [List.mapM_nil, Option.pure_def, Option.some.injEq] at h
    subst h
    exact List.Forall₂.nil
  | cons a l ih =>
    rw [List.mapM_cons] at h
    simp only [Option.bind_eq_bind, Option.pure_def, Option.bind_eq_some_iff, Option.some.injEq] at h
    obtain ⟨b, hb, bs, hbs, he⟩ := h
    subst he
    exact List.Forall₂.cons hb (ih hbs)

theorem exists_mapM {f : α → Option β} {l : List α} (h : ∀ a ∈ l, ∃ b, f a = some b) :
    ∃ l', l.mapM f = some l' := by
  induction l with
  | nil => exact ⟨[], rfl⟩
  | cons a l ih =>
    obtain ⟨b, hb⟩ := h a List.mem_cons_self
    obtain ⟨bs, hbs⟩ := ih fun a ha => h a (List.mem_cons_of_mem _ ha)
    exact ⟨b :: bs, by simp [List.mapM_cons, hb, hbs]⟩

theorem mapM_of_mem {f g : α → Option β} {l : List α} {l' : List β}
    (hfg : ∀ a ∈ l, ∀ b, f a = some b → g a = some b) (h : l.mapM f = some l') :
    l.mapM g = some l' := by
  induction l generalizing l' with
  | nil => exact h
  | cons a l ih =>
    rw [List.mapM_cons] at h ⊢
    simp only [Option.bind_eq_bind, Option.pure_def, Option.bind_eq_some_iff] at h ⊢
    obtain ⟨b, hb, bs, hbs, he⟩ := h
    exact ⟨b, hfg a List.mem_cons_self b hb, bs,
      ih (fun a ha => hfg a (List.mem_cons_of_mem _ ha)) hbs, he⟩

theorem mem_of_mapM {f : α → Option β} {l : List α} {l' : List β} (h : l.mapM f = some l') {b : β}
    (hb : b ∈ l') : ∃ a ∈ l, f a = some b := by
  have hall := forall₂_of_mapM h
  clear h
  induction hall with
  | nil => simp at hb
  | cons hab _ ih =>
    rcases List.mem_cons.1 hb with he | hb
    · exact ⟨_, by simp, he ▸ hab⟩
    · obtain ⟨a, ha, hf⟩ := ih hb
      exact ⟨a, by simp [ha], hf⟩

theorem exists_of_forall₂ {R : α → β → Prop} {l : List α} {l' : List β} (h : List.Forall₂ R l l')
    {a : α} (ha : a ∈ l) : ∃ b ∈ l', R a b := by
  induction h with
  | nil => simp at ha
  | cons hab _ ih =>
    rcases List.mem_cons.1 ha with he | ha
    · exact ⟨_, by simp, he ▸ hab⟩
    · obtain ⟨b, hb, hf⟩ := ih ha
      exact ⟨b, by simp [hb], hf⟩

theorem map_eq_of_forall₂ {γ : Type*} {f : β → γ} {g : α → γ} {l : List α} {l' : List β}
    (h : List.Forall₂ (fun a b => f b = g a) l l') : l'.map f = l.map g := by
  induction h with
  | nil => rfl
  | cons hab _ ih => rw [List.map_cons, List.map_cons, hab, ih]

theorem exists_mem_of_mapM {f : α → Option β} {l : List α} {l' : List β} (h : l.mapM f = some l')
    {a : α} (ha : a ∈ l) : ∃ b ∈ l', f a = some b :=
  exists_of_forall₂ (forall₂_of_mapM h) ha

end Yggdrasil.Combination
