import Mathlib.Data.List.Basic

/-! Dictionaries that keep their insertion order, as association lists, and the list
operations built from them: keeping the first entry of each key, and sorting the
distinct elements of a list. -/

namespace Yggdrasil.Dict

variable {κ α : Type} [DecidableEq κ]

def get? : List (κ × α) → κ → Option α
  | [], _ => none
  | (k', a) :: d, k => if k' = k then some a else get? d k

/-- Assignment: an existing key keeps its place, a new key goes last. -/
def set : List (κ × α) → κ → α → List (κ × α)
  | [], k, a => [(k, a)]
  | (k', a') :: d, k, a => if k' = k then (k, a) :: d else (k', a') :: set d k a

/-- Assignment unless the key is present. -/
def setdefault (d : List (κ × α)) (k : κ) (a : α) : List (κ × α) :=
  if (get? d k).isSome then d else d ++ [(k, a)]

def update (d : List (κ × α)) (e : List (κ × α)) : List (κ × α) :=
  e.foldl (fun d p => set d p.1 p.2) d

@[simp] theorem get?_nil (k : κ) : get? ([] : List (κ × α)) k = none := rfl

theorem mem_of_get? {d : List (κ × α)} {k : κ} {a : α} (h : get? d k = some a) : (k, a) ∈ d := by
  induction d with
  | nil => simp at h
  | cons p d ih =>
    simp only [get?] at h
    split_ifs at h with hk
    · simp only [Option.some.injEq] at h
      subst hk h
      exact List.mem_cons_self
    · exact List.mem_cons_of_mem _ (ih h)

theorem get?_isSome_of_mem {d : List (κ × α)} {k : κ} {a : α} (h : (k, a) ∈ d) :
    (get? d k).isSome := by
  induction d with
  | nil => simp at h
  | cons p d ih =>
    simp only [get?]
    split_ifs with hk
    · rfl
    · rcases List.mem_cons.1 h with rfl | h
      · exact absurd rfl hk
      · exact ih h

@[simp] theorem get?_set_self (d : List (κ × α)) (k : κ) (a : α) : get? (set d k a) k = some a := by
  induction d with
  | nil => simp [set, get?]
  | cons p d ih =>
    simp only [set]
    split_ifs with hk
    · simp [get?]
    · simp [get?, hk, ih]

theorem get?_set_of_ne {k k' : κ} (h : k' ≠ k) (d : List (κ × α)) (a : α) :
    get? (set d k a) k' = get? d k' := by
  induction d with
  | nil => simp [set, get?, h.symm]
  | cons p d ih =>
    simp only [set]
    split_ifs with hk
    · subst hk
      simp [get?, h.symm]
    · simp only [get?, ih]

/-- A selection of keys keeps the entries of the keys it selects. -/
theorem get?_filter {q : κ → Bool} {k : κ} (hq : q k = true) (d : List (κ × α)) :
    get? (d.filter fun e => q e.1) k = get? d k := by
  induction d with
  | nil => rfl
  | cons p d ih =>
    by_cases hk : p.1 = k
    · rw [List.filter_cons_of_pos (by rwa [hk])]
      simp [get?, hk]
    · rw [List.filter_cons]
      split_ifs
      · simp [get?, hk, ih]
      · simp [get?, hk, ih]

/-- Assigning the value that is there changes nothing. -/
theorem set_eq_self {d : List (κ × α)} {k : κ} {a : α} (h : get? d k = some a) : set d k a = d := by
  induction d with
  | nil => cases h
  | cons p d ih =>
    obtain ⟨k', a'⟩ := p
    simp only [get?] at h
    simp only [set]
    split_ifs at h ⊢ with hk
    · rw [hk, Option.some.inj h]
    · rw [ih h]

/-- An assignment keeps every key. -/
theorem isSome_get?_set {d : List (κ × α)} {k k' : κ} (a : α) (h : k' = k ∨ (get? d k').isSome) :
    (get? (set d k a) k').isSome := by
  by_cases hk : k' = k
  · rw [hk, get?_set_self]
    rfl
  · rw [get?_set_of_ne hk]
    exact h.resolve_left hk

theorem mem_set {d : List (κ × α)} {k : κ} {a : α} {p : κ × α} (h : p ∈ set d k a) :
    p = (k, a) ∨ p ∈ d := by
  induction d with
  | nil => simpa [set] using h
  | cons q d ih =>
    simp only [set] at h
    split_ifs at h
    · rcases List.mem_cons.1 h with rfl | h
      · exact .inl rfl
      · exact .inr (List.mem_cons_of_mem _ h)
    · rcases List.mem_cons.1 h with rfl | h
      · exact .inr List.mem_cons_self
      · exact (ih h).imp_right (List.mem_cons_of_mem _)

theorem mem_update {d e : List (κ × α)} {p : κ × α} (h : p ∈ update d e) : p ∈ d ∨ p ∈ e := by
  unfold update at h
  induction e generalizing d with
  | nil => exact .inl h
  | cons q e ih =>
    rcases ih h with h | h
    · rcases mem_set h with he | h
      · exact .inr (he ▸ List.mem_cons_self)
      · exact .inl h
    · exact .inr (List.mem_cons_of_mem _ h)

theorem mem_keys_set {d : List (κ × α)} {k k' : κ} {a : α} :
    k' ∈ (set d k a).map Prod.fst ↔ k' = k ∨ k' ∈ d.map Prod.fst := by
  induction d with
  | nil => simp [set]
  | cons q d ih =>
    simp only [set]
    split_ifs with hq
    · subst hq
      simp
    · rw [List.map_cons, List.mem_cons, ih, List.map_cons, List.mem_cons]
      tauto

/-- An assignment keeps the keys distinct. -/
theorem nodup_set {d : List (κ × α)} (h : (d.map Prod.fst).Nodup) (k : κ) (a : α) :
    ((set d k a).map Prod.fst).Nodup := by
  induction d with
  | nil => simp [set]
  | cons q d ih =>
    rw [List.map_cons, List.nodup_cons] at h
    simp only [set]
    split_ifs with hq
    · subst hq
      rw [List.map_cons, List.nodup_cons]
      exact h
    · rw [List.map_cons, List.nodup_cons, mem_keys_set]
      exact ⟨fun hm => hm.elim hq h.1, ih h.2⟩

/-- With distinct keys, an entry is what its key gives. -/
theorem get?_of_mem {d : List (κ × α)} (h : (d.map Prod.fst).Nodup) {k : κ} {a : α}
    (hm : (k, a) ∈ d) : get? d k = some a := by
  induction d with
  | nil => simp at hm
  | cons q d ih =>
    rw [List.map_cons, List.nodup_cons] at h
    simp only [get?]
    rcases List.mem_cons.1 hm with he | hm
    · rw [← he]
      simp
    · have hq : q.1 ≠ k := fun hk => h.1 (hk ▸ List.mem_map_of_mem (f := Prod.fst) hm)
      rw [if_neg hq]
      exact ih h.2 hm

theorem get?_eq_none {d : List (κ × α)} {k : κ} (h : k ∉ d.map Prod.fst) : get? d k = none := by
  cases hg : get? d k with
  | none => rfl
  | some a => exact absurd (List.mem_map_of_mem (mem_of_get? hg)) h

theorem get?_append (d e : List (κ × α)) (k : κ) :
    get? (d ++ e) k = (get? d k).or (get? e k) := by
  induction d with
  | nil => rfl
  | cons q d ih =>
    rw [List.cons_append, get?, get?]
    split_ifs
    · rfl
    · exact ih

/-- With distinct keys, the order of the entries does not matter to a lookup. -/
theorem get?_perm {d e : List (κ × α)} (h : d.Perm e) (hnd : (d.map Prod.fst).Nodup) (k : κ) :
    get? d k = get? e k := by
  have hnd' : (e.map Prod.fst).Nodup := (h.map Prod.fst).nodup_iff.1 hnd
  cases hd : get? d k with
  | some a => rw [get?_of_mem hnd' (h.mem_iff.1 (mem_of_get? hd))]
  | none =>
    cases he : get? e k with
    | none => rfl
    | some a =>
      rw [get?_of_mem hnd (h.mem_iff.2 (mem_of_get? he))] at hd
      cases hd

theorem set_of_notMem {d : List (κ × α)} {k : κ} (h : k ∉ d.map Prod.fst) (a : α) :
    set d k a = d ++ [(k, a)] := by
  induction d with
  | nil => rfl
  | cons q d ih =>
    rw [List.map_cons, List.mem_cons, not_or] at h
    rw [set, if_neg (Ne.symm h.1), ih h.2, List.cons_append]

/-- An assignment adds an entry exactly if the key is new. -/
theorem length_set (d : List (κ × α)) (k : κ) (a : α) :
    (set d k a).length = if get? d k = none then d.length + 1 else d.length := by
  induction d with
  | nil => rfl
  | cons q d ih =>
    by_cases hq : q.1 = k
    · simp [set, get?, hq]
    · simp only [set, get?, if_neg hq, List.length_cons, ih]
      split_ifs <;> rfl

/-- Updating with other keys, all distinct, appends. -/
theorem update_of_nodup {d e : List (κ × α)} (h : ((d ++ e).map Prod.fst).Nodup) :
    update d e = d ++ e := by
  induction e generalizing d with
  | nil => simp [update]
  | cons p e ih =>
    have hp : p.1 ∉ d.map Prod.fst := by
      rw [List.map_append, List.map_cons] at h
      exact fun hm => (List.nodup_append.1 h).2.2 _ hm _ List.mem_cons_self rfl
    have hset : update d (p :: e) = update (d ++ [p]) e := by
      rw [update, List.foldl_cons, set_of_notMem hp]
      rfl
    rw [hset, ih (by simpa using h)]
    simp

/-! ### The first entry of each key -/

section Firsts

variable (key : α → κ)

def addFirst (kept : List α) (a : α) : List α :=
  if kept.any (fun b => key b = key a) then kept else kept ++ [a]

/-- The entries of a list that are the first with their key, in order. -/
def firsts (l : List α) : List α := l.foldl (addFirst key) []

/-- `a` stands in `l` and no earlier entry has its key. -/
def IsFirst (l : List α) (a : α) : Prop :=
  ∃ pre post, l = pre ++ a :: post ∧ ∀ b ∈ pre, key b ≠ key a

theorem mem_foldl_addFirst (l kept : List α) (a : α) :
    a ∈ l.foldl (addFirst key) kept ↔
      a ∈ kept ∨ (IsFirst key l a ∧ ∀ b ∈ kept, key b ≠ key a) := by
  induction l generalizing kept with
  | nil => simp [IsFirst]
  | cons c l ih =>
    have hcons : IsFirst key (c :: l) a ↔ c = a ∨ (key c ≠ key a ∧ IsFirst key l a) := by
      constructor
      · rintro ⟨_ | ⟨d, pre⟩, post, he, hpre⟩
        · exact .inl (List.cons.inj he).1
        · obtain ⟨rfl, rfl⟩ := List.cons.inj he
          exact .inr ⟨hpre _ (by simp), pre, post, rfl, fun b hb => hpre b (by simp [hb])⟩
      · rintro (rfl | ⟨hne, pre, post, rfl, hpre⟩)
        · exact ⟨[], l, rfl, by simp⟩
        · exact ⟨c :: pre, post, rfl, by simpa using ⟨hne, hpre⟩⟩
    rw [List.foldl_cons, ih, hcons]
    by_cases hc : ∃ b ∈ kept, key b = key c
    · -- the key of `c` is taken: `c` is dropped
      have hk : addFirst key kept c = kept := by simpa [addFirst] using hc
      obtain ⟨b, hb, hbc⟩ := hc
      rw [hk]
      constructor
      · rintro (h | ⟨h, hkept⟩)
        · exact .inl h
        · exact .inr ⟨.inr ⟨fun e => hkept b hb (hbc.trans e), h⟩, hkept⟩
      · rintro (h | ⟨rfl | ⟨_, h⟩, hkept⟩)
        · exact .inl h
        · exact absurd hbc (hkept b hb)
        · exact .inr ⟨h, hkept⟩
    · have hk : addFirst key kept c = kept ++ [c] := by
        simp only [addFirst]
        rw [if_neg (by simpa using hc)]
      push Not at hc
      rw [hk]
      simp only [List.mem_append, List.mem_singleton]
      constructor
      · rintro ((h | rfl) | ⟨h, hkept⟩)
        · exact .inl h
        · exact .inr ⟨.inl rfl, hc⟩
        · exact .inr ⟨.inr ⟨hkept c (.inr rfl), h⟩, fun b hb => hkept b (.inl hb)⟩
      · rintro (h | ⟨rfl | ⟨hne, h⟩, hkept⟩)
        · exact .inl (.inl h)
        · exact .inl (.inr rfl)
        · exact .inr ⟨h, fun b hb => hb.elim (hkept b) (fun e => e ▸ hne)⟩

theorem mem_firsts {l : List α} {a : α} : a ∈ firsts key l ↔ IsFirst key l a := by
  simp [firsts, mem_foldl_addFirst]

omit [DecidableEq κ] in
theorem IsFirst.mem {key : α → κ} {l : List α} {a : α} (h : IsFirst key l a) : a ∈ l := by
  obtain ⟨pre, post, rfl, _⟩ := h
  simp

theorem mem_of_mem_firsts {l : List α} {a : α} (h : a ∈ firsts key l) : a ∈ l :=
  ((mem_firsts key).1 h).mem

/-- Every key of the list is the key of a kept entry. -/
theorem exists_isFirst {l : List α} {a : α} (h : a ∈ l) : ∃ b, IsFirst key l b ∧ key b = key a := by
  induction l with
  | nil => simp at h
  | cons c l ih =>
    by_cases hc : key c = key a
    · exact ⟨c, ⟨[], l, rfl, by simp⟩, hc⟩
    · rcases List.mem_cons.1 h with rfl | h
      · exact absurd rfl hc
      · obtain ⟨b, ⟨pre, post, rfl, hpre⟩, hb⟩ := ih h
        refine ⟨b, ⟨c :: pre, post, rfl, ?_⟩, hb⟩
        intro d hd
        rcases List.mem_cons.1 hd with rfl | hd
        · rwa [hb]
        · exact hpre d hd

/-- The kept entries have distinct keys. -/
theorem nodup_firsts (l : List α) : ((firsts key l).map key).Nodup := by
  have step : ∀ (l kept : List α), (kept.map key).Nodup →
      ((l.foldl (addFirst key) kept).map key).Nodup := by
    intro l
    induction l with
    | nil => exact fun _ h => h
    | cons a l ih =>
      intro kept h
      apply ih
      unfold addFirst
      split_ifs with ha
      · exact h
      · have hfree : ∀ b ∈ kept, key b ≠ key a := by simpa using ha
        rw [List.map_append, List.nodup_append]
        exact ⟨h, by simp, by simpa using hfree⟩
  exact step l [] List.nodup_nil

/-- Where the key determines the entry, every entry is the first of its key. -/
theorem mem_firsts_of_inj {l : List α} (h : ∀ a ∈ l, ∀ b ∈ l, key a = key b → a = b) {a : α} :
    a ∈ firsts key l ↔ a ∈ l := by
  constructor
  · exact mem_of_mem_firsts key
  · intro ha
    obtain ⟨b, hb, hk⟩ := exists_isFirst key ha
    rw [mem_firsts, ← h b hb.mem a ha hk]
    exact hb

end Firsts

end Yggdrasil.Dict
