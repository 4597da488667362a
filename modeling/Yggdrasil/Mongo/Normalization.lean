import Yggdrasil.Mongo.Configuration

/-! The normal form of the options. Assignments go to the location of a key, a later one over
an earlier; the value under a dotted key is copied as it is, and what dotted keys it contains
remain. -/

namespace Yggdrasil.Mongo

open Python

/-! ### Keys and locations -/

theorem notMem_of_mem_splitOn {c : Char} {cs piece : List Char} (h : piece ∈ cs.splitOn c) :
    c ∉ piece := by
  induction cs generalizing piece with
  | nil =>
    rw [List.splitOn_nil, List.mem_singleton] at h
    simp [h]
  | cons d cs ih =>
    rw [List.splitOn_cons_eq_if_modifyHead] at h
    split_ifs at h with hd
    · rcases List.mem_cons.1 h with rfl | h
      · exact List.not_mem_nil
      · exact ih h
    · obtain ⟨first, rest, hsplit⟩ := List.exists_cons_of_ne_nil (List.splitOn_ne_nil c cs)
      rw [hsplit, List.modifyHead_cons] at h
      rcases List.mem_cons.1 h with rfl | h
      · have hfirst := ih (hsplit ▸ List.mem_cons_self)
        rw [List.mem_cons, not_or]
        exact ⟨fun he => hd (by simp [he]), hfirst⟩
      · exact ih (hsplit ▸ List.mem_cons_of_mem _ h)

theorem location_of_plain {k : Key} (h : dotted k = false) : location k = [k] := by
  cases k with
  | str s => exact if_neg (Bool.not_eq_true _ ▸ h)
  | other text truthy => rfl

/-- A location has no dotted key. -/
theorem dotted_of_mem_location {k c : Key} (h : c ∈ location k) : dotted c = false := by
  by_cases hk : dotted k = true
  · cases k with
    | other text truthy => cases hk
    | str s =>
      have hs : s.toList.contains '.' = true := hk
      simp only [location] at h
      rw [if_pos hs] at h
      obtain ⟨piece, hpiece, rfl⟩ := List.mem_map.1 h
      have hdot := notMem_of_mem_splitOn (List.mem_filter.1 hpiece).1
      simpa [dotted] using hdot
  · rw [Bool.not_eq_true] at hk
    rw [location_of_plain hk, List.mem_singleton] at h
    rw [h, hk]

/-- Somewhere on the way stands a dotted key. -/
def Spelled (p : List Key) : Prop := ∃ c ∈ p, dotted c = true

theorem not_spelled_nil : ¬Spelled [] := fun ⟨_, hc, _⟩ => by cases hc

theorem spelled_cons {k : Key} {p : List Key} :
    Spelled (k :: p) ↔ dotted k = true ∨ Spelled p := by
  simp only [Spelled, List.mem_cons, exists_eq_or_imp]

theorem spelled_of_cons {k : Key} {p : List Key} (hk : dotted k = false) (h : Spelled (k :: p)) :
    Spelled p :=
  (spelled_cons.1 h).resolve_left (by simp [hk])

theorem not_spelled_location (k : Key) : ¬Spelled (location k) := by
  rintro ⟨c, hc, hd⟩
  rw [dotted_of_mem_location hc] at hd
  cases hd

theorem spelled_append {p q : List Key} : Spelled (p ++ q) ↔ Spelled p ∨ Spelled q := by
  unfold Spelled
  simp only [List.mem_append, or_and_right, exists_or]

theorem spelled_location_append {k : Key} {q : List Key} :
    Spelled (location k ++ q) ↔ Spelled q := by
  rw [spelled_append]
  exact or_iff_right (not_spelled_location k)

/-- A place behind a dotted key is not on the way to a location. -/
theorem not_above_location {p : List Key} (h : Spelled p) (k : Key) : ¬p <+: location k := by
  intro hp
  obtain ⟨c, hc, hd⟩ := h
  exact not_spelled_location k ⟨c, hp.subset hc, hd⟩

/-! ### One entry -/

/-- What an entry assigns. -/
def entryValue (key : Key) (value : Config) : Except Error Config :=
  if dotted key then .ok value else normalizeValue value

/-- An entry assigns at its location; without one the loop fails. -/
theorem normalizeEntries_cons {key : Key} {value : Config} {options acc result : Entries} :
    normalizeEntries ((key, value) :: options) acc = .ok result ↔
      ∃ v part parts, entryValue key value = .ok v ∧ location key = part :: parts ∧
        normalizeEntries options (Tree.put acc part parts v) = .ok result := by
  rw [normalizeEntries]
  unfold entryValue
  split_ifs with hd
  · cases hl : location key with
    | nil => simp
    | cons part parts => simp
  · rw [location_of_plain (Bool.not_eq_true _ ▸ hd)]
    cases hv : normalizeValue value with
    | error e => simp
    | ok v => simp [Tree.put]

theorem normalizeValue_node {options : Entries} {v : Config} :
    normalizeValue (.node options) = .ok v ↔
      ∃ result, normalizeEntries options [] = .ok result ∧ v = .node result := by
  rw [normalizeValue]
  cases normalizeEntries options [] with
  | error e => simp [Except.map]
  | ok result => simp [Except.map, eq_comm]

/-- An entry assigns its value as it is, or a nested mapping normalised. -/
theorem entryValue_cases {key : Key} {value v : Config} (h : entryValue key value = .ok v) :
    (v = value ∧ (dotted key = true ∨ ∃ a, value = .leaf a)) ∨
      dotted key = false ∧ ∃ m result, value = .node m ∧
        normalizeEntries m [] = .ok result ∧ v = .node result := by
  unfold entryValue at h
  split_ifs at h with hd
  · exact .inl ⟨(Except.ok.inj h).symm, .inl hd⟩
  · cases value with
    | leaf a =>
      rw [normalizeValue] at h
      exact .inl ⟨(Except.ok.inj h).symm, .inr ⟨a, rfl⟩⟩
    | node m =>
      obtain ⟨result, hresult, hv⟩ := normalizeValue_node.1 h
      exact .inr ⟨Bool.not_eq_true _ ▸ hd, m, result, rfl, hresult, hv⟩

/-! ### Which options have a normal form -/

/-- A key that the loop over the options comes to, or the loop over a nested mapping. -/
inductive Reached : Entries → Key → Prop
  | here {options : Entries} {e : Key × Config} (h : e ∈ options) : Reached options e.1
  | inside {options m : Entries} {key k : Key} (h : (key, .node m) ∈ options)
      (hd : dotted key = false) (hm : Reached m k) : Reached options k

/-- Every key that is reached has a place to go to. -/
def Placed (options : Entries) : Prop := ∀ k, Reached options k → location k ≠ []

theorem placed_cons {e : Key × Config} {options : Entries} :
    Placed (e :: options) ↔ location e.1 ≠ [] ∧
      (dotted e.1 = false → ∀ m, e.2 = .node m → Placed m) ∧ Placed options := by
  constructor
  · intro h
    refine ⟨h _ (.here List.mem_cons_self), fun hd m hm k hk => ?_, fun k hk => ?_⟩
    · exact h k (.inside (by rw [← hm]; exact List.mem_cons_self) hd hk)
    · cases hk with
      | here he => exact h _ (.here (List.mem_cons_of_mem _ he))
      | inside he hd hm => exact h k (.inside (List.mem_cons_of_mem _ he) hd hm)
  · rintro ⟨hloc, hin, hrest⟩ k hk
    cases hk with
    | here he =>
      rcases List.mem_cons.1 he with rfl | he
      · exact hloc
      · exact hrest _ (.here he)
    | inside he hd hm =>
      rcases List.mem_cons.1 he with rfl | he
      · exact hin hd _ rfl k hm
      · exact hrest k (.inside he hd hm)

theorem normalizeEntries_isOk {options : Entries} (acc : Entries) :
    (∃ result, normalizeEntries options acc = .ok result) ↔ Placed options := by
  induction options using Tree.entries_induction generalizing acc with
  | nil =>
    refine iff_of_true ⟨acc, by rw [normalizeEntries]⟩ fun k hk => ?_
    cases hk with
    | here he => cases he
    | inside he _ _ => cases he
  | cons key value options ihm iho =>
    have hvalue : (∃ v, entryValue key value = .ok v) ↔
        (dotted key = false → ∀ m, value = .node m → Placed m) := by
      unfold entryValue
      cases hd : dotted key with
      | true => simp
      | false =>
        cases value with
        | leaf a => simp [normalizeValue]
        | node m =>
          have hm : (∃ v, normalizeValue (.node m) = .ok v) ↔ Placed m := by
            rw [← ihm m rfl []]
            simp only [normalizeValue_node]
            exact ⟨fun ⟨_, result, hr, _⟩ => ⟨result, hr⟩, fun ⟨result, hr⟩ => ⟨_, result, hr, rfl⟩⟩
          simpa using hm
    rw [placed_cons, ← hvalue]
    simp only [normalizeEntries_cons]
    constructor
    · rintro ⟨result, v, part, parts, hv, hl, hr⟩
      refine ⟨?_, ⟨v, hv⟩, (iho _).1 ⟨result, hr⟩⟩
      rw [hl]
      exact List.cons_ne_nil _ _
    · rintro ⟨hl, ⟨v, hv⟩, ho⟩
      obtain ⟨part, parts, hl⟩ := List.exists_cons_of_ne_nil hl
      obtain ⟨result, hr⟩ := (iho (Tree.put acc part parts v)).2 ho
      exact ⟨result, v, part, parts, hv, hl, hr⟩

/-! ### What remains under dotted keys -/

/-- A value behind a dotted key that the loop copies and no later entry overwrites, with its
place in the result. -/
inductive Residual : Entries → List Key → Config → Prop
  | copied {key : Key} {value v : Config} {options : Entries} {q : List Key}
      (hd : dotted key = true) (hv : value.get? q = some v) (hq : Spelled q)
      (hlater : ∀ e ∈ options, ¬location e.1 <+: location key ++ q) :
      Residual ((key, value) :: options) (location key ++ q) v
  | nested {key : Key} {m options : Entries} {p : List Key} {v : Config}
      (hd : dotted key = false) (hm : Residual m p v)
      (hlater : ∀ e ∈ options, ¬location e.1 <+: key :: p) :
      Residual ((key, .node m) :: options) (key :: p) v
  | later {e : Key × Config} {options : Entries} {p : List Key} {v : Config}
      (h : Residual options p v) : Residual (e :: options) p v

theorem Residual.spelled {options : Entries} {p : List Key} {v : Config}
    (h : Residual options p v) : Spelled p := by
  induction h with
  | copied _ _ hq _ => exact spelled_append.2 (.inr hq)
  | nested _ _ _ ih => exact spelled_cons.2 (.inr ih)
  | later _ ih => exact ih

/-- What an assignment at a location does behind dotted keys. -/
theorem get?_put_spelled {acc : Entries} {part : Key} {parts p : List Key} {value v : Config}
    {key : Key} (hl : location key = part :: parts) (hp : Spelled p) :
    (Tree.node (Tree.put acc part parts value)).get? p = some v ↔
      (∃ q, p = location key ++ q ∧ value.get? q = some v) ∨
        ¬location key <+: p ∧ (Tree.node acc).get? p = some v := by
  by_cases h : location key <+: p
  · obtain ⟨q, rfl⟩ := h
    rw [hl, List.cons_append, Tree.get?_put_append]
    constructor
    · exact fun hv => .inl ⟨q, rfl, hv⟩
    · rintro (⟨q', he, hv⟩ | ⟨hn, _⟩)
      · rw [← List.cons_append] at he
        rwa [List.append_cancel_left he]
      · exact absurd ⟨q, rfl⟩ hn
  · rw [Tree.get?_put_away _ (hl ▸ h) (hl ▸ not_above_location hp key)]
    constructor
    · exact fun hv => .inr ⟨h, hv⟩
    · rintro (⟨q, he, _⟩ | ⟨_, hv⟩)
      · exact absurd ⟨q, he.symm⟩ h
      · exact hv

theorem get?_nil_spelled {p : List Key} (hp : Spelled p) :
    (Tree.node [] : Config).get? p = none := by
  cases p with
  | nil => exact absurd hp not_spelled_nil
  | cons k p => rfl

theorem get?_leaf_spelled (a : Scalar) {p : List Key} (hp : Spelled p) :
    (Tree.leaf a : Config).get? p = none := by
  cases p with
  | nil => exact absurd hp not_spelled_nil
  | cons k p => rfl

theorem residual_cons {key : Key} {value v : Config} {options : Entries} {p : List Key} :
    Residual ((key, value) :: options) p v ↔ Residual options p v ∨
      (dotted key = true ∧ (∃ q, p = location key ++ q ∧ value.get? q = some v ∧ Spelled q) ∨
        dotted key = false ∧ ∃ m q, value = .node m ∧ p = key :: q ∧ Residual m q v) ∧
      ∀ e ∈ options, ¬location e.1 <+: p := by
  constructor
  · intro h
    cases h with
    | copied hd hv hq hlater => exact .inr ⟨.inl ⟨hd, _, rfl, hv, hq⟩, hlater⟩
    | nested hd hm hlater => exact .inr ⟨.inr ⟨hd, _, _, rfl, rfl, hm⟩, hlater⟩
    | later h => exact .inl h
  · rintro (h | ⟨⟨hd, q, rfl, hv, hq⟩ | ⟨hd, m, q, rfl, rfl, hm⟩, hlater⟩)
    · exact .later h
    · exact .copied hd hv hq hlater
    · exact .nested hd hm hlater

/-- What an entry assigns at a place behind dotted keys. -/
theorem get?_entryValue {key : Key} {value value' v : Config} {p : List Key}
    (h : entryValue key value = .ok value') (hp : Spelled p)
    (hnested : ∀ m result q, value = .node m → normalizeEntries m [] = .ok result → Spelled q →
      ((Tree.node result).get? q = some v ↔ Residual m q v)) :
    (∃ q, p = location key ++ q ∧ value'.get? q = some v) ↔
      dotted key = true ∧ (∃ q, p = location key ++ q ∧ value.get? q = some v ∧ Spelled q) ∨
        dotted key = false ∧ ∃ m q, value = .node m ∧ p = key :: q ∧ Residual m q v := by
  have hspelled : ∀ {q}, p = location key ++ q → Spelled q := fun he =>
    spelled_location_append.1 (he ▸ hp)
  unfold entryValue at h
  cases hd : dotted key with
  | true =>
    rw [hd, if_pos rfl] at h
    rw [← Except.ok.inj h]
    simp only [true_and, Bool.true_eq_false, false_and, or_false]
    exact ⟨fun ⟨q, he, hv⟩ => ⟨q, he, hv, hspelled he⟩, fun ⟨q, he, hv, _⟩ => ⟨q, he, hv⟩⟩
  | false =>
    rw [hd, if_neg Bool.false_ne_true] at h
    rw [location_of_plain hd] at hspelled ⊢
    simp only [Bool.false_eq_true, false_and, false_or, true_and, List.singleton_append]
    cases value with
    | leaf a =>
      rw [normalizeValue] at h
      rw [← Except.ok.inj h]
      constructor
      · rintro ⟨q, he, hv⟩
        rw [get?_leaf_spelled a (hspelled he)] at hv
        cases hv
      · rintro ⟨m, q, he, _⟩
        cases he
    | node m =>
      obtain ⟨result, hresult, rfl⟩ := normalizeValue_node.1 h
      constructor
      · rintro ⟨q, he, hv⟩
        exact ⟨m, q, rfl, he, (hnested m result q rfl hresult (hspelled he)).1 hv⟩
      · rintro ⟨m', q, hm, he, hv⟩
        cases hm
        exact ⟨q, he, (hnested m result q rfl hresult (hspelled he)).2 hv⟩

/-- Behind dotted keys the result has what remains of the options and what was there before. -/
theorem get?_normalizeEntries {options acc result : Entries} {p : List Key} {v : Config}
    (h : normalizeEntries options acc = .ok result) (hp : Spelled p) :
    (Tree.node result).get? p = some v ↔ Residual options p v ∨
      (Tree.node acc).get? p = some v ∧ ∀ e ∈ options, ¬location e.1 <+: p := by
  induction options using Tree.entries_induction generalizing acc result p v with
  | nil =>
    rw [normalizeEntries] at h
    rw [← Except.ok.inj h]
    simp only [List.not_mem_nil, false_implies, implies_true, and_true]
    exact ⟨.inr, fun h => h.elim (fun h => by cases h) id⟩
  | cons key value options ihm iho =>
    obtain ⟨value', part, parts, hvalue, hl, hr⟩ := normalizeEntries_cons.1 h
    have hentry := get?_entryValue (v := v) hvalue hp fun m result q hm hresult hq => by
      rw [ihm m hm hresult hq, get?_nil_spelled hq]
      simp
    rw [iho hr hp, get?_put_spelled hl hp, residual_cons, ← hentry, List.forall_mem_cons]
    constructor
    · rintro (h | ⟨h | ⟨hn, h⟩, hlater⟩)
      · exact .inl (.inl h)
      · exact .inl (.inr ⟨h, hlater⟩)
      · exact .inr ⟨h, hn, hlater⟩
    · rintro ((h | ⟨h, hlater⟩) | ⟨h, hn, hlater⟩)
      · exact .inl h
      · exact .inr ⟨.inl h, hlater⟩
      · exact .inr ⟨.inr ⟨hn, h⟩, hlater⟩

theorem distinct_normalizeEntries {options acc result : Entries}
    (h : normalizeEntries options acc = .ok result) (ho : Tree.Distinct (.node options))
    (ha : Tree.Distinct (.node acc)) : Tree.Distinct (.node result) := by
  induction options using Tree.entries_induction generalizing acc result with
  | nil =>
    rw [normalizeEntries] at h
    exact Except.ok.inj h ▸ ha
  | cons key value options ihm iho =>
    obtain ⟨value', part, parts, hvalue, _, hr⟩ := normalizeEntries_cons.1 h
    obtain ⟨_, hin, hrest⟩ := Tree.distinct_cons.1 ho
    have hvalue' : value'.Distinct := by
      rcases entryValue_cases hvalue with ⟨rfl, -⟩ | ⟨-, m, inner, rfl, hinner, rfl⟩
      · exact hin
      · exact ihm m rfl hinner hin Tree.distinct_nil
    exact iho hr hrest (ha.put hvalue' part parts)

/-- Options without a dotted key are their own normal form. -/
theorem normalizeEntries_of_plain {options acc : Entries}
    (hd : Tree.Distinct (.node (acc ++ options)))
    (hp : Tree.AllKeys (fun k => dotted k = false) (.node options)) :
    normalizeEntries options acc = .ok (acc ++ options) := by
  induction options using Tree.entries_induction generalizing acc with
  | nil => rw [normalizeEntries, List.append_nil]
  | cons key value options ihm iho =>
    rw [Tree.allKeys_node, List.forall_mem_cons] at hp
    obtain ⟨⟨hkey, hin⟩, hrest⟩ := hp
    have hvalue : normalizeValue value = .ok value := by
      cases value with
      | leaf a => rw [normalizeValue]
      | node m =>
        have hm : normalizeEntries m [] = .ok ([] ++ m) :=
          ihm m rfl (hd.values (key, .node m) (by simp)) hin
        exact normalizeValue_node.2 ⟨m, hm, rfl⟩
    have hnew : key ∉ acc.map Prod.fst := by
      have hkeys := hd.keys
      rw [List.map_append, List.map_cons] at hkeys
      exact fun hm => (List.nodup_append.1 hkeys).2.2 _ hm _ List.mem_cons_self rfl
    rw [normalizeEntries, if_neg (by simp [hkey]), hvalue]
    dsimp only
    rw [Dict.set_of_notMem hnew, iho (by simpa using hd) (Tree.allKeys_node.2 hrest)]
    simp

end Yggdrasil.Mongo
