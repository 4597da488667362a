import Mathlib.Logic.Relation
import Yggdrasil.Inventory.Objects
import Yggdrasil.Library.Combination

/-! The conversion of a response to JSON as the two functions call each other, with a bound on
the depth of the calls. It ends unless it meets an object that shows none of its fields: the
fallback wraps the object in a mapping and converts it once more. -/

namespace Yggdrasil.Inventory

open Combination Python

/-- The mapping that a mapping or an object is read as. -/
def fields : Value → Option (List (Key × Value))
  | .dict items => some items
  | .object _ (some m) _ _ _ _ => some m
  | .object _ none (some m) _ _ _ => some m
  | .object _ none none (some m) _ _ => some (m.filter fun e => isPublic e.1)
  | _ => none

/-- The items of a mapping, with `str` of their keys. -/
def convertEntries (convert : Value → Option Value) (items : List (Key × Value)) : Option Mapping :=
  (items.mapM fun e => (convert e.2).map fun j => (e.1, j)).map stringKeys

mutual

/-- `_jsonable`; no result if the calls are nested deeper than the bound. -/
def jsonableWithin : ℕ → Value → Option Value
  | 0, _ => none
  | depth + 1, .dict items => (convertEntries (jsonableWithin depth) items).map .dict
  | depth + 1, .seq _ items => (items.mapM (jsonableWithin depth)).map Value.list
  | _ + 1, .object _ _ _ _ (some iso) _ => some (.str iso)
  | depth + 1, .object attrs toDict info vars none text =>
    (resourceToDictWithin depth (.object attrs toDict info vars none text)).map .dict
  | _ + 1, v => some v

/-- `_resource_to_dict`. -/
def resourceToDictWithin : ℕ → Value → Option Mapping
  | 0, _ => none
  | depth + 1, v =>
    match fields v with
    | some m => convertEntries (jsonableWithin depth) m
    | none => (jsonableWithin depth v).map fun j => [(.str "value", j)]

end

/-- A value of JSON types whose mappings have string keys. -/
inductive IsJson : Value → Prop
  | none : IsJson .none
  | bool (b : Bool) : IsJson (.bool b)
  | int (i : ℤ) : IsJson (.int i)
  | float (repr : String) : IsJson (.float repr)
  | str (s : String) : IsJson (.str s)
  | list {items : List Value} : (∀ v ∈ items, IsJson v) → IsJson (.list items)
  | dict {items : Mapping} : (∀ e ∈ items, ∃ s, e.1 = .str s) → (∀ e ∈ items, IsJson e.2) →
      IsJson (.dict items)

/-- The values in the mapping that a value is read as. -/
def fieldValues (v : Value) : List Value := ((fields v).getD []).map Prod.snd

/-- The values that the conversion of a value converts next. -/
def parts : Value → List Value
  | .dict items => fieldValues (.dict items)
  | .seq _ items => items
  | .object attrs toDict info vars none text => fieldValues (.object attrs toDict info vars none text)
  | _ => []

/-- The values that the report entry of a resource is made of. -/
def resourceParts (v : Value) : List Value := if (fields v).isSome then fieldValues v else [v]

/-- An object without `isoformat`, `to_dict`, `_info` and `__dict__`. -/
def Hidden (v : Value) : Prop := ∃ attrs text, v = .object attrs none none none none text

/-- The conversion comes to no hidden object. -/
def Transparent (v : Value) : Prop :=
  ∀ w, Relation.ReflTransGen (fun v w => w ∈ parts v) v w → ¬Hidden w

/-! ### The conversion of the entries of a mapping -/

theorem convertEntries_of_mem {f g : Value → Option Value} {items : List (Key × Value)} {m : Mapping}
    (hfg : ∀ v ∈ items.map Prod.snd, ∀ j, f v = some j → g v = some j)
    (h : convertEntries f items = some m) : convertEntries g items = some m := by
  unfold convertEntries at h ⊢
  obtain ⟨es, hes, rfl⟩ := Option.map_eq_some_iff.1 h
  apply Option.map_eq_some_iff.2
  refine ⟨es, mapM_of_mem (fun e he b hb => ?_) hes, rfl⟩
  obtain ⟨j, hj, rfl⟩ := Option.map_eq_some_iff.1 hb
  rw [hfg e.2 (List.mem_map_of_mem he) j hj]
  rfl

theorem exists_convertEntries {f : Value → Option Value} {items : List (Key × Value)} :
    (∃ m, convertEntries f items = some m) ↔ ∀ v ∈ items.map Prod.snd, ∃ j, f v = some j := by
  unfold convertEntries
  constructor
  · rintro ⟨m, h⟩ v hv
    obtain ⟨es, hes, -⟩ := Option.map_eq_some_iff.1 h
    obtain ⟨e, he, rfl⟩ := List.mem_map.1 hv
    obtain ⟨b, -, hb⟩ := exists_mem_of_mapM hes he
    obtain ⟨j, hj, -⟩ := Option.map_eq_some_iff.1 hb
    exact ⟨j, hj⟩
  · intro h
    have hall : ∀ e ∈ items, ∃ b, (f e.2).map (fun j => (e.1, j)) = some b := by
      intro e he
      obtain ⟨j, hj⟩ := h e.2 (List.mem_map_of_mem he)
      exact ⟨(e.1, j), by rw [hj]; rfl⟩
    obtain ⟨es, hes⟩ := exists_mapM hall
    exact ⟨stringKeys es, by rw [hes]; rfl⟩

theorem mem_stringKeys {items : List (Key × Value)} {e : Key × Value} (h : e ∈ stringKeys items) :
    (∃ s, e.1 = .str s) ∧ ∃ e' ∈ items, e'.2 = e.2 := by
  have hupdate : stringKeys items = Dict.update [] (items.map fun p => (Key.str p.1.text, p.2)) := by
    rw [stringKeys, Dict.update, List.foldl_map]
  rw [hupdate] at h
  rcases Dict.mem_update h with h | h
  · cases h
  · obtain ⟨e', he', rfl⟩ := List.mem_map.1 h
    exact ⟨⟨e'.1.text, rfl⟩, e', he', rfl⟩

theorem isJson_convertEntries {f : Value → Option Value} {items : List (Key × Value)} {m : Mapping}
    (hf : ∀ v ∈ items.map Prod.snd, ∀ j, f v = some j → IsJson j)
    (h : convertEntries f items = some m) : IsJson (.dict m) := by
  unfold convertEntries at h
  obtain ⟨es, hes, rfl⟩ := Option.map_eq_some_iff.1 h
  refine .dict (fun e he => (mem_stringKeys he).1) fun e he => ?_
  obtain ⟨-, e', he', hvalue⟩ := mem_stringKeys he
  obtain ⟨item, hitem, hconv⟩ := mem_of_mapM hes he'
  obtain ⟨j, hj, rfl⟩ := Option.map_eq_some_iff.1 hconv
  exact hvalue ▸ hf item.2 (List.mem_map_of_mem hitem) j hj

/-! ### The conversion with and without a bound -/

theorem jsonableItems_eq (items : List Value) : jsonableItems items = items.mapM jsonable := by
  induction items with
  | nil => rfl
  | cons v items ih => rw [jsonableItems, List.mapM_cons, ih]

theorem jsonableEntries_eq (items : List (Key × Value)) :
    jsonableEntries items = items.mapM fun e => (jsonable e.2).map fun j => (e.1, j) := by
  induction items with
  | nil => rfl
  | cons e items ih =>
    obtain ⟨k, v⟩ := e
    rw [jsonableEntries, List.mapM_cons, ih]
    cases jsonable v <;> rfl

theorem jsonablePublic_eq (items : List (Key × Value)) :
    jsonablePublic items = jsonableEntries (items.filter fun e => isPublic e.1) := by
  induction items with
  | nil => rfl
  | cons e items ih =>
    obtain ⟨k, v⟩ := e
    rw [jsonablePublic, List.filter_cons]
    split_ifs with hpublic
    · rw [jsonableEntries, ih]
    · exact ih

theorem map_stringKeys (items : List (Key × Value)) :
    (jsonableEntries items).map stringKeys = convertEntries jsonable items := by
  rw [jsonableEntries_eq]
  rfl

theorem resourceToDict_eq (v : Value) :
    resourceToDict v = match fields v with
      | some m => convertEntries jsonable m
      | none => (jsonable v).map fun j => [(.str "value", j)] := by
  cases v with
  | dict items => exact map_stringKeys items
  | object attrs toDict info vars iso text =>
    rcases toDict with _ | m
    · rcases info with _ | m
      · rcases vars with _ | m
        · rfl
        · rw [resourceToDict, jsonablePublic_eq, map_stringKeys]
          rfl
      · exact map_stringKeys m
    · exact map_stringKeys m
  | _ => rfl

theorem jsonable_seq (kind : SeqKind) (items : List Value) :
    jsonable (.seq kind items) = (items.mapM jsonable).map Value.list := by
  rw [jsonable, jsonableItems_eq]

theorem jsonable_dict (items : List (Key × Value)) :
    jsonable (.dict items) = (convertEntries jsonable items).map .dict := by
  rw [jsonable, ← map_stringKeys, Option.map_map]
  rfl

theorem jsonable_object (attrs : List (String × Value)) (toDict info vars : Option (List (Key × Value)))
    (text : String) :
    jsonable (.object attrs toDict info vars none text) =
      ((fields (.object attrs toDict info vars none text)).bind (convertEntries jsonable)).map .dict := by
  rcases toDict with _ | m
  · rcases info with _ | m
    · rcases vars with _ | m
      · rfl
      · rw [jsonable, jsonablePublic_eq]
        exact jsonable_dict _
    · exact jsonable_dict m
  · exact jsonable_dict m

theorem within_sound (depth : ℕ) :
    (∀ v j, jsonableWithin depth v = some j → jsonable v = some j) ∧
      ∀ v m, resourceToDictWithin depth v = some m → resourceToDict v = some m := by
  induction depth with
  | zero => exact ⟨fun v j h => by simp [jsonableWithin] at h,
      fun v m h => by simp [resourceToDictWithin] at h⟩
  | succ depth ih =>
    obtain ⟨ihj, ihr⟩ := ih
    constructor
    · intro v j h
      cases v with
      | seq kind items =>
        rw [jsonableWithin] at h
        obtain ⟨js, hjs, rfl⟩ := Option.map_eq_some_iff.1 h
        rw [jsonable_seq, mapM_of_mem (fun a _ b => ihj a b) hjs]
        rfl
      | dict items =>
        rw [jsonableWithin] at h
        obtain ⟨m, hm, rfl⟩ := Option.map_eq_some_iff.1 h
        rw [jsonable_dict, convertEntries_of_mem (fun a _ b => ihj a b) hm]
        rfl
      | object attrs toDict info vars iso text =>
        rcases iso with _ | iso
        · rw [jsonableWithin] at h
          obtain ⟨m, hm, rfl⟩ := Option.map_eq_some_iff.1 h
          have hr := ihr _ m hm
          rw [resourceToDict_eq] at hr
          cases hfields : fields (.object attrs toDict info vars none text) with
          | some m' =>
            rw [hfields] at hr
            dsimp only at hr
            rw [jsonable_object, hfields, Option.bind_some, hr]
            rfl
          | none =>
            rw [hfields] at hr
            obtain ⟨j, hj, -⟩ := Option.map_eq_some_iff.1 hr
            rw [jsonable_object, hfields] at hj
            cases hj
        · exact h
      | _ => exact h
    · intro v m h
      rw [resourceToDictWithin] at h
      rw [resourceToDict_eq]
      split at h
      · exact convertEntries_of_mem (fun a _ b => ihj a b) h
      · obtain ⟨j, hj, rfl⟩ := Option.map_eq_some_iff.1 h
        rw [ihj v j hj]
        rfl

theorem within_mono {depth depth' : ℕ} (hle : depth ≤ depth') :
    (∀ v j, jsonableWithin depth v = some j → jsonableWithin depth' v = some j) ∧
      ∀ v m, resourceToDictWithin depth v = some m → resourceToDictWithin depth' v = some m := by
  induction depth generalizing depth' with
  | zero => exact ⟨fun v j h => by simp [jsonableWithin] at h,
      fun v m h => by simp [resourceToDictWithin] at h⟩
  | succ depth ih =>
    obtain ⟨depth', rfl⟩ := Nat.exists_eq_succ_of_ne_zero (by omega : depth' ≠ 0)
    obtain ⟨ihj, ihr⟩ := ih (Nat.le_of_succ_le_succ hle)
    constructor
    · intro v j h
      cases v with
      | seq kind items =>
        rw [jsonableWithin] at h ⊢
        obtain ⟨js, hjs, rfl⟩ := Option.map_eq_some_iff.1 h
        rw [mapM_of_mem (fun a _ b => ihj a b) hjs]
        rfl
      | dict items =>
        rw [jsonableWithin] at h ⊢
        obtain ⟨m, hm, rfl⟩ := Option.map_eq_some_iff.1 h
        rw [convertEntries_of_mem (fun a _ b => ihj a b) hm]
        rfl
      | object attrs toDict info vars iso text =>
        rcases iso with _ | iso
        · rw [jsonableWithin] at h ⊢
          obtain ⟨m, hm, rfl⟩ := Option.map_eq_some_iff.1 h
          rw [ihr _ m hm]
          rfl
        · exact h
      | _ => exact h
    · intro v m h
      rw [resourceToDictWithin] at h ⊢
      split at h
      · exact convertEntries_of_mem (fun a _ b => ihj a b) h
      · obtain ⟨j, hj, rfl⟩ := Option.map_eq_some_iff.1 h
        rw [ihj v j hj]
        rfl

/-! ### The values that are converted -/

theorem fieldValues_of_fields {v : Value} {m : List (Key × Value)} (h : fields v = some m) :
    fieldValues v = m.map Prod.snd := by
  rw [fieldValues, h]
  rfl

theorem sizeOf_fieldValues {v w : Value} (h : w ∈ fieldValues v) : sizeOf w < sizeOf v := by
  obtain ⟨e, he, rfl⟩ := List.mem_map.1 h
  have hentry : ∀ m : List (Key × Value), e ∈ m → sizeOf e.2 < sizeOf m := by
    intro m hm
    have hlt := List.sizeOf_lt_of_mem hm
    have hpair : sizeOf e = 1 + sizeOf e.1 + sizeOf e.2 := Prod.mk.sizeOf_spec e.1 e.2
    omega
  cases v with
  | dict items =>
    have hlt := hentry items he
    rw [Value.dict.sizeOf_spec]
    omega
  | object attrs toDict info vars iso text =>
    rw [Value.object.sizeOf_spec]
    rcases toDict with _ | m
    · rcases info with _ | m
      · rcases vars with _ | m
        · cases he
        · have hlt := hentry m (List.mem_of_mem_filter he)
          rw [Option.some.sizeOf_spec]
          omega
      · have hlt := hentry m he
        rw [Option.some.sizeOf_spec]
        omega
    · have hlt := hentry m he
      rw [Option.some.sizeOf_spec]
      omega
  | _ => cases he

theorem sizeOf_parts {v w : Value} (h : w ∈ parts v) : sizeOf w < sizeOf v := by
  cases v with
  | dict items => exact sizeOf_fieldValues h
  | seq kind items =>
    have hlt : sizeOf w < sizeOf items := List.sizeOf_lt_of_mem h
    rw [Value.seq.sizeOf_spec]
    omega
  | object attrs toDict info vars iso text =>
    rcases iso with _ | iso
    · exact sizeOf_fieldValues h
    · cases h
  | _ => cases h

theorem transparent_iff {v : Value} : Transparent v ↔ ¬Hidden v ∧ ∀ w ∈ parts v, Transparent w := by
  constructor
  · intro h
    exact ⟨h v .refl, fun w hw u hu => h u (.head hw hu)⟩
  · rintro ⟨hv, hparts⟩ w hw
    rcases Relation.ReflTransGen.cases_head hw with rfl | ⟨u, hu, hw⟩
    · exact hv
    · exact hparts u hu w hw

theorem not_hidden_of_fields {v : Value} {m : List (Key × Value)} (h : fields v = some m) :
    ¬Hidden v := by
  rintro ⟨attrs, text, rfl⟩
  cases h

/-- A mapping is converted exactly if its values are. -/
theorem exists_dict_convertEntries (m : List (Key × Value)) :
    (∃ j, (convertEntries jsonable m).map Value.dict = some j) ↔
      ∀ w ∈ m.map Prod.snd, ∃ j, jsonable w = some j := by
  rw [← exists_convertEntries]
  constructor
  · rintro ⟨j, hj⟩
    obtain ⟨m', hm', -⟩ := Option.map_eq_some_iff.1 hj
    exact ⟨m', hm'⟩
  · rintro ⟨m', hm'⟩
    exact ⟨.dict m', by rw [hm']; rfl⟩

/-- A value is converted exactly if it is not hidden and its parts are converted. -/
theorem jsonable_iff (v : Value) :
    (∃ j, jsonable v = some j) ↔ ¬Hidden v ∧ ∀ w ∈ parts v, ∃ j, jsonable w = some j := by
  cases v with
  | seq kind items =>
    have hshown : ¬Hidden (.seq kind items) := by
      rintro ⟨attrs, text, h⟩
      cases h
    rw [jsonable_seq]
    constructor
    · rintro ⟨j, hj⟩
      obtain ⟨js, hjs, -⟩ := Option.map_eq_some_iff.1 hj
      refine ⟨hshown, fun w hw => ?_⟩
      obtain ⟨j, -, hw⟩ := exists_mem_of_mapM hjs hw
      exact ⟨j, hw⟩
    · rintro ⟨-, hparts⟩
      obtain ⟨js, hjs⟩ : ∃ js, items.mapM jsonable = some js := exists_mapM hparts
      exact ⟨.list js, by rw [hjs]; rfl⟩
  | dict items =>
    rw [jsonable_dict, exists_dict_convertEntries]
    exact ⟨fun h => ⟨not_hidden_of_fields rfl, h⟩, And.right⟩
  | object attrs toDict info vars iso text =>
    rcases iso with _ | iso
    · rw [jsonable_object]
      cases hfields : fields (.object attrs toDict info vars none text) with
      | some m =>
        rw [parts, fieldValues_of_fields hfields, Option.bind_some, exists_dict_convertEntries]
        exact ⟨fun h => ⟨not_hidden_of_fields hfields, h⟩, And.right⟩
      | none =>
        refine ⟨fun ⟨j, hj⟩ => absurd hj (by simp), fun ⟨hshown, _⟩ => absurd ?_ hshown⟩
        rcases toDict with _ | m
        · rcases info with _ | m
          · rcases vars with _ | m
            · exact ⟨attrs, text, rfl⟩
            · cases hfields
          · cases hfields
        · cases hfields
    · refine ⟨fun _ => ⟨?_, fun w hw => by cases hw⟩, fun _ => ⟨.str iso, rfl⟩⟩
      rintro ⟨attrs, text, h⟩
      cases h
  | _ =>
    refine ⟨fun _ => ⟨?_, fun w hw => by cases hw⟩, fun _ => ⟨_, rfl⟩⟩
    rintro ⟨attrs, text, h⟩
    cases h

/-- An induction over the values that a conversion comes to. -/
theorem parts_induction {P : Value → Prop} (step : ∀ v, (∀ w ∈ parts v, P w) → P v) (v : Value) :
    P v :=
  step v fun w _ => parts_induction step w
termination_by sizeOf v
decreasing_by exact sizeOf_parts ‹_›

theorem jsonable_iff_transparent (v : Value) : (∃ j, jsonable v = some j) ↔ Transparent v := by
  induction v using parts_induction with
  | step v ih =>
    rw [jsonable_iff, transparent_iff]
    exact and_congr_right fun _ => forall₂_congr ih

/-! ### Enough depth -/

theorem exists_depth {values : List Value}
    (h : ∀ v ∈ values, ∀ j, jsonable v = some j → ∃ n, jsonableWithin n v = some j) :
    ∃ n, ∀ v ∈ values, ∀ j, jsonable v = some j → jsonableWithin n v = some j := by
  induction values with
  | nil => exact ⟨0, fun v hv => by cases hv⟩
  | cons v values ih =>
    obtain ⟨n, hn⟩ := ih fun w hw => h w (List.mem_cons_of_mem _ hw)
    cases hv : jsonable v with
    | none =>
      refine ⟨n, fun w hw j hj => ?_⟩
      rcases List.mem_cons.1 hw with rfl | hw
      · rw [hv] at hj
        cases hj
      · exact hn w hw j hj
    | some j =>
      obtain ⟨k, hk⟩ := h v List.mem_cons_self j hv
      refine ⟨max n k, fun w hw j' hj => ?_⟩
      rcases List.mem_cons.1 hw with rfl | hw
      · rw [hv] at hj
        exact (within_mono (le_max_right n k)).1 w j' (hj ▸ hk)
      · exact (within_mono (le_max_left n k)).1 w j' (hn w hw j' hj)

theorem within_complete (v : Value) :
    ∀ j, jsonable v = some j → ∃ n, jsonableWithin n v = some j := by
  induction v using parts_induction with
  | step v ih =>
    intro j hj
    obtain ⟨n, hn⟩ := exists_depth ih
    cases v with
    | seq kind items =>
      rw [jsonable_seq] at hj
      obtain ⟨js, hjs, rfl⟩ := Option.map_eq_some_iff.1 hj
      have hdeep : items.mapM (jsonableWithin n) = some js := mapM_of_mem hn hjs
      exact ⟨n + 1, by rw [jsonableWithin, hdeep]; rfl⟩
    | dict items =>
      rw [jsonable_dict] at hj
      obtain ⟨m, hm, rfl⟩ := Option.map_eq_some_iff.1 hj
      have hdeep : convertEntries (jsonableWithin n) items = some m := convertEntries_of_mem hn hm
      exact ⟨n + 1, by rw [jsonableWithin, hdeep]; rfl⟩
    | object attrs toDict info vars iso text =>
      rcases iso with _ | iso
      · rw [jsonable_object] at hj
        obtain ⟨m, hm, rfl⟩ := Option.map_eq_some_iff.1 hj
        obtain ⟨items, hitems, hm⟩ := Option.bind_eq_some_iff.1 hm
        rw [parts, fieldValues_of_fields hitems] at hn
        refine ⟨n + 2, ?_⟩
        rw [jsonableWithin, resourceToDictWithin, hitems]
        dsimp only
        rw [convertEntries_of_mem hn hm]
        rfl
      · exact ⟨1, hj⟩
    | _ => exact ⟨1, hj⟩

theorem isJson_jsonable (v : Value) : ∀ j, jsonable v = some j → IsJson j := by
  induction v using parts_induction with
  | step v ih =>
    intro j hj
    cases v with
    | seq kind items =>
      rw [jsonable_seq] at hj
      obtain ⟨js, hjs, rfl⟩ := Option.map_eq_some_iff.1 hj
      refine .list fun j hj => ?_
      obtain ⟨w, hw, hwj⟩ := mem_of_mapM hjs hj
      exact ih w hw j hwj
    | dict items =>
      rw [jsonable_dict] at hj
      obtain ⟨m, hm, rfl⟩ := Option.map_eq_some_iff.1 hj
      exact isJson_convertEntries ih hm
    | object attrs toDict info vars iso text =>
      rcases iso with _ | iso
      · rw [jsonable_object] at hj
        obtain ⟨m, hm, rfl⟩ := Option.map_eq_some_iff.1 hj
        obtain ⟨items, hitems, hm⟩ := Option.bind_eq_some_iff.1 hm
        refine isJson_convertEntries (fun w hw => ih w ?_) hm
        rwa [parts, fieldValues_of_fields hitems]
      · cases hj
        exact .str iso
    | none =>
      cases hj
      exact .none
    | bool b =>
      cases hj
      exact .bool b
    | int i =>
      cases hj
      exact .int i
    | float r =>
      cases hj
      exact .float r
    | str s =>
      cases hj
      exact .str s

theorem exists_resourceToDict (v : Value) :
    (∃ m, resourceToDict v = some m) ↔ ∀ w ∈ resourceParts v, ∃ j, jsonable w = some j := by
  rw [resourceToDict_eq]
  cases hfields : fields v with
  | some items =>
    rw [resourceParts, hfields, Option.isSome_some, if_pos rfl, fieldValues_of_fields hfields]
    exact exists_convertEntries
  | none =>
    rw [resourceParts, hfields, Option.isSome_none, if_neg Bool.false_ne_true]
    dsimp only
    constructor
    · rintro ⟨m, hm⟩ w hw
      obtain ⟨j, hj, -⟩ := Option.map_eq_some_iff.1 hm
      exact ⟨j, List.mem_singleton.1 hw ▸ hj⟩
    · intro h
      obtain ⟨j, hj⟩ := h v (List.mem_singleton_self v)
      exact ⟨_, by rw [hj]; rfl⟩

theorem resourceToDict_spec {v : Value} {m : Mapping} (h : resourceToDict v = some m) :
    IsJson (.dict m) ∧ ∃ n, resourceToDictWithin n v = some m := by
  rw [resourceToDict_eq] at h
  cases hfields : fields v with
  | some items =>
    rw [hfields] at h
    obtain ⟨n, hn⟩ := exists_depth fun w (_ : w ∈ items.map Prod.snd) => within_complete w
    refine ⟨isJson_convertEntries (fun w _ => isJson_jsonable w) h, n + 1, ?_⟩
    rw [resourceToDictWithin, hfields]
    exact convertEntries_of_mem hn h
  | none =>
    rw [hfields] at h
    obtain ⟨j, hj, rfl⟩ := Option.map_eq_some_iff.1 h
    obtain ⟨n, hn⟩ := within_complete v j hj
    constructor
    · refine .dict (fun e he => ⟨"value", ?_⟩) fun e he => ?_
      · rw [List.mem_singleton.1 he]
      · rw [List.mem_singleton.1 he]
        exact isJson_jsonable v j hj
    · refine ⟨n + 1, ?_⟩
      rw [resourceToDictWithin, hfields]
      dsimp only
      rw [hn]
      rfl

/-! ### Totality -/

/-- `_jsonable` ends with a value of JSON types. -/
def Serialises (v : Value) : Prop :=
  ∃ j, IsJson j ∧ ∃ n, ∀ depth, n ≤ depth → jsonableWithin depth v = some j

/-- `_resource_to_dict` ends with a mapping of JSON types. -/
def SerialisesResource (v : Value) : Prop :=
  ∃ m, IsJson (.dict m) ∧ ∃ n, ∀ depth, n ≤ depth → resourceToDictWithin depth v = some m

theorem serialises_iff_transparent (v : Value) : Serialises v ↔ Transparent v := by
  rw [← jsonable_iff_transparent]
  constructor
  · rintro ⟨j, -, n, hn⟩
    exact ⟨j, (within_sound n).1 v j (hn n le_rfl)⟩
  · rintro ⟨j, hj⟩
    obtain ⟨n, hn⟩ := within_complete v j hj
    exact ⟨j, isJson_jsonable v j hj, n, fun depth hle => (within_mono hle).1 v j hn⟩

theorem serialisesResource_iff (v : Value) :
    SerialisesResource v ↔ ∀ w ∈ resourceParts v, Transparent w := by
  have hparts : (∃ m, resourceToDict v = some m) ↔ ∀ w ∈ resourceParts v, Transparent w := by
    rw [exists_resourceToDict]
    exact forall₂_congr fun w _ => jsonable_iff_transparent w
  rw [← hparts]
  constructor
  · rintro ⟨m, -, n, hn⟩
    exact ⟨m, (within_sound n).2 v m (hn n le_rfl)⟩
  · rintro ⟨m, hm⟩
    obtain ⟨hjson, n, hn⟩ := resourceToDict_spec hm
    exact ⟨m, hjson, n, fun depth hle => (within_mono hle).2 v m hn⟩

/-- Both conversions end with JSON exactly on the values in which they come to no hidden object. -/
theorem serialisation_total_iff (v : Value) :
    (Serialises v ↔ Transparent v) ∧
      (SerialisesResource v ↔ ∀ w ∈ resourceParts v, Transparent w) := by
  exact ⟨serialises_iff_transparent v, serialisesResource_iff v⟩

/-- The bytes of a response have no fields. -/
theorem bytes_not_serialised :
    ¬∀ v, Serialises v ∧ SerialisesResource v := by
  intro h
  have htransparent := (serialises_iff_transparent _).1
    (h (.object [] none none none none "b'\\x00'")).1
  exact htransparent _ .refl ⟨[], _, rfl⟩

end Yggdrasil.Inventory
