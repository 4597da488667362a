import Mathlib.Data.List.Sort
import Mathlib.Data.String.Basic
import Yggdrasil.Python.Dumps
import Yggdrasil.Python.Number

/-! JSON between Python values: what `json.dumps` writes of a value with sorted keys, and the value
that `json.loads` makes of a tree. A float is its `repr`, and reading it back is a parameter. -/

namespace Yggdrasil.Python.Json

section Encoding

def floatLiteral (r : String) : String :=
  if r = "nan" then "NaN" else if r = "inf" then "Infinity"
  else if r = "-inf" then "-Infinity" else r

def isFloatMark (c : Char) : Bool := c = '.' || c = 'e' || c = 'E'

def nameLe (a b : String × Json) : Prop := a.1 ≤ b.1

instance : DecidableRel nameLe := fun a b => by unfold nameLe; infer_instance

mutual

/-- The tree that is written, its keys sorted; sets and objects have none. -/
def ofValue : Value → Option Json
  | .none => some .null
  | .bool b => some (.bool b)
  | .int i => some (.number (toString i))
  | .float r => some (.number (floatLiteral r))
  | .str s => some (.string s)
  | .seq .set _ => none
  | .seq _ items => (ofValues items).map Json.array
  | .dict items => (ofEntries items).map fun es => .object (es.insertionSort nameLe)
  | .object .. => none

def ofValues : List Value → Option (List Json)
  | [] => some []
  | v :: vs => do
    let j ← ofValue v
    let js ← ofValues vs
    return j :: js

def ofEntries : List (Key × Value) → Option (List (String × Json))
  | [] => some []
  | (k, v) :: es => do
    let j ← ofValue v
    let js ← ofEntries es
    return (k.text, j) :: js

end

variable (eval : String → String)

/-- A number is an integer unless it has a fraction or an exponent. -/
def numberValue (literal : String) : Value :=
  if literal = "NaN" then .float "nan"
  else if literal = "Infinity" then .float "inf"
  else if literal = "-Infinity" then .float "-inf"
  else if literal.toList.any isFloatMark then .float (eval literal)
  else .int ((intOfText literal).getD 0)

mutual

def toValue : Json → Value
  | .null => .none
  | .bool b => .bool b
  | .number literal => numberValue eval literal
  | .string s => .str s
  | .array items => .list (toValues items)
  | .object items => .dict (toEntries items)

def toValues : List Json → List Value
  | [] => []
  | v :: vs => toValue v :: toValues vs

def toEntries : List (String × Json) → List (Key × Value)
  | [] => []
  | (k, v) :: es => (.str k, toValue v) :: toEntries es

end

/-- The `repr` of a float, which `float` reads as it is. -/
def IsRepr (r : String) : Prop :=
  r = "nan" ∨ r = "inf" ∨ r = "-inf" ∨
    scanNumber r.toList = some (r.toList, []) ∧ r.toList.any isFloatMark ∧ eval r = r

/-- A value that stands for a Python value with a JSON text: a mapping has distinct keys, which
are strings, and a float is a `repr`. -/
inductive Genuine : Value → Prop
  | none : Genuine .none
  | bool (b : Bool) : Genuine (.bool b)
  | int (i : ℤ) : Genuine (.int i)
  | float {r : String} : IsRepr eval r → Genuine (.float r)
  | str (s : String) : Genuine (.str s)
  | list {items : List Value} : (∀ v ∈ items, Genuine v) → Genuine (.list items)
  | record {items : List (String × Value)} : (items.map Prod.fst).Nodup →
      (∀ m ∈ items, Genuine m.2) → Genuine (.record items)

end Encoding

/-! ### Reading what was written -/

section Reading

variable {eval : String → String}

theorem numeral_floatLiteral {r : String} (h : IsRepr eval r) : Numeral (floatLiteral r).toList := by
  unfold floatLiteral
  split_ifs with hnan hinf hneg
  · exact numeral_nan
  · exact numeral_infinity
  · exact numeral_negInfinity
  · rcases h with h | h | h | h
    · exact absurd h hnan
    · exact absurd h hinf
    · exact absurd h hneg
    · exact numeral_of_scanNumber h.1

theorem numberValue_floatLiteral {r : String} (h : IsRepr eval r) :
    numberValue eval (floatLiteral r) = .float r := by
  by_cases hnan : r = "nan"
  · subst hnan
    rfl
  by_cases hinf : r = "inf"
  · subst hinf
    rfl
  by_cases hneg : r = "-inf"
  · subst hneg
    rfl
  have hfloat : scanNumber r.toList = some (r.toList, []) ∧ r.toList.any isFloatMark ∧ eval r = r := by
    rcases h with h | h | h | h
    · exact absurd h hnan
    · exact absurd h hinf
    · exact absurd h hneg
    · exact h
  have hword {word : String} (hscan : scanNumber word.toList = none) : r ≠ word := by
    rintro rfl
    rw [hfloat.1] at hscan
    cases hscan
  rw [floatLiteral, if_neg hnan, if_neg hinf, if_neg hneg, numberValue, if_neg (hword rfl),
    if_neg (hword rfl), if_neg (hword rfl), if_pos hfloat.2.1, hfloat.2.2]

theorem mem_toString {i : ℤ} {c : Char} (h : c ∈ (toString i).toList) :
    c.isDigit = true ∨ c = '-' := by
  have hdigits {n : ℕ} (hc : c ∈ n.repr.toList) : c.isDigit = true := by
    rw [Nat.toList_repr] at hc
    exact Nat.isDigit_of_mem_toDigits (by decide) (by decide) hc
  cases i with
  | ofNat n => exact .inl (hdigits h)
  | negSucc n =>
    have htext : (toString (Int.negSucc n)).toList = '-' :: (n + 1).repr.toList := by
      simp [toString, Int.repr]
    rw [htext] at h
    rcases List.mem_cons.1 h with rfl | h
    · exact .inr rfl
    · exact .inl (hdigits h)

theorem numberValue_toString (i : ℤ) : numberValue eval (toString i) = .int i := by
  have hword {c : Char} {word : String} (hc : c ∈ word.toList) (hd : c.isDigit = false)
      (hne : c ≠ '-') : toString i ≠ word := by
    intro h
    rcases mem_toString (h ▸ hc) with h | h
    · rw [hd] at h
      cases h
    · exact hne h
  have hmark : ¬(toString i).toList.any isFloatMark := by
    intro h
    obtain ⟨c, hc, hm⟩ := List.any_eq_true.1 h
    simp only [isFloatMark, Bool.or_eq_true, decide_eq_true_eq] at hm
    rcases hm with (rfl | rfl) | rfl <;> exact hword hc (by decide) (by decide) rfl
  have hnan : 'N' ∈ "NaN".toList := by decide
  have hinf : 'I' ∈ "Infinity".toList := by decide
  have hneg : 'I' ∈ "-Infinity".toList := by decide
  rw [numberValue, if_neg (hword hnan (by decide) (by decide)),
    if_neg (hword hinf (by decide) (by decide)), if_neg (hword hneg (by decide) (by decide)),
    if_neg hmark, intOfText_toString]
  rfl

theorem toEntries_eq (es : List (String × Json)) :
    toEntries eval es = es.map fun e => (Key.str e.1, toValue eval e.2) := by
  induction es with
  | nil => rfl
  | cons e es ih => rw [toEntries, ih, List.map_cons]

/-- The tree that a value is written as. -/
structure Encodes (v : Value) (j : Json) : Prop where
  tree : ofValue v = some j
  wellformed : Wellformed j

theorem exists_encodes_items {items : List Value} (h : ∀ v ∈ items, ∃ j, Encodes v j) :
    ∃ js, ofValues items = some js ∧ ∀ j ∈ js, Wellformed j := by
  induction items with
  | nil => exact ⟨[], rfl, by simp⟩
  | cons v vs ih =>
    obtain ⟨j, hj⟩ := h v List.mem_cons_self
    obtain ⟨js, htrees, hwell⟩ := ih fun v hv => h v (List.mem_cons_of_mem _ hv)
    refine ⟨j :: js, ?_, List.forall_mem_cons.2 ⟨hj.wellformed, hwell⟩⟩
    simp [ofValues, hj.tree, htrees]

theorem exists_encodes_entries {items : List (String × Value)}
    (h : ∀ m ∈ items, ∃ j, Encodes m.2 j) :
    ∃ es, ofEntries (items.map fun p => (.str p.1, p.2)) = some es ∧
      es.map Prod.fst = items.map Prod.fst ∧ ∀ e ∈ es, Wellformed e.2 := by
  induction items with
  | nil => exact ⟨[], rfl, rfl, by simp⟩
  | cons m ms ih =>
    obtain ⟨k, v⟩ := m
    obtain ⟨j, hj⟩ := h (k, v) List.mem_cons_self
    obtain ⟨es, htrees, hkeys, hwell⟩ := ih fun m hm => h m (List.mem_cons_of_mem _ hm)
    refine ⟨(k, j) :: es, ?_, ?_, List.forall_mem_cons.2 ⟨hj.wellformed, hwell⟩⟩
    · simp [ofEntries, hj.tree, htrees, Key.text]
    · simp [hkeys]

theorem encodes_record {items : List (String × Value)} {es : List (String × Json)}
    (hes : ofEntries (items.map fun p => (.str p.1, p.2)) = some es)
    (hkeys : es.map Prod.fst = items.map Prod.fst) (hnd : (items.map Prod.fst).Nodup)
    (hwell : ∀ e ∈ es, Wellformed e.2) :
    Encodes (.record items) (.object (es.insertionSort nameLe)) := by
  have hperm := List.perm_insertionSort nameLe es
  refine ⟨?_, .object ?_ ?_⟩
  · rw [ofValue, hes]
    rfl
  · rw [(hperm.map Prod.fst).nodup_iff, hkeys]
    exact hnd
  · exact fun e he => hwell e (hperm.mem_iff.1 he)

theorem Genuine.exists_encodes {v : Value} (h : Genuine eval v) : ∃ j, Encodes v j := by
  induction h with
  | none => exact ⟨.null, rfl, .null⟩
  | bool b => exact ⟨.bool b, rfl, .bool b⟩
  | int i => exact ⟨.number (toString i), rfl, .number (numeral_toString i)⟩
  | float h => exact ⟨.number (floatLiteral _), rfl, .number (numeral_floatLiteral h)⟩
  | str s => exact ⟨.string s, rfl, .string s⟩
  | list _ ih =>
    obtain ⟨js, htrees, hwell⟩ := exists_encodes_items ih
    refine ⟨.array js, ?_, .array hwell⟩
    rw [ofValue, htrees] <;> simp
  | record hnd _ ih =>
    obtain ⟨es, htrees, hkeys, hwell⟩ := exists_encodes_entries ih
    exact ⟨_, encodes_record htrees hkeys hnd hwell⟩

/-- What `json.loads` makes of a text. -/
def readValue (eval : String → String) (cs : List Char) : Option Value :=
  (loads cs).map (toValue eval)

theorem Encodes.read {v : Value} {j : Json} (h : Encodes v j) (style : Style) {blanks : List Char}
    (hb : ∀ c ∈ blanks, isBlank c) :
    readValue eval (dumps style j ++ blanks) = some (toValue eval j) := by
  rw [readValue, loads_dumps h.wellformed style hb]
  rfl

/-! ### Records of texts -/

/-- A string or a list of strings. -/
inductive Plain : Value → Prop
  | str (s : String) : Plain (.str s)
  | list (l : List String) : Plain (.list (l.map .str))

theorem Plain.exists_tree {v : Value} (h : Plain v) (eval : String → String) :
    ∃ j, Encodes v j ∧ toValue eval j = v := by
  cases h with
  | str s => exact ⟨.string s, ⟨rfl, .string s⟩, rfl⟩
  | list l =>
    have htrees : ofValues (l.map .str) = some (l.map .string) ∧
        toValues eval (l.map .string) = l.map .str := by
      induction l with
      | nil => exact ⟨rfl, rfl⟩
      | cons s l ih => exact ⟨by simp [ofValues, ofValue, ih.1], by simp [toValues, toValue, ih.2]⟩
    refine ⟨.array (l.map .string), ⟨?_, .array fun v hv => ?_⟩, ?_⟩
    · rw [ofValue, htrees.1] <;> simp
    · obtain ⟨s, -, rfl⟩ := List.mem_map.1 hv
      exact .string s
    · rw [toValue, htrees.2]

/-- Reading a written record of texts gives its members, in another order. -/
theorem exists_read_record {items : List (String × Value)} (hnd : (items.map Prod.fst).Nodup)
    (h : ∀ m ∈ items, Plain m.2) (eval : String → String) :
    ∃ j items', Encodes (.record items) j ∧ items'.Perm items ∧
      toValue eval j = .record items' := by
  have htrees : ∃ es, ofEntries (items.map fun p => (.str p.1, p.2)) = some es ∧
      es.map Prod.fst = items.map Prod.fst ∧ (∀ e ∈ es, Wellformed e.2) ∧
      es.map (fun e => (e.1, toValue eval e.2)) = items := by
    clear hnd
    induction items with
    | nil => exact ⟨[], rfl, rfl, by simp, rfl⟩
    | cons m ms ih =>
      obtain ⟨k, v⟩ := m
      obtain ⟨j, hj, hv⟩ := (h (k, v) List.mem_cons_self).exists_tree eval
      obtain ⟨es, hes, hkeys, hwell, hsame⟩ := ih fun m hm => h m (List.mem_cons_of_mem _ hm)
      refine ⟨(k, j) :: es, ?_, ?_, List.forall_mem_cons.2 ⟨hj.wellformed, hwell⟩, ?_⟩
      · simp [ofEntries, hj.tree, hes, Key.text]
      · simp [hkeys]
      · simp [hv, hsame]
  obtain ⟨es, hes, hkeys, hwell, hsame⟩ := htrees
  refine ⟨_, (es.insertionSort nameLe).map fun e => (e.1, toValue eval e.2),
    encodes_record hes hkeys hnd hwell, ?_, ?_⟩
  · have hperm := (List.perm_insertionSort nameLe es).map fun e => (e.1, toValue eval e.2)
    rwa [hsame] at hperm
  · rw [toValue, toEntries_eq, Value.record, List.map_map]
    rfl

end Reading

end Yggdrasil.Python.Json
