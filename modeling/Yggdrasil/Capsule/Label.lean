import Mathlib.Data.List.DropRight
import Mathlib.Data.String.Basic
import Yggdrasil.Capsule.Template

/-! The name of a capsule is made of the name of its node: in lower case, a hyphen for every
character outside `[a-z0-9-]`, the hyphens at both ends stripped, and the rest cut to 63
characters. The cut comes last, and the name is a label exactly if it does not end at a hyphen. -/

namespace Yggdrasil.Capsule

open Python

/-- A label of RFC 1123. -/
structure IsLabel (cs : List Char) : Prop where
  length : 1 ≤ cs.length ∧ cs.length ≤ 63
  chars : ∀ c ∈ cs, isLowerAlnum c = true ∨ c = '-'
  first : ∃ c ∈ cs.head?, isLowerAlnum c = true
  last : ∃ c ∈ cs.getLast?, isLowerAlnum c = true

/-- The name in lower case from its first character in `[a-z0-9]`. -/
def fromFirst (name : String) : List Char := (lower name).toList.dropWhile fun c => !isLowerAlnum c

/-- Some character in `[a-z0-9]` is cut off, and the last one kept is not in this class. -/
def CutAtHyphen (name : String) : Prop :=
  (∃ c ∈ (fromFirst name).drop 63, isLowerAlnum c = true) ∧
    ∃ c ∈ (fromFirst name)[62]?, isLowerAlnum c = false

/-! ### Stripping and cutting -/

section Strip

variable {α : Type} {p : α → Bool}

/-- The last element of a cut list, between elements that are stripped and one that is not. -/
theorem getLast?_take_iff {body tail : List α} (n : ℕ) (hlast : ∃ a ∈ body.getLast?, p a = false)
    (htail : ∀ a ∈ tail, p a = true) :
    (∃ a ∈ (body.take (n + 1)).getLast?, p a = false) ↔
      ¬((∃ a ∈ (body ++ tail).drop (n + 1), p a = false) ∧
        ∃ a ∈ (body ++ tail)[n]?, p a = true) := by
  obtain ⟨b, hb, hpb⟩ := hlast
  by_cases hlen : body.length ≤ n + 1
  · rw [List.take_of_length_le hlen]
    refine iff_of_true ⟨b, hb, hpb⟩ ?_
    rintro ⟨⟨a, ha, hpa⟩, -⟩
    rw [List.drop_append, List.drop_of_length_le hlen, List.nil_append] at ha
    rw [htail a (List.mem_of_mem_drop ha)] at hpa
    cases hpa
  · have hn : n < body.length := by omega
    have hcut : ∃ a ∈ (body ++ tail).drop (n + 1), p a = false := by
      refine ⟨b, ?_, hpb⟩
      rw [List.drop_append_of_le_length (by omega)]
      refine List.mem_append_left _ ?_
      have hdrop : (body.drop (n + 1)).getLast? = some b := by
        rw [List.getLast?_drop, if_neg hlen]
        exact hb
      exact List.mem_of_getLast? hdrop
    rw [and_iff_right hcut, List.getLast?_take, if_neg (Nat.succ_ne_zero n), Nat.add_sub_cancel,
      List.getElem?_append_left hn, List.getElem?_eq_getElem hn, Option.some_or]
    simp

/-- A stripped list begins outside the class, ends outside it, and only the class follows. -/
theorem stripList_spec {p : Char → Bool} {cs : List Char} (h : ∃ c ∈ cs, p c = false) :
    (∃ c ∈ (stripList p cs).head?, p c = false) ∧ (∃ c ∈ (stripList p cs).getLast?, p c = false) ∧
      ∃ tail, (∀ c ∈ tail, p c = true) ∧ cs.dropWhile p = stripList p cs ++ tail := by
  have hstrip : stripList p cs = (cs.dropWhile p).rdropWhile p := rfl
  have hsplit : stripList p cs ++ (cs.dropWhile p).rtakeWhile p = cs.dropWhile p := by
    rw [hstrip, List.rdropWhile_append_rtakeWhile]
  have hdrop : cs.dropWhile p ≠ [] := by
    obtain ⟨c, hc, hpc⟩ := h
    exact fun hnil => by simp [List.dropWhile_eq_nil_iff.1 hnil c hc] at hpc
  have hhead := List.head_dropWhile_not p hdrop
  have hne : stripList p cs ≠ [] := by
    rw [hstrip]
    intro hnil
    have hall := List.rdropWhile_eq_nil_iff.1 hnil _ (List.head_mem hdrop)
    rw [hhead] at hall
    cases hall
  refine ⟨⟨(stripList p cs).head hne, List.head?_eq_some_head hne, ?_⟩,
    ⟨(stripList p cs).getLast hne, List.getLast?_eq_some_getLast hne, ?_⟩,
    _, fun c => List.mem_rtakeWhile_imp, hsplit.symm⟩
  · have hfirst : (stripList p cs ++ (cs.dropWhile p).rtakeWhile p).head? =
        some ((stripList p cs).head hne) := by
      rw [List.head?_append_of_ne_nil _ hne, List.head?_eq_some_head hne]
    rw [hsplit, List.head?_eq_some_head hdrop, Option.some.injEq] at hfirst
    rw [← hfirst, hhead]
  · have hlast := List.rdropWhile_last_not p (cs.dropWhile p) (hstrip ▸ hne)
    simpa [hstrip] using hlast

end Strip

/-! ### Names -/

section Names

variable {name : String}

theorem toNat_lt_of_isAlphanum {c : Char} (h : c.isAlphanum = true) : c.toNat < 123 := by
  rcases isAlphanum_iff.1 h with hupper | hlower | hdigit
  · exact (isUpper_iff_toNat.1 hupper).2.trans_lt (by decide)
  · exact (isLower_iff_toNat.1 hlower).2.trans_lt (by decide)
  · simp only [Char.isDigit, Bool.and_eq_true, decide_eq_true_eq] at hdigit
    have hle : c.toNat ≤ '9'.toNat := hdigit.2
    exact hle.trans_lt (by decide)

theorem isLowerAlnum_toLower {c : Char} (h : c.isAlphanum = true) :
    isLowerAlnum c.toLower = true := by
  have table : ∀ n ∈ List.range 123, (Char.ofNat n).isAlphanum = true →
      isLowerAlnum (Char.ofNat n).toLower = true := by decide +kernel
  have hc := table c.toNat (List.mem_range.2 (toNat_lt_of_isAlphanum h))
  rw [Char.ofNat_toNat] at hc
  exact hc h

theorem lowerChar_of_lt {c : Char} (h : c.toNat < 123) : lowerChar c = [c.toLower] := by
  unfold lowerChar
  split
  · omega
  · omega
  · rfl

theorem labelChar_eq_hyphen (c : Char) : (labelChar c == '-') = !isLowerAlnum c := by
  unfold labelChar
  cases h : isLowerAlnum c with
  | true =>
    have hne : c ≠ '-' := by
      rintro rfl
      exact absurd h (by decide)
    simpa using hne
  | false =>
    by_cases hc : c = '-'
    · simp [hc]
    · simp [hc]

theorem isLowerAlnum_labelChar {c : Char} (h : (labelChar c == '-') = false) :
    isLowerAlnum (labelChar c) = true := by
  have hc : isLowerAlnum c = true := by
    rw [labelChar_eq_hyphen] at h
    simpa using h
  simp [labelChar, hc]

/-- The substituted name from its first character that is no hyphen. -/
theorem dropWhile_labelChars (name : String) :
    ((lower name).toList.map labelChar).dropWhile (· == '-') = (fromFirst name).map labelChar := by
  rw [List.dropWhile_map]
  congr 2
  funext c
  exact labelChar_eq_hyphen c

theorem exists_labelChar (h : ∃ c ∈ name.toList, c.isAlphanum = true) :
    ∃ c ∈ (lower name).toList.map labelChar, (c == '-') = false := by
  obtain ⟨c, hc, halnum⟩ := h
  have hlower : c.toLower ∈ (lower name).toList := by
    rw [lower, String.toList_ofList, List.mem_flatMap]
    exact ⟨c, hc, by rw [lowerChar_of_lt (toNat_lt_of_isAlphanum halnum)]; exact List.mem_singleton_self _⟩
  refine ⟨_, List.mem_map_of_mem hlower, ?_⟩
  rw [labelChar_eq_hyphen, isLowerAlnum_toLower halnum]
  rfl

theorem cutAtHyphen_iff :
    CutAtHyphen name ↔ (∃ c ∈ ((fromFirst name).map labelChar).drop 63, (c == '-') = false) ∧
      ∃ c ∈ ((fromFirst name).map labelChar)[62]?, (c == '-') = true := by
  unfold CutAtHyphen
  rw [← List.map_drop, List.getElem?_map]
  simp only [List.mem_map, Option.mem_def, Option.map_eq_some_iff, exists_exists_and_eq_and,
    labelChar_eq_hyphen, Bool.not_eq_eq_eq_not, Bool.not_true, Bool.not_false]

/-- The name of a capsule, cut to 63 characters. -/
theorem isLabel_take_iff (h : ∃ c ∈ name.toList, c.isAlphanum = true) :
    IsLabel ((capsuleName name).take 63) ↔ ¬CutAtHyphen name := by
  obtain ⟨⟨first, hfirst, hfirstAlnum⟩, hlast, tail, htail, hsplit⟩ :=
    stripList_spec (exists_labelChar h)
  rw [dropWhile_labelChars] at hsplit
  rw [cutAtHyphen_iff, hsplit, ← getLast?_take_iff 62 hlast htail]
  have hchars : ∀ c ∈ (capsuleName name).take 63, ∃ d, labelChar d = c := by
    intro c hc
    have hmem : c ∈ (fromFirst name).map labelChar := by
      rw [hsplit]
      exact List.mem_append_left _ (List.mem_of_mem_take hc)
    obtain ⟨d, -, hd⟩ := List.mem_map.1 hmem
    exact ⟨d, hd⟩
  constructor
  · intro hlabel
    obtain ⟨c, hc, halnum⟩ := hlabel.last
    refine ⟨c, hc, ?_⟩
    rw [beq_eq_false_iff_ne]
    rintro rfl
    exact absurd halnum (by decide)
  · rintro ⟨c, hc, hhyphen⟩
    have hhead : ((capsuleName name).take 63).head? = some first := by
      rw [List.head?_take, if_neg (by decide)]
      exact hfirst
    have hpos : 1 ≤ ((capsuleName name).take 63).length := by
      rw [Nat.one_le_iff_ne_zero, ne_eq, List.length_eq_zero_iff]
      intro hnil
      rw [hnil] at hhead
      cases hhead
    refine ⟨⟨hpos, List.length_take_le _ _⟩, fun d hd => ?_, ⟨first, hhead, ?_⟩, ⟨c, hc, ?_⟩⟩
    · obtain ⟨e, rfl⟩ := hchars d hd
      cases he : labelChar e == '-' with
      | true => exact .inr (by simpa using he)
      | false => exact .inl (isLowerAlnum_labelChar he)
    · obtain ⟨e, rfl⟩ := hchars first (List.mem_of_mem_head? hhead)
      exact isLowerAlnum_labelChar hfirstAlnum
    · obtain ⟨e, rfl⟩ := hchars c (List.mem_of_getLast? hc)
      exact isLowerAlnum_labelChar hhyphen

theorem capsuleName_ne_nil (h : ∃ c ∈ name.toList, c.isAlphanum = true) : capsuleName name ≠ [] := by
  obtain ⟨⟨first, hfirst, -⟩, -⟩ := stripList_spec (exists_labelChar h)
  intro hnil
  rw [capsuleName] at hnil
  rw [hnil] at hfirst
  cases hfirst

theorem metadataName_eq {p : Profile} {obj : Node} {result : Value}
    (h : (makeTemplate p obj).1 = .ok result)
    (hname : ∃ c ∈ obj.name.toStr.toList, c.isAlphanum = true) :
    valueAt result namePath =
      some (.str (String.ofList ((capsuleName obj.name.toStr).take 63))) := by
  obtain ⟨⟨items, part⟩, -, h⟩ := bind_eq_ok.1 h
  obtain ⟨⟨metadata, value⟩, -, h⟩ := bind_eq_ok.1 h
  obtain ⟨labels, -, h⟩ := bind_eq_ok.1 h
  cases h
  rw [namePath, valueAt_set_self, withName, if_neg (by simpa using capsuleName_ne_nil hname),
    valueAt_set_self, valueAt_nil]

end Names

/-- Over every node whose name has an ASCII letter or digit: the name in its template is a label
exactly if the name of the node is not cut at a hyphen. -/
theorem metadataName_isLabel_iff {p : Profile} {obj : Node} {result : Value}
    (h : (makeTemplate p obj).1 = .ok result)
    (hname : ∃ c ∈ obj.name.toStr.toList, c.isAlphanum = true) :
    (∃ name, valueAt result namePath = some (.str name) ∧ IsLabel name.toList) ↔
      ¬CutAtHyphen obj.name.toStr := by
  rw [metadataName_eq h hname, ← isLabel_take_iff hname]
  simp only [Option.some.injEq, Value.str.injEq, exists_eq_left', String.toList_ofList]

/-- A profile without metadata, and the template it gives. -/
def bareProfile : Profile := ⟨.dict [(.str "kind", .str "capsule")]⟩

theorem makeTemplate_bareProfile (obj : Node) :
    (makeTemplate bareProfile obj).1 = .ok (filled [(.str "kind", .str "capsule")] [] [] obj) := by
  have hmetadata : (Dict.get? [(Key.str "kind", Value.str "capsule")] (.str "metadata")).getD
      (.dict []) = .dict [] := by simp [Dict.get?]
  exact fillTemplate_filled hmetadata rfl

theorem metadataName_isLabel_web :
    (∃ name, valueAt (filled [(.str "kind", .str "capsule")] [] [] (smallNode "web"))
      namePath = some (.str name) ∧ IsLabel name.toList) ↔
      ¬CutAtHyphen (smallNode "web").name.toStr := by
  have halnum : ∃ c ∈ (smallNode "web").name.toStr.toList, c.isAlphanum = true :=
    ⟨'w', List.mem_of_getElem? (i := 0) rfl, rfl⟩
  exact metadataName_isLabel_iff (makeTemplate_bareProfile (smallNode "web")) halnum

/-- A node name whose 63rd character is a hyphen before a letter. -/
def longName : String := String.ofList (List.replicate 62 'a' ++ ['-', 'b'])

theorem toList_longName : longName.toList = List.replicate 62 'a' ++ ['-', 'b'] :=
  String.toList_ofList

theorem cutAtHyphen_longName : CutAtHyphen longName := by
  have hlower : (lower longName).toList = List.replicate 62 'a' ++ ['-', 'b'] := by
    unfold lower
    rw [toList_longName, String.toList_ofList]
    have hchars : ∀ c ∈ List.replicate 62 'a' ++ ['-', 'b'], lowerChar c = [c] := by
      intro c hc
      have hcases : c ∈ ['a', '-', 'b'] := by
        simpa using hc
      simp only [List.mem_cons, List.not_mem_nil, or_false] at hcases
      rcases hcases with rfl | rfl | rfl <;> exact lowerChar_of_lt (by decide)
    rw [List.flatMap_congr hchars, List.flatMap_singleton']
  have hfrom : fromFirst longName = List.replicate 62 'a' ++ ['-', 'b'] := by
    rw [fromFirst, hlower]
    rfl
  unfold CutAtHyphen
  rw [hfrom]
  exact ⟨⟨'b', by decide, by decide⟩, ⟨'-', by decide, by decide⟩⟩

/-- The name made of it ends at the hyphen. -/
theorem not_isLabel_longName : ¬∀ (p : Profile) (obj : Node) (result : Value),
    (makeTemplate p obj).1 = .ok result → (∃ c ∈ obj.name.toStr.toList, c.isAlphanum = true) →
    ∃ name, valueAt result namePath = some (.str name) ∧ IsLabel name.toList := by
  intro h
  have hstr : (smallNode longName).name.toStr = longName := rfl
  have halnum : ∃ c ∈ (smallNode longName).name.toStr.toList, c.isAlphanum = true := by
    rw [hstr, toList_longName]
    exact ⟨'a', by decide, by decide⟩
  have hmake := makeTemplate_bareProfile (smallNode longName)
  obtain ⟨name, hvalue, hlabel⟩ := h _ _ _ hmake halnum
  have hname := (metadataName_eq hmake halnum).symm.trans hvalue
  simp only [Option.some.injEq, Value.str.injEq] at hname
  rw [← hname, String.toList_ofList] at hlabel
  have hcut := (isLabel_take_iff halnum).1 hlabel
  rw [hstr] at hcut
  exact hcut cutAtHyphen_longName

end Yggdrasil.Capsule
