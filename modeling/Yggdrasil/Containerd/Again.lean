import Yggdrasil.Containerd.Registration
import Yggdrasil.Python.Literal

/-! A second run of the edit. -/

namespace Yggdrasil.Containerd

open Backtrack Python

/-! ### The line of the array -/

section Array

theorem newline_notMem_reprChar (quote c : Char) (hquote : quote ≠ '\n') :
    '\n' ∉ reprChar quote c := by
  unfold reprChar
  split_ifs with h₁ h₂ h₃ h₄ h₅
  · have hc : c ≠ '\n' := by
      rcases h₁ with rfl | rfl
      · exact hquote
      · decide
    simp [Ne.symm hc]
  · decide
  · decide
  · decide
  · simpa using Ne.symm h₂
  · have hdigit (n : ℕ) : Nat.digitChar n ≠ '\n' := by grind [Nat.digitChar]
    simp only [hex2, List.mem_cons, List.not_mem_nil, or_false, not_or]
    exact ⟨by decide, by decide, Ne.symm (hdigit _), Ne.symm (hdigit _)⟩

theorem newline_notMem_reprStr (s : String) : '\n' ∉ (Python.reprStr s).toList := by
  have hquote (b : Bool) : (if b then '"' else '\'') ≠ '\n' := by cases b <;> decide
  rw [Python.reprStr, String.toList_ofList]
  simp only [List.cons_append, List.mem_cons, List.mem_append, List.mem_flatMap, not_or,
    List.not_mem_nil, not_false_iff, and_true, not_exists, not_and]
  exact ⟨Ne.symm (hquote _), fun c _ => newline_notMem_reprChar _ c (hquote _), Ne.symm (hquote _)⟩

theorem newline_notMem_intercalate {l : List String} (h : ∀ s ∈ l, '\n' ∉ s.toList) :
    '\n' ∉ (", ".intercalate l).toList := by
  induction l with
  | nil => simp
  | cons s l ih =>
    have hs := h s List.mem_cons_self
    have htail := ih fun t ht => h t (List.mem_cons_of_mem s ht)
    cases l with
    | nil => simpa using hs
    | cons t l =>
      have hcomma : '\n' ∉ ", ".toList := by simp
      rw [String.intercalate_cons_cons, String.toList_append, String.toList_append]
      simp only [List.mem_append, not_or]
      exact ⟨⟨hs, hcomma⟩, htail⟩

theorem exists_repr_names (l : List String) :
    ∃ inner, (names l).repr.toList = '[' :: (inner ++ [']']) ∧ '\n' ∉ inner := by
  refine ⟨_, Literal.repr_list l, newline_notMem_intercalate fun s hs => ?_⟩
  obtain ⟨t, -, rfl⟩ := List.mem_map.1 hs
  exact newline_notMem_reprStr t

theorem strings_names (l : List String) : strings (names l) = some l := by
  change allStrings (l.map .str) = some l
  induction l with
  | nil => rfl
  | cons s l ih => rw [List.map_cons, allStrings, ih, Option.map_some]

theorem enabled_enabled (l : List String) : enabled (enabled l) = enabled l := by
  rw [enabled, enabled, List.filter_filter]
  simp

/-- The array as the edit writes it. -/
def written (l : List String) : Text × Text × Text := ([' '], [' '], (names (enabled l)).repr.toList)

theorem arrayParts_written (l : List String) : ArrayParts (written l) := by
  have hspace : isSpace ' ' = true := by decide
  exact ⟨by simpa [written] using hspace, by simpa [written] using hspace, exists_repr_names _⟩

theorem replacement_def (l : List String) :
    replacement l = "disabled_plugins = ".toList ++ (names l).repr.toList := rfl

theorem replacement_eq (l : List String) : replacement (enabled l) = arrayText (written l) := by
  have hkey : "disabled_plugins = ".toList = "disabled_plugins".toList ++ [' ', '=', ' '] := by
    simp
  rw [replacement_def, hkey, arrayText_def, written, List.append_assoc]
  rfl

theorem head?_arrayText (d : Text × Text × Text) (x : Text) :
    (arrayText d ++ x).head? = some 'd' := by
  have hkey : "disabled_plugins".toList = 'd' :: "isabled_plugins".toList := by simp
  rw [arrayText_def, hkey]
  rfl

theorem newline_notMem_replacement (l : List String) : '\n' ∉ replacement (enabled l) := by
  have hkey : '\n' ∉ "disabled_plugins = ".toList := by simp
  obtain ⟨inner, hrepr, hinner⟩ := exists_repr_names (enabled l)
  rw [replacement_def, hrepr]
  simp only [List.mem_append, List.mem_cons, List.not_mem_nil, or_false, not_or]
  exact ⟨hkey, by decide, hinner, by decide⟩

theorem head?_replacement (l : List String) (x : Text) :
    (replacement (enabled l) ++ x).head? = some 'd' := by
  rw [replacement_eq, head?_arrayText]

end Array

/-! ### The edit -/

section Edit

variable {literals : LiteralEval} {t t' : Text}

theorem configureCri_eq_ok_iff : configureCri literals t = .ok t' ↔
    ∃ before d rest v l, search '\n' disabledArray t = some (before, d, rest) ∧
      literals.eval d.2.2 = some v ∧ strings v = some l ∧
      register (before ++ (replacement (enabled l) ++ rest)) = .ok t' := by
  unfold configureCri
  constructor
  · intro h
    cases hsearch : search '\n' disabledArray t with
    | none =>
      rw [hsearch] at h
      cases h
    | some m =>
      obtain ⟨before, d, rest⟩ := m
      rw [hsearch] at h
      dsimp only at h
      cases heval : literals.eval d.2.2 with
      | none =>
        rw [heval] at h
        cases h
      | some v =>
        rw [heval] at h
        dsimp only at h
        cases hstrings : strings v with
        | none =>
          rw [hstrings] at h
          cases h
        | some l =>
          rw [hstrings] at h
          exact ⟨before, d, rest, v, l, rfl, heval, hstrings, by rwa [← List.append_assoc]⟩
  · rintro ⟨before, d, rest, v, l, hsearch, heval, hstrings, hregister⟩
    rw [hsearch]
    dsimp only
    rw [heval]
    dsimp only
    rw [hstrings]
    dsimp only
    rwa [List.append_assoc]

theorem exists_register {t₁ : Text} (h : register t₁ = .ok t') :
    ∃ x, t' = t₁ ++ x ∧ (x = [] ∨ ∃ id, IsPlugin id ∧ x = addition id t₁) := by
  obtain ⟨id, -, hplugin, ⟨rfl, -⟩ | ⟨rfl, -⟩⟩ := register_cases h
  · exact ⟨_, rfl, .inr ⟨id, hplugin, rfl⟩⟩
  · exact ⟨[], by rw [List.append_nil], .inl rfl⟩

/-- The array after an edit is found where it was. -/
theorem search_again {before rest x r : Text} {d : Text × Text × Text} (l : List String)
    (hsearch : search '\n' disabledArray t = some (before, d, rest))
    (hx : x = [] ∨ x.head? = some '\n') (hr : first trailing x = some ((), r)) :
    search '\n' disabledArray (before ++ (replacement (enabled l) ++ x)) =
      some (before, written l, r) := by
  obtain ⟨s, rfl, -, hfirst, -⟩ := search_eq_some_iff.1 hsearch
  have hhead : s.head? = some 'd' := by
    obtain ⟨y, hy, -⟩ := List.exists_of_findSome?_eq_some
      ((first_then arrayHead trailing s).symm.trans hfirst)
    rw [(mem_arrayHead hy).1, head?_arrayText]
  refine search_transfer hsearch (fun u hu => ?_) ?_
  · rw [capture_disabledArray hu (head?_replacement l x), capture_disabledArray hu hhead]
  · rw [replacement_eq]
    exact first_disabledArray (arrayParts_written l) hx hr

/-- The end of a match is the end of the text or of a line. -/
theorem rest_of_search {before rest : Text} {d : Text × Text × Text}
    (hsearch : search '\n' disabledArray t = some (before, d, rest)) :
    rest = [] ∨ rest.head? = some '\n' := by
  obtain ⟨s, -, -, hfirst, -⟩ := search_eq_some_iff.1 hsearch
  obtain ⟨y, -, hend⟩ := List.exists_of_findSome?_eq_some
    ((first_then arrayHead trailing s).symm.trans hfirst)
  obtain ⟨⟨u, r⟩, htrailing, heq⟩ := Option.map_eq_some_iff.1 hend
  obtain ⟨rfl, rfl⟩ := Prod.mk.inj heq
  obtain ⟨-, -, -, -, -, hr⟩ := exists_of_trailing htrailing
  exact hr

theorem exists_concat_replacement (l : List String) :
    ∃ u, replacement (enabled l) = u ++ [']'] := by
  obtain ⟨inner, hrepr, -⟩ := exists_repr_names (enabled l)
  rw [replacement_def, hrepr]
  exact ⟨"disabled_plugins = ".toList ++ '[' :: inner, by simp⟩

/-- After the array and at most one end of a line, the section is set off by a newline. -/
theorem addition_eq {id : Text} (before : Text) (l : List String) {rest : Text}
    (hrest : rest = [] ∨ ∃ s, rest = '\n' :: s ∧ '\n' ∉ s) :
    addition id (before ++ (replacement (enabled l) ++ rest)) = '\n' :: kataSection id := by
  obtain ⟨u, hu⟩ := exists_concat_replacement l
  have hend : ¬['\n', '\n'] <:+ before ++ (replacement (enabled l) ++ rest) := by
    rw [hu]
    rintro ⟨w, hw⟩
    rcases hrest with rfl | ⟨s, rfl, hs⟩
    · have hlast := congrArg List.getLast? hw
      simp at hlast
    · rcases List.eq_nil_or_concat' s with rfl | ⟨s, c, rfl⟩
      · have hlast := congrArg (fun x => x.dropLast.getLast?) hw
        simp at hlast
      · have hlast := congrArg List.getLast? hw
        simp only [← List.append_assoc, ← List.cons_append, List.getLast?_append,
          List.getLast?_singleton, Option.some_or] at hlast
        simp at hlast hs
        exact hs.2 hlast
  rw [addition, separator, if_neg (by rwa [List.isSuffixOf_iff_suffix])]
  rfl

/-- Settled text stays so as the text goes on. -/
theorem Settled.append {l : Text} (h : Settled l) (x : Text) : Settled (l ++ x) := by
  obtain ⟨v, c, r, rfl, hv, hnl, hc⟩ := h
  exact ⟨v, c, r ++ x, by simp, hv, hnl, hc⟩

theorem Settled.of_append {l x : Text} (h : Settled (l ++ x)) (hl : l.head? = some '\n')
    (hx : '\n' ∉ l.tail → x = [] ∨ x.head? = some '\n') : Settled l := by
  obtain ⟨s, rfl⟩ := List.head?_eq_some_iff.1 hl
  obtain ⟨v, c, r, hsplit, hv, hnl, hc⟩ := h
  rw [List.cons_append] at hsplit
  have htail := (List.cons.inj hsplit).2
  rcases List.append_eq_append_iff.1 htail with ⟨v', rfl, hx'⟩ | ⟨r', rfl, hr⟩
  · have hs : '\n' ∉ s := fun hmem => hnl (List.mem_append_left v' hmem)
    -- The symbol that settles the text is not a newline and has none before it.
    have hhead : x.head? ≠ some '\n' := by
      rw [hx']
      cases v' with
      | nil =>
        rintro ⟨⟩
        exact absurd hc.1 (by decide)
      | cons d v' =>
        rintro ⟨⟩
        simp at hnl
    rcases hx hs with rfl | hx
    · simp at hx'
    · exact absurd hx hhead
  · cases r' with
    | nil =>
      have hs : '\n' ∉ v ++ [] := by simpa using hnl
      rw [List.nil_append] at hr
      have hhead : x.head? = some c := by rw [← hr]; rfl
      rcases hx hs with rfl | hx
      · cases hhead
      · rw [hhead] at hx
        obtain rfl := Option.some.inj hx
        exact absurd hc.1 (by decide)
    | cons e r' =>
      obtain ⟨rfl, -⟩ := List.cons.inj hr
      exact ⟨v, c, r', rfl, hv, hnl, hc⟩

/-- The second run reads the array that the first one wrote. -/
theorem configureCri_written {before rest x : Text} {d : Text × Text × Text} {l : List String}
    (hsearch : search '\n' disabledArray t = some (before, d, rest))
    (hx : x = [] ∨ x.head? = some '\n') {r : Text} (hr : first trailing x = some ((), r)) :
    configureCri literals (before ++ (replacement (enabled l) ++ x)) =
      register (before ++ (replacement (enabled l) ++ r)) := by
  have heval : literals.eval (written l).2.2 = some (names (enabled l)) := literals.eval_repr _
  rw [configureCri, search_again l hsearch hx hr]
  dsimp only
  rw [heval]
  dsimp only
  rw [strings_names]
  dsimp only
  rw [enabled_enabled, List.append_assoc]

/-- What is appended has a bracket and no comment. -/
theorem addition_symbols {id : Text} (h : IsPlugin id) (t : Text) :
    '[' ∈ addition id t ∧ '#' ∉ addition id t := by
  have hsection : '[' ∈ kataSection id ∧ '#' ∉ kataSection id := by
    rcases h with rfl | rfl <;> decide +kernel
  have hseparator : '#' ∉ separator t := by
    unfold separator
    split_ifs <;> decide
  exact ⟨List.mem_append_right _ hsection.1, by simp [addition, hseparator, hsection.2]⟩

theorem settled_kataSection {id : Text} (h : IsPlugin id) : Settled ('\n' :: kataSection id) := by
  obtain ⟨r, hr⟩ := List.head?_eq_some_iff.1 (addedLines h).bracket
  exact ⟨[], '[', r ++ '\n' :: (runtimeLine ++ ['\n']), by rw [kataSection, hr]; rfl, by simp,
    by simp, by decide, by decide⟩

/-- A second run gives the same text exactly if the first one has left nothing that the match
takes: the array is at the end of the text, or the next line is neither blank nor a comment. -/
theorem configureCri_again_iff {before rest : Text} {d : Text × Text × Text}
    (hsearch : search '\n' disabledArray t = some (before, d, rest))
    (h : configureCri literals t = .ok t') :
    configureCri literals t' = .ok t' ↔ rest = [] ∨ Settled rest := by
  obtain ⟨before', d', rest', v, l, hsearch', -, -, hregister⟩ := configureCri_eq_ok_iff.1 h
  obtain ⟨rfl, rfl, rfl⟩ : before' = before ∧ d' = d ∧ rest' = rest := by
    rw [hsearch] at hsearch'
    simpa using hsearch'.symm
  have hrest := rest_of_search hsearch
  obtain ⟨x, ht', hx⟩ := exists_register hregister
  have hline : rest' ++ x = [] ∨ (rest' ++ x).head? = some '\n' := by
    rcases hrest with rfl | hrest
    · rcases hx with rfl | ⟨id, -, rfl⟩
      · exact .inl rfl
      · exact .inr (by rw [List.nil_append, addition_eq before' l (.inl rfl)]; rfl)
    · exact .inr (by rw [List.head?_append, hrest]; rfl)
  obtain ⟨r, hr⟩ := exists_trailing hline
  have hshape : t' = before' ++ (replacement (enabled l) ++ (rest' ++ x)) := by
    rw [ht']
    simp only [List.append_assoc]
  have hsecond : configureCri literals t' = register (before' ++ (replacement (enabled l) ++ r)) := by
    rw [hshape]
    exact configureCri_written hsearch hline hr
  obtain ⟨w, c, hsplit, hw, hc, -⟩ := exists_of_trailing hr
  constructor
  · intro hagain
    rw [hsecond] at hagain
    obtain ⟨x', hx', hcases⟩ := exists_register hagain
    have hcancel : w ++ c ++ r = r ++ x' := by
      rw [hshape, hsplit] at hx'
      simpa using hx'
    have hperm : (w ++ c).Perm x' := by
      rw [← List.perm_append_right_iff r, hcancel]
      exact List.perm_append_comm
    -- The second run takes nothing: what it appended would have to be what it took.
    have hnone : w = [] ∧ c = [] := by
      rcases hcases with rfl | ⟨id, hplugin, rfl⟩
      · exact List.append_eq_nil_iff.1 hperm.eq_nil
      · obtain ⟨hbracket, hhash⟩ := addition_symbols hplugin
          (before' ++ (replacement (enabled l) ++ r))
        rw [← hperm.mem_iff] at hbracket hhash
        rcases hc with ⟨rfl, -⟩ | ⟨t, rfl, -⟩
        · rw [List.append_nil] at hbracket
          exact absurd (hw _ hbracket) (by decide)
        · exact absurd (by simp) hhash
    obtain ⟨rfl, rfl⟩ := hnone
    rcases hrest with hnil | hnewline
    · exact .inl hnil
    · have hsettled : r = [] ∨ Settled r := by
        rcases hc with ⟨-, hr⟩ | ⟨t, ht, -⟩
        · exact hr
        · cases ht
      have hr' : rest' ++ x = r := hsplit
      rcases hsettled with hnil | hsettled
      · rw [← hr'] at hnil
        exact .inl (List.append_eq_nil_iff.1 hnil).1
      · rw [← hr'] at hsettled
        refine .inr (hsettled.of_append hnewline fun htail => ?_)
        obtain ⟨s, rfl⟩ := List.head?_eq_some_iff.1 hnewline
        rcases hx with rfl | ⟨id, -, rfl⟩
        · exact .inl rfl
        · exact .inr (by rw [addition_eq before' l (.inr ⟨s, rfl, htail⟩)]; rfl)
  · intro hsettled
    have hsame : r = rest' ++ x := by
      have hagain : first trailing (rest' ++ x) = some ((), rest' ++ x) := by
        rcases hsettled with rfl | hsettled
        · rcases hx with rfl | ⟨id, hplugin, rfl⟩
          · rfl
          · rw [List.nil_append, addition_eq before' l (.inl rfl)]
            exact first_trailing_of_settled (settled_kataSection hplugin)
        · exact first_trailing_of_settled (hsettled.append x)
      rw [hr] at hagain
      exact congrArg Prod.snd (Option.some.inj hagain)
    rw [hsecond, hsame, ← hshape]
    exact register_again hregister

end Edit

end Yggdrasil.Containerd
