import Yggdrasil.Containerd.Again
import Yggdrasil.Library.Splice

/-! The lines that an edit leaves: which ones it keeps, and which ones the match takes along. -/

namespace Yggdrasil.Containerd

open Backtrack Python

/-! ### First lines -/

section FirstLines

variable {s t u l : Text}

theorem lines_nil : lines '\n' ([] : Text) = [] := rfl

theorem exists_lines_cons (h : l ≠ []) :
    ∃ L, lines '\n' l = l.takeWhile (· ≠ '\n') :: L := by
  obtain ⟨c, l, rfl⟩ := List.exists_cons_of_ne_nil h
  refine ⟨((starts '\n' (c = '\n') l).filter (· ≠ [])).map (List.takeWhile (· ≠ '\n')), ?_⟩
  rw [lines, starts, if_pos rfl, List.singleton_append, List.filter_cons_of_pos (by simp),
    List.map_cons]

theorem lines_eq_nil_iff : lines '\n' l = [] ↔ l = [] := by
  refine ⟨fun h => ?_, fun h => by rw [h, lines_nil]⟩
  by_contra hne
  obtain ⟨L, hL⟩ := exists_lines_cons hne
  rw [hL] at h
  cases h

/-- The line that a text ends, or that goes up to its end. -/
theorem lines_cons {rest : Text} (hu : '\n' ∉ u) (hne : u ≠ [])
    (hrest : rest = [] ∨ rest.head? = some '\n') :
    lines '\n' (u ++ rest) = u :: lines '\n' rest.tail := by
  rcases hrest with rfl | hrest
  · rw [List.append_nil, lines_of_notMem hne hu, List.tail_nil, lines_nil]
  · obtain ⟨r, rfl⟩ := List.head?_eq_some_iff.1 hrest
    rw [lines_line hu, List.tail_cons]

theorem lines_start (h : Starts '\n' true u) (l : Text) :
    lines '\n' (u ++ l) = lines '\n' u ++ lines '\n' l := by
  rcases h with ⟨rfl, -⟩ | h
  · rw [lines_nil]
    rfl
  · exact lines_append h

/-- A line is a part of the text, with a newline before it. -/
theorem infix_of_mem_lines (h : s ∈ lines '\n' l) : '\n' :: s <:+: '\n' :: l := by
  obtain ⟨t, ht, rfl⟩ := List.mem_map.1 h
  obtain ⟨u, rfl, hu⟩ := mem_starts.1 (List.mem_filter.1 ht).1
  have hline : t.takeWhile (· ≠ '\n') <+: t := List.takeWhile_prefix _
  rcases hu with ⟨rfl, -⟩ | hu
  · exact (List.prefix_cons_inj '\n').2 hline |>.isInfix
  · obtain ⟨u, rfl⟩ := List.getLast?_eq_some_iff.1 hu
    obtain ⟨r, hr⟩ := hline
    refine ⟨'\n' :: u, r, ?_⟩
    rw [List.append_assoc, List.cons_append, List.cons_append, hr, List.append_assoc]
    rfl

end FirstLines

/-! ### What a match takes -/

section Taken

/-- A word that a match does not have: with an end of a line, with a letter that the key does not
have, and with none of the symbols. -/
structure Foreign (w : Text) : Prop where
  newline : '\n' ∈ w
  letter : ∃ x ∈ w, isSpace x = false ∧ x ∉ "disabled_plugins".toList
  symbols : '=' ∉ w ∧ '[' ∉ w ∧ ']' ∉ w ∧ '#' ∉ w

/-- Past the end of its line a match goes on with spaces, symbols and a comment. -/
theorem Foreign.not_infix {p : Text} (hp : Foreign p) {d : Text × Text × Text} {w c : Text}
    (hd : ArrayParts d) (hw : ∀ a ∈ w, isSpace a = true)
    (hc : c = [] ∨ ∃ t, c = '#' :: t ∧ '\n' ∉ t) : ¬p <:+: arrayText d ++ (w ++ c) := by
  obtain ⟨hnewline, ⟨x, hx, hspace, hkey⟩, hequals, hopen, hclose, hhash⟩ := hp
  have hspaces {g : Text} (hg : ∀ a ∈ g, isSpace a = true) : ¬p <:+: g := fun h => by
    rw [hg x (h.subset hx)] at hspace
    cases hspace
  have hline {g : Text} (hg : '\n' ∉ g) : ¬p <:+: g := fun h => hg (h.subset hnewline)
  obtain ⟨hgap₁, hgap₂, inner, harray, hinner⟩ := hd
  have hshape : arrayText d ++ (w ++ c) = ("disabled_plugins".toList ++ d.1) ++
      '=' :: (d.2.1 ++ '[' :: (inner ++ ']' :: (w ++ c))) := by
    rw [arrayText_def, harray]
    simp
  rw [hshape]
  intro h
  rcases Splice.infix_split hequals h with h | h
  · rcases List.mem_append.1 (h.subset hx) with hmem | hmem
    · exact hkey hmem
    · rw [hgap₁ x hmem] at hspace
      cases hspace
  rcases Splice.infix_split hopen h with h | h
  · exact hspaces hgap₂ h
  rcases Splice.infix_split hclose h with h | h
  · exact hline hinner h
  rcases hc with rfl | ⟨t, rfl, ht⟩
  · rw [List.append_nil] at h
    exact hspaces hw h
  · rcases Splice.infix_split hhash h with h | h
    · exact hspaces hw h
    · exact hline ht h

/-- The start of a line that sets the runtime. -/
def runtimeStart : Text := ['\n', ' ', ' ', 'r']

theorem foreign_runtimeStart : Foreign runtimeStart :=
  ⟨by decide, ⟨'r', by decide, by decide, by simp⟩, by decide⟩

/-- The lines of the rest of a match, where it crosses the end of its line. -/
theorem runtimeLine_notMem {u m z : Text} (h : ¬runtimeStart <:+: u ++ '\n' :: m)
    (hz : z = [] ∨ z = ['\n']) : runtimeLine ∉ lines '\n' (m ++ z) := by
  intro hmem
  have hstart : runtimeStart <:+: '\n' :: runtimeLine := by
    have hpre : runtimeStart <+: '\n' :: runtimeLine := by
      rw [← List.isPrefixOf_iff_prefix]
      decide +kernel
    exact hpre.isInfix
  have hinfix : runtimeStart <:+: u ++ '\n' :: (m ++ z) :=
    (hstart.trans (infix_of_mem_lines hmem)).trans (List.suffix_append u _).isInfix
  rcases hz with rfl | rfl
  · rw [List.append_nil] at hinfix
    exact h hinfix
  · have hassoc : u ++ '\n' :: (m ++ ['\n']) = (u ++ '\n' :: m) ++ ['\n'] := by simp
    rw [hassoc] at hinfix
    rcases List.infix_concat_iff.1 hinfix with hsuffix | hinfix
    · obtain ⟨p, hp⟩ := hsuffix
      have hlast := congrArg List.getLast? hp
      have hr : runtimeStart.getLast? = some 'r' := rfl
      rw [List.getLast?_concat, List.getLast?_append, hr, Option.some_or] at hlast
      exact absurd (Option.some.inj hlast) (by decide)
    · exact h hinfix

end Taken

/-! ### Locality -/

section Locality

variable {literals : LiteralEval} {t t' : Text}

/-- The match stays on its line; at the end of the text it may take the end of the line along. -/
def Stays (m rest : Text) : Prop :=
  '\n' ∉ m ∨ rest = [] ∧ ∃ u, m = u ++ ['\n'] ∧ '\n' ∉ u

/-- The array is alone on its line, and what comes after is neither blank nor a comment. -/
def Tidy (t : Text) : Prop :=
  ∃ before m d rest, t = before ++ (m ++ rest) ∧
    search '\n' disabledArray t = some (before, d, rest) ∧ Stays m rest ∧
    (rest = [] ∨ Settled rest)

/-- The edit replaces the line of the array, keeps the other ones and appends at most a section. -/
def Local (literals : LiteralEval) (t t' : Text) : Prop :=
  ∃ before d rest l extra, search '\n' disabledArray t = some (before, d, rest) ∧
    (literals.eval d.2.2).bind strings = some l ∧
    lines '\n' t' =
      (lines '\n' t).set (lines '\n' before).length (replacement (enabled l)) ++ extra ∧
    (extra = [] ∨ ∃ id, IsPlugin id ∧ IsAddition id extra)

theorem length_isAddition {id : Text} {extra : List Text} (h : IsAddition id extra) :
    2 ≤ extra.length := by
  rcases h with rfl | rfl <;> simp

theorem count_isAddition {id : Text} {extra : List Text} (hplugin : IsPlugin id)
    (h : IsAddition id extra) : extra.count runtimeLine = 1 := by
  have hheader : headerLine id ≠ runtimeLine := by
    intro heq
    have hbracket := (addedLines hplugin).bracket
    rw [heq] at hbracket
    exact absurd hbracket (by decide +kernel)
  have hempty : ([] : Text) ≠ runtimeLine := by decide +kernel
  rcases h with rfl | rfl <;> simp [hheader, hempty]

/-- The lines of a text that takes its last symbol to the front. -/
theorem eq_of_cons_eq_snoc {α : Type} {a b : α} : ∀ {l : List α}, a :: l = l ++ [b] → ∀ x ∈ l, x = a
  | [], _, x, hx => absurd hx List.not_mem_nil
  | c :: l, h, x, hx => by
    obtain ⟨rfl, htail⟩ := List.cons.inj h
    rcases List.mem_cons.1 hx with rfl | hx
    · rfl
    · exact eq_of_cons_eq_snoc htail x hx

/-- The lines of a text that starts with a line do not come from a blank one in front of them. -/
theorem cons_lines_ne {a s : Text} (hs : s ≠ []) (hhead : s.head? ≠ some '\n') :
    a :: lines '\n' s ≠ lines '\n' s ++ [[]] := by
  intro h
  have hall := eq_of_cons_eq_snoc h
  have ha : a = [] := by
    have hmem : [] ∈ a :: lines '\n' s := by rw [h]; simp
    rcases List.mem_cons.1 hmem with hnil | hmem
    · exact hnil.symm
    · exact (hall _ hmem).symm
  obtain ⟨L, hL⟩ := exists_lines_cons hs
  have hfirst : s.takeWhile (· ≠ '\n') = [] := ha ▸ hall _ (by rw [hL]; exact List.mem_cons_self)
  obtain ⟨c, s, rfl⟩ := List.exists_cons_of_ne_nil hs
  have hc : c ≠ '\n' := fun hc => hhead (by rw [hc]; rfl)
  rw [List.takeWhile_cons_of_pos (by simpa using hc)] at hfirst
  cases hfirst

/-- A successful edit: what its match consists of, and what it leaves. -/
structure Run (literals : LiteralEval) (t t' : Text) where
  before : Text
  array : Text × Text × Text
  spaces : Text
  comment : Text
  rest : Text
  plugins : List String
  added : Text
  found : search '\n' disabledArray t = some (before, array, rest)
  read : (literals.eval array.2.2).bind strings = some plugins
  text : t = before ++ (arrayText array ++ (spaces ++ comment) ++ rest)
  start : Starts '\n' true before
  parts : ArrayParts array
  isSpaces : ∀ c ∈ spaces, isSpace c = true
  isComment : comment = [] ∧ (rest = [] ∨ Settled rest) ∨ ∃ u, comment = '#' :: u ∧ '\n' ∉ u
  lineEnd : rest = [] ∨ rest.head? = some '\n'
  result : t' = before ++ (replacement (enabled plugins) ++ rest) ++ added
  registered : register (before ++ (replacement (enabled plugins) ++ rest)) = .ok t'
  isAdded : added = [] ∨
    ∃ id, IsPlugin id ∧ added = addition id (before ++ (replacement (enabled plugins) ++ rest))

theorem exists_run (h : configureCri literals t = .ok t') : Nonempty (Run literals t t') := by
  obtain ⟨before, d, rest, v, l, hsearch, heval, hstrings, hregister⟩ := configureCri_eq_ok_iff.1 h
  obtain ⟨x, ht', hx⟩ := exists_register hregister
  obtain ⟨s, rfl, hstart, hfirst, -⟩ := search_eq_some_iff.1 hsearch
  obtain ⟨y, hy, hend⟩ := List.exists_of_findSome?_eq_some
    ((first_then arrayHead trailing s).symm.trans hfirst)
  obtain ⟨⟨u, r⟩, htrailing, heq⟩ := Option.map_eq_some_iff.1 hend
  obtain ⟨rfl, rfl⟩ := Prod.mk.inj heq
  obtain ⟨w, c, hsplit, hw, hc, hr⟩ := exists_of_trailing htrailing
  obtain ⟨harray, hparts⟩ := mem_arrayHead hy
  refine ⟨⟨before, y.1, w, c, r, l, x, hsearch, by rw [heval, Option.bind_some, hstrings], ?_,
    hstart, hparts, hw, hc, hr, ht', hregister, hx⟩⟩
  rw [harray, hsplit]
  simp only [List.append_assoc]

namespace Run

variable (run : Run literals t t')

/-- What the match takes. -/
def taken : Text := arrayText run.array ++ (run.spaces ++ run.comment)

theorem taken_ne_nil : run.taken ≠ [] := by
  have hhead := head?_arrayText run.array (run.spaces ++ run.comment)
  intro hnil
  rw [taken] at hnil
  rw [hnil] at hhead
  cases hhead

theorem lines_old :
    lines '\n' t = lines '\n' run.before ++ lines '\n' (run.taken ++ run.rest) :=
  (congrArg (lines '\n') run.text).trans (lines_start run.start _)

theorem lines_replaced {rest : Text} (hrest : rest = [] ∨ rest.head? = some '\n') :
    lines '\n' (run.before ++ (replacement (enabled run.plugins) ++ rest)) =
      lines '\n' run.before ++ replacement (enabled run.plugins) :: lines '\n' rest.tail := by
  have hne : replacement (enabled run.plugins) ≠ [] := by
    obtain ⟨u, hu⟩ := exists_concat_replacement run.plugins
    rw [hu]
    simp
  rw [lines_start run.start, lines_cons (newline_notMem_replacement _) hne hrest]

/-- The lines of the result. At the end of the text no blank line is added. -/
theorem exists_lines_result : ∃ extra, lines '\n' t' = lines '\n' run.before ++
      replacement (enabled run.plugins) :: (lines '\n' run.rest.tail ++ extra) ∧
    (extra = [] ∨ ∃ id, IsPlugin id ∧ IsAddition id extra) ∧
    (run.rest = [] → extra = [] ∨ extra.length = 2) := by
  have hresult := congrArg (lines '\n') run.result
  rcases run.isAdded with hadded | ⟨id, hplugin, hadded⟩
  · refine ⟨[], ?_, .inl rfl, fun _ => .inl rfl⟩
    rw [hresult, hadded, List.append_nil, run.lines_replaced run.lineEnd, List.append_nil]
  · by_cases hrest : run.rest = []
    · refine ⟨[headerLine id, runtimeLine], ?_, .inr ⟨id, hplugin, .inl rfl⟩, fun _ => .inr rfl⟩
      rw [hresult, hadded, hrest, addition_eq run.before run.plugins (.inl rfl), List.append_nil,
        List.append_assoc, run.lines_replaced (.inr rfl), List.tail_cons,
        lines_kataSection hplugin, List.tail_nil, lines_nil, List.nil_append]
    · have hne : run.before ++ (replacement (enabled run.plugins) ++ run.rest) ≠ [] := by
        simp [hrest]
      obtain ⟨extra, hlines, hextra⟩ := exists_lines_addition hplugin hne
      refine ⟨extra, ?_, .inr ⟨id, hplugin, hextra⟩, fun h => absurd h hrest⟩
      rw [hresult, hadded, hlines, run.lines_replaced run.lineEnd]
      simp

/-- The lines of the text, where the match goes up to the end of a line. -/
theorem lines_old_of_stays (h : Stays run.taken run.rest) : ∃ u, lines '\n' t =
    lines '\n' run.before ++ u :: lines '\n' run.rest.tail := by
  rw [run.lines_old]
  rcases h with h | ⟨hrest, u, hu, hnl⟩
  · exact ⟨run.taken, by rw [lines_cons h run.taken_ne_nil run.lineEnd]⟩
  · refine ⟨u, ?_⟩
    rw [hrest, List.append_nil, hu, lines_line hnl, List.tail_nil]

theorem set_lines_old {u : Text} {L : List Text}
    (h : lines '\n' t = lines '\n' run.before ++ u :: L) (E : Text) :
    (lines '\n' t).set (lines '\n' run.before).length E = lines '\n' run.before ++ E :: L := by
  rw [h, List.set_append_right _ _ (Nat.le_refl _), Nat.sub_self, List.set_cons_zero]

theorem local_of_stays (h : Stays run.taken run.rest) : Local literals t t' := by
  obtain ⟨u, hu⟩ := run.lines_old_of_stays h
  obtain ⟨extra, hlines, hextra, -⟩ := run.exists_lines_result
  refine ⟨run.before, run.array, run.rest, run.plugins, extra, run.found, run.read, ?_, hextra⟩
  rw [hlines, run.set_lines_old hu]
  simp

/-- The lines where the match goes past the end of its line. -/
theorem lines_old_of_newline {u m : Text} (htaken : run.taken = u ++ '\n' :: m) (hu : '\n' ∉ u) :
    lines '\n' t = lines '\n' run.before ++ u :: lines '\n' (m ++ run.rest) := by
  rw [run.lines_old, htaken, List.append_assoc, List.cons_append, lines_line hu]

/-- What locality says about the lines after the array. -/
theorem exists_extra_of_local (h : Local literals t t') {u m : Text}
    (htaken : run.taken = u ++ '\n' :: m) (hu : '\n' ∉ u) {extra : List Text}
    (hlines : lines '\n' t' = lines '\n' run.before ++
      replacement (enabled run.plugins) :: (lines '\n' run.rest.tail ++ extra)) :
    ∃ extra', lines '\n' (m ++ run.rest) ++ extra' = lines '\n' run.rest.tail ++ extra ∧
      (extra' = [] ∨ ∃ id, IsPlugin id ∧ IsAddition id extra') := by
  obtain ⟨before, d, rest, l, extra', hfound, hread, hlocal, hextra'⟩ := h
  obtain ⟨hbefore, hd, -⟩ : before = run.before ∧ d = run.array ∧ rest = run.rest := by
    have hsame := hfound.symm.trans run.found
    simpa using hsame
  have hl : l = run.plugins := by
    rw [hd, run.read] at hread
    exact (Option.some.inj hread).symm
  refine ⟨extra', ?_, hextra'⟩
  rw [hbefore, hl, run.set_lines_old (run.lines_old_of_newline htaken hu), hlines] at hlocal
  simpa using hlocal.symm

theorem not_infix_taken {p : Text} (hp : Foreign p) : ¬p <:+: run.taken :=
  hp.not_infix run.parts run.isSpaces (run.isComment.imp_left And.left)

theorem runtimeLine_notMem_taken {u m z : Text} (htaken : run.taken = u ++ '\n' :: m)
    (hz : z = [] ∨ z = ['\n']) : runtimeLine ∉ lines '\n' (m ++ z) := by
  refine runtimeLine_notMem (u := u) ?_ hz
  rw [← htaken]
  exact run.not_infix_taken foreign_runtimeStart

/-- The other direction: a match that goes past the end of its line loses a line. -/
theorem stays_of_local (h : Local literals t t') (hrest : run.rest = [] ∨ Settled run.rest) :
    Stays run.taken run.rest := by
  by_cases hnl : '\n' ∈ run.taken
  swap
  · exact .inl hnl
  obtain ⟨u, m, htaken, hu⟩ := List.eq_append_cons_of_mem hnl
  obtain ⟨extra, hlines, hextra, hclosed⟩ := run.exists_lines_result
  obtain ⟨extra', heq, hextra'⟩ := run.exists_extra_of_local h htaken hu hlines
  have hcount := congrArg (List.count runtimeLine) heq
  have hlength := congrArg List.length heq
  rw [List.count_append, List.count_append] at hcount
  rw [List.length_append, List.length_append] at hlength
  rcases hrest with hrest | hsettled
  · have hnone := List.count_eq_zero.2 (run.runtimeLine_notMem_taken htaken (.inl rfl))
    rw [List.append_nil] at hnone
    rw [hrest, List.append_nil, List.tail_nil, lines_nil, hnone, List.count_nil] at hcount
    rw [hrest, List.append_nil, List.tail_nil, lines_nil, List.length_nil] at hlength
    have hm : lines '\n' m = [] := by
      rw [← List.length_eq_zero_iff]
      rcases hclosed hrest with rfl | htwo
      · rw [List.length_nil] at hlength
        omega
      · rcases hextra with rfl | ⟨id, hplugin, hadd⟩
        · cases htwo
        · rw [count_isAddition hplugin hadd] at hcount
          rcases hextra' with rfl | ⟨id', -, hadd'⟩
          · rw [List.count_nil] at hcount
            omega
          · have := length_isAddition hadd'
            omega
    rw [lines_eq_nil_iff] at hm
    exact .inr ⟨hrest, u, by rw [htaken, hm], hu⟩
  · exfalso
    obtain ⟨v, c, r, hshape, hv, hvnl, hc, -⟩ := hsettled
    set s := v ++ c :: r with hs
    have hclose : (m ++ ['\n']).getLast? = some '\n' := by simp
    have hsplit : lines '\n' (m ++ run.rest) = lines '\n' (m ++ ['\n']) ++ lines '\n' s := by
      rw [← lines_append hclose, hshape, List.append_assoc]
      rfl
    have hpos : 0 < (lines '\n' (m ++ ['\n'])).length := by
      rw [List.length_pos_iff, ne_eq, lines_eq_nil_iff]
      simp
    have hnone := List.count_eq_zero.2 (run.runtimeLine_notMem_taken htaken (.inr rfl))
    rw [hsplit, hshape, List.tail_cons] at heq
    rw [hsplit, hshape, List.tail_cons, List.count_append, hnone] at hcount
    rw [hsplit, hshape, List.tail_cons, List.length_append] at hlength
    rcases hextra with rfl | ⟨id, hplugin, hadd⟩
    · rw [List.length_nil] at hlength
      omega
    · rw [count_isAddition hplugin hadd] at hcount
      rcases hextra' with rfl | ⟨id', -, hadd'⟩
      · rw [List.count_nil] at hcount
        omega
      · -- One line is lost, and the blank line before the section makes up for it.
        have htwo := length_isAddition hadd'
        rcases hadd with rfl | rfl
        · simp only [List.length_cons, List.length_nil] at hlength
          omega
        · simp only [List.length_cons, List.length_nil] at hlength
          obtain ⟨a, ha⟩ := List.length_eq_one_iff.1
            (show (lines '\n' (m ++ ['\n'])).length = 1 by omega)
          have hassoc : lines '\n' s ++ [[], headerLine id, runtimeLine] =
              (lines '\n' s ++ [[]]) ++ [headerLine id, runtimeLine] := by simp
          rw [ha, hassoc] at heq
          have hshift : a :: lines '\n' s = lines '\n' s ++ [[]] :=
            (List.append_inj' heq (by simp only [List.length_cons, List.length_nil]; omega)).1
          refine cons_lines_ne (by simp [hs]) ?_ hshift
          rw [hs]
          cases v with
          | nil =>
            rintro ⟨⟩
            exact absurd hc (by decide)
          | cons e v =>
            rintro ⟨⟩
            simp at hvnl

theorem tidy_iff :
    Tidy t ↔ Stays run.taken run.rest ∧ (run.rest = [] ∨ Settled run.rest) := by
  constructor
  · rintro ⟨before, m, d, rest, ht, hfound, hstays, hrest⟩
    obtain ⟨rfl, -, rfl⟩ : before = run.before ∧ d = run.array ∧ rest = run.rest := by
      have hsame := hfound.symm.trans run.found
      simpa using hsame
    have hm : m = run.taken :=
      List.append_cancel_right (List.append_cancel_left (ht.symm.trans run.text))
    rw [hm] at hstays
    exact ⟨hstays, hrest⟩
  · rintro ⟨hstays, hrest⟩
    exact ⟨run.before, run.taken, run.array, run.rest, run.text, run.found, hstays, hrest⟩

end Run

/-- A second run gives the same text, and the first one replaces a line and appends a section,
exactly if the array is alone on its line and neither a blank line nor a comment follows. -/
theorem configureCri_settles_iff (h : configureCri literals t = .ok t') :
    (configureCri literals t' = .ok t' ∧ Local literals t t') ↔ Tidy t := by
  obtain ⟨run⟩ := exists_run h
  rw [run.tidy_iff, configureCri_again_iff run.found h]
  constructor
  · rintro ⟨hrest, hlocal⟩
    exact ⟨run.stays_of_local hlocal hrest, hrest⟩
  · rintro ⟨hstays, hrest⟩
    exact ⟨hrest, run.local_of_stays hstays⟩

end Locality

/-- What the script calls: the literals of lists of strings. -/
def literals : LiteralEval := ⟨Literal.literalEval, Literal.literalEval_repr⟩

theorem configureCri_settles_iff_btrfs :
    let t := "disabled_plugins = ['cri', 'btrfs']\nversion = 2\n".toList
    let t' := "disabled_plugins = ['btrfs']\nversion = 2\n\n".toList ++
      kataSection "io.containerd.grpc.v1.cri".toList
    (configureCri literals t' = .ok t' ∧ Local literals t t') ↔ Tidy t :=
  configureCri_settles_iff (by decide +kernel)

end Yggdrasil.Containerd
