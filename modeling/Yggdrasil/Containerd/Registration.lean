import Yggdrasil.Containerd.Matches

/-! The section of the handler: what is appended, and that a configuration with its section stays as
it is. -/

namespace Yggdrasil.Containerd

open Backtrack Python

/-! ### What is appended -/

section Addition

variable {id : Text}

/-- The plugins that the versions stand for. -/
def IsPlugin (id : Text) : Prop :=
  id = "io.containerd.cri.v1.runtime".toList ∨ id = "io.containerd.grpc.v1.cri".toList

theorem isPlugin_pluginId (version : ℕ) : IsPlugin (pluginId version) := by
  unfold pluginId
  split_ifs
  · exact .inl rfl
  · exact .inr rfl

/-- The facts about the appended lines. -/
structure AddedLines (id : Text) : Prop where
  single : '\n' ∉ id
  header : '\n' ∉ headerLine id
  bracket : (headerLine id).head? = some '['
  isHeader : isHeader id (headerLine id) = true
  notRuntime : Containerd.isHeader id runtimeLine = false
  found : first (handlerHeader id) (kataSection id) = some ((), '\n' :: (runtimeLine ++ ['\n']))

theorem addedLines (h : IsPlugin id) : AddedLines id := by
  rcases h with rfl | rfl
  · exact ⟨by decide +kernel, by decide +kernel, by decide +kernel, by decide +kernel,
      by decide +kernel, by decide +kernel⟩
  · exact ⟨by decide +kernel, by decide +kernel, by decide +kernel, by decide +kernel,
      by decide +kernel, by decide +kernel⟩

theorem runtimeOf_added :
    runtimeOf (sectionBody ('\n' :: (runtimeLine ++ ['\n']))) = some kataRuntime := by
  decide +kernel

theorem newline_notMem_runtimeLine : '\n' ∉ runtimeLine := by decide +kernel

/-- What `register` appends. -/
def addition (id configuration : Text) : Text := separator configuration ++ kataSection id

theorem addition_head (h : IsPlugin id) (t : Text) :
    (t.getLast? = some '\n' ∧ (addition id t).head? = some '[') ∨
      (addition id t).head? = some '\n' := by
  unfold addition separator
  split_ifs with hend
  · obtain ⟨u, rfl⟩ := List.isSuffixOf_iff_suffix.1 hend
    refine .inl ⟨by simp, ?_⟩
    obtain ⟨r, hr⟩ := List.head?_eq_some_iff.1 (addedLines h).bracket
    rw [kataSection, hr]
    rfl
  · exact .inr rfl

theorem lines_kataSection (h : IsPlugin id) :
    lines '\n' (kataSection id) = [headerLine id, runtimeLine] := by
  have hempty : lines '\n' ([] : Text) = [] := rfl
  rw [kataSection, lines_line (addedLines h).header, lines_line newline_notMem_runtimeLine, hempty]

/-- The appended lines, with a blank one before them or without. -/
def IsAddition (id : Text) (extra : List Text) : Prop :=
  extra = [headerLine id, runtimeLine] ∨ extra = [[], headerLine id, runtimeLine]

theorem exists_lines_addition (h : IsPlugin id) {t : Text} (ht : t ≠ []) :
    ∃ extra, lines '\n' (t ++ addition id t) = lines '\n' t ++ extra ∧ IsAddition id extra := by
  unfold addition separator
  by_cases hlast : t.getLast? = some '\n'
  · rw [lines_append hlast]
    split_ifs
    · exact ⟨_, by rw [List.nil_append, lines_kataSection h], .inl rfl⟩
    · refine ⟨_, ?_, .inr rfl⟩
      have hline : lines '\n' ('\n' :: kataSection id) = [] :: lines '\n' (kataSection id) :=
        lines_line List.not_mem_nil _
      rw [List.singleton_append, hline, lines_kataSection h]
  · rw [if_neg]
    · have hclosed : (t ++ ['\n']).getLast? = some '\n' := by simp
      rw [← List.append_assoc, lines_append hclosed, lines_snoc ht hlast, lines_kataSection h]
      exact ⟨_, rfl, .inl rfl⟩
    · intro hend
      obtain ⟨u, rfl⟩ := List.isSuffixOf_iff_suffix.1 hend
      exact hlast (by simp)

end Addition

/-! ### A registration -/

section Registration

variable {t t' id : Text}

/-- A registered configuration: its section is there already, or it is appended. -/
theorem register_cases (h : register t = .ok t') : ∃ id, pluginOf t = some id ∧ IsPlugin id ∧
    ((t' = t ++ addition id t ∧ findAll '\n' (handlerHeader id) t = []) ∨
      (t' = t ∧ ∃ u rest, findAll '\n' (handlerHeader id) t = [(u, rest)] ∧
        runtimeOf (sectionBody rest) = some kataRuntime)) := by
  unfold register at h
  cases hid : pluginOf t with
  | none =>
    rw [hid] at h
    cases h
  | some id =>
    have hplugin : IsPlugin id := by
      obtain ⟨m, -, rfl⟩ := Option.map_eq_some_iff.1 hid
      exact isPlugin_pluginId _
    refine ⟨id, rfl, hplugin, ?_⟩
    rw [hid] at h
    dsimp only at h
    cases hall : findAll '\n' (handlerHeader id) t with
    | nil =>
      rw [hall] at h
      refine .inl ⟨?_, rfl⟩
      rw [← Except.ok.inj h, addition, List.append_assoc]
    | cons y ys =>
      cases ys with
      | nil =>
        rw [hall] at h
        dsimp only at h
        split_ifs at h with hruntime
        exact .inr ⟨(Except.ok.inj h).symm, y.1, y.2, rfl, hruntime⟩
      | cons z zs =>
        rw [hall] at h
        cases h

theorem pluginOf_ne_nil (h : pluginOf t = some id) : t ≠ [] := by
  rintro rfl
  cases h

theorem isSome_blankEnd_newline {r : Text} (h : (first blankEnd r).isSome = true) (z : Text) :
    (first blankEnd (r ++ '\n' :: z)).isSome = true := by
  have hspace : isSpace '\n' = true := by decide
  induction r with
  | nil => simp [first_blankEnd_cons, hspace]
  | cons c r ih =>
    rw [List.cons_append, first_blankEnd_cons]
    rw [first_blankEnd_cons] at h
    split_ifs at h ⊢ with hc hnl
    · simp
    · rw [Option.or_none] at h ⊢
      exact ih h
    · exact h

theorem isDigit_head_of_blankEnd {r : Text} {u : Unit × Text} (h : first blankEnd r = some u) :
    ∀ c ∈ r.head?, isDigit c = false := by
  cases r with
  | nil => simp
  | cons c r =>
    rintro c ⟨⟩
    rw [first_blankEnd_cons] at h
    split_ifs at h with hspace
    all_goals
      by_contra hdigit
      rw [not_isSpace_of_isDigit ((Bool.not_eq_false _).mp hdigit)] at hspace
      cases hspace

theorem head?_versionText (gap₁ gap₂ v r : Text) :
    (versionText gap₁ gap₂ v ++ r).head? = some 'v' := by
  have hword : "version".toList = 'v' :: "ersion".toList := by simp
  rw [versionText_def, hword]
  rfl

/-- The appended section does not change the version. -/
theorem pluginOf_addition (h : pluginOf t = some id) {x : Text}
    (hx : (t.getLast? = some '\n' ∧ x.head? = some '[') ∨ x.head? = some '\n') :
    pluginOf (t ++ x) = some id := by
  obtain ⟨⟨a, v, r⟩, hsearch, hid⟩ := Option.map_eq_some_iff.1 h
  obtain ⟨s, rfl, -, hfirst, -⟩ := search_eq_some_iff.1 hsearch
  obtain ⟨y, hy, hend⟩ := List.exists_of_findSome?_eq_some
    ((first_then versionHead blankEnd s).symm.trans hfirst)
  obtain ⟨⟨u, r'⟩, hblank, heq⟩ := Option.map_eq_some_iff.1 hend
  obtain ⟨rfl, rfl⟩ := Prod.mk.inj heq
  obtain ⟨gap₁, gap₂, rfl, hgap₁, hgap₂, hne, hdigits⟩ := mem_versionHead hy
  have hblank' : (first blankEnd (y.2 ++ x)).isSome = true := by
    have hsome : (first blankEnd y.2).isSome = true := by rw [hblank]; rfl
    rcases hx with ⟨hlast, -⟩ | hx
    · have hparts : a ++ (versionText gap₁ gap₂ y.1 ++ y.2) =
          (a ++ ("version".toList ++ (gap₁ ++ '=' :: gap₂))) ++ (y.1 ++ y.2) := by
        simp [versionText_def]
      rw [hparts] at hlast
      rwa [isSome_blankEnd_append (getLast?_digits hne hdigits hlast)]
    · obtain ⟨z, rfl⟩ := List.head?_eq_some_iff.1 hx
      exact isSome_blankEnd_newline hsome z
  obtain ⟨u', hu'⟩ := Option.isSome_iff_exists.1 hblank'
  have hdigit : ∀ c ∈ (y.2 ++ x).head?, isDigit c = false := isDigit_head_of_blankEnd hu'
  have hthrough (w r : Text) (hw : w.getLast? = some '\n') :
      capture versionNumber (w ++ (versionText gap₁ gap₂ y.1 ++ r)) = capture versionNumber w := by
    refine capture_versionNumber hw fun c hc => ?_
    rw [head?_versionText] at hc
    obtain rfl := Option.some.inj hc
    exact ⟨by decide, by decide +kernel, by decide⟩
  have hsearch' := search_transfer hsearch
    (fun w hw => (hthrough w (y.2 ++ x) hw).trans (hthrough w y.2 hw).symm)
    (first_versionText hgap₁ hgap₂ hne hdigits hdigit hu')
  rw [pluginOf, List.append_assoc, List.append_assoc, hsearch']
  exact congrArg some hid

theorem eq_of_countP {α : Type} {p : α → Bool} {l : List α} (h : l.countP p = 1) {a b : α}
    (ha : a ∈ l) (hb : b ∈ l) (hpa : p a = true) (hpb : p b = true) : a = b := by
  rw [List.countP_eq_length_filter, List.length_eq_one_iff] at h
  obtain ⟨c, hc⟩ := h
  have hmem {x : α} (hx : x ∈ l) (hpx : p x = true) : x = c := by
    have := List.mem_filter.2 ⟨hx, hpx⟩
    rw [hc] at this
    exact List.mem_singleton.1 this
  rw [hmem ha hpa, hmem hb hpb]

/-- The headers of the configuration with the section. -/
theorem countP_addition (h : IsPlugin id) (ht : t ≠ [])
    (hnone : (lines '\n' t).countP (isHeader id) = 0) :
    (lines '\n' (t ++ addition id t)).countP (isHeader id) = 1 := by
  obtain ⟨extra, hlines, hextra⟩ := exists_lines_addition h ht
  have hempty : isHeader id [] = false := by
    rw [isHeader, handlerHeader_nil (addedLines h).single]
    rfl
  have hheader := (addedLines h).isHeader
  have hruntime := (addedLines h).notRuntime
  rw [hlines, List.countP_append, hnone]
  rcases hextra with rfl | rfl <;> simp [hheader, hruntime, hempty]

/-- The section that is found afterwards is the appended one. -/
theorem findAll_addition (h : IsPlugin id) (ht : t ≠ [])
    (hnone : (lines '\n' t).countP (isHeader id) = 0) :
    findAll '\n' (handlerHeader id) (t ++ addition id t) =
      [((), '\n' :: (runtimeLine ++ ['\n']))] := by
  have hcount := countP_addition h ht hnone
  have hlength := length_findAll (addedLines h).single (t ++ addition id t)
  rw [hcount, List.length_eq_one_iff] at hlength
  obtain ⟨y, hy⟩ := hlength
  have hmem : y ∈ findAll '\n' (handlerHeader id) (t ++ addition id t) := by
    rw [hy]
    exact List.mem_singleton.2 rfl
  obtain ⟨s, hs, hfirst⟩ := mem_findAllFrom hmem
  have hstart : kataSection id ∈ starts '\n' true (t ++ addition id t) := by
    refine mem_starts.2 ⟨t ++ separator t, by rw [addition, List.append_assoc], .inr ?_⟩
    unfold separator
    split_ifs with hend
    · obtain ⟨u, rfl⟩ := List.isSuffixOf_iff_suffix.1 hend
      simp
    · simp
  have hfound := (addedLines h).found
  have hsame : s = kataSection id :=
    eq_of_countP ((countP_starts (addedLines h).single _).trans hcount) hs hstart
      (by rw [hfirst]; rfl) (by rw [hfound]; rfl)
  rw [hsame, hfound] at hfirst
  rw [hy, ← Option.some.inj hfirst]

theorem register_again (h : register t = .ok t') : register t' = .ok t' := by
  obtain ⟨id, hid, hplugin, ⟨rfl, hnone⟩ | ⟨rfl, -⟩⟩ := register_cases h
  · have hcount := length_findAll (addedLines hplugin).single t
    rw [hnone, List.length_nil] at hcount
    have hid' := pluginOf_addition hid (addition_head hplugin t)
    have hfound := findAll_addition hplugin (pluginOf_ne_nil hid) hcount.symm
    rw [register, hid']
    dsimp only
    rw [hfound]
    exact if_pos runtimeOf_added
  · exact h

end Registration

end Yggdrasil.Containerd
