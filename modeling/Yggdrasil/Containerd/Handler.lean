import Yggdrasil.Containerd.Locality

/-! What an edited configuration says: which plugins stay disabled, and that Kata has one section as
a runtime handler. A header with a comment after it is one for containerd, but not for the edit. -/

namespace Yggdrasil.Containerd

open Backtrack Python

/-! ### The version -/

section Version

variable {literals : LiteralEval} {t t' : Text}

theorem findSome?_congr {α β : Type} {f g : α → Option β} {l : List α} (h : ∀ a ∈ l, f a = g a) :
    l.findSome? f = l.findSome? g := by
  induction l with
  | nil => rfl
  | cons a l ih =>
    rw [List.findSome?_cons, List.findSome?_cons, h a List.mem_cons_self,
      ih fun b hb => h b (List.mem_cons_of_mem a hb)]

/-- A text from a line start on ends as the whole text does. -/
theorem getLast?_of_mem_starts {u s : Text} (hu : u.getLast? = some '\n')
    (hs : s ∈ (starts '\n' true u).filter (· ≠ [])) : s.getLast? = some '\n' := by
  obtain ⟨hstart, hne⟩ := List.mem_filter.1 hs
  obtain ⟨v, rfl, -⟩ := mem_starts.1 hstart
  rwa [List.getLast?_append_of_ne_nil v (by simpa using hne)] at hu

/-- What a search captures is what the first line start with a match gives. -/
theorem captured_search {β : Type} (p : Pattern Char β) (l : Text) :
    (search '\n' p l).map (fun m => m.2.1) = (starts '\n' true l).findSome? (capture p) := by
  have hfrom (b : Bool) : (searchFrom '\n' p b l).map (fun m => m.2.1) =
      (starts '\n' b l).findSome? (capture p) := by
    induction l generalizing b with
    | nil =>
      cases b with
      | false => rfl
      | true =>
        rw [searchFrom, starts, if_pos rfl, if_pos rfl, List.findSome?_singleton, capture,
          Option.map_map]
        rfl
    | cons c l ih =>
      rw [searchFrom, starts, List.findSome?_append, ← ih]
      cases b with
      | false =>
        rw [if_neg Bool.false_ne_true, if_neg Bool.false_ne_true, List.findSome?_nil,
          Option.none_or]
        dsimp only
        rw [Option.map_map]
        rfl
      | true =>
        rw [if_pos rfl, if_pos rfl, List.findSome?_singleton, capture]
        cases first p (c :: l) with
        | none =>
          rw [Option.map_none, Option.none_or]
          dsimp only
          rw [Option.map_map]
          rfl
        | some y => rfl
  exact hfrom true

theorem capture_versionNumber_eq_none {l : Text} (h : l.head? ≠ some 'v') :
    capture versionNumber l = none := by
  rw [capture_eq_none_iff]
  by_contra hne
  obtain ⟨y, hy⟩ := Option.ne_none_iff_exists'.1 hne
  obtain ⟨z, hz, -⟩ := List.exists_of_findSome?_eq_some
    ((first_then versionHead blankEnd l).symm.trans hy)
  obtain ⟨gap₁, gap₂, hsplit, -⟩ := mem_versionHead hz
  rw [hsplit] at h
  exact h (head?_versionText _ _ _ _)

/-- Before a line with the key the version is found in the same lines. -/
theorem findSome_version {u x : Text} (hu : Starts '\n' true u) (hx : x.head? = some 'd') :
    (starts '\n' true (u ++ x)).findSome? (capture versionNumber) =
      (((starts '\n' true u).filter (· ≠ [])).findSome? (capture versionNumber)).or
        ((starts '\n' true x).findSome? (capture versionNumber)) := by
  rcases hu with ⟨rfl, -⟩ | hu
  · rfl
  · rw [starts_append hu, List.findSome?_append, List.findSome?_map]
    refine congrArg (Option.or · _) (findSome?_congr fun s hs => ?_)
    exact capture_versionNumber (getLast?_of_mem_starts hu hs) (by
      rw [hx]
      rintro c ⟨⟩
      exact ⟨by decide, by decide +kernel, by decide⟩)

/-- A part without a line that starts with a `v` has no version, nor does the end of its line. -/
theorem findSome_starts {u rest : Text} (hne : u ≠ []) (hhead : u.head? ≠ some 'v')
    (hu : ¬['\n', 'v'] <:+: u) (hrest : rest = [] ∨ rest.head? = some '\n') :
    (starts '\n' true (u ++ rest)).findSome? (capture versionNumber) =
      (starts '\n' false rest).findSome? (capture versionNumber) := by
  obtain ⟨inner, hstarts, hinner⟩ := starts_inside '\n' hne rest true
  have hfirst : capture versionNumber (u ++ rest) = none :=
    capture_versionNumber_eq_none (by rwa [List.head?_append_of_ne_nil _ hne])
  have hnone : inner.findSome? (capture versionNumber) = none := by
    rw [List.findSome?_eq_none_iff]
    intro s hs
    obtain ⟨v, w, -, hw, rfl, hlast, rfl⟩ := hinner s hs
    refine capture_versionNumber_eq_none fun hv => hu ?_
    rw [List.head?_append_of_ne_nil _ hw] at hv
    obtain ⟨w, rfl⟩ := List.head?_eq_some_iff.1 hv
    obtain ⟨v, rfl⟩ := List.getLast?_eq_some_iff.1 hlast
    exact ⟨v, w, by simp⟩
  have hend (b : Bool) : (starts '\n' b rest).findSome? (capture versionNumber) =
      (starts '\n' false rest).findSome? (capture versionNumber) := by
    cases b with
    | false => rfl
    | true =>
      have hnil : capture versionNumber rest = none := by
        refine capture_versionNumber_eq_none fun hv => ?_
        rcases hrest with rfl | hrest
        · cases hv
        · rw [hrest] at hv
          cases hv
      cases rest with
      | nil => rw [starts, if_pos rfl, List.findSome?_singleton, hnil]; rfl
      | cons c rest => rw [starts, if_pos rfl, List.singleton_append, List.findSome?_cons, hnil]; rfl
  rw [hstarts, if_pos rfl, List.append_assoc, List.singleton_append, List.findSome?_cons, hfirst,
    List.findSome?_append, hnone, Option.none_or, hend]

theorem pluginOf_eq (l : Text) : pluginOf l =
    ((starts '\n' true l).findSome? (capture versionNumber)).map
      fun v => pluginId ((natOfDigits v).getD 0) := by
  rw [← captured_search, pluginOf, Option.map_map]
  rfl

theorem foreign_versionStart : Foreign ['\n', 'v'] :=
  ⟨by decide, ⟨'v', by decide, by decide, by simp⟩, by decide⟩

/-- The edit keeps the version. -/
theorem Run.pluginOf_edited (run : Run literals t t') :
    pluginOf (run.before ++ (replacement (enabled run.plugins) ++ run.rest)) = pluginOf t := by
  have htaken (x : Text) : (run.taken ++ x).head? = some 'd' := by
    rw [taken, List.append_assoc, head?_arrayText]
  have hnew := head?_replacement run.plugins
  have hnewline := newline_notMem_replacement run.plugins
  have hold : (starts '\n' true t).findSome? (capture versionNumber) =
      (((starts '\n' true run.before).filter (· ≠ [])).findSome? (capture versionNumber)).or
        ((starts '\n' true (run.taken ++ run.rest)).findSome? (capture versionNumber)) := by
    rw [← findSome_version run.start (htaken run.rest)]
    exact congrArg (fun l => (starts '\n' true l).findSome? (capture versionNumber)) run.text
  have hne : replacement (enabled run.plugins) ≠ [] := fun h => by
    have hhead := hnew []
    rw [h] at hhead
    cases hhead
  have hhead (l : Text) (hl : (l ++ []).head? = some 'd') : l.head? ≠ some 'v' := by
    rw [List.append_nil] at hl
    rw [hl]
    decide
  rw [pluginOf_eq, pluginOf_eq, hold, findSome_version run.start (hnew run.rest),
    findSome_starts hne (hhead _ (hnew [])) (fun h => hnewline (h.subset (by decide))) run.lineEnd,
    findSome_starts run.taken_ne_nil (hhead _ (htaken []))
      (run.not_infix_taken foreign_versionStart) run.lineEnd]

end Version

/-! ### The result -/

section Result

variable {literals : LiteralEval} {t t' id : Text}

/-- A line that containerd reads as the header of the handler: it may end in a comment. -/
def isHandlerHeader (id line : Text) : Bool :=
  (first (do let u ← handlerHead id; trailing; pure u) line).isSome

/-- The disabled plugins of a configuration: what its first array says. -/
def disabledPlugins (literals : LiteralEval) (t : Text) : Option (List String) :=
  (search '\n' disabledArray t).bind fun m => (literals.eval m.2.1.2.2).bind strings

/-- CRI is enabled, the other plugins stay disabled, and Kata has one section for the plugin of the
version. -/
structure Registered (literals : LiteralEval) (t t' : Text) : Prop where
  plugins : ∃ l, disabledPlugins literals t = some l ∧
    disabledPlugins literals t' = some (l.filter fun plugin => !criPluginIds.contains plugin)
  handler : ∃ id, pluginOf t' = some id ∧ (lines '\n' t').countP (isHandlerHeader id) = 1 ∧
    ∃ rest, findAll '\n' (handlerHeader id) t' = [((), rest)] ∧
      runtimeOf (sectionBody rest) = some kataRuntime

/-- No line before or after the array is a header with a comment. -/
def Uncommented (t : Text) : Prop :=
  ∃ before d rest id, search '\n' disabledArray t = some (before, d, rest) ∧
    pluginOf t = some id ∧ ∀ line ∈ lines '\n' before ++ lines '\n' rest,
      isHandlerHeader id line = true → isHeader id line = true

theorem Run.disabledPlugins_old (run : Run literals t t') :
    disabledPlugins literals t = some run.plugins := by
  rw [disabledPlugins, run.found, Option.bind_some, run.read]

theorem Run.disabledPlugins_new (run : Run literals t t') :
    disabledPlugins literals t' = some (enabled run.plugins) := by
  have hline : run.rest ++ run.added = [] ∨ (run.rest ++ run.added).head? = some '\n' := by
    rcases run.lineEnd with hrest | hrest
    · rcases run.isAdded with hadded | ⟨id, -, hadded⟩
      · exact .inl (by rw [hrest, hadded]; rfl)
      · rw [hrest, addition_eq run.before run.plugins (.inl rfl)] at hadded
        exact .inr (by rw [hrest, hadded]; rfl)
    · exact .inr (by rw [List.head?_append, hrest]; rfl)
  obtain ⟨r, hr⟩ := exists_trailing hline
  have heval : literals.eval (written run.plugins).2.2 = some (names (enabled run.plugins)) :=
    literals.eval_repr _
  have hresult : t' = run.before ++ (replacement (enabled run.plugins) ++
      (run.rest ++ run.added)) := by
    conv_lhs => rw [run.result]
    simp only [List.append_assoc]
  have hsearch := search_again run.plugins run.found hline hr
  rw [← hresult] at hsearch
  rw [disabledPlugins, hsearch, Option.bind_some, heval, Option.bind_some, strings_names]

theorem isSome_trailing_of_blankEnd {l : Text} (h : (first blankEnd l).isSome = true) :
    (first trailing l).isSome = true := by
  induction l with
  | nil => rfl
  | cons c l ih =>
    rw [first_blankEnd_cons] at h
    rw [first_trailing_cons]
    by_cases hspace : isSpace c = true
    · rw [if_pos hspace, Option.isSome_or, Bool.or_eq_true] at h
      rw [if_pos hspace, Option.isSome_or, Bool.or_eq_true]
      exact h.imp_left ih
    · rw [if_neg hspace] at h
      cases h

/-- A header without a comment is one. -/
theorem isHandlerHeader_of_isHeader {line : Text} (h : isHeader id line = true) :
    isHandlerHeader id line = true := by
  obtain ⟨y, hy⟩ := Option.isSome_iff_exists.1 h
  obtain ⟨z, hz, hend⟩ := List.exists_of_findSome?_eq_some
    ((first_then _ blankEnd line).symm.trans hy)
  obtain ⟨u, hu, -⟩ := Option.map_eq_some_iff.1 hend
  have htrailing := isSome_trailing_of_blankEnd (show (first blankEnd z.2).isSome = true by
    rw [hu]
    rfl)
  have hfirst := first_then (handlerHead id) trailing line
  rw [isHandlerHeader, hfirst, List.findSome?_isSome_iff]
  exact ⟨z, hz, by rw [Option.isSome_map, htrailing]⟩

theorem isHandlerHeader_bracket (hid : '\n' ∉ id) {line : Text}
    (h : isHandlerHeader id line = true) : (line.dropWhile isBlank).head? = some '[' := by
  obtain ⟨y, hy⟩ := Option.isSome_iff_exists.1 h
  obtain ⟨z, hz, -⟩ := List.exists_of_findSome?_eq_some
    ((first_then _ trailing line).symm.trans hy)
  obtain ⟨w, t, rfl, hw, -⟩ := mem_handlerHead hid hz
  rw [List.dropWhile_append_of_pos hw, List.dropWhile_cons_of_neg (by decide)]
  rfl

/-- The appended lines have a header without a comment, and no other one. -/
theorem isHeader_of_isAddition {id' line : Text} {extra : List Text} (hid : IsPlugin id)
    (hid' : IsPlugin id') (hextra : IsAddition id' extra) (hline : line ∈ extra)
    (h : isHandlerHeader id line = true) : isHeader id line = true := by
  have hblank : isHandlerHeader id [] = false ∧ isHandlerHeader id runtimeLine = false := by
    rcases hid with rfl | rfl <;> decide +kernel
  have hheader : isHandlerHeader id (headerLine id') = true →
      isHeader id (headerLine id') = true := by
    rcases hid with rfl | rfl <;> rcases hid' with rfl | rfl <;> decide +kernel
  have hcases : line = [] ∨ line = headerLine id' ∨ line = runtimeLine := by
    rcases hextra with rfl | rfl
    · exact .inr (by simpa using hline)
    · simpa using hline
  rcases hcases with rfl | rfl | rfl
  · rw [hblank.1] at h
    cases h
  · exact hheader h
  · rw [hblank.2] at h
    cases h

/-- All headers of the result are without comments exactly if those around the array are. -/
theorem Run.forall_lines_iff (run : Run literals t t') (hid : IsPlugin id) :
    (∀ line ∈ lines '\n' t', isHandlerHeader id line = true → isHeader id line = true) ↔
      ∀ line ∈ lines '\n' run.before ++ lines '\n' run.rest,
        isHandlerHeader id line = true → isHeader id line = true := by
  have hnl := (addedLines hid).single
  have hblank : isHandlerHeader id [] ≠ true := fun h =>
    absurd (isHandlerHeader_bracket hnl h) (by decide)
  have hnew : isHandlerHeader id (replacement (enabled run.plugins)) ≠ true := fun h => by
    obtain ⟨r, hr⟩ := List.head?_eq_some_iff.1 (head?_replacement run.plugins [])
    rw [List.append_nil] at hr
    have hbracket := isHandlerHeader_bracket hnl h
    rw [hr, List.dropWhile_cons_of_neg (by decide)] at hbracket
    cases hbracket
  have hrest : (∀ line ∈ lines '\n' run.rest.tail,
      isHandlerHeader id line = true → isHeader id line = true) ↔
      ∀ line ∈ lines '\n' run.rest, isHandlerHeader id line = true → isHeader id line = true := by
    rcases run.lineEnd with hnil | hline
    · rw [hnil, List.tail_nil]
    · obtain ⟨r, hr⟩ := List.head?_eq_some_iff.1 hline
      have hlines : lines '\n' ('\n' :: r) = [] :: lines '\n' r := lines_line List.not_mem_nil r
      rw [hr, List.tail_cons, hlines, List.forall_mem_cons, and_iff_right fun h => absurd h hblank]
  obtain ⟨extra, hlines, hextra, -⟩ := run.exists_lines_result
  have hadded : ∀ line ∈ extra, isHandlerHeader id line = true → isHeader id line = true := by
    intro line hline
    rcases hextra with rfl | ⟨id', hid', hextra⟩
    · exact absurd hline List.not_mem_nil
    · exact isHeader_of_isAddition hid hid' hextra hline
  rw [hlines, List.forall_mem_append, List.forall_mem_append, List.forall_mem_cons,
    List.forall_mem_append, ← hrest, and_iff_right fun h => absurd h hnew,
    and_iff_left hadded]

theorem countP_eq_one_iff {α : Type} {p q : α → Bool} {l : List α}
    (hqp : ∀ a ∈ l, q a = true → p a = true) (hq : l.countP q = 1) :
    l.countP p = 1 ↔ ∀ a ∈ l, p a = true → q a = true := by
  constructor
  · intro hp a ha hpa
    obtain ⟨b, hb, hqb⟩ := List.countP_pos_iff.1 (by rw [hq]; exact Nat.one_pos)
    rwa [eq_of_countP hp ha hb hpa (hqp b hb hqb)]
  · intro h
    rw [← hq]
    exact List.countP_congr fun a ha => ⟨h a ha, hqp a ha⟩

/-- After an edit the handler has one section, by the headers that the edit recognises. -/
theorem exists_section (h : register t = .ok t') : ∃ id rest, IsPlugin id ∧
    pluginOf t = some id ∧ pluginOf t' = some id ∧
    findAll '\n' (handlerHeader id) t' = [((), rest)] ∧
    runtimeOf (sectionBody rest) = some kataRuntime := by
  obtain ⟨id, hid, hplugin, ⟨rfl, hnone⟩ | ⟨rfl, u, rest, hall, hruntime⟩⟩ := register_cases h
  · have hcount := length_findAll (addedLines hplugin).single t
    rw [hnone, List.length_nil] at hcount
    exact ⟨id, _, hplugin, hid, pluginOf_addition hid (addition_head hplugin t),
      findAll_addition hplugin (pluginOf_ne_nil hid) hcount.symm, runtimeOf_added⟩
  · exact ⟨id, rest, hplugin, hid, hid, hall, hruntime⟩

end Result

end Yggdrasil.Containerd
