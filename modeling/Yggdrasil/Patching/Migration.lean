import Yggdrasil.Patching.ResourceType

/-! Upgrades between the layouts of the Zun capsule definitions. An earlier layout is the base text
with the earlier block where the current patcher puts its own; from the base, from either earlier
layout and from its own result the patcher reaches one text. For the resource type this needs a
base with at most one copy line. -/

namespace Yggdrasil.Patching

open Splice

/-! ### The meter mapping -/

namespace CeilometerZunCapsule

/-- A base without any of the layouts. -/
def Pristine (n : Text) : Prop :=
  isIn marker n = false ∧ isIn previousMarker n = false ∧ isIn legacyMarker n = false

/-- The base with a mapping behind it. -/
def layout (block n : Text) : Text := rstrip n ++ ('\n' :: block)

def legacyBlock : Text := legacyMarker ++ legacyDefinition

def previousBlock : Text := previousMarker ++ previousDefinition

def currentBlock : Text := marker ++ definition

theorem block_words :
    (∀ block ∈ [legacyBlock, previousBlock, currentBlock], Clean block) ∧
    (∀ m ∈ [marker, previousMarker, legacyMarker], m ≠ [] ∧
      ∀ block ∈ [legacyBlock, previousBlock, currentBlock], clear m ('\n' :: block) = true) ∧
    count marker ('\n' :: previousBlock) = 0 ∧ count marker ('\n' :: legacyBlock) = 0 ∧
    count previousMarker ('\n' :: legacyBlock) = 0 ∧
    count previousMarker ('\n' :: previousBlock) = 1 ∧
    count legacyMarker ('\n' :: legacyBlock) = 1 ∧
    count previousMarker ('\n' :: currentBlock) = 0 ∧
    count legacyMarker ('\n' :: currentBlock) = 0 ∧
    (∀ block ∈ [legacyBlock, previousBlock], block ≠ [] ∧ clear block block = true) ∧
    ∀ m ∈ [marker, previousMarker, legacyMarker], clear m ['\n'] = true ∧ count m ['\n'] = 0 := by
  unfold legacyBlock previousBlock currentBlock marker previousMarker legacyMarker definition
    previousDefinition legacyDefinition Clean
  repeat rw [String.toList_ofList]
  decide +kernel

theorem rstrip_starts (n : Text) : rstrip n <+: n := by
  have h := List.dropWhile_suffix Python.isSpace (l := n.reverse)
  rw [← List.reverse_prefix, List.reverse_reverse] at h
  exact h

theorem count_rstrip {p n : Text} (hp : p ≠ []) (h : count p n = 0) : count p (rstrip n) = 0 :=
  count_zero_of_occurs hp (rstrip_starts n).isInfix h

theorem count_layout {p block n : Text} (hp : p ≠ []) (hc : clear p ('\n' :: block) = true)
    (hn : count p n = 0) : count p (layout block n) = count p ('\n' :: block) := by
  have h := count_insert hc hp (rstrip n) []
  rw [List.append_nil, count_rstrip hp hn] at h
  rw [layout, h, Nat.zero_add]
  exact Nat.add_zero _

theorem clean_layout {block n : Text} (hn : Clean n) (hb : Clean block) :
    Clean (layout block n) := by
  have := clean_rstrip hn
  unfold Clean layout at *
  simp only [List.mem_append, List.mem_cons, not_or]
  exact ⟨this, by decide, hb⟩

theorem isIn_eq_false_iff {p s : Text} : isIn p s = false ↔ count p s = 0 := by
  rw [Bool.eq_false_iff, Ne, isIn_iff]
  omega

/-- An update takes the layout of the earlier block to that of the current one. -/
theorem exec_updateDefinition_layout {m d n s : Text} {message : String}
    (hmem : m ++ d ∈ [legacyBlock, previousBlock])
    (hm : m ∈ [marker, previousMarker, legacyMarker]) (hne : m ≠ []) (hn : count m n = 0) :
    exec (updateDefinition m d message (layout (m ++ d) n)) s =
      (.ok (), layout currentBlock n) := by
  obtain ⟨-, -, -, -, -, -, -, -, -, hblocks, hlines⟩ := block_words
  obtain ⟨hblock, hself⟩ := hblocks _ hmem
  obtain ⟨hline, hlinez⟩ := hlines m hm
  -- The base has no block, since a block starts with its marker.
  have hbase : count (m ++ d) (rstrip n ++ ['\n']) = 0 := by
    have hmz := count_insert hline hne (rstrip n) []
    rw [count_rstrip hne hn, hlinez, List.append_nil] at hmz
    rw [count_eq_zero_iff hblock]
    exact fun hc => (count_eq_zero_iff hne).1 hmz ((List.prefix_append m _).isInfix.trans hc)
  have hlayout : ∀ block, layout block n = rstrip n ++ ['\n'] ++ block := fun block => by
    simp [layout]
  have hcount := count_insert hself hblock (rstrip n ++ ['\n']) []
  have hreplace := replaceFirst_at (q := currentBlock) hblock hself hbase []
  rw [List.append_nil] at hcount hreplace
  rw [hbase, count_self hblock] at hcount
  have hone : count (m ++ d) (rstrip n ++ ['\n'] ++ (m ++ d)) = 1 := hcount
  rw [hlayout, updateDefinition, exec_ite, if_neg (not_not.2 hone), exec_writeText, hlayout]
  exact congrArg (Prod.mk _) (hreplace.trans (List.append_nil _))

theorem exec_patchResourceDefinitions (s : Text) : exec patchResourceDefinitions s =
    if isIn marker (newlines s) then (.ok (), s)
    else if isIn previousMarker (newlines s) then
      exec (updateDefinition previousMarker previousDefinition
        "unexpected previous Zun capsule meter mapping" (newlines s)) s
    else if isIn legacyMarker (newlines s) then
      exec (updateDefinition legacyMarker legacyDefinition
        "unexpected legacy Zun capsule meter mapping" (newlines s)) s
    else if isIn meter (newlines s) then
      (.error (.systemExit "Zun capsule CPU meter already exists without its marker"), s)
    else if !isIn resourcesKey (newlines s) then
      (.error (.systemExit "unexpected Ceilometer Gnocchi resource definition layout"), s)
    else (.ok (), layout currentBlock (newlines s)) := by
  rw [patchResourceDefinitions, exec_bind, exec_readText, continueWith_ok]
  simp only [exec_ite, exec_pure, exec_throw, exec_writeText]
  have hlayout : rstrip (newlines s) ++ ['\n'] ++ marker ++ definition =
      layout currentBlock (newlines s) := by
    simp [layout, currentBlock]
  rw [hlayout]

theorem layouts_converge {b t : Text} (hb : Pristine (newlines b))
    (h : exec patchResourceDefinitions b = (.ok (), t)) :
    (∀ l ∈ [layout legacyBlock (newlines b), layout previousBlock (newlines b), t],
      exec patchResourceDefinitions l = (.ok (), t)) ∧
    isIn previousMarker t = false ∧ isIn legacyMarker t = false := by
  obtain ⟨hclean, hmarkers, hmp, hml, hpl, hpp, hll, hpc, hlc, -⟩ := block_words
  obtain ⟨hm, hp, hl⟩ := hb
  set n := newlines b
  have hn : Clean n := clean_newlines b
  obtain ⟨hmne, hmclear⟩ := hmarkers marker (.head _)
  obtain ⟨hpne, hpclear⟩ := hmarkers previousMarker (.tail _ (.head _))
  obtain ⟨hlne, hlclear⟩ := hmarkers legacyMarker (.tail _ (.tail _ (.head _)))
  have ht : t = layout currentBlock n := by
    rw [exec_patchResourceDefinitions, if_neg (by rw [hm]; simp), if_neg (by rw [hp]; simp),
      if_neg (by rw [hl]; simp)] at h
    split_ifs at h
    · exact absurd (congrArg Prod.fst h) (by simp)
    · exact absurd (congrArg Prod.fst h) (by simp)
    · exact (congrArg Prod.snd h).symm
  rw [isIn_eq_false_iff] at hm hp hl
  refine ⟨fun l hlmem => ?_, ?_, ?_⟩
  · simp only [List.mem_cons, List.not_mem_nil, or_false] at hlmem
    rcases hlmem with rfl | rfl | rfl
    · rw [exec_patchResourceDefinitions, newlines_of_clean (clean_layout hn (hclean _ (.head _))),
        if_neg, if_neg, if_pos, ht]
      · exact exec_updateDefinition_layout (.head _) (.tail _ (.tail _ (.head _))) hlne hl
      · rw [isIn_iff, count_layout hlne (hlclear _ (.head _)) hl, hll]
        exact Nat.one_pos
      · rw [isIn_iff, count_layout hpne (hpclear _ (.head _)) hp, hpl]
        exact Nat.lt_irrefl 0
      · rw [isIn_iff, count_layout hmne (hmclear _ (.head _)) hm, hml]
        exact Nat.lt_irrefl 0
    · rw [exec_patchResourceDefinitions,
        newlines_of_clean (clean_layout hn (hclean _ (.tail _ (.head _)))), if_neg, if_pos, ht]
      · exact exec_updateDefinition_layout (.tail _ (.head _)) (.tail _ (.head _)) hpne hp
      · rw [isIn_iff, count_layout hpne (hpclear _ (.tail _ (.head _))) hp, hpp]
        exact Nat.one_pos
      · rw [isIn_iff, count_layout hmne (hmclear _ (.tail _ (.head _))) hm, hmp]
        exact Nat.lt_irrefl 0
    · exact patchResourceDefinitions_again h
  · rw [ht, isIn_eq_false_iff, count_layout hpne (hpclear _ (.tail _ (.tail _ (.head _)))) hp, hpc]
  · rw [ht, isIn_eq_false_iff, count_layout hlne (hlclear _ (.tail _ (.tail _ (.head _)))) hl, hlc]

end CeilometerZunCapsule

/-! ### The resource type -/

namespace CeilometerGnocchiResource

/-- A base without any of the layouts. -/
def Pristine (n : Text) : Prop :=
  count legacyResourceTypeOperation n = 0 ∧ ∀ m ∈ markers, count m n = 0

/-- The base with a block at the head of its update operations. -/
def layout (block n : Text) : Text := replaceFirst updateOperations (updateOperations ++ block) n

def oldBlocks : List Text := [legacyResourceTypeOperation, previousResourceTypeOperation]

theorem layout_words :
    (∀ w ∈ updateOperations :: oldBlocks.map (updateOperations ++ ·),
      clear resourceTypeValueCopy w = true ∧ count resourceTypeValueCopy w = 0) ∧
    (∀ block ∈ oldBlocks, inert resourceTypeValueCopyPatch updateOperations
      (updateOperations ++ block) = true ∧ Clean block) ∧
    inert legacyResourceTypeOperation updateOperations
      (updateOperations ++ previousResourceTypeOperation) = true ∧
    inert updateOperations resourceTypeValueCopy resourceTypeValueCopyPatch = true ∧
    clear updateOperations updateOperations = true ∧ Clean updateOperations ∧
    clear legacyResourceTypeOperation legacyResourceTypeOperation = true ∧
    resourceTypeOperationMarker <:+: previousResourceTypeOperation := by
  unfold oldBlocks resourceTypeValueCopy resourceTypeValueCopyPatch legacyResourceTypeOperation
    previousResourceTypeOperation updateOperations resourceTypeOperationMarker Clean
  repeat rw [String.toList_ofList]
  decide +kernel

/-- The copy line of a base and of a layout over it is replaced at the same place. -/
theorem patchValueCopy_layout {a b s : Text} (h : patchValueCopy (a ++ updateOperations ++ b) = .ok s) :
    ∃ a' b', s = a' ++ updateOperations ++ b' ∧ ∀ block ∈ oldBlocks,
      patchValueCopy (a ++ (updateOperations ++ block) ++ b) =
        .ok (a' ++ (updateOperations ++ block) ++ b') := by
  obtain ⟨hcopy, hpatch, -⟩ := layout_words
  obtain ⟨hcn, hzn⟩ := hcopy _ (.head _)
  have hmem : ∀ {block : Text}, block ∈ oldBlocks →
      updateOperations ++ block ∈ updateOperations :: oldBlocks.map (updateOperations ++ ·) :=
    fun hb => List.mem_cons_of_mem _ (List.mem_map_of_mem hb)
  have hcount : ∀ w, clear resourceTypeValueCopy w = true → count resourceTypeValueCopy w = 0 →
      count resourceTypeValueCopy (a ++ w ++ b) =
        count resourceTypeValueCopy a + count resourceTypeValueCopy b := fun w hw hz => by
    rw [count_insert hw words.nonempty.1, hz, Nat.add_zero]
  rcases (patchValueCopy_cases h).1 with ⟨hin, rfl⟩ | ⟨hin, rfl⟩
  · rw [isIn_iff, hcount _ hcn hzn] at hin
    have hall : ∀ block ∈ oldBlocks, patchValueCopy (a ++ (updateOperations ++ block) ++ b) =
        .ok (replaceFirst resourceTypeValueCopy resourceTypeValueCopyPatch
          (a ++ (updateOperations ++ block) ++ b)) := fun block hb =>
      if_pos (by
        obtain ⟨hc, hz⟩ := hcopy _ (hmem hb)
        rw [isIn_iff, hcount _ hc hz]
        exact hin)
    rcases Nat.eq_zero_or_pos (count resourceTypeValueCopy a) with ha | ha
    · refine ⟨a, _, replaceFirst_after hcn words.nonempty.1 a b ha hzn, fun block hb => ?_⟩
      obtain ⟨hc, hz⟩ := hcopy _ (hmem hb)
      rw [hall block hb, replaceFirst_after hc words.nonempty.1 a b ha hz]
    · refine ⟨_, b, replaceFirst_before hcn words.nonempty.1 a b ha, fun block hb => ?_⟩
      rw [hall block hb, replaceFirst_before (hcopy _ (hmem hb)).1 words.nonempty.1 a b ha]
  · refine ⟨a, b, rfl, fun block hb => ?_⟩
    obtain ⟨hc, hz⟩ := hcopy _ (hmem hb)
    have hzero : count resourceTypeValueCopy (a ++ (updateOperations ++ block) ++ b) = 0 := by
      rw [Bool.eq_false_iff, Ne, isIn_iff, hcount _ hcn hzn] at hin
      rw [hcount _ hc hz]
      omega
    have hin' := (patchValueCopy_cases h).2
    rw [isIn_iff] at hin'
    rw [patchValueCopy_of_patch, replaceFirst_of_count_zero words.nonempty.1 hzero]
    rw [isIn_iff, count_swap (hpatch block hb).1]
    exact hin'

/-- From a base and from an earlier layout over it the edits reach one text. -/
theorem edits_layout {n t : Text} (hp : Pristine n) (h : edits n = .ok t) :
    count updateOperations n = 1 ∧ ∀ block ∈ oldBlocks, edits (layout block n) = .ok t := by
  obtain ⟨hlegacy, hmarkers⟩ := hp
  obtain ⟨-, -, hinertP, hinertN, hselfN, -, hselfL, hmarkerP⟩ := layout_words
  obtain ⟨-, -, hneL, hneP, -, -, hneN⟩ := words.nonempty
  have hmarker := hmarkers resourceTypeOperationMarker (.head _)
  unfold edits at h
  rcases hs : patchValueCopy n with x | s
  · rw [hs] at h
    cases h
  rw [hs] at h
  change operations (replacePrevious (removeLegacy s)) = .ok t at h
  have hkeep : ∀ p, inert p resourceTypeValueCopy resourceTypeValueCopyPatch = true →
      count p s = count p n := by
    intro p hinert
    rcases (patchValueCopy_cases hs).1 with ⟨-, rfl⟩ | ⟨-, rfl⟩
    · exact count_replaceFirst_of_inert hinert n
    · rfl
  have hsL : count legacyResourceTypeOperation s = 0 :=
    (hkeep _ (words.inert_valueCopy _ (.head _))).trans hlegacy
  have hsM : count resourceTypeOperationMarker s = 0 :=
    (hkeep _ (words.inert_valueCopy _ (.tail _ (.tail _ (.head _))))).trans hmarker
  have hsP : count previousResourceTypeOperation s = 0 := by
    rw [count_eq_zero_iff words.marker_nonempty.1] at hsM
    rw [count_eq_zero_iff hneP]
    exact fun hc => hsM (hmarkerP.trans hc)
  rw [removeLegacy_eq, replaceFirst_of_count_zero hneL hsL, replacePrevious_eq,
    replaceFirst_of_count_zero hneP hsP, operations] at h
  have hsN : count updateOperations s = 1 := by
    by_contra hne
    rw [addResourceType, addOperation, if_neg (by rw [isIn_iff, hsM]; exact Nat.lt_irrefl 0),
      if_pos hne] at h
    cases h
  have hnN : count updateOperations n = 1 := (hkeep _ hinertN).symm.trans hsN
  refine ⟨hnN, ?_⟩
  obtain ⟨a, b, rfl, ha, hreplace, -⟩ := exists_first hneN (l := n) (by omega)
  obtain ⟨a', b', rfl, hlayout⟩ := patchValueCopy_layout hs
  have ha' : count updateOperations a' = 0 := by
    rw [count_insert hselfN hneN, count_self hneN] at hsN
    omega
  have hbefore : a' ++ updateOperations <:+: a' ++ updateOperations ++ b' :=
    (List.prefix_append _ _).isInfix
  -- The text after the type operation has been added, from all three starts.
  set u := a' ++ (updateOperations ++ resourceTypeOperation) ++ b' with hu
  have hadd : addResourceType (a' ++ updateOperations ++ b') = .ok u := by
    rw [addResourceType, addOperation, if_neg (by rw [isIn_iff, hsM]; exact Nat.lt_irrefl 0),
      if_neg (not_not.2 hsN), replaceFirst_at hneN hselfN ha']
  rw [hadd] at h
  intro block hb
  rw [layout, hreplace, edits, hlayout block hb]
  change operations (replacePrevious (removeLegacy (a' ++ (updateOperations ++ block) ++ b'))) = _
  simp only [oldBlocks, List.mem_cons, List.not_mem_nil, or_false] at hb
  rcases hb with hb | hb
  · rw [hb, removeLegacy_eq, ← List.append_assoc a', replaceFirst_at hneL hselfL
      (count_zero_of_occurs hneL hbefore hsL), List.append_nil, replacePrevious_eq,
      replaceFirst_of_count_zero hneP hsP, operations, hadd]
    exact h
  · have hL : count legacyResourceTypeOperation
        (a' ++ (updateOperations ++ previousResourceTypeOperation) ++ b') = 0 := by
      rw [count_swap hinertP, hsL]
    rw [hb, removeLegacy_eq, replaceFirst_of_count_zero hneL hL, replacePrevious_eq,
      ← List.append_assoc a', replaceFirst_at hneP words.clear_previous.1
        (count_zero_of_occurs hneP hbefore hsP), List.append_assoc a', ← hu, operations]
    have hin : isIn resourceTypeOperationMarker u = true := by
      refine isIn_of_occurs words.marker_nonempty.1 (words.marker_in_operation.1.trans ?_)
      rw [hu, ← List.append_assoc a']
      exact List.infix_append _ _ _
    have hagain : addResourceType u = .ok u := if_pos hin
    rw [hagain]
    exact h

theorem exec_eq_ok_iff {compiles : Text → Bool} {s t : Text} :
    exec (patchGnocchiResourceType compiles) s = (.ok (), t) ↔
      edits (newlines s) = .ok t ∧ compiles t = true := by
  rw [exec_patchGnocchiResourceType]
  rcases edits (newlines s) with x | u
  · refine iff_of_false (fun h => ?_) fun h => by simp at h
    have hr := settle_eq_ok h
    exact nomatch hr
  · change settle s (if compiles u then Except.ok u else .error Failure.syntaxError) = _ ↔ _
    constructor
    · intro h
      have hu := settle_eq_ok h
      split_ifs at hu with hc
      obtain rfl := Except.ok.inj hu
      exact ⟨rfl, hc⟩
    · rintro ⟨hu, hc⟩
      obtain rfl := Except.ok.inj hu
      rw [if_pos hc]
      rfl

/-- All layouts reach the text of the base, and none of the earlier blocks is left, exactly if the
base has at most one copy line. -/
theorem layouts_iff {compiles : Text → Bool} {b t : Text} (hp : Pristine (newlines b))
    (h : exec (patchGnocchiResourceType compiles) b = (.ok (), t)) :
    ((∀ l ∈ [layout legacyResourceTypeOperation (newlines b),
          layout previousResourceTypeOperation (newlines b), t],
        exec (patchGnocchiResourceType compiles) l = (.ok (), t)) ∧
      isIn legacyResourceTypeOperation t = false ∧ isIn previousResourceTypeOperation t = false) ↔
      count resourceTypeValueCopy (newlines b) ≤ 1 := by
  obtain ⟨hedits, hcompiles⟩ := exec_eq_ok_iff.1 h
  set n := newlines b
  have hn : Clean n := clean_newlines b
  obtain ⟨-, hblocks⟩ := edits_layout hp hedits
  obtain ⟨-, hwords, -, -, -, hclean, -, hmarkerP⟩ := layout_words
  have hlayout : ∀ block ∈ oldBlocks,
      exec (patchGnocchiResourceType compiles) (layout block n) = (.ok (), t) := by
    intro block hb
    have hcl : Clean (updateOperations ++ block) := by
      have := (hwords block hb).2
      unfold Clean at this hclean ⊢
      rw [List.mem_append, not_or]
      exact ⟨hclean, this⟩
    have hcl' : Clean (layout block n) := hn.replaceFirst words.nonempty.2.2.2.2.2.2 hcl
    rw [exec_eq_ok_iff, newlines_of_clean hcl']
    exact ⟨hblocks block hb, hcompiles⟩
  obtain ⟨hlegacy, hmarkers⟩ := hp
  have hprevious : count previousResourceTypeOperation n = 0 := by
    have hmarker := hmarkers resourceTypeOperationMarker (.head _)
    rw [count_eq_zero_iff words.marker_nonempty.1] at hmarker
    rw [count_eq_zero_iff words.nonempty.2.2.2.1]
    exact fun hc => hmarker (hmarkerP.trans hc)
  have hrest : removeLegacy n = n := by
    rw [removeLegacy_eq, replaceFirst_of_count_zero words.nonempty.2.2.1 hlegacy]
  have hleft : isIn legacyResourceTypeOperation t = false ∧
      isIn previousResourceTypeOperation t = false := by
    obtain ⟨s, hs, -, -, -, -, hL, hP⟩ := edits_ok hn hedits
    obtain ⟨hsame, -⟩ := counts_of_patchValueCopy hs
    rw [hsame _ (.head _), hrest, hlegacy] at hL
    rw [hsame _ (.tail _ (.head _)), hrest, hprevious] at hP
    exact ⟨CeilometerZunCapsule.isIn_eq_false_iff.2 hL, CeilometerZunCapsule.isIn_eq_false_iff.2 hP⟩
  have hconverges : Converges n ↔ count resourceTypeValueCopy n ≤ 1 := by
    unfold Converges
    simp only
    rw [hrest, CeilometerZunCapsule.isIn_eq_false_iff, hlegacy, hprevious]
    exact ⟨fun hc => hc.2.2.1, fun hc => ⟨rfl, Nat.zero_le 1, hc, id⟩⟩
  rw [← hconverges, ← patch_again_iff h]
  constructor
  · exact fun hall => hall.1 t (.tail _ (.tail _ (.head _)))
  · refine fun hagain => ⟨fun l hl => ?_, hleft⟩
    simp only [List.mem_cons, List.not_mem_nil, or_false] at hl
    rcases hl with hl | hl | hl
    · exact hl ▸ hlayout _ (.head _)
    · exact hl ▸ hlayout _ (.tail _ (.head _))
    · exact hl ▸ hagain

end CeilometerGnocchiResource

/-- The meter mapping converges from every base; the resource type exactly from the bases with at
most one copy line. -/
theorem migration_converges_iff (compiles : Text → Bool) :
    (∀ b t, CeilometerZunCapsule.Pristine (newlines b) →
      exec CeilometerZunCapsule.patchResourceDefinitions b = (.ok (), t) →
        (∀ l ∈ [CeilometerZunCapsule.layout CeilometerZunCapsule.legacyBlock (newlines b),
            CeilometerZunCapsule.layout CeilometerZunCapsule.previousBlock (newlines b), t],
          exec CeilometerZunCapsule.patchResourceDefinitions l = (.ok (), t)) ∧
        isIn CeilometerZunCapsule.previousMarker t = false ∧
          isIn CeilometerZunCapsule.legacyMarker t = false) ∧
    ∀ b t, CeilometerGnocchiResource.Pristine (newlines b) →
      exec (CeilometerGnocchiResource.patchGnocchiResourceType compiles) b = (.ok (), t) →
        (((∀ l ∈ [CeilometerGnocchiResource.layout
                CeilometerGnocchiResource.legacyResourceTypeOperation (newlines b),
              CeilometerGnocchiResource.layout
                CeilometerGnocchiResource.previousResourceTypeOperation (newlines b), t],
            exec (CeilometerGnocchiResource.patchGnocchiResourceType compiles) l = (.ok (), t)) ∧
          isIn CeilometerGnocchiResource.legacyResourceTypeOperation t = false ∧
            isIn CeilometerGnocchiResource.previousResourceTypeOperation t = false) ↔
          count CeilometerGnocchiResource.resourceTypeValueCopy (newlines b) ≤ 1) :=
  ⟨fun _ _ hp h => CeilometerZunCapsule.layouts_converge hp h,
    fun _ _ hp h => CeilometerGnocchiResource.layouts_iff hp h⟩

namespace CeilometerGnocchiResource

/-- A client with two copy lines. -/
def twoCopies : Text := updateOperations ++ resourceTypeValueCopy ++ resourceTypeValueCopy

theorem twoCopies_words : Clean twoCopies ∧ Pristine twoCopies ∧
    count resourceTypeValueCopy twoCopies = 2 ∧ (edits twoCopies).isOk = true := by
  unfold twoCopies Pristine markers edits operations patchValueCopy removeLegacy replacePrevious
    addResourceType addAttributeRemoval addAttribute addOperation resourceTypeValueCopy
    resourceTypeValueCopyPatch legacyResourceTypeOperation previousResourceTypeOperation
    resourceTypeOperation resourceAttributeRemovalOperation resourceAttributeOperation
    resourceTypeOperationMarker resourceAttributeRemovalOperationMarker
    resourceAttributeOperationMarker updateOperations Clean
  repeat rw [String.toList_ofList]
  decide +kernel

end CeilometerGnocchiResource

/-- The claim of convergence fails on a client with two copy lines. -/
theorem migration_not_convergent :
    ¬∀ b t, CeilometerGnocchiResource.Pristine (newlines b) →
      exec (CeilometerGnocchiResource.patchGnocchiResourceType fun _ => true) b = (.ok (), t) →
        exec (CeilometerGnocchiResource.patchGnocchiResourceType fun _ => true) t = (.ok (), t) := by
  intro h
  obtain ⟨hclean, hp, htwo, hok⟩ := CeilometerGnocchiResource.twoCopies_words
  rcases ht : CeilometerGnocchiResource.edits CeilometerGnocchiResource.twoCopies with x | t
  · rw [ht] at hok
    exact nomatch hok
  have hn := newlines_of_clean hclean
  have hrun : exec (CeilometerGnocchiResource.patchGnocchiResourceType fun _ => true)
      CeilometerGnocchiResource.twoCopies = (.ok (), t) := by
    rw [CeilometerGnocchiResource.exec_eq_ok_iff, hn]
    exact ⟨ht, rfl⟩
  have hagain := h _ t (by rw [hn]; exact hp) hrun
  obtain ⟨-, -, hle, -⟩ := (CeilometerGnocchiResource.patch_again_iff hrun).1 hagain
  rw [hn, CeilometerGnocchiResource.removeLegacy_eq,
    replaceFirst_of_count_zero CeilometerGnocchiResource.words.nonempty.2.2.1 hp.1, htwo] at hle
  omega

end Yggdrasil.Patching
