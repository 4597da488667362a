import Yggdrasil.Patching.Idempotence

/-! The patcher of the Gnocchi resource type. It has no guard: every run replaces one copy line,
removes one legacy block and replaces one previous block, where there is one. A second run finds
nothing to do exactly if the first has met at most one of each. -/

namespace Yggdrasil.Patching.CeilometerGnocchiResource

open Splice

/-! ### The words -/

/-- The words whose occurrences the patcher looks for to change them. -/
def subjects : List Text :=
  [resourceTypeValueCopy, resourceTypeValueCopyPatch, legacyResourceTypeOperation,
    previousResourceTypeOperation]

def markers : List Text :=
  [resourceTypeOperationMarker, resourceAttributeRemovalOperationMarker,
    resourceAttributeOperationMarker]

/-- What the proofs use of the words. -/
structure Words : Type where
  nonempty : resourceTypeValueCopy ≠ [] ∧ resourceTypeValueCopyPatch ≠ [] ∧
    legacyResourceTypeOperation ≠ [] ∧ previousResourceTypeOperation ≠ [] ∧
      resourceTypeOperation ≠ [] ∧ resourceAttributeRemovalOperation ≠ [] ∧
        updateOperations ≠ []
  marker_nonempty : resourceTypeOperationMarker ≠ [] ∧
    resourceAttributeRemovalOperationMarker ≠ [] ∧ resourceAttributeOperationMarker ≠ []
  clean : Clean resourceTypeValueCopyPatch ∧ Clean resourceTypeOperation ∧
    Clean (updateOperations ++ resourceTypeOperation) ∧
      Clean (resourceTypeOperation ++ resourceAttributeRemovalOperation) ∧
        Clean (resourceAttributeRemovalOperation ++ resourceAttributeOperation)
  marker_in_operation : resourceTypeOperationMarker <:+: resourceTypeOperation ∧
    resourceAttributeRemovalOperationMarker <:+: resourceAttributeRemovalOperation ∧
      resourceAttributeOperationMarker <:+: resourceAttributeOperation
  /-- The additions leave the number of the other words alone. -/
  inert_operations : (∀ p ∈ subjects, inertAfter p updateOperations resourceTypeOperation = true) ∧
    (∀ p ∈ resourceTypeOperationMarker :: subjects,
      inertAfter p resourceTypeOperation resourceAttributeRemovalOperation = true) ∧
    ∀ p ∈ resourceTypeOperationMarker :: resourceAttributeRemovalOperationMarker :: subjects,
      inertAfter p resourceAttributeRemovalOperation resourceAttributeOperation = true
  inert_valueCopy : ∀ p ∈ legacyResourceTypeOperation :: previousResourceTypeOperation :: markers,
      inert p resourceTypeValueCopy resourceTypeValueCopyPatch = true
  inert_previous : ∀ p ∈ resourceTypeValueCopy :: resourceTypeValueCopyPatch ::
    legacyResourceTypeOperation :: markers,
      inert p previousResourceTypeOperation resourceTypeOperation = true
  /-- The words that a removal of the legacy block keeps. -/
  clear_legacy : ∀ p ∈ resourceTypeValueCopyPatch :: markers,
    clear p legacyResourceTypeOperation = true ∧ count p legacyResourceTypeOperation = 0
  clear_valueCopy : clear resourceTypeValueCopy resourceTypeValueCopy = true ∧
      clear resourceTypeValueCopy resourceTypeValueCopyPatch = true ∧
        count resourceTypeValueCopy resourceTypeValueCopyPatch = 0 ∧
    clear legacyResourceTypeOperation resourceTypeValueCopy = true ∧
      count legacyResourceTypeOperation resourceTypeValueCopy = 0 ∧
        clear legacyResourceTypeOperation resourceTypeValueCopyPatch = true ∧
          count legacyResourceTypeOperation resourceTypeValueCopyPatch = 0
  clear_previous : clear previousResourceTypeOperation previousResourceTypeOperation = true ∧
      clear previousResourceTypeOperation resourceTypeOperation = true ∧
        count previousResourceTypeOperation resourceTypeOperation = 0
  lengths : resourceTypeValueCopy.length = 45 ∧ resourceTypeValueCopyPatch.length = 53 ∧
    legacyResourceTypeOperation.length = 363 ∧ previousResourceTypeOperation.length = 379 ∧
      resourceTypeOperation.length = 193

def words : Words where
  nonempty := by
    unfold resourceTypeValueCopy resourceTypeValueCopyPatch legacyResourceTypeOperation
      previousResourceTypeOperation resourceTypeOperation resourceAttributeRemovalOperation
      updateOperations
    repeat rw [String.toList_ofList]
    decide +kernel
  marker_nonempty := by
    unfold resourceTypeOperationMarker resourceAttributeRemovalOperationMarker
      resourceAttributeOperationMarker
    repeat rw [String.toList_ofList]
    decide +kernel
  clean := by
    unfold resourceTypeValueCopyPatch resourceTypeOperation resourceAttributeRemovalOperation
      resourceAttributeOperation updateOperations Clean
    repeat rw [String.toList_ofList]
    decide +kernel
  marker_in_operation := by
    unfold resourceTypeOperationMarker resourceAttributeRemovalOperationMarker
      resourceAttributeOperationMarker resourceTypeOperation resourceAttributeRemovalOperation
      resourceAttributeOperation
    repeat rw [String.toList_ofList]
    decide +kernel
  inert_operations := by
    unfold subjects resourceTypeValueCopy resourceTypeValueCopyPatch legacyResourceTypeOperation
      previousResourceTypeOperation resourceTypeOperationMarker
      resourceAttributeRemovalOperationMarker resourceTypeOperation
      resourceAttributeRemovalOperation resourceAttributeOperation updateOperations
    repeat rw [String.toList_ofList]
    decide +kernel
  inert_valueCopy := by
    unfold markers resourceTypeValueCopy resourceTypeValueCopyPatch legacyResourceTypeOperation
      previousResourceTypeOperation resourceTypeOperationMarker
      resourceAttributeRemovalOperationMarker resourceAttributeOperationMarker
    repeat rw [String.toList_ofList]
    decide +kernel
  inert_previous := by
    unfold markers resourceTypeValueCopy resourceTypeValueCopyPatch legacyResourceTypeOperation
      previousResourceTypeOperation resourceTypeOperation resourceTypeOperationMarker
      resourceAttributeRemovalOperationMarker resourceAttributeOperationMarker
    repeat rw [String.toList_ofList]
    decide +kernel
  clear_legacy := by
    unfold markers resourceTypeValueCopyPatch legacyResourceTypeOperation
      resourceTypeOperationMarker resourceAttributeRemovalOperationMarker
      resourceAttributeOperationMarker
    repeat rw [String.toList_ofList]
    decide +kernel
  clear_valueCopy := by
    unfold resourceTypeValueCopy resourceTypeValueCopyPatch legacyResourceTypeOperation
    repeat rw [String.toList_ofList]
    decide +kernel
  clear_previous := by
    unfold previousResourceTypeOperation resourceTypeOperation
    repeat rw [String.toList_ofList]
    decide +kernel
  lengths := by
    unfold resourceTypeValueCopy resourceTypeValueCopyPatch legacyResourceTypeOperation
      previousResourceTypeOperation resourceTypeOperation
    repeat rw [String.toList_ofList]
    decide +kernel

/-! ### The edits -/

def operations (source : Text) : Except Failure Text := do
  let source ← addResourceType source
  let source ← addAttributeRemoval source
  addAttribute source

def edits (source : Text) : Except Failure Text := do
  let source ← patchValueCopy source
  operations (replacePrevious (removeLegacy source))

theorem exec_patchGnocchiResourceType (compiles : Text → Bool) (s : Text) :
    exec (patchGnocchiResourceType compiles) s = settle s (do
      let t ← edits (newlines s)
      if compiles t then .ok t else .error .syntaxError) := by
  have hcompile : ∀ t, exec (do compileText compiles t; writeText t) s =
      settle s (if compiles t then .ok t else .error .syntaxError) := by
    intro t
    rw [exec_bind, exec_compileText]
    split_ifs <;> rfl
  unfold patchGnocchiResourceType edits
  rw [exec_bind, exec_readText, continueWith_ok, exec_bind, exec_liftExcept]
  rcases patchValueCopy (newlines s) with x | source
  · rfl
  rw [continueWith_ok, exec_bind, exec_liftExcept]
  change _ = settle s (operations (replacePrevious (removeLegacy source)) >>= _)
  unfold operations
  rcases addResourceType (replacePrevious (removeLegacy source)) with x | source
  · rfl
  rw [continueWith_ok, exec_bind, exec_liftExcept]
  change _ = settle s ((addAttributeRemoval source >>= addAttribute) >>= _)
  rcases addAttributeRemoval source with x | source
  · rfl
  rw [continueWith_ok, exec_bind, exec_liftExcept]
  change _ = settle s (addAttribute source >>= _)
  rcases addAttribute source with x | source
  · rfl
  · exact hcompile source

theorem addOperation_ok {m anchor operation n t : Text} {message : String} (ha : anchor ≠ [])
    (hm : m ≠ []) (hop : m <:+: operation) (hclean : Clean (anchor ++ operation)) (hn : Clean n)
    (h : addOperation m anchor operation message n = .ok t) :
    isIn m t = true ∧ Clean t ∧
      ∀ p, inertAfter p anchor operation = true → count p t = count p n := by
  unfold addOperation at h
  split_ifs at h with hin hcount
  · obtain rfl := Except.ok.inj h
    exact ⟨hin, hn, fun _ _ => rfl⟩
  · rw [not_not] at hcount
    obtain rfl := Except.ok.inj h
    refine ⟨isIn_of_occurs hm (hop.trans ?_), hn.replaceFirst ha hclean,
      fun p hp => count_replaceFirst_of_inertAfter hp n⟩
    exact (List.suffix_append _ _).isInfix.trans (infix_replaceFirst ha (by omega))

/-- The additions leave all markers in the text. -/
theorem operations_ok {n t : Text} (hn : Clean n) (h : operations n = .ok t) :
    (∀ p ∈ markers, isIn p t = true) ∧ Clean t ∧ ∀ p ∈ subjects, count p t = count p n := by
  obtain ⟨-, -, -, -, htype, hremoval, hupdate⟩ := words.nonempty
  obtain ⟨hmt, hmr, hma⟩ := words.marker_nonempty
  obtain ⟨hit, hir, hia⟩ := words.marker_in_operation
  obtain ⟨-, -, hct, hcr, hca⟩ := words.clean
  obtain ⟨hinert₁, hinert₂, hinert₃⟩ := words.inert_operations
  unfold operations at h
  rcases h₁ : addResourceType n with x | n₁
  · rw [h₁] at h
    exact nomatch h
  rw [h₁] at h
  change (addAttributeRemoval n₁ >>= addAttribute) = .ok t at h
  rcases h₂ : addAttributeRemoval n₁ with x | n₂
  · rw [h₂] at h
    exact nomatch h
  rw [h₂] at h
  change addAttribute n₂ = .ok t at h
  obtain ⟨hm₁, hc₁, hk₁⟩ := addOperation_ok hupdate hmt hit hct hn h₁
  obtain ⟨hm₂, hc₂, hk₂⟩ := addOperation_ok htype hmr hir hcr hc₁ h₂
  obtain ⟨hm₃, hc₃, hk₃⟩ := addOperation_ok hremoval hma hia hca hc₂ h
  refine ⟨fun p hp => ?_, hc₃, fun p hp => ?_⟩
  · simp only [markers, List.mem_cons, List.not_mem_nil, or_false] at hp
    rw [isIn_iff] at hm₁ hm₂ ⊢
    rcases hp with rfl | rfl | rfl
    · rw [hk₃ _ (hinert₃ _ (by simp)), hk₂ _ (hinert₂ _ (by simp))]
      exact hm₁
    · rw [hk₃ _ (hinert₃ _ (by simp))]
      exact hm₂
    · exact isIn_iff.1 hm₃
  · rw [hk₃ p (hinert₃ p (by simp [hp])), hk₂ p (hinert₂ p (by simp [hp])), hk₁ p (hinert₁ p hp)]

theorem operations_of_markers {n : Text} (h : ∀ p ∈ markers, isIn p n = true) :
    operations n = .ok n := by
  have h₁ : addResourceType n = .ok n := if_pos (h _ (by simp [markers]))
  have h₂ : addAttributeRemoval n = .ok n := if_pos (h _ (by simp [markers]))
  have h₃ : addAttribute n = .ok n := if_pos (h _ (by simp [markers]))
  rw [operations, h₁]
  change (addAttributeRemoval n >>= addAttribute) = .ok n
  rw [h₂]
  exact h₃

/-! ### The copy line and the old blocks -/

theorem removeLegacy_eq (n : Text) :
    removeLegacy n = replaceFirst legacyResourceTypeOperation [] n := by
  unfold removeLegacy
  split_ifs with h
  · rfl
  · rw [isIn_iff, Nat.not_lt, Nat.le_zero] at h
    exact (replaceFirst_of_count_zero words.nonempty.2.2.1 h).symm

theorem replacePrevious_eq (n : Text) :
    replacePrevious n = replaceFirst previousResourceTypeOperation resourceTypeOperation n := by
  unfold replacePrevious
  split_ifs with h
  · rfl
  · rw [isIn_iff, Nat.not_lt, Nat.le_zero] at h
    exact (replaceFirst_of_count_zero words.nonempty.2.2.2.1 h).symm

/-- What is left of a text without its first legacy block keeps the words apart from it. -/
theorem isIn_removeLegacy {p n : Text} (hp : p ≠ [])
    (hc : clear p legacyResourceTypeOperation = true ∧ count p legacyResourceTypeOperation = 0)
    (h : isIn p n = true) : isIn p (removeLegacy n) = true := by
  rw [removeLegacy_eq]
  rcases Nat.eq_zero_or_pos (count legacyResourceTypeOperation n) with hl | hl
  · rwa [replaceFirst_of_count_zero words.nonempty.2.2.1 hl]
  · obtain ⟨a, b, rfl, -, hreplace, -⟩ := exists_first words.nonempty.2.2.1 hl
    rw [isIn_iff, count_insert hc.1 hp, hc.2] at h
    rw [hreplace, List.append_nil]
    apply isIn_of_occurs hp
    rcases Nat.eq_zero_or_pos (count p a) with ha | ha
    · exact (occurs_of_count_pos hp (by omega)).trans (List.suffix_append a b).isInfix
    · exact (occurs_of_count_pos hp ha).trans (List.prefix_append a b).isInfix

/-- The copy line stands apart from the block that is removed. -/
theorem removeLegacy_around (a b : Text) : ∃ a' b', ∀ w ∈ [resourceTypeValueCopy,
    resourceTypeValueCopyPatch], removeLegacy (a ++ w ++ b) = a' ++ w ++ b' := by
  obtain ⟨-, -, -, hl, hlz, hlp, hlpz⟩ := words.clear_valueCopy
  rcases Nat.eq_zero_or_pos (count legacyResourceTypeOperation a) with ha | ha
  · refine ⟨a, replaceFirst legacyResourceTypeOperation [] b, fun w hw => ?_⟩
    rw [removeLegacy_eq]
    simp only [List.mem_cons, List.not_mem_nil, or_false] at hw
    rcases hw with rfl | rfl
    · exact replaceFirst_after hl words.nonempty.2.2.1 a b ha hlz
    · exact replaceFirst_after hlp words.nonempty.2.2.1 a b ha hlpz
  · refine ⟨replaceFirst legacyResourceTypeOperation [] a, b, fun w hw => ?_⟩
    rw [removeLegacy_eq]
    simp only [List.mem_cons, List.not_mem_nil, or_false] at hw
    rcases hw with rfl | rfl
    · exact replaceFirst_before hl words.nonempty.2.2.1 a b ha
    · exact replaceFirst_before hlp words.nonempty.2.2.1 a b ha

theorem patchValueCopy_cases {n s : Text} (h : patchValueCopy n = .ok s) :
    (isIn resourceTypeValueCopy n = true ∧
        s = replaceFirst resourceTypeValueCopy resourceTypeValueCopyPatch n ∨
      isIn resourceTypeValueCopy n = false ∧ s = n) ∧ isIn resourceTypeValueCopyPatch s = true := by
  unfold patchValueCopy at h
  split_ifs at h with hcopy hpatch
  · obtain rfl := Except.ok.inj h
    exact ⟨.inl ⟨hcopy, rfl⟩, isIn_of_occurs words.nonempty.2.1
      (infix_replaceFirst words.nonempty.1 (isIn_iff.1 hcopy))⟩
  · obtain rfl := Except.ok.inj h
    exact ⟨.inr ⟨Bool.eq_false_iff.2 hcopy, rfl⟩, hpatch⟩

/-- The counts after the first two edits, against those of the text without its first block. -/
theorem counts_of_patchValueCopy {n s : Text} (h : patchValueCopy n = .ok s) :
    (∀ p ∈ [legacyResourceTypeOperation, previousResourceTypeOperation],
      count p (removeLegacy s) = count p (removeLegacy n)) ∧
    count resourceTypeValueCopy (removeLegacy n) =
      count resourceTypeValueCopy (removeLegacy s) +
        if isIn resourceTypeValueCopy n then 1 else 0 := by
  rcases (patchValueCopy_cases h).1 with ⟨hin, rfl⟩ | ⟨hin, rfl⟩
  · obtain ⟨a, b, rfl, -, hreplace, -⟩ := exists_first words.nonempty.1 (isIn_iff.1 hin)
    obtain ⟨a', b', haround⟩ := removeLegacy_around a b
    rw [hreplace, haround _ (by simp), haround _ (by simp), if_pos hin]
    obtain ⟨hcc, hcp, hcz, -⟩ := words.clear_valueCopy
    constructor
    · intro p hp
      refine (count_swap (words.inert_valueCopy p ?_) a' b')
      simp only [List.mem_cons, List.not_mem_nil, or_false] at hp ⊢
      exact hp.elim .inl fun hp => .inr (.inl hp)
    · have hself := count_self words.nonempty.1
      rw [count_insert hcc words.nonempty.1, count_insert hcp words.nonempty.1, hcz, hself]
      omega
  · exact ⟨fun _ _ => rfl, by simp [hin]⟩

/-! ### The second run -/

/-- Nothing is left for a further run to change. -/
def Settled (t : Text) : Prop :=
  count resourceTypeValueCopy t = 0 ∧ count legacyResourceTypeOperation t = 0 ∧
    count previousResourceTypeOperation t = 0

theorem edits_ok {n t : Text} (hn : Clean n) (h : edits n = .ok t) :
    ∃ s, patchValueCopy n = .ok s ∧ (∀ p ∈ markers, isIn p t = true) ∧ Clean t ∧
      isIn resourceTypeValueCopyPatch t = true ∧
      count resourceTypeValueCopy t = count resourceTypeValueCopy (removeLegacy s) ∧
      count legacyResourceTypeOperation t = count legacyResourceTypeOperation (removeLegacy s) ∧
      count previousResourceTypeOperation t =
        count previousResourceTypeOperation (removeLegacy s) - 1 := by
  unfold edits at h
  rcases hs : patchValueCopy n with x | s
  · rw [hs] at h
    exact nomatch h
  rw [hs] at h
  change operations (replacePrevious (removeLegacy s)) = .ok t at h
  obtain ⟨hcases, hpatch⟩ := patchValueCopy_cases hs
  have hclean : Clean s := by
    rcases hcases with ⟨-, rfl⟩ | ⟨-, rfl⟩
    · exact hn.replaceFirst words.nonempty.1 words.clean.1
    · exact hn
  have hclean' : Clean (replacePrevious (removeLegacy s)) := by
    rw [replacePrevious_eq, removeLegacy_eq]
    exact (hclean.replaceFirst words.nonempty.2.2.1 (by simp [Clean])).replaceFirst words.nonempty.2.2.2.1
      words.clean.2.1
  obtain ⟨hmarkers, hct, hcount⟩ := operations_ok hclean' h
  have hsubject : ∀ p ∈ subjects, inert p previousResourceTypeOperation resourceTypeOperation →
      count p t = count p (removeLegacy s) := by
    intro p hp hinert
    rw [hcount p hp, replacePrevious_eq, count_replaceFirst_of_inert hinert]
  refine ⟨s, rfl, hmarkers, hct, ?_, ?_, ?_, ?_⟩
  · have hin := isIn_removeLegacy words.nonempty.2.1 (words.clear_legacy _ List.mem_cons_self) hpatch
    rw [isIn_iff] at hin ⊢
    rwa [hsubject _ (.tail _ (.head _)) (words.inert_previous _ (.tail _ (.head _)))]
  · exact hsubject _ (.head _) (words.inert_previous _ (.head _))
  · exact hsubject _ (.tail _ (.tail _ (.head _))) (words.inert_previous _ (.tail _ (.tail _ (.head _))))
  · obtain ⟨hself, hclear, hzero⟩ := words.clear_previous
    rw [hcount _ (.tail _ (.tail _ (.tail _ (.head _)))), replacePrevious_eq,
      count_replaceFirst_self words.nonempty.2.2.2.1 hself hclear hzero]

theorem patchValueCopy_of_patch {t : Text} (h : isIn resourceTypeValueCopyPatch t = true) :
    patchValueCopy t =
      .ok (replaceFirst resourceTypeValueCopy resourceTypeValueCopyPatch t) := by
  unfold patchValueCopy
  split_ifs with hcopy
  · rfl
  · rw [isIn_iff, Nat.not_lt, Nat.le_zero] at hcopy
    rw [replaceFirst_of_count_zero words.nonempty.1 hcopy]

/-- On a text with all markers a run does the three replacements and nothing else. -/
theorem edits_of_markers {t : Text} (hm : ∀ p ∈ markers, isIn p t = true)
    (hp : isIn resourceTypeValueCopyPatch t = true) :
    edits t = .ok (replacePrevious (removeLegacy
      (replaceFirst resourceTypeValueCopy resourceTypeValueCopyPatch t))) := by
  rw [edits, patchValueCopy_of_patch hp]
  refine operations_of_markers fun p hpm => ?_
  have hne : p ≠ [] := by
    simp only [markers, List.mem_cons, List.not_mem_nil, or_false] at hpm
    rcases hpm with rfl | rfl | rfl
    exacts [words.marker_nonempty.1, words.marker_nonempty.2.1, words.marker_nonempty.2.2]
  rw [replacePrevious_eq, isIn_replaceFirst (words.inert_previous p (.tail _ (.tail _ (.tail _ hpm))))]
  refine isIn_removeLegacy hne (words.clear_legacy p (.tail _ hpm)) ?_
  rw [isIn_replaceFirst (words.inert_valueCopy p (.tail _ (.tail _ hpm)))]
  exact hm p hpm

/-- The three replacements change the length of the text unless they do nothing. -/
theorem replacements_eq_iff (t : Text) :
    replacePrevious (removeLegacy
      (replaceFirst resourceTypeValueCopy resourceTypeValueCopyPatch t)) = t ↔ Settled t := by
  obtain ⟨hcopy, -, hlegacy, hprevious, -⟩ := words.nonempty
  obtain ⟨hlenC, hlenC', hlenL, hlenP, hlenP'⟩ := words.lengths
  rw [replacePrevious_eq, removeLegacy_eq]
  set u := replaceFirst resourceTypeValueCopy resourceTypeValueCopyPatch t with hu
  set v := replaceFirst legacyResourceTypeOperation [] u with hv
  constructor
  · intro heq
    have hu' : count resourceTypeValueCopy t = 0 ∧ u = t ∨ u.length = t.length + 8 := by
      rcases Nat.eq_zero_or_pos (count resourceTypeValueCopy t) with h | h
      · exact .inl ⟨h, replaceFirst_of_count_zero hcopy h⟩
      · have hl : u.length + resourceTypeValueCopy.length =
          t.length + resourceTypeValueCopyPatch.length := length_replaceFirst hcopy h
        exact .inr (by omega)
    have hv' : count legacyResourceTypeOperation u = 0 ∧ v = u ∨ v.length + 8 < u.length := by
      rcases Nat.eq_zero_or_pos (count legacyResourceTypeOperation u) with h | h
      · exact .inl ⟨h, replaceFirst_of_count_zero hlegacy h⟩
      · have hl : v.length + legacyResourceTypeOperation.length = u.length + 0 :=
          length_replaceFirst hlegacy h
        exact .inr (by omega)
    have hw' : count previousResourceTypeOperation v = 0 ∧ t = v ∨ t.length + 8 < v.length := by
      rcases Nat.eq_zero_or_pos (count previousResourceTypeOperation v) with h | h
      · exact .inl ⟨h, heq.symm.trans (replaceFirst_of_count_zero hprevious h)⟩
      · have := length_replaceFirst (q := resourceTypeOperation) hprevious h
        rw [heq] at this
        exact .inr (by omega)
    -- Only a run without any replacement keeps the length.
    rcases hw' with ⟨hP, htv⟩ | hlt
    · have hlen' := congrArg List.length htv
      rcases hv' with ⟨hL, hvu⟩ | hlt
      · have hlen'' := congrArg List.length hvu
        rcases hu' with ⟨hC, hut⟩ | hgt
        · exact ⟨hC, hut ▸ hL, htv ▸ hP⟩
        · omega
      · rcases hu' with ⟨-, hut⟩ | hgt
        · have := congrArg List.length hut
          omega
        · omega
    · rcases hv' with ⟨-, hvu⟩ | hlt' <;> rcases hu' with ⟨-, hut⟩ | hgt
      · have := congrArg List.length hvu
        have := congrArg List.length hut
        omega
      · have := congrArg List.length hvu
        omega
      · have := congrArg List.length hut
        omega
      · omega
  · rintro ⟨hC, hL, hP⟩
    have hut : u = t := replaceFirst_of_count_zero hcopy hC
    have hvt : v = t := by rw [hv, hut, replaceFirst_of_count_zero hlegacy hL]
    rw [hvt, replaceFirst_of_count_zero hprevious hP]

/-- The texts a run leaves settled: without its first legacy block the text has no other, at
most one previous block and at most one copy line, none that the removal has joined. -/
def Converges (n : Text) : Prop :=
  let rest := removeLegacy n
  isIn legacyResourceTypeOperation rest = false ∧ count previousResourceTypeOperation rest ≤ 1 ∧
    count resourceTypeValueCopy rest ≤ 1 ∧
      (isIn resourceTypeValueCopy rest = true → isIn resourceTypeValueCopy n = true)

theorem settled_iff_converges {n t : Text} (hn : Clean n) (h : edits n = .ok t) :
    Settled t ↔ Converges n := by
  obtain ⟨s, hs, -, -, -, hC, hL, hP⟩ := edits_ok hn h
  obtain ⟨hsame, hcopy⟩ := counts_of_patchValueCopy hs
  rw [hsame _ (.head _)] at hL
  rw [hsame _ (.tail _ (.head _))] at hP
  unfold Settled Converges
  simp only
  rw [hC, hL, hP, Bool.eq_false_iff, Ne, isIn_iff, isIn_iff, isIn_iff]
  split_ifs at hcopy with hin
  · rw [isIn_iff] at hin
    constructor
    · rintro ⟨h₁, h₂, h₃⟩
      exact ⟨by omega, by omega, by omega, fun _ => hin⟩
    · rintro ⟨h₁, h₂, h₃, -⟩
      exact ⟨by omega, by omega, by omega⟩
  · rw [isIn_iff] at hin
    constructor
    · rintro ⟨h₁, h₂, h₃⟩
      exact ⟨by omega, by omega, by omega, fun hpos => by omega⟩
    · rintro ⟨h₁, h₂, h₃, h₄⟩
      refine ⟨?_, by omega, by omega⟩
      by_contra hne
      exact hin (h₄ (by omega))

theorem patch_again_iff {compiles : Text → Bool} {s t : Text}
    (h : exec (patchGnocchiResourceType compiles) s = (.ok (), t)) :
    exec (patchGnocchiResourceType compiles) t = (.ok (), t) ↔ Converges (newlines s) := by
  rw [exec_patchGnocchiResourceType] at h
  have hresult := settle_eq_ok h
  rcases ht : edits (newlines s) with x | u
  · rw [ht] at hresult
    exact nomatch hresult
  rw [ht] at hresult
  change (if compiles u then Except.ok u else .error Failure.syntaxError) = .ok t at hresult
  split_ifs at hresult with hcompiles
  obtain rfl := Except.ok.inj hresult
  obtain ⟨_, -, hm, hclean, hpatch, -⟩ := edits_ok (clean_newlines s) ht
  rw [← settled_iff_converges (clean_newlines s) ht, ← replacements_eq_iff,
    exec_patchGnocchiResourceType, newlines_of_clean hclean, edits_of_markers hm hpatch]
  set v := replacePrevious (removeLegacy
    (replaceFirst resourceTypeValueCopy resourceTypeValueCopyPatch u))
  constructor
  · intro hsame
    have := settle_eq_ok hsame
    change (if compiles v then Except.ok v else .error Failure.syntaxError) = .ok u at this
    split_ifs at this
    exact Except.ok.inj this
  · intro hvu
    rw [hvu]
    change settle u (if compiles u then Except.ok u else .error Failure.syntaxError) = _
    rw [if_pos hcompiles]
    rfl

end Yggdrasil.Patching.CeilometerGnocchiResource

namespace Yggdrasil.Patching

open Splice

/-- The texts after which a further run finds nothing to do. The statistics action takes two runs
unless the text has one of its markers. -/
def Patcher.Converges (p : Patcher) (text : Text) : Prop :=
  match p with
  | .zunCapsuleStats => isIn ZunCapsuleStats.previousMarker (newlines text) = true ∨
      isIn ZunCapsuleStats.marker (newlines text) = true
  | .gnocchiResourceType => CeilometerGnocchiResource.Converges (newlines text)
  | _ => True

/-- A successful run is repeated without effect exactly on the texts that converge, and a run that
raises leaves the file as it was. -/
theorem patch_again_iff_converges (compiles : Text → Bool) (path : String) (p : Patcher)
    (s : Text) :
    (∀ t, exec (p.patch compiles path) s = (.ok (), t) →
      (exec (p.patch compiles path) t = (.ok (), t) ↔ p.Converges s)) ∧
    ∀ x, (exec (p.patch compiles path) s).1 = .error x → (exec (p.patch compiles path) s).2 = s := by
  refine ⟨fun t h => ?_, failSafe_patch compiles path p s⟩
  cases p
  case zunCapsuleStats => exact ZunCapsuleStats.patch_again_iff h
  case gnocchiResourceType => exact CeilometerGnocchiResource.patch_again_iff h
  case zunCriV1 => exact iff_of_true (ZunCriV1.patch_again h) trivial
  case zunCriCapsuleStats => exact iff_of_true (ZunCriCapsuleStats.patch_again h) trivial
  case zunCapsuleManager => exact iff_of_true (ZunCriCapsuleStats.patchManager_again h) trivial
  case zunCpuStats => exact iff_of_true (ZunCpuStats.patch_again h) trivial
  case zunWsproxyMtls => exact iff_of_true (ZunWsproxyMtls.patch_again h) trivial
  case gnocchi => exact iff_of_true (CeilometerGnocchiResource.patchGnocchi_again h) trivial
  case rgwClient => exact iff_of_true (CeilometerGnocchiResource.patchRgwClient_again h) trivial
  case resourceDefinitions =>
    exact iff_of_true (CeilometerZunCapsule.patchResourceDefinitions_again h) trivial

namespace ZunCapsuleStats

/-- A controller without the statistics action. -/
def pristine : Text := customActionsAnchor ++ anchor

theorem pristine_words : Clean pristine ∧ isIn customAction pristine = false ∧
    count customActionsAnchor pristine = 1 ∧ isIn marker pristine = false ∧
      isIn previousMarker pristine = false ∧
        count anchor (replaceFirst customActionsAnchor (customActionsAnchor ++ customAction)
          pristine) = 1 := by
  unfold pristine customActionsAnchor anchor customAction marker previousMarker Clean
  repeat rw [String.toList_ofList]
  decide +kernel

theorem exec_patch_pristine (path : String) :
    ∃ t, exec (patch path) pristine = (.ok (), t) := by
  obtain ⟨hclean, haction, hone, hmarker, hprevious, hanchor⟩ := pristine_words
  set source := replaceFirst customActionsAnchor (customActionsAnchor ++ customAction) pristine
  have h₁ : addAction path pristine = .ok source := by
    rw [addAction, if_neg (by rw [haction]; simp), if_neg (not_not.2 hone)]
  have h₂ : addMethod path source = .ok (replaceFirst anchor (method ++ anchor) source) := by
    rw [addMethod, isIn_replaceFirst_after words.inert_action.2,
      isIn_replaceFirst_after words.inert_action.1,
      if_neg (by rw [hprevious]; simp), if_neg (by rw [hmarker]; simp), if_neg (not_not.2 hanchor)]
  refine ⟨replaceFirst anchor (method ++ anchor) source, ?_⟩
  rw [exec_patch, newlines_of_clean hclean, if_neg (by rw [hmarker]; simp), h₁]
  exact congrArg (settle pristine) h₂

end ZunCapsuleStats

/-- The claim of idempotence fails on a controller without the statistics action. -/
theorem patch_not_idempotent :
    ¬∀ (compiles : Text → Bool) (path : String) (p : Patcher) (s t : Text),
      exec (p.patch compiles path) s = (.ok (), t) →
        exec (p.patch compiles path) t = (.ok (), t) := by
  intro h
  obtain ⟨t, ht⟩ := ZunCapsuleStats.exec_patch_pristine "capsules.py"
  have hagain := h (fun _ => true) "capsules.py" .zunCapsuleStats ZunCapsuleStats.pristine t ht
  obtain ⟨hclean, -, -, hmarker, hprevious, -⟩ := ZunCapsuleStats.pristine_words
  have hor := (ZunCapsuleStats.patch_again_iff ht).1 hagain
  rw [newlines_of_clean hclean, hmarker, hprevious] at hor
  simp at hor

end Yggdrasil.Patching
