import Yggdrasil.Patching.Patchers

/-! What a second run of a patcher does. A run that raises writes nothing. A run that succeeds is
repeated without effect where the text it leaves satisfies the guards; two patchers do not always
leave such a text. -/

namespace Yggdrasil.Patching

open Splice

/-! ### Runs -/

section Exec

variable {α β : Type}

@[simp] theorem exec_pure (a : α) (s : Text) : exec (pure a : Patch α) s = (.ok a, s) := rfl

@[simp] theorem exec_throw (x : Failure) (s : Text) :
    exec (throw x : Patch α) s = (.error x, s) := rfl

@[simp] theorem exec_readText (s : Text) : exec readText s = (.ok (newlines s), s) := rfl

@[simp] theorem exec_writeText (t s : Text) : exec (writeText t) s = (.ok (), t) := rfl

def continueWith (k : α → Patch β) : Except Failure α × Text → Except Failure β × Text
  | (.ok a, t) => exec (k a) t
  | (.error x, t) => (.error x, t)

theorem exec_bind (m : Patch α) (k : α → Patch β) (s : Text) :
    exec (m >>= k) s = continueWith k (exec m s) := by
  change (ExceptT.run (m >>= k)).run s = _
  rw [ExceptT.run_bind]
  change (StateT.run (m.run >>= _) s) = _
  rw [StateT.run_bind]
  rcases h : exec m s with ⟨_ | _, t⟩
  · have h' : StateT.run m.run s = (.error _, t) := h
    rw [h']
    rfl
  · have h' : StateT.run m.run s = (.ok _, t) := h
    rw [h']
    rfl

@[simp] theorem continueWith_ok (k : α → Patch β) (a : α) (s : Text) :
    continueWith k (.ok a, s) = exec (k a) s := rfl

@[simp] theorem continueWith_error (k : α → Patch β) (x : Failure) (s : Text) :
    continueWith k (.error x, s) = (.error x, s) := rfl

/-- The end of a patcher that writes what its edits return. -/
def settle (s : Text) : Except Failure Text → Except Failure Unit × Text
  | .ok t => (.ok (), t)
  | .error x => (.error x, s)

theorem settle_eq_ok {s t : Text} {r : Except Failure Text} (h : settle s r = (.ok (), t)) :
    r = .ok t := by
  rcases r with x | u
  · exact absurd (congrArg Prod.fst h) (by simp [settle])
  · exact congrArg Except.ok (congrArg Prod.snd h)

theorem exec_ite {c : Prop} [Decidable c] (m n : Patch α) (s : Text) :
    exec (if c then m else n) s = if c then exec m s else exec n s := by
  split_ifs <;> rfl

theorem exec_liftExcept (r : Except Failure α) (s : Text) : exec (liftExcept r) s = (r, s) := by
  cases r <;> rfl

theorem exec_compileText (compiles : Text → Bool) (t s : Text) :
    exec (compileText compiles t) s = (if compiles t then .ok () else .error .syntaxError, s) := by
  rw [compileText, exec_ite]
  split_ifs <;> rfl

/-! ### Failing runs -/

/-- The computation never writes. -/
def ReadOnly (m : Patch α) : Prop := ∀ s, (exec m s).2 = s

/-- Where the computation raises, it has not written. -/
def FailSafe (m : Patch α) : Prop := ∀ s x, (exec m s).1 = .error x → (exec m s).2 = s

theorem ReadOnly.failSafe {m : Patch α} (h : ReadOnly m) : FailSafe m := fun s _ _ => h s

theorem readOnly_liftExcept (r : Except Failure α) : ReadOnly (liftExcept r) := fun s => by
  rw [exec_liftExcept]

theorem readOnly_compileText (compiles : Text → Bool) (t : Text) :
    ReadOnly (compileText compiles t) := fun s => by rw [exec_compileText]

theorem failSafe_pure (a : α) : FailSafe (pure a : Patch α) := fun _ _ _ => rfl

theorem failSafe_throw (x : Failure) : FailSafe (throw x : Patch α) := fun _ _ _ => rfl

theorem failSafe_writeText (t : Text) : FailSafe (writeText t) := fun _ _ h => nomatch h

theorem failSafe_ite {c : Prop} [Decidable c] {m n : Patch α} (hm : FailSafe m) (hn : FailSafe n) :
    FailSafe (if c then m else n) := by
  split_ifs
  · exact hm
  · exact hn

/-- What a read-only part is followed by decides. -/
theorem failSafe_bind {m : Patch α} {k : α → Patch β} (hm : ReadOnly m)
    (hk : ∀ a, FailSafe (k a)) : FailSafe (m >>= k) := by
  intro s x h
  have hms := hm s
  rw [exec_bind] at h ⊢
  rcases hr : exec m s with ⟨y | a, t⟩ <;> rw [hr] at h hms
  · exact hms
  · obtain rfl : t = s := hms
    exact hk a t x h

theorem failSafe_read {k : Text → Patch β} (hk : ∀ a, FailSafe (k a)) :
    FailSafe (readText >>= k) := failSafe_bind (fun _ => rfl) hk

end Exec

theorem failSafe_replaceFragment (old new : Text) (what path : String) :
    FailSafe (replaceFragment old new what path) :=
  failSafe_read fun _ => failSafe_ite (failSafe_pure _) <|
    failSafe_ite (failSafe_throw _) (failSafe_writeText _)

theorem failSafe_updateDefinition (oldMarker oldDefinition : Text) (message : String)
    (source : Text) :
    FailSafe (CeilometerZunCapsule.updateDefinition oldMarker oldDefinition message source) :=
  failSafe_ite (failSafe_throw _) (failSafe_writeText _)

/-- A run that raises leaves the file as it was. -/
theorem failSafe_patch (compiles : Text → Bool) (path : String) (p : Patcher) :
    FailSafe (p.patch compiles path) := by
  have hcompile : ∀ source, FailSafe (do compileText compiles source; writeText source) :=
    fun source => failSafe_bind (readOnly_compileText compiles source) fun _ => failSafe_writeText _
  cases p
  case zunCapsuleStats =>
    refine failSafe_read fun _ => failSafe_ite (failSafe_pure _) ?_
    refine failSafe_bind (readOnly_liftExcept _) fun _ => ?_
    exact failSafe_bind (readOnly_liftExcept _) fun _ => failSafe_writeText _
  case zunCriV1 =>
    refine failSafe_read fun _ => failSafe_ite (failSafe_pure _) ?_
    exact failSafe_ite (failSafe_throw _) (failSafe_ite (failSafe_throw _) (failSafe_writeText _))
  case zunCriCapsuleStats =>
    refine failSafe_read fun _ => failSafe_ite (failSafe_pure _) ?_
    refine failSafe_ite (failSafe_throw _) (failSafe_ite (failSafe_throw _) ?_)
    exact failSafe_ite (failSafe_throw _) (failSafe_writeText _)
  case zunCapsuleManager =>
    refine failSafe_read fun _ => failSafe_ite (failSafe_pure _) ?_
    exact failSafe_ite (failSafe_throw _) (failSafe_writeText _)
  case zunCpuStats => exact failSafe_replaceFragment _ _ _ _
  case zunWsproxyMtls => exact failSafe_replaceFragment _ _ _ _
  case gnocchi =>
    refine failSafe_read fun _ => failSafe_ite (failSafe_pure _) ?_
    refine failSafe_ite (failSafe_throw _) (failSafe_ite (failSafe_throw _) ?_)
    exact failSafe_ite (failSafe_throw _) (hcompile _)
  case rgwClient =>
    refine failSafe_read fun _ => failSafe_ite (failSafe_pure _) ?_
    exact failSafe_ite (failSafe_throw _) (hcompile _)
  case gnocchiResourceType =>
    refine failSafe_read fun _ => failSafe_bind (readOnly_liftExcept _) fun _ => ?_
    refine failSafe_bind (readOnly_liftExcept _) fun _ => ?_
    refine failSafe_bind (readOnly_liftExcept _) fun _ => ?_
    exact failSafe_bind (readOnly_liftExcept _) fun _ => hcompile _
  case resourceDefinitions =>
    refine failSafe_read fun _ => failSafe_ite (failSafe_pure _) ?_
    refine failSafe_ite (failSafe_updateDefinition _ _ _ _) ?_
    refine failSafe_ite (failSafe_updateDefinition _ _ _ _) ?_
    exact failSafe_ite (failSafe_throw _) (failSafe_ite (failSafe_throw _) (failSafe_writeText _))

/-! ### Texts without carriage returns -/

/-- A text that reading leaves as it is. -/
def Clean (text : Text) : Prop := '\r' ∉ text

theorem clean_of_all {text : Text} (h : text.all (· != '\r') = true) : Clean text := fun hm => by
  simpa using List.all_eq_true.1 h _ hm

theorem newlines_of_clean : ∀ {text : Text}, Clean text → newlines text = text
  | [], _ => rfl
  | c :: text, h => by
    have hc : c ≠ '\r' := fun e => h (e ▸ List.mem_cons_self)
    have ht : Clean text := fun hm => h (List.mem_cons_of_mem c hm)
    have hcons : newlines (c :: text) = c :: newlines text := by
      rw [newlines.eq_def]
      split
      · rename_i heq
        exact absurd (List.cons.inj heq).1 hc
      · rename_i heq
        exact absurd (List.cons.inj heq).1 hc
      · rename_i heq
        obtain ⟨rfl, rfl⟩ := List.cons.inj heq
        rfl
      · rename_i heq
        exact nomatch heq
    rw [hcons, newlines_of_clean ht]

theorem clean_newlines (text : Text) : Clean (newlines text) := by
  induction text using newlines.induct with
  | case1 text ih => simpa [newlines, Clean] using ih
  | case2 text h ih =>
    rw [newlines.eq_2 text h]
    simpa [Clean] using ih
  | case3 c text h₁ h₂ ih =>
    have hc : c ≠ '\r' := h₂
    rw [newlines.eq_3 c text h₁ h₂]
    simpa [Clean, hc.symm] using ih
  | case4 => simp [newlines, Clean]

theorem Clean.replaceFirst {o r s : Text} (ho : o ≠ []) (hs : Clean s) (hr : Clean r) :
    Clean (replaceFirst o r s) := fun h => (mem_replaceFirst ho h).elim hs hr

theorem Clean.replaceAll {o r s : Text} (hs : Clean s) (hr : Clean r) :
    Clean (replaceAll o r s) := fun h => (mem_replaceAll h).elim hs hr

theorem isIn_iff {p s : Text} : isIn p s = true ↔ 0 < count p s := decide_eq_true_iff

theorem isIn_of_occurs {p s : Text} (hp : p ≠ []) (h : p <:+: s) : isIn p s = true :=
  isIn_iff.2 (count_pos_of_occurs hp h)

theorem isIn_replaceFirst {p o r : Text} (h : inert p o r = true) (s : Text) :
    isIn p (Splice.replaceFirst o r s) = isIn p s := by
  rw [isIn, isIn, count_replaceFirst_of_inert h]

theorem isIn_replaceFirst_after {p o r : Text} (h : inertAfter p o r = true) (s : Text) :
    isIn p (Splice.replaceFirst o (o ++ r) s) = isIn p s := by
  rw [isIn, isIn, count_replaceFirst_of_inertAfter h]

/-- A patcher with a guard repeats without effect where what it writes satisfies the guard. -/
theorem again_of_guard {c : Text → Bool} {k : Text → Patch Unit} {s t : Text}
    (h : exec (do let source ← readText; if c source then pure () else k source) s = (.ok (), t))
    (hk : exec (k (newlines s)) s = (.ok (), t) → Clean t ∧ c t = true) :
    exec (do let source ← readText; if c source then pure () else k source) t = (.ok (), t) := by
  have hrun : ∀ u, exec (do let source ← readText; if c source then pure () else k source) u =
      if c (newlines u) then (.ok (), u) else exec (k (newlines u)) u := by
    intro u
    rw [exec_bind, exec_readText, continueWith_ok, exec_ite]
    rfl
  rw [hrun] at h
  split_ifs at h with hc
  · obtain rfl : s = t := congrArg Prod.snd h
    rw [hrun, if_pos hc]
  · obtain ⟨hclean, hct⟩ := hk h
    rw [hrun, newlines_of_clean hclean, if_pos hct]

theorem eq_of_exec_writeText {u s t : Text} (h : exec (writeText u) s = (.ok (), t)) : u = t :=
  congrArg Prod.snd h

theorem eq_of_exec_compile {compiles : Text → Bool} {u s t : Text}
    (h : exec (do compileText compiles u; writeText u) s = (.ok (), t)) : u = t := by
  rw [exec_bind, exec_compileText] at h
  split_ifs at h
  · exact congrArg Prod.snd h
  · exact absurd (congrArg Prod.fst h) (by simp)

theorem ne_ok_of_throw {x : Failure} {s t : Text}
    (h : exec (throw x : Patch Unit) s = (.ok (), t)) : False := by
  rw [exec_throw] at h
  exact absurd (congrArg Prod.fst h) (by simp)

/-! ### The statistics action -/

namespace ZunCapsuleStats

theorem exec_patch (path : String) (s : Text) :
    exec (patch path) s =
      if isIn marker (newlines s) && isIn customAction (newlines s) then (.ok (), s)
      else settle s (addAction path (newlines s) >>= addMethod path) := by
  rw [patch, exec_bind, exec_readText, continueWith_ok, exec_ite]
  split_ifs
  · rfl
  · rw [exec_bind, exec_liftExcept]
    rcases addAction path (newlines s) with x | t
    · rfl
    · rw [continueWith_ok, exec_bind, exec_liftExcept]
      change _ = settle s (addMethod path t)
      rcases addMethod path t with x | u <;> rfl

/-- What the proofs use of the words of the script: a certificate that is checked once. -/
structure Words : Type where
  nonempty : marker ≠ [] ∧ previousMarker ≠ [] ∧ customAction ≠ [] ∧
    customActionsAnchor ≠ [] ∧ anchor ≠ []
  clean : Clean marker ∧ Clean (customActionsAnchor ++ customAction) ∧
    Clean (method ++ anchor)
  inert_action : inertAfter marker customActionsAnchor customAction ∧
    inertAfter previousMarker customActionsAnchor customAction
  inert_marker : inert customAction previousMarker marker
  inert_method : inert customAction anchor (method ++ anchor) ∧
    inert marker anchor (method ++ anchor)
  marker_in_method : previousMarker <:+: method

def words : Words where
  nonempty := by
    unfold marker previousMarker customAction customActionsAnchor anchor
    repeat rw [String.toList_ofList]
    decide
  clean := by
    unfold marker customActionsAnchor customAction method anchor Clean
    repeat rw [String.toList_ofList]
    decide +kernel
  inert_action := by
    unfold marker previousMarker customActionsAnchor customAction
    repeat rw [String.toList_ofList]
    decide +kernel
  inert_marker := by
    unfold marker previousMarker customAction
    repeat rw [String.toList_ofList]
    decide +kernel
  inert_method := by
    unfold marker customAction anchor method
    repeat rw [String.toList_ofList]
    decide +kernel
  marker_in_method := by
    unfold previousMarker method
    repeat rw [String.toList_ofList]
    decide +kernel

theorem addAction_ok {path : String} {n t : Text} (h : addAction path n = .ok t) (hn : Clean n) :
    isIn customAction t = true ∧ isIn marker t = isIn marker n ∧
      isIn previousMarker t = isIn previousMarker n ∧ Clean t := by
  unfold addAction at h
  split_ifs at h with hin hcount
  · obtain rfl := Except.ok.inj h
    exact ⟨hin, rfl, rfl, hn⟩
  · obtain rfl := Except.ok.inj h
    have hpos : 0 < count customActionsAnchor n := by omega
    refine ⟨isIn_of_occurs words.nonempty.2.2.1 ?_, isIn_replaceFirst_after words.inert_action.1 n,
      isIn_replaceFirst_after words.inert_action.2 n,
      hn.replaceFirst words.nonempty.2.2.2.1 words.clean.2.1⟩
    exact (List.suffix_append _ _).isInfix.trans (infix_replaceFirst words.nonempty.2.2.2.1 hpos)

theorem addMethod_ok {path : String} {n t : Text} (h : addMethod path n = .ok t) (hn : Clean n)
    (ha : isIn customAction n = true) :
    isIn customAction t = true ∧ Clean t ∧
      (isIn previousMarker n = true ∨ isIn marker n = true → isIn marker t = true) ∧
      (¬(isIn previousMarker n = true ∨ isIn marker n = true) →
        isIn previousMarker t = true ∧ isIn marker t = false) := by
  unfold addMethod at h
  split_ifs at h with hprev hmark hcount
  · obtain rfl := Except.ok.inj h
    refine ⟨(isIn_replaceFirst words.inert_marker n).trans ha,
      hn.replaceFirst words.nonempty.2.1 words.clean.1, fun _ => ?_,
      fun hnot => absurd (.inl hprev) hnot⟩
    exact isIn_of_occurs words.nonempty.1 (infix_replaceFirst words.nonempty.2.1 (isIn_iff.1 hprev))
  · obtain rfl := Except.ok.inj h
    exact ⟨ha, hn, fun _ => hmark, fun hnot => absurd (.inr hmark) hnot⟩
  · obtain rfl := Except.ok.inj h
    have hpos : 0 < count anchor n := by omega
    refine ⟨(isIn_replaceFirst words.inert_method.1 n).trans ha,
      hn.replaceFirst words.nonempty.2.2.2.2 words.clean.2.2,
      fun hor => (hor.elim hprev hmark).elim, fun _ => ⟨?_, ?_⟩⟩
    · refine isIn_of_occurs words.nonempty.2.1 (words.marker_in_method.trans ?_)
      exact (List.prefix_append _ _).isInfix.trans (infix_replaceFirst words.nonempty.2.2.2.2 hpos)
    · rw [isIn_replaceFirst words.inert_method.2 n]
      exact Bool.eq_false_iff.2 hmark

/-- The method it adds carries the marker of the version before, which the next run replaces. -/
theorem patch_again_iff {path : String} {s t : Text} (h : exec (patch path) s = (.ok (), t)) :
    exec (patch path) t = (.ok (), t) ↔
      isIn previousMarker (newlines s) = true ∨ isIn marker (newlines s) = true := by
  rw [exec_patch] at h
  split_ifs at h with hguard
  · obtain rfl : s = t := congrArg Prod.snd h
    rw [exec_patch, if_pos hguard]
    exact iff_of_true rfl (.inr (Bool.and_eq_true_iff.1 hguard).1)
  · obtain ⟨u, hu, ht⟩ : ∃ u, addAction path (newlines s) = .ok u ∧ addMethod path u = .ok t := by
      have hbind := settle_eq_ok h
      rcases hu : addAction path (newlines s) with x | u
      · rw [hu] at hbind
        exact nomatch hbind
      · exact ⟨u, rfl, by rw [hu] at hbind; exact hbind⟩
    obtain ⟨hau, hmu, hpu, hcu⟩ := addAction_ok hu (clean_newlines s)
    obtain ⟨hat, hct, hyes, hno⟩ := addMethod_ok ht hcu hau
    rw [hmu, hpu] at hyes hno
    rw [exec_patch, newlines_of_clean hct]
    by_cases hor : isIn previousMarker (newlines s) = true ∨ isIn marker (newlines s) = true
    · rw [if_pos (by rw [hyes hor, hat]; rfl)]
      exact iff_of_true rfl hor
    · obtain ⟨hpt, hmt⟩ := hno hor
      rw [if_neg (by rw [hmt]; simp), show addAction path t = .ok t from if_pos hat]
      refine iff_of_false (fun hsame => ?_) hor
      have hagain : addMethod path t = .ok t := settle_eq_ok hsame
      rw [addMethod, if_pos hpt] at hagain
      have hin : isIn marker (replaceFirst previousMarker marker t) = true :=
        isIn_of_occurs words.nonempty.1 (infix_replaceFirst words.nonempty.2.1 (isIn_iff.1 hpt))
      rw [Except.ok.inj hagain, hmt] at hin
      exact nomatch hin

end ZunCapsuleStats

/-! ### The CRI driver -/

namespace ZunCriV1

/-- What the proofs use of the words of the script. -/
structure Words : Type where
  nonempty : compatibilityChannel ≠ [] ∧ newStubs ≠ [] ∧ driverClass ≠ [] ∧ oldStubs ≠ []
  clean : Clean (compatibilityChannel ++ "\n\n".toList ++ driverClass) ∧ Clean newStubs
  clear_stubs : clear oldStubs driverClass ∧ count oldStubs driverClass = 0 ∧
      clear oldStubs (compatibilityChannel ++ "\n\n".toList ++ driverClass) ∧
      count oldStubs (compatibilityChannel ++ "\n\n".toList ++ driverClass) = 0

def words : Words where
  nonempty := by
    unfold compatibilityChannel newStubs driverClass oldStubs
    repeat rw [String.toList_ofList]
    exact ⟨List.cons_ne_nil _ _, List.cons_ne_nil _ _, List.cons_ne_nil _ _, List.cons_ne_nil _ _⟩
  clean := by
    refine ⟨clean_of_all ?_, clean_of_all ?_⟩
    · unfold compatibilityChannel driverClass
      repeat rw [String.toList_ofList]
      decide +kernel
    · unfold newStubs
      rw [String.toList_ofList]
      decide +kernel
  clear_stubs := by
    unfold oldStubs driverClass compatibilityChannel
    repeat rw [String.toList_ofList]
    decide +kernel

/-- The second replacement leaves what the first put in place. -/
theorem infix_replaceFirst_stubs {w s : Text} (hw : clear oldStubs w = true)
    (hc : count oldStubs w = 0) (h : w <:+: s) : w <:+: replaceFirst oldStubs newStubs s := by
  obtain ⟨a, b, rfl⟩ := h
  rcases Nat.eq_zero_or_pos (count oldStubs a) with ha | ha
  · rw [replaceFirst_after hw words.nonempty.2.2.2 a b ha hc]
    exact ⟨a, _, rfl⟩
  · rw [replaceFirst_before hw words.nonempty.2.2.2 a b ha]
    exact ⟨_, b, rfl⟩

theorem patch_again {path : String} {s t : Text} (h : exec (patch path) s = (.ok (), t)) :
    exec (patch path) t = (.ok (), t) := by
  refine again_of_guard (c := fun source => isIn compatibilityChannel source && isIn newStubs source)
    h fun hk => ?_
  simp only [exec_ite] at hk
  split_ifs at hk with hpart hcount
  · exact (ne_ok_of_throw hk).elim
  · exact (ne_ok_of_throw hk).elim
  · rw [not_or, not_not, not_not] at hcount
    obtain rfl := eq_of_exec_writeText hk
    refine ⟨((clean_newlines s).replaceFirst words.nonempty.2.2.1 words.clean.1).replaceFirst words.nonempty.2.2.2
      words.clean.2, ?_⟩
    obtain ⟨hclass, hclassz, hclear, hzero⟩ := words.clear_stubs
    have hchannel := infix_replaceFirst_stubs hclear hzero
      (infix_replaceFirst (r := compatibilityChannel ++ "\n\n".toList ++ driverClass) words.nonempty.2.2.1
        (show 0 < count driverClass (newlines s) by omega))
    have hstubs : newStubs <:+: replaceFirst oldStubs newStubs (replaceFirst driverClass
        (compatibilityChannel ++ "\n\n".toList ++ driverClass) (newlines s)) := by
      apply infix_replaceFirst words.nonempty.2.2.2
      rw [count_replaceFirst_of_inert (inert_of_count_zero words.nonempty.2.2.2
        words.nonempty.2.2.1 hclass hclear hclassz hzero)]
      omega
    rw [Bool.and_eq_true]
    refine ⟨isIn_of_occurs words.nonempty.1 (List.IsInfix.trans ?_ hchannel), isIn_of_occurs words.nonempty.2.1 hstubs⟩
    exact ⟨[], _, by rw [List.nil_append, List.append_assoc]⟩

end ZunCriV1

namespace ZunCriCapsuleStats

/-- What the proofs use of the words of the two scripts. -/
structure Words : Type where
  nonempty : marker ≠ [] ∧ importAnchor ≠ [] ∧ initAnchor ≠ [] ∧ methodAnchor ≠ [] ∧
    managerMarker ≠ [] ∧ managerOld ≠ []
  clean : Clean (importAnchor ++ importThreading) ∧ Clean (initAnchor ++ statsCache) ∧
    Clean (method ++ methodAnchor) ∧ Clean managerNew
  marker_in_method : marker <:+: method ∧ managerMarker <:+: managerNew
  inert_anchor : inertAfter methodAnchor importAnchor importThreading ∧
    inertAfter methodAnchor initAnchor statsCache

def words : Words where
  nonempty := by
    unfold marker importAnchor initAnchor methodAnchor managerMarker managerOld
    repeat rw [String.toList_ofList]
    decide
  clean := by
    unfold importAnchor importThreading initAnchor statsCache method methodAnchor managerNew Clean
    rw [String.toList_append]
    repeat rw [String.toList_ofList]
    decide +kernel
  marker_in_method := by
    unfold marker method managerMarker managerNew
    repeat rw [String.toList_ofList]
    decide +kernel
  inert_anchor := by
    unfold methodAnchor importAnchor importThreading initAnchor statsCache
    rw [String.toList_append]
    repeat rw [String.toList_ofList]
    decide +kernel

theorem patch_again {path : String} {s t : Text} (h : exec (patch path) s = (.ok (), t)) :
    exec (patch path) t = (.ok (), t) := by
  refine again_of_guard (c := isIn marker) h fun hk => ?_
  simp only [exec_ite] at hk
  split_ifs at hk with himport hinit hmethod
  · exact (ne_ok_of_throw hk).elim
  · exact (ne_ok_of_throw hk).elim
  · exact (ne_ok_of_throw hk).elim
  · rw [not_not] at hmethod
    obtain rfl := eq_of_exec_writeText hk
    constructor
    · exact (((clean_newlines s).replaceFirst words.nonempty.2.1 words.clean.1).replaceFirst words.nonempty.2.2.1
        words.clean.2.1).replaceFirst words.nonempty.2.2.2.1 words.clean.2.2.1
    · refine isIn_of_occurs words.nonempty.1 (words.marker_in_method.1.trans ?_)
      refine (List.prefix_append _ _).isInfix.trans (infix_replaceFirst words.nonempty.2.2.2.1 ?_)
      rw [count_replaceFirst_of_inertAfter words.inert_anchor.2,
        count_replaceFirst_of_inertAfter words.inert_anchor.1]
      omega

theorem patchManager_again {path : String} {s t : Text}
    (h : exec (patchManager path) s = (.ok (), t)) : exec (patchManager path) t = (.ok (), t) := by
  refine again_of_guard (c := isIn managerMarker) h fun hk => ?_
  simp only [exec_ite] at hk
  split_ifs at hk with hold
  · exact (ne_ok_of_throw hk).elim
  · rw [not_not] at hold
    obtain rfl := eq_of_exec_writeText hk
    refine ⟨(clean_newlines s).replaceFirst words.nonempty.2.2.2.2.2 words.clean.2.2.2, ?_⟩
    refine isIn_of_occurs words.nonempty.2.2.2.2.1 (words.marker_in_method.2.trans ?_)
    exact infix_replaceFirst words.nonempty.2.2.2.2.2 (by omega)

end ZunCriCapsuleStats

/-! ### Replacing a fragment -/

/-- A fragment with what is put in its place, which neither has nor completes another. -/
structure Fragment (old new : Text) : Type where
  old_ne : old ≠ []
  new_ne : new ≠ []
  clear_old : clear old old = true
  clear_new : clear old new = true
  count_new : count old new = 0
  clean : Clean new

theorem replaceFragment_again {old new : Text} (f : Fragment old new) {what path : String}
    {s t : Text} (h : exec (replaceFragment old new what path) s = (.ok (), t)) :
    exec (replaceFragment old new what path) t = (.ok (), t) := by
  refine again_of_guard (c := fun source => isIn new source && !isIn old source) h fun hk => ?_
  rw [exec_ite] at hk
  split_ifs at hk with hcount
  · exact (ne_ok_of_throw hk).elim
  · rw [not_not] at hcount
    obtain rfl := eq_of_exec_writeText hk
    refine ⟨(clean_newlines s).replaceAll f.clean, ?_⟩
    obtain ⟨a, b, -, ha, hb, hreplace⟩ := exists_only f.old_ne f.clear_old hcount
    have hold : count old (a ++ new ++ b) = 0 := by
      rw [count_insert f.clear_new f.old_ne, ha, hb, f.count_new]
    rw [hreplace, Bool.and_eq_true, Bool.not_eq_true']
    refine ⟨isIn_of_occurs f.new_ne ⟨a, b, rfl⟩, ?_⟩
    rw [isIn, hold]
    rfl

def ZunCpuStats.fragment : Fragment ZunCpuStats.old ZunCpuStats.new where
  old_ne := by
    unfold ZunCpuStats.old
    repeat rw [String.toList_ofList]
    exact List.cons_ne_nil _ _
  new_ne := by
    unfold ZunCpuStats.new
    repeat rw [String.toList_ofList]
    exact List.cons_ne_nil _ _
  clear_old := by
    unfold ZunCpuStats.old
    repeat rw [String.toList_ofList]
    decide +kernel
  clear_new := by
    unfold ZunCpuStats.old ZunCpuStats.new
    repeat rw [String.toList_ofList]
    decide +kernel
  count_new := by
    unfold ZunCpuStats.old ZunCpuStats.new
    repeat rw [String.toList_ofList]
    decide +kernel
  clean := clean_of_all <| by
    unfold ZunCpuStats.new
    rw [String.toList_ofList]
    decide +kernel

theorem ZunCpuStats.patch_again {path : String} {s t : Text}
    (h : exec (ZunCpuStats.patch path) s = (.ok (), t)) :
    exec (ZunCpuStats.patch path) t = (.ok (), t) := replaceFragment_again ZunCpuStats.fragment h

def ZunWsproxyMtls.fragment : Fragment ZunWsproxyMtls.old ZunWsproxyMtls.new where
  old_ne := by
    unfold ZunWsproxyMtls.old
    repeat rw [String.toList_ofList]
    exact List.cons_ne_nil _ _
  new_ne := by
    unfold ZunWsproxyMtls.new
    repeat rw [String.toList_ofList]
    exact List.cons_ne_nil _ _
  clear_old := by
    unfold ZunWsproxyMtls.old
    repeat rw [String.toList_ofList]
    decide +kernel
  clear_new := by
    unfold ZunWsproxyMtls.old ZunWsproxyMtls.new
    repeat rw [String.toList_ofList]
    decide +kernel
  count_new := by
    unfold ZunWsproxyMtls.old ZunWsproxyMtls.new
    repeat rw [String.toList_ofList]
    decide +kernel
  clean := clean_of_all <| by
    unfold ZunWsproxyMtls.new
    rw [String.toList_ofList]
    decide +kernel

theorem ZunWsproxyMtls.patch_again {path : String} {s t : Text}
    (h : exec (ZunWsproxyMtls.patch path) s = (.ok (), t)) :
    exec (ZunWsproxyMtls.patch path) t = (.ok (), t) := replaceFragment_again ZunWsproxyMtls.fragment h

/-! ### The Ceilometer publisher and its RGW client -/

namespace CeilometerGnocchiResource

/-- What the proofs use of the words of the first two scripts. -/
structure PublisherWords : Type where
  nonempty : createResource ≠ [] ∧ gnocchiMarker ≠ [] ∧ returnJson ≠ [] ∧ rgwMarker ≠ []
  marker_in_method : gnocchiMarker <:+: gnocchiMethod ∧ rgwMarker <:+: rgwMethod
  clean : Clean (gnocchiMethod ++ createResource) ∧ Clean normalizedEventAttributes ∧
    Clean normalizedSampleAttributes ∧ Clean (rgwMethod ++ returnJson)
  /-- The attributes that are replaced do not touch the marker. -/
  clear_marker : ∀ p ∈ [eventAttributes, sampleAttributes],
    clear p gnocchiMarker = true ∧ p ≠ [] ∧ count p gnocchiMarker = 0

def publisherWords : PublisherWords where
  nonempty := by
    unfold createResource gnocchiMarker returnJson rgwMarker
    repeat rw [String.toList_ofList]
    decide
  marker_in_method := by
    unfold gnocchiMarker gnocchiMethod rgwMarker rgwMethod
    repeat rw [String.toList_ofList]
    decide +kernel
  clean := by
    unfold gnocchiMethod createResource normalizedEventAttributes normalizedSampleAttributes
      rgwMethod returnJson Clean
    rw [String.toList_append]
    repeat rw [String.toList_ofList]
    decide +kernel
  clear_marker := by
    unfold eventAttributes sampleAttributes gnocchiMarker
    repeat rw [String.toList_ofList]
    decide +kernel

theorem patchGnocchi_again {compiles : Text → Bool} {s t : Text}
    (h : exec (patchGnocchi compiles) s = (.ok (), t)) :
    exec (patchGnocchi compiles) t = (.ok (), t) := by
  obtain ⟨⟨hcreate, hne, -⟩, ⟨hmarker, -⟩, ⟨hclean, hclean₁, hclean₂, -⟩, hpass⟩ := publisherWords
  refine again_of_guard (c := isIn gnocchiMarker) h fun hk => ?_
  simp only [exec_ite] at hk
  split_ifs at hk with hcount
  · exact (ne_ok_of_throw hk).elim
  · exact (ne_ok_of_throw hk).elim
  · exact (ne_ok_of_throw hk).elim
  · rw [not_not] at hcount
    obtain rfl := eq_of_exec_compile hk
    obtain ⟨hec, hen, hez⟩ := hpass _ (.head _)
    obtain ⟨hsc, hsn, hsz⟩ := hpass _ (.tail _ (.head _))
    refine ⟨(((clean_newlines s).replaceFirst hcreate hclean).replaceAll hclean₁).replaceAll
      hclean₂, isIn_of_occurs hne ?_⟩
    refine infix_replaceAll hsc hsn hsz (infix_replaceAll hec hen hez ?_)
    refine hmarker.trans ((List.prefix_append gnocchiMethod createResource).isInfix.trans ?_)
    exact infix_replaceFirst hcreate (by omega)

theorem patchRgwClient_again {compiles : Text → Bool} {s t : Text}
    (h : exec (patchRgwClient compiles) s = (.ok (), t)) :
    exec (patchRgwClient compiles) t = (.ok (), t) := by
  obtain ⟨⟨-, -, hreturn, hne⟩, ⟨-, hmarker⟩, ⟨-, -, -, hclean⟩, -⟩ := publisherWords
  refine again_of_guard (c := isIn rgwMarker) h fun hk => ?_
  rw [exec_ite] at hk
  split_ifs at hk with hcount
  · exact (ne_ok_of_throw hk).elim
  · rw [not_not] at hcount
    obtain rfl := eq_of_exec_compile hk
    refine ⟨(clean_newlines s).replaceFirst hreturn hclean, isIn_of_occurs hne ?_⟩
    refine hmarker.trans ((List.prefix_append rgwMethod returnJson).isInfix.trans ?_)
    exact infix_replaceFirst hreturn (by omega)

end CeilometerGnocchiResource

/-! ### The meter mapping -/

namespace CeilometerZunCapsule

theorem clean_definition : Clean (marker ++ definition) := by
  unfold marker definition Clean
  repeat rw [String.toList_ofList]
  decide +kernel

theorem marker_ne_nil : marker ≠ [] := by
  unfold marker
  rw [String.toList_ofList]
  decide

theorem clean_rstrip {s : Text} (h : Clean s) : Clean (rstrip s) := by
  intro hm
  rw [rstrip, List.mem_reverse] at hm
  exact h (List.mem_reverse.1 (List.dropWhile_subset _ hm))

/-- What an update writes carries the marker. -/
theorem updateDefinition_ok {oldMarker oldDefinition n s t : Text} {message : String}
    (ho : oldMarker ≠ []) (hn : Clean n)
    (h : exec (updateDefinition oldMarker oldDefinition message n) s = (.ok (), t)) :
    Clean t ∧ isIn marker t = true := by
  rw [updateDefinition, exec_ite] at h
  split_ifs at h with hcount
  · exact (ne_ok_of_throw h).elim
  · rw [not_not] at hcount
    have hne : oldMarker ++ oldDefinition ≠ [] := fun e => ho (List.append_eq_nil_iff.1 e).1
    obtain rfl := eq_of_exec_writeText h
    refine ⟨hn.replaceFirst hne clean_definition, isIn_of_occurs marker_ne_nil ?_⟩
    exact (List.prefix_append marker definition).isInfix.trans (infix_replaceFirst hne (by omega))

theorem patchResourceDefinitions_again {s t : Text}
    (h : exec patchResourceDefinitions s = (.ok (), t)) :
    exec patchResourceDefinitions t = (.ok (), t) := by
  have hmarkers : previousMarker ≠ [] ∧ legacyMarker ≠ [] := by
    unfold previousMarker legacyMarker
    repeat rw [String.toList_ofList]
    decide
  refine again_of_guard (c := isIn marker) h fun hk => ?_
  simp only [exec_ite] at hk
  split_ifs at hk
  · exact updateDefinition_ok hmarkers.1 (clean_newlines s) hk
  · exact updateDefinition_ok hmarkers.2 (clean_newlines s) hk
  · exact (ne_ok_of_throw hk).elim
  · exact (ne_ok_of_throw hk).elim
  · obtain rfl := eq_of_exec_writeText hk
    constructor
    · have hbase := clean_rstrip (clean_newlines s)
      have hdef := clean_definition
      unfold Clean at hbase hdef ⊢
      simp only [List.mem_append, not_or] at hdef ⊢
      exact ⟨⟨⟨hbase, by decide⟩, hdef.1⟩, hdef.2⟩
    · exact isIn_of_occurs marker_ne_nil ⟨rstrip (newlines s) ++ ['\n'], definition, rfl⟩

end CeilometerZunCapsule

end Yggdrasil.Patching
