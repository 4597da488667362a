import Yggdrasil.Deletion.Worlds

/-! Exit status 2 on a report file means that nothing was deleted exactly when the run
meets the condition of `UsageExitSafe`. -/

namespace Yggdrasil.Deletion

open Effect Effect.Program Python

/-- In every world that has this report file, exit status 2 means that nothing was deleted. -/
def UsageExitClean (o : Options) (path : String) (file : Read) : Prop :=
  ∀ w : World, w.read [] path = file → ∀ fuel,
    ((main w fuel o (.report path)).run []).1 = .value 2 →
      Untouched ((main w fuel o (.report path)).run []).2

theorem usageExitClean_of_safe {o : Options} {path : String} {file : Read}
    (h : UsageExitSafe o file) : UsageExitClean o path file := by
  intro w hw fuel hexit
  have hspec := (main_usageExit fuel hw h).spec [] rfl
  rcases hr : (main w fuel o (.report path)).run [] with ⟨n | x | _, s⟩ <;> rw [hr] at hspec hexit
  · simp only [Outcome.value.injEq] at hexit
    simpa using hspec hexit
  · simp at hexit
  · simp at hexit

/-! ### Necessity -/

variable {w : World} {o : Options} {path : String} {file : Read} {report : Mapping}
  {operations : List Operation}

/-- The plan of a report that is not blocked. -/
theorem triple_checkedPlan (hb : blockingErrors report o = [])
    (hp : planDeletions report = .ok (operations, [])) :
    Triple False Untouched (checkedPlan o report)
      (fun r t => r = operations ∧ Untouched t) (fun _ _ => False) := by
  unfold checkedPlan
  refine triple_bind (M := fun _ => Untouched) ?_ fun _ => triple_ite (fun hne => ?_) fun _ => ?_
  · exact triple_foldlM (I := fun _ => Untouched)
      (fun _ _ _ => triple_print fun _ ht => ht.snoc rfl) ()
  · exact absurd hb hne
  · refine triple_bind (M := fun r t => r = (operations, []) ∧ Untouched t) ?_ fun r => ?_
    · unfold planOrRaise
      rw [hp]
      exact triple_pure fun _ ht => ⟨rfl, ht⟩
    · refine triple_intro fun t ht => ?_
      obtain ⟨rfl, ht⟩ := ht
      exact triple_ite (fun hne => absurd rfl hne) fun _ => triple_pure fun _ hu => ⟨rfl, hu ▸ ht⟩

/-- A run whose execution ends in a late usage error exits with status 2. -/
theorem triple_main_late (fuel : ℕ) (hw : w.read [] path = file)
    (hfile : file.report = .ok report) (hb : blockingErrors report o = [])
    (hp : planDeletions report = .ok (operations, [])) (hyes : o.yes = true)
    (hne : operations ≠ [])
    (h : Triple False Untouched (execute w fuel o (.report path) operations)
      (fun _ _ => False) LateUsage) :
    Triple False (fun t => t = []) (main w fuel o (.report path))
      (fun n t => n = 2 ∧ Touched t) (fun _ _ => False) := by
  unfold main
  refine triple_handle (M := LateUsage) ?_ fun x => ?_
  · unfold body
    refine triple_bind (M := fun r t => r = report ∧ Untouched t) ?_ fun r => ?_
    · refine triple_bind (M := fun answer t => answer = file ∧ Untouched t)
        (triple_ask fun t ht => ?_) fun answer => triple_intro fun t ht => ?_
      · subst ht
        exact ⟨hw, by simp [Untouched, Event.isDeletion]⟩
      · obtain ⟨rfl, ht⟩ := ht
        rw [hfile]
        exact triple_pure fun _ hu => ⟨rfl, hu ▸ ht⟩
    · refine triple_intro fun t ht => ?_
      obtain ⟨rfl, ht⟩ := ht
      unfold deleteReport
      refine triple_bind ((triple_checkedPlan hb hp).consequence (fun _ hu => hu ▸ ht)
        (fun _ _ => id) fun _ _ => False.elim) fun ops => triple_intro fun u hu => ?_
      obtain ⟨rfl, hu⟩ := hu
      refine triple_ite (fun he => absurd he hne) fun _ => triple_ite (fun hno => ?_) fun _ => ?_
      · simp [hyes] at hno
      · exact h.consequence (fun _ hv => hv ▸ hu) (fun _ _ => False.elim) fun _ _ => id
  · cases x with
    | deletePlan message =>
      exact triple_bind (M := fun _ => Touched) (triple_print fun _ ht => ht.2.append _)
        fun _ => triple_pure fun _ ht => ⟨rfl, ht⟩
    | os message =>
      exact triple_bind (M := fun _ => Touched) (triple_print fun _ ht => ht.2.append _)
        fun _ => triple_pure fun _ ht => ⟨rfl, ht⟩
    | other name => exact triple_intro fun _ ht => by simp [LateUsage, Exc.isUsage] at ht

theorem not_clean_of_late (fuel : ℕ) (hw : w.read [] path = file)
    (h : Triple False (fun t => t = []) (main w fuel o (.report path))
      (fun n t => n = 2 ∧ Touched t) (fun _ _ => False)) : ¬UsageExitClean o path file := by
  intro hclean
  obtain ⟨n, s, hr, rfl, htouched⟩ := h.returns rfl
  have := hclean w hw fuel (by rw [hr])
  rw [hr] at this
  exact not_untouched_of_touched htouched this

/-- The verification without a project is refused after the deletion. -/
theorem triple_execute_verify (fuel : ℕ) (hne : operations ≠ [])
    (hops : ∀ op ∈ operations, Deletable op) (h : VerifiesLate o operations) :
    Triple False Untouched
      (execute (obliging file fun _ => .osError "") (fuel + 1) o (.report path) operations)
      (fun _ _ => False) LateUsage := by
  unfold execute
  refine triple_bind ((triple_executePlan_ok file _ fuel hne hops h.2).consequence
    (fun _ _ => trivial) (fun _ _ => id) fun _ _ => False.elim) fun errors => ?_
  refine triple_intro fun t ht => ?_
  obtain ⟨rfl, ht⟩ := ht
  refine triple_ite (fun he => absurd rfl he) fun _ => triple_ite (fun _ => ?_) fun hv => ?_
  · refine triple_bind (M := fun _ _ => False) ?_ fun _ => triple_intro fun _ => False.elim
    exact triple_throw fun _ hu => ⟨rfl, hu ▸ ht⟩
  · exact absurd h.1 hv

/-- Exit status 2 of a run on a report file means that nothing was deleted if and only if the
run refuses to delete, or has nothing to delete, or neither the start of a process nor the
verification can fail once something may have been deleted. -/
theorem usageExit_iff (o : Options) (path : String) (file : Read) :
    UsageExitClean o path file ↔ UsageExitSafe o file := by
  refine ⟨fun hclean report operations hfile hb hp hyes hne => ?_, usageExitClean_of_safe⟩
  have hops := deletable_of_planned hp
  constructor
  · intro hstart
    refine not_clean_of_late (w := breaking file) 1 rfl
      (triple_main_late 1 rfl hfile hb hp hyes hne ?_) hclean
    unfold execute
    exact triple_bind (triple_executePlan_breaks file 0 hops hstart)
      fun _ => triple_intro fun _ => False.elim
  · intro hverify
    exact not_clean_of_late (w := obliging file _) 1 rfl
      (triple_main_late 1 rfl hfile hb hp hyes hne (triple_execute_verify 0 hne hops hverify)) hclean

/-- A report file with one server, `--yes` and `--verify`: the server is deleted, then the
run ends with a usage error. -/
theorem expiry_usageExit_not_clean :
    ¬UsageExitClean expiryOptions "report.json" (.json (.dict (serverReport []))) := by
  intro h
  have hexit := h (obliging (.json (.dict (serverReport []))) fun _ => .osError "") rfl 1 rfl
  have hdeleted : Event.command ["openstack", "server", "delete", "--wait", "s1"]
      (.completed ⟨0, "", ""⟩) ∈
      ((main (obliging (.json (.dict (serverReport []))) fun _ => .osError "") 1 expiryOptions
        (.report "report.json")).run []).2 := by
    exact List.mem_of_getElem? (i := 2) rfl
  exact absurd (hexit _ hdeleted) (by decide)

end Yggdrasil.Deletion
