import Yggdrasil.Deletion.Main

/-! Safety of the delete command. The changing requests of a run all come from the
execution of a plan, which is reached only with `--yes`, without a blocking inventory
error and without a planning issue; and a verified success ends with an inventory that
leaves nothing to delete. -/

namespace Yggdrasil.Deletion

open Effect Effect.Program Python

/-- No deletion in a history. -/
def Untouched (t : List Event) : Prop := ∀ e ∈ t, e.isDeletion = false

/-- A program that deletes nothing. -/
abbrev Quiet {α : Type} (m : Prog α) : Prop := Emits (fun e => e.isDeletion = false) m

variable {w : World} {α : Type}

theorem emits_ask {P : Event → Prop} {answer : List Event → α} {event : α → Event}
    (h : ∀ a, P (event a)) : Emits P (ask answer event) :=
  emits_bind emits_history fun t => emits_bind (emits_emit (h (answer t))) fun _ => emits_pure _

/-- A printed line. -/
def Event.isPrint : Event → Bool
  | .print _ => true
  | _ => false

/-- A program that only prints. -/
abbrev Prints (m : Prog α) : Prop := Emits (fun e => e.isPrint = true) m

theorem Event.not_isDeletion_of_isPrint {e : Event} (h : e.isPrint = true) :
    e.isDeletion = false := by
  cases e <;> simp_all [isPrint, isDeletion]

theorem Event.not_isInventory_of_isPrint {e : Event} (h : e.isPrint = true) :
    e.isInventory = false := by
  cases e <;> simp_all [isPrint, isInventory]

theorem Prints.quiet {m : Prog α} (h : Prints m) : Quiet m :=
  h.mono fun _ => Event.not_isDeletion_of_isPrint

theorem prints_print (text : String) : Prints (print text) := emits_emit rfl

theorem prints_warnAllowed (what : String) (report : Mapping) (o : Options) :
    Prints (warnAllowed what report o) :=
  emits_foldlM (fun _ _ => prints_print _) _ _

theorem prints_checkedPlan (o : Options) (report : Mapping) : Prints (checkedPlan o report) :=
  emits_bind (prints_warnAllowed _ _ _) fun _ =>
    emits_ite (fun _ => emits_throw _) fun _ =>
      emits_bind (emits_ofExcept _) fun _ =>
        emits_ite (fun _ => emits_throw _) fun _ => emits_pure _

theorem prints_dryRun (operations : List Operation) : Prints (dryRun operations) :=
  emits_bind (prints_print _) fun _ => emits_foldlM (fun _ _ => prints_print _) _ _

theorem prints_exitUsage (x : Exc) : Prints (exitUsage x) := by
  cases x with
  | deletePlan message => exact emits_bind (prints_print _) fun _ => emits_pure _
  | os message => exact emits_bind (prints_print _) fun _ => emits_pure _
  | other name => exact emits_throw _

theorem quiet_runInventory (o : Options) (project : String) : Quiet (runInventory w o project) :=
  emits_bind (emits_ask fun _ => rfl) fun _ => emits_ofExcept _

theorem quiet_sourceReport (o : Options) (source : Source) : Quiet (sourceReport w o source) := by
  cases source with
  | report path => exact emits_bind (emits_ask fun _ => rfl) fun _ => emits_ofExcept _
  | project name =>
    exact emits_ite (fun _ => emits_throw _) fun _ => quiet_runInventory o name

/-! ### Refusal -/

/-- The allow flags permit an inventory error. -/
def Permitted (o : Options) (detail : String × String) : Prop :=
  o.allowInventoryErrors = true ∨ (o.allowServiceApiErrors = true ∧ detail.1 = "service_api")

theorem mem_blockingErrors {report : Mapping} {o : Options} {d : String × String} :
    d ∈ blockingErrors report o ↔ d ∈ reportErrorDetails report ∧ ¬Permitted o d := by
  unfold blockingErrors allowedInventoryErrors Permitted
  rw [List.mem_filter]
  refine and_congr_right fun hd => ?_
  by_cases h₁ : o.allowInventoryErrors = true
  · simp [h₁, hd]
  · by_cases h₂ : o.allowServiceApiErrors = true
    · simp [h₁, h₂, hd]
    · simp [h₁, h₂]

/-- The report blocks the deletion: an error that is not permitted, or a planning issue. -/
def Blocked (o : Options) (report : Mapping) : Prop :=
  (∃ d ∈ reportErrorDetails report, ¬Permitted o d) ∨
    ∃ operations issues, planDeletions report = .ok (operations, issues) ∧ issues ≠ []

theorem planOrRaise_eq_value {report : Mapping} {t s : List Event}
    {p : List Operation × List String} (h : (planOrRaise report).run t = (.value p, s)) :
    planDeletions report = .ok p := by
  obtain ⟨h, _⟩ := run_ofExcept_eq_value.1 h
  cases hp : planDeletions report with
  | error message => simp [hp, Except.mapError] at h
  | ok q => simpa [hp, Except.mapError] using h

/-- The plan a run goes on with: no blocking error and no issue. -/
theorem checkedPlan_eq_value {o : Options} {report : Mapping} {t s : List Event}
    {operations : List Operation} (h : (checkedPlan o report).run t = (.value operations, s)) :
    blockingErrors report o = [] ∧ planDeletions report = .ok (operations, []) := by
  unfold checkedPlan at h
  obtain ⟨_, _, s₁, _, h, _⟩ := run_bind_eq_value.1 h
  split_ifs at h with hb
  · simp at h
  · obtain ⟨⟨ops, issues⟩, _, _, hp, h, _⟩ := run_bind_eq_value.1 h
    dsimp only at h
    split_ifs at h with hi
    · simp at h
    · push Not at hb hi
      simp only [run_pure, Prod.mk.injEq, Outcome.value.injEq] at h
      rw [planOrRaise_eq_value hp, hi, h.1]
      exact ⟨hb, rfl⟩

theorem not_blocked {o : Options} {report : Mapping} {operations : List Operation}
    (hb : blockingErrors report o = []) (hp : planDeletions report = .ok (operations, [])) :
    ¬Blocked o report := by
  rintro (⟨d, hd, hn⟩ | ⟨ops, issues, hp', hi⟩)
  · have : d ∈ blockingErrors report o := mem_blockingErrors.2 ⟨hd, hn⟩
    simp [hb] at this
  · rw [hp] at hp'
    simp only [Except.ok.injEq, Prod.mk.injEq] at hp'
    exact hi hp'.2.symm

/-- Deleting needs `--yes` and an unblocked report. -/
theorem deleteReport_untouched {fuel : ℕ} {o : Options} {source : Source} {report : Mapping}
    (h : o.yes = false ∨ Blocked o report) (t : List Event) :
    Untouched ((deleteReport w fuel o source report).run t).2 := by
  have hplan := (prints_checkedPlan o report).quiet t
  unfold deleteReport
  rw [run_bind]
  rcases hc : (checkedPlan o report).run t with ⟨operations | x | _, s⟩ <;> rw [hc] at hplan
  · obtain ⟨hb, hp⟩ := checkedPlan_eq_value hc
    have hyes : o.yes = false := h.resolve_right (not_blocked hb hp)
    have hrest : Quiet (do
        if operations = [] then
          print "No deletable project resources found."
          return 0
        else if o.yes = false then
          dryRun operations
          return 0
        else execute w fuel o source operations) := by
      refine emits_ite (fun _ => ?_) fun _ => emits_ite (fun _ => ?_) fun h => absurd hyes h
      · exact Prints.quiet (emits_bind (prints_print _) fun _ => emits_pure _)
      · exact Prints.quiet (emits_bind (prints_dryRun _) fun _ => emits_pure _)
    intro e he
    exact (List.mem_append.1 he).elim (hplan e) (hrest _ e)
  · exact hplan
  · exact hplan

/-- A run that may not delete: without `--yes`, or on a report that blocks deletion. -/
def Refused (w : World) (o : Options) (source : Source) : Prop :=
  o.yes = false ∨ ∃ report s, (sourceReport w o source).run [] = (.value report, s) ∧
    Blocked o report

theorem body_untouched {fuel : ℕ} {o : Options} {source : Source} (h : Refused w o source) :
    Untouched ((body w fuel o source).run []).2 := by
  have hread := quiet_sourceReport (w := w) o source []
  unfold body
  rw [run_bind]
  rcases hr : (sourceReport w o source).run [] with ⟨report | x | _, s⟩ <;> rw [hr] at hread
  · have hblocked : o.yes = false ∨ Blocked o report := by
      rcases h with h | ⟨report', s', hr', hb⟩
      · exact .inl h
      · rw [hr, Prod.mk.injEq, Outcome.value.injEq] at hr'
        exact .inr (hr'.1 ▸ hb)
    intro e he
    exact (List.mem_append.1 he).elim (hread e) (deleteReport_untouched hblocked _ e)
  · exact hread
  · exact hread

/-- Fail closed: without `--yes`, with an inventory error that the flags do not permit or
with a planning issue, no delete command and no SDK delete is issued. -/
theorem main_untouched (w : World) (fuel : ℕ) (o : Options) (source : Source)
    (h : Refused w o source) : Untouched ((main w fuel o source).run []).2 := by
  have hbody : Untouched ((body w fuel o source).run []).2 := body_untouched h
  unfold main
  simp only [handle]
  rcases hr : (body w fuel o source).run [] with ⟨n | x | _, s⟩ <;> rw [hr] at hbody
  · exact hbody
  · intro e he
    exact (List.mem_append.1 he).elim (hbody e) ((prints_exitUsage x).quiet _ e)
  · exact hbody

/-- A world where every request succeeds, for one report file and given inventories. -/
def obliging (file : Read) (inventory : List Event → Inventory) : World where
  executable := "/usr/bin/python3"
  read _ _ := file
  inventory t _ := inventory t
  start _ argv :=
    .completed ⟨0, if (argv.drop 1).take 2 = ["stack", "show"] then "DELETE_COMPLETE" else "", ""⟩
  connect _ := .ok ()
  senlinGet _ _ _ := .ok ()
  senlinDelete _ _ _ := .error "NotFoundException"
  senlinAction _ _ := .error "NotFoundException"
  monotonic _ := 0
  monotonic_le _ _ := le_refl 0

/-- The options of an expiry run. -/
def expiryOptions : Options where
  inventoryScript := "list-project-resources.py"
  openstackBin := "openstack"
  interface := none
  region := none
  allowInventoryErrors := false
  allowServiceApiErrors := false
  yes := true
  verify := true
  waitSeconds := .finite 600
  pollSeconds := .finite 2

/-- A report with one server, next to the given services. -/
def serverReport (services : List (String × Value)) : Mapping :=
  [(.str "resources", .record
    (("compute", .record [("server", .list [.record [("id", .str "s1")]])]) :: services))]

def lakeReport : Mapping :=
  serverReport [("lake", .record [("table", .list [.record [("id", .str "t1")]])])]

theorem main_untouched_lake :
    let w := obliging (.json (.dict lakeReport)) fun _ => .osError ""
    Untouched ((main w 1 expiryOptions (.report "report.json")).run []).2 :=
  main_untouched _ _ _ _ (.inr ⟨lakeReport, _, rfl, .inr
    ⟨_, ["unsupported project resource: lake/table"], rfl, by decide⟩⟩)

/-! ### Verified success -/

/-- The errors field is absent or a list of empty entries. -/
def ErrorFree (report : Mapping) : Prop :=
  ∃ errors, (Dict.get? report (.str "errors")).getD (.list []) = .list errors ∧
    ∀ issue ∈ errors, issue.truthy = false

theorem errorFree_of_details {report : Mapping} (h : reportErrorDetails report = []) :
    ErrorFree report := by
  unfold reportErrorDetails at h
  split at h
  · rename_i errors he
    refine ⟨errors, he, fun issue hi => ?_⟩
    rw [List.map_eq_nil_iff, List.filter_eq_nil_iff] at h
    simpa using h issue hi
  · simp at h

/-- A successful inventory without errors, issues and operations. -/
def Inventory.Clean (answer : Inventory) : Prop :=
  ∃ report, answer.report = .ok report ∧ ErrorFree report ∧
    planDeletions report = .ok ([], [])

/-- The last inventory of a run is clean, and nothing is deleted after it. -/
def VerifiedRun (s : List Event) : Prop :=
  ∃ pre argv answer post, s = pre ++ .inventory argv answer :: post ∧ answer.Clean ∧
    ∀ e ∈ post, e.isInventory = false ∧ e.isDeletion = false

theorem VerifiedRun.append_left {s : List Event} (h : VerifiedRun s) (t : List Event) :
    VerifiedRun (t ++ s) := by
  obtain ⟨pre, argv, answer, post, rfl, hclean, hpost⟩ := h
  exact ⟨t ++ pre, argv, answer, post, by simp, hclean, hpost⟩

theorem verifiedRun_cons {argv : List String} {answer : Inventory} {post : List Event}
    (h : answer.Clean) (hpost : ∀ e ∈ post, e.isPrint = true) :
    VerifiedRun (.inventory argv answer :: post) :=
  ⟨[], argv, answer, post, rfl, h, fun e he =>
    ⟨e.not_isInventory_of_isPrint (hpost e he), e.not_isDeletion_of_isPrint (hpost e he)⟩⟩

theorem Prints.of_run {m : Prog α} (h : Prints m) {t s : List Event} {r : Outcome Exc α}
    (hr : m.run t = (r, s)) : ∀ e ∈ s, e.isPrint = true := by
  have := h t
  rwa [hr] at this

theorem runInventory_eq_value {o : Options} {project : String} {t s : List Event}
    {report : Mapping} (h : (runInventory w o project).run t = (.value report, s)) :
    ∃ answer, answer.report = .ok report ∧ s = [.inventory (inventoryArgv w o project) answer] := by
  obtain ⟨answer, s₁, s₂, hask, hr, rfl⟩ := run_bind_eq_value.1 h
  obtain ⟨hreport, rfl⟩ := run_ofExcept_eq_value.1 hr
  rw [run_ask, Prod.mk.injEq, Outcome.value.injEq] at hask
  obtain ⟨rfl, rfl⟩ := hask
  exact ⟨_, hreport, by simp⟩

variable {o : Options}

/-- Without allow flags a report that is not blocked is free of errors. -/
theorem errorFree_of_blockingErrors {report : Mapping} (ha : o.allowInventoryErrors = false)
    (hs : o.allowServiceApiErrors = false) (h : blockingErrors report o = []) :
    ErrorFree report := by
  refine errorFree_of_details ?_
  unfold blockingErrors allowedInventoryErrors at h
  simpa [ha, hs] using h

theorem verifyProject_eq_value {project : String} {t s : List Event}
    (ha : o.allowInventoryErrors = false) (hs : o.allowServiceApiErrors = false)
    (h : (verifyProject w o project).run t = (.value (), s)) : VerifiedRun s := by
  obtain ⟨report, s₁, _, hinv, h₁, rfl⟩ := run_bind_eq_value.1 h
  obtain ⟨_, s₂, _, hwarn, h₂, rfl⟩ := run_bind_eq_value.1 h₁
  obtain ⟨⟨operations, issues⟩, s₃, s₄, hplan, h₃, rfl⟩ := run_bind_eq_value.1 h₂
  obtain ⟨answer, hr, rfl⟩ := runInventory_eq_value hinv
  dsimp only at h₃
  split_ifs at h₃ with hc
  · simp at h₃
  · push Not at hc
    obtain ⟨hb, hi, ho⟩ := hc
    have hp := planOrRaise_eq_value hplan
    rw [hi, ho] at hp
    rw [List.singleton_append]
    refine verifiedRun_cons ⟨report, hr, errorFree_of_blockingErrors ha hs hb, hp⟩ fun e he => ?_
    rcases List.mem_append.1 he with he | he
    · exact (prints_warnAllowed _ _ _).of_run hwarn e he
    · rcases List.mem_append.1 he with he | he
      · exact Prints.of_run (emits_ofExcept _) hplan e he
      · exact (prints_print _).of_run h₃ e he

theorem execute_eq_zero {fuel : ℕ} {project : String} {operations : List Operation}
    {t s : List Event} (hv : o.verify = true) (ha : o.allowInventoryErrors = false)
    (hs : o.allowServiceApiErrors = false)
    (h : (execute w fuel o (.project project) operations).run t = (.value 0, s)) :
    VerifiedRun s := by
  obtain ⟨errors, s₁, s', _, h₁, rfl⟩ := run_bind_eq_value.1 h
  refine VerifiedRun.append_left ?_ s₁
  split_ifs at h₁ with he
  · obtain ⟨_, _, _, _, h₂, _⟩ := run_bind_eq_value.1 h₁
    simp at h₂
  · obtain ⟨_, s₂, s₃, hverify, h₂, rfl⟩ := run_bind_eq_value.1 h₁
    simp only [run_pure, Prod.mk.injEq, true_and] at h₂
    rw [← h₂, List.append_nil]
    exact verifyProject_eq_value ha hs hverify

/-- Verified success: exit status 0 of a verifying run without allow flags comes with a last
inventory that is clean and was read after every deletion. -/
theorem main_verified (w : World) (fuel : ℕ) (o : Options) (project : String)
    (hy : o.yes = true) (hv : o.verify = true) (ha : o.allowInventoryErrors = false)
    (hs : o.allowServiceApiErrors = false)
    (h : ((main w fuel o (.project project)).run []).1 = .value 0) :
    VerifiedRun ((main w fuel o (.project project)).run []).2 := by
  generalize hrun : (main w fuel o (.project project)).run [] = run at h
  obtain ⟨r, s⟩ := run
  dsimp only at h
  subst h
  rcases run_handle_eq_value.1 hrun with h | ⟨x, _, _, _, h, _⟩
  · obtain ⟨report, s₁, _, hread, h₁, rfl⟩ := run_bind_eq_value.1 h
    obtain ⟨operations, s₂, s₃, hcheck, h₂, rfl⟩ := run_bind_eq_value.1 h₁
    have hinv : (runInventory w o project).run [] = (.value report, s₁) := by
      by_cases hname : project = ""
      · simp [sourceReport, hname] at hread
      · simpa [sourceReport, hname] using hread
    obtain ⟨answer, hr, rfl⟩ := runInventory_eq_value hinv
    obtain ⟨hb, hp⟩ := checkedPlan_eq_value hcheck
    have hplan := (prints_checkedPlan o report).of_run hcheck
    split_ifs at h₂ with hops hyes
    · subst hops
      rw [List.singleton_append]
      refine verifiedRun_cons ⟨report, hr, errorFree_of_blockingErrors ha hs hb, hp⟩ fun e he => ?_
      rcases List.mem_append.1 he with he | he
      · exact hplan e he
      · exact Prints.of_run (emits_bind (prints_print _) fun _ => emits_pure _) h₂ e he
    · simp [hy] at hyes
    · exact ((execute_eq_zero hv ha hs h₂).append_left s₂).append_left _
  · cases x with
    | deletePlan message =>
      obtain ⟨_, _, _, _, h, _⟩ := run_bind_eq_value.1 h
      simp at h
    | os message =>
      obtain ⟨_, _, _, _, h, _⟩ := run_bind_eq_value.1 h
      simp at h
    | other name => simp [exitUsage] at h

/-- An inventory with the server until something has been deleted, and an empty one after. -/
def shrinkingInventory (t : List Event) : Inventory :=
  .completed ⟨0, "", ""⟩ (some (.dict (if t.any Event.isDeletion then [(.str "resources", .dict [])]
    else serverReport [])))

theorem main_verified_server :
    VerifiedRun ((main (obliging .notJson shrinkingInventory) 1 expiryOptions
      (.project "demo")).run []).2 :=
  main_verified _ _ _ _ rfl rfl rfl rfl rfl

end Yggdrasil.Deletion
