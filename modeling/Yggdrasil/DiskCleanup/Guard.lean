import Yggdrasil.DiskCleanup.Calm

/-! The switches `free_disk_space_apply` and `free_disk_space_confirm`. That confirmation goes
with every change is one assertion, which has no tags: a run that leaves it out can change a node
without confirmation. -/

namespace Yggdrasil.DiskCleanup

open Effect Program Python

/-- Nothing is changed in the run unless both switches are on. -/
def ChangesConfirmed (sel : Playbook.TagSelection) (env : Env) (world : World) : Prop :=
  ∀ e ∈ ((run env world sel).run []).2, e.mutates →
    toBool (env.setting .apply) ∧ toBool (env.setting .confirm)

variable {sel : Playbook.TagSelection} {env : Env} {world : World}

/-! ### Runs without an unconfirmed change -/

theorem applies_of_mutates : ∀ p ∈ playbook, ∀ part ∈ p.parts, ∀ a ∈ part.actions,
    a.module.mutates → .holds .apply ∈ a.when := by decide +kernel

theorem not_mutates_of_early : ∀ p ∈ [credentialPlay, validationPlay], ∀ part ∈ p.parts,
    ∀ a ∈ part.actions, a.module.mutates = false := by decide +kernel

theorem tags_of_mutates : ∀ p ∈ playbook, ∀ part ∈ p.parts, ∀ a ∈ part.actions, a.module.mutates →
    part.tags = ["node"] ∨ part.tags = ["cluster"] ∧ a.tags = ["cluster", "opensearch"] := by
  decide +kernel

theorem apply_of_mutates {e : Event} (he : e ∈ ((run env world sel).run []).2) (hm : e.mutates) :
    toBool (env.setting .apply) := by
  have hemits : Emits (fun e => e.mutates → toBool (env.setting .apply)) (run env world sel) := by
    refine emits_run fun p hp a ⟨part, hpart, ha, _⟩ host => emits_perform fun log item hwhen hm => ?_
    exact hwhen _ (applies_of_mutates p hp part hpart a ha hm)
  exact hemits [] e he hm

theorem changesConfirmed_of_implies
    (h : toBool (env.setting .apply) → toBool (env.setting .confirm)) :
    ChangesConfirmed sel env world :=
  fun _ he hm => ⟨apply_of_mutates he hm, h (apply_of_mutates he hm)⟩

/-- Without the tasks of the node and those of the cluster nothing is changed. -/
theorem changesConfirmed_of_unselected (hnode : ¬sel.runs ["node"])
    (hcluster : ¬(sel.runs ["cluster"] ∧ sel.runs ["cluster", "opensearch"])) :
    ChangesConfirmed sel env world := by
  have hemits : Emits (fun e => ¬e.mutates) (run env world sel) := by
    refine emits_run fun p hp a ⟨part, hpart, ha, htags, hsel⟩ host =>
      emits_perform fun _ _ _ hm => ?_
    rcases tags_of_mutates p hp part hpart a ha hm with h | ⟨h, ha'⟩
    · exact hnode (h ▸ htags)
    · exact hcluster ⟨h ▸ htags, ha' ▸ hsel⟩
  exact fun e he hm => absurd hm (hemits [] e he)

def Unchanged (log : List Event) : Prop := ∀ e ∈ log, e.mutates = false

theorem keeps_unchanged {p : Play} (hp : p ∈ [credentialPlay, validationPlay])
    {t : Playbook.Task String Event} (ht : t ∈ (p.play env world).selected sel) (host : String) :
    Playbook.Keeps True Unchanged t host := by
  obtain ⟨a, ⟨part, hpart, ha, -⟩, rfl⟩ := exists_of_selected ht
  refine keeps_task fun log item hlog _ => ⟨fun e he => ?_, fun _ => trivial⟩
  rcases List.mem_append.1 he with he | he
  · exact hlog e he
  · rw [List.mem_singleton.1 he]
    exact not_mutates_of_early p hp part hpart a ha

theorem validateGuard_fails {log : List Event} {host : String}
    (h : ¬(toBool (env.setting .apply) → toBool (env.setting .confirm))) :
    validateGuard.succeeds (validateGuard.event world ⟨env, log, host, none⟩).result = false := by
  rw [Classical.not_imp, Bool.not_eq_true] at h
  simp [Action.succeeds, Action.event, validateGuard, Module.result, Cond.eval, isTrue, h.1, h.2]

/-- The assertion stops an unconfirmed run, if there is a node to assert it on. -/
theorem validation_stops (hsel : sel.runs [])
    (h : ¬(toBool (env.setting .apply) → toBool (env.setting .confirm))) :
    Triple False Unchanged (Playbook.runPlay sel (validationPlay.play env world))
      (fun _ log => Unchanged log ∧ env.deploymentNodes = []) fun _ => Unchanged := by
  have hguard : Triple False Unchanged
      (Playbook.runTask sel env.deploymentNodes (validateGuard.task env world))
      (fun _ log => Unchanged log ∧ ∀ host ∈ Playbook.onHosts true env.deploymentNodes, False)
      fun _ => Unchanged := by
    refine Playbook.triple_runTask_all (t := validateGuard.task env world) (fun _ _ _ h => h) hsel
      fun host _ => triple_perform rfl (fun log hlog _ => ⟨fun e he => ?_, fun hok => ?_⟩) ?_
    · rcases List.mem_append.1 he with he | he
      · exact hlog e he
      · rw [List.mem_singleton.1 he]
        rfl
    · rw [validateGuard_fails h] at hok
      exact nomatch hok
    · exact fun _ _ hskip => nomatch hskip
  have hrest : Playbook.Kept True Unchanged (Playbook.runParts sel
      ((showStateTasks.map Part.task ++ [Part.includeTasks preflightInclude]).map (Part.part env world))
      env.deploymentNodes) :=
    Playbook.kept_runParts fun part hpart t ht host _ => keeps_unchanged (p := validationPlay)
      (by simp) (List.mem_flatMap.2 ⟨part, List.mem_cons_of_mem _ hpart, ht⟩) host
  rw [Playbook.runPlay_eq sel rfl]
  change Triple _ _ (Playbook.runParts sel (Part.part env world (.task validateGuard) :: _) _) _ _
  rw [Playbook.runParts_cons]
  refine triple_bind (M := fun _ log => Unchanged log ∧ env.deploymentNodes = [])
    (hguard.consequence (fun _ => id) (fun _ log hlog => ⟨hlog.1, ?_⟩) fun _ _ => id) fun _ => ?_
  · cases hnodes : env.deploymentNodes with
    | nil => rfl
    | cons host hosts => exact (hlog.2 host (by simp [hnodes, Playbook.onHosts])).elim
  · exact (hrest.frame fun _ _ => id).consequence (fun _ => id) (fun _ _ => id) fun _ _ h => h.1.1

theorem changesConfirmed_of_untagged (hsel : sel.runs []) : ChangesConfirmed sel env world := by
  by_cases h : toBool (env.setting .apply) → toBool (env.setting .confirm)
  · exact changesConfirmed_of_implies h
  have hcredentials : Playbook.Kept True Unchanged
      (Playbook.runPlay sel (credentialPlay.play env world)) :=
    Playbook.kept_runPlay fun t ht host _ => keeps_unchanged (p := credentialPlay) (by simp) ht host
  have hlate (hnodes : env.deploymentNodes = []) : Playbook.Kept True Unchanged
      (Playbook.runPlays sel [nodePlay.play env world, clusterPlay.play env world]) := by
    refine Playbook.kept_runPlays fun p hp t _ host hhost => ?_
    have hhosts : p.hosts = env.deploymentNodes := by
      simp only [List.mem_cons, List.not_mem_nil, or_false] at hp
      rcases hp with rfl | rfl <;> rfl
    rw [hhosts, hnodes] at hhost
    exact absurd hhost (by simp)
  have hrun : Triple False Unchanged (run env world sel) (fun _ => Unchanged) fun _ => Unchanged := by
    change Triple _ _ (Playbook.runPlays sel [credentialPlay.play env world,
      validationPlay.play env world, nodePlay.play env world, clusterPlay.play env world]) _ _
    rw [Playbook.runPlays_cons, Playbook.runPlays_cons]
    refine triple_bind (hcredentials.consequence (fun _ => id) (fun _ _ => id) fun _ _ h => h.1)
      fun _ => triple_bind (validation_stops hsel h) fun _ => triple_intro fun log hlog => ?_
    exact (hlate hlog.2).consequence (fun _ hu => hu ▸ hlog.1) (fun _ _ => id) fun _ _ h => h.1
  have hstart : Unchanged [] := fun _ he => absurd he (by simp)
  intro e he hm
  rw [hrun.ends hstart e he] at hm
  cases hm

/-! ### Runs with an unconfirmed change -/

section Unconfirmed

variable {apply confirm : Value}

/-- Without the cleanup of binary logs, no node is asked about MariaDB. -/
theorem calm_preflight_skipped {F : List Event → Prop} {cleanup : Setting}
    (h : cleanup ≠ .mariadbBinlogCleanup) :
    Playbook.Kept False (Quiet F) (Playbook.runPart sel ["node"]
      ((Part.includeTasks preflightInclude).part (oneCleanup apply confirm cleanup) calmWorld)) := by
  refine Playbook.kept_include fun log _ => ?_
  have hholds : includeHolds (oneCleanup apply confirm cleanup) preflightInclude.when log "node" =
      false := by
    simp [includeHolds, preflightInclude, Cond.eval, isTrue, Env.setting, oneCleanup, toBool, h.symm]
  have hhosts : (Playbook.onHosts preflightInclude.runOnce ["node"]).filter
      (includeHolds (oneCleanup apply confirm cleanup) preflightInclude.when log) = [] := by
    simp [Playbook.onHosts, preflightInclude] at hholds ⊢
    exact hholds
  rw [hhosts]
  exact Playbook.kept_runFile fun _ _ _ _ _ _ hhost => absurd hhost (by simp)

theorem calm_early {F : List Event → Prop} {cleanup : Setting} (hsel : ¬sel.runs [])
    (h : cleanup ≠ .mariadbBinlogCleanup) : Triple False (Quiet F) (Playbook.runPlays sel
      [credentialPlay.play (oneCleanup apply confirm cleanup) calmWorld,
        validationPlay.play (oneCleanup apply confirm cleanup) calmWorld])
      (fun _ => Quiet F) fun _ _ => False := by
  rw [Playbook.runPlays_cons, Playbook.runPlays_cons]
  refine triple_bind calm_credentials.strict fun _ => ?_
  refine triple_bind (calm_validation hsel (calm_preflight_skipped h).strict) fun _ => ?_
  exact triple_pure fun _ hquiet => hquiet

/-- The run finds the artifacts of the calm node and removes them. -/
theorem exists_change_node (confirm : Value) (hsel : ¬sel.runs []) (hnode : sel.runs ["node"])
    (happly : toBool apply) :
    ∃ e ∈ ((run (oneCleanup apply confirm .removeFreebsdArtifacts) calmWorld sel).run []).2,
      e.mutates := by
  let env := oneCleanup apply confirm .removeFreebsdArtifacts
  obtain ⟨rest, hfile⟩ : ∃ rest, nodeTasks.map (Entry.entry env calmWorld ["node"]) =
      ((hostLogTasks ++ containerLogTasks ++ dockerPruneTasks ++ packageTasks).map Entry.task).map
        (Entry.entry env calmWorld ["node"]) ++
      .task ((findArtifacts.within ["node"] []).task env calmWorld) ::
      .task ((removeArtifacts.within ["node"] []).task env calmWorld) :: rest := ⟨_, rfl⟩
  have hbefore : Playbook.Kept False (Quiet fun _ => True) (Playbook.runFile sel ["node"]
      (((hostLogTasks ++ containerLogTasks ++ dockerPruneTasks ++ packageTasks).map Entry.task).map
        (Entry.entry env calmWorld ["node"]))) :=
    kept_calm_tasks lasting_true fun a ha =>
      have hl := List.mem_append_left binlogTasks (List.mem_append_left cephTasks
        (List.mem_append_left [removeArtifacts] (List.mem_append_left [findArtifacts] ha)))
      ⟨inPlaybook_node (List.mem_append_left _ (List.mem_append_left _ hl)),
        nodeTasks_asserts a hl⟩
  have hfind : Triple False (Quiet fun _ => True)
      (Playbook.runTask sel ["node"] ((findArtifacts.within ["node"] []).task env calmWorld))
      (fun _ => Quiet fun log => True ∧ Has (fun e => e.register = some .freebsdArtifacts) log)
      fun _ _ => False :=
    triple_calm lasting_true (inPlaybook_node (by simp)) hnode rfl rfl
      (fun _ _ cond hcond => by rw [List.mem_singleton.1 hcond]; rfl) fun _ => rfl
  have hremove : Reaches
      (Quiet fun log => True ∧ Has (fun e => e.register = some .freebsdArtifacts) log)
      (fun e => e.mutates)
      (Playbook.runTask sel ["node"] ((removeArtifacts.within ["node"] []).task env calmWorld)) := by
    refine Playbook.reaches_runTask hnode (reaches_perform (some ⟨"artifact", none, ""⟩) []
      (fun log hlog => ?_) (fun log _ cond hcond => ?_) fun log => rfl)
    · obtain ⟨x, hresult, -, hfiles, -⟩ := calm_registered env none hlog.1 hlog.2.2
      change (Loop.items ⟨env, log, "node", none⟩ (.files .freebsdArtifacts)).map some = _
      simp [Loop.items, hresult, hfiles]
    · simp only [Action.within, removeArtifacts, List.nil_append, List.mem_cons, List.not_mem_nil,
        or_false] at hcond
      rcases hcond with rfl | rfl
      · exact happly
      · rfl
  have hreach : Reaches (Quiet fun _ => True) (fun e => e.mutates) (run env calmWorld sel) := by
    refine reaches_run [credentialPlay, validationPlay] [clusterPlay] nodePlay rfl
      (calm_early hsel (by decide)) (Playbook.reaches_runPlay rfl rfl ?_)
    rw [runPart_include (i := nodeInclude) hnode fun _ => rfl]
    change Reaches _ _
      (Playbook.runFile sel ["node"] (nodeTasks.map (Entry.entry env calmWorld ["node"])))
    rw [hfile, Playbook.runFile_append]
    refine reaches_bind hbefore.strict fun _ => ?_
    rw [Playbook.runFile_cons]
    refine reaches_bind hfind fun _ => ?_
    rw [Playbook.runFile_cons]
    exact reaches_bind_left hremove
  exact hreach [] ⟨fun e he => absurd he (by simp), trivial⟩

/-- The run finds OpenSearch in health and clears the blocks of its indices. -/
theorem exists_change_cluster (confirm : Value) (hsel : ¬sel.runs []) (hnode : ¬sel.runs ["node"])
    (hcluster : sel.runs ["cluster"]) (hopensearch : sel.runs ["cluster", "opensearch"])
    (happly : toBool apply) :
    ∃ e ∈ ((run (oneCleanup apply confirm .opensearchCleanup) calmWorld sel).run []).2,
      e.mutates := by
  let env := oneCleanup apply confirm .opensearchCleanup
  have hhealth : Triple False (Quiet fun _ => True)
      (Playbook.runTask sel ["node"] ((checkHealth.within ["cluster"] []).task env calmWorld))
      (fun _ => Quiet fun log => True ∧ Has (fun e => e.register = some .opensearchHealth) log)
      fun _ _ => False :=
    triple_calm lasting_true (by decide +kernel) hopensearch rfl rfl
      (fun _ _ cond hcond => by rw [List.mem_singleton.1 hcond]; rfl) fun _ => rfl
  have hreport : Playbook.Kept False
      (Quiet fun log => True ∧ Has (fun e => e.register = some .opensearchHealth) log)
      (Playbook.runFile sel ["node"] (([reportUnavailable].map Entry.task).map
        (Entry.entry env calmWorld ["cluster"]))) :=
    kept_calm_tasks lasting_true.has (by decide +kernel)
  have hclear : Reaches
      (Quiet fun log => True ∧ Has (fun e => e.register = some .opensearchHealth) log)
      (fun e => e.mutates)
      (Playbook.runTask sel ["node"] ((clearBlocks.within ["cluster"] []).task env calmWorld)) := by
    refine Playbook.reaches_runTask hopensearch (reaches_perform none [] (fun _ _ => rfl)
      (fun log hlog cond hcond => ?_) fun log => rfl)
    simp only [Action.within, clearBlocks, List.nil_append, List.mem_cons, List.not_mem_nil,
      or_false] at hcond
    rcases hcond with rfl | rfl | rfl
    · exact happly
    · rfl
    · obtain ⟨x, hresult, -, -, hstatus⟩ :=
        calm_registered env none hlog.1 hlog.2.2
      simp [Cond.eval, hresult, hstatus]
  have hnodePlay : Playbook.Kept False (Quiet fun _ => True)
      (Playbook.runPlay sel (nodePlay.play env calmWorld)) := by
    refine Playbook.kept_runPlay fun t ht _ _ => ?_
    obtain ⟨a, ⟨part, hpart, -, htags, -⟩, -⟩ := exists_of_selected ht
    rw [List.mem_singleton.1 hpart] at htags
    exact absurd htags hnode
  have hbefore : Triple False (Quiet fun _ => True) (Playbook.runPlays sel
      ([credentialPlay, validationPlay, nodePlay].map (Play.play env calmWorld)))
      (fun _ => Quiet fun _ => True) fun _ _ => False := by
    change Triple _ _ (List.foldlM _ () ([credentialPlay.play env calmWorld,
      validationPlay.play env calmWorld] ++ [nodePlay.play env calmWorld])) _ _
    rw [List.foldlM_append]
    refine triple_bind (calm_early hsel (by decide)) fun _ => ?_
    exact (Playbook.kept_foldlM fun p hp => List.mem_singleton.1 hp ▸ hnodePlay).strict
  have hreach : Reaches (Quiet fun _ => True) (fun e => e.mutates) (run env calmWorld sel) := by
    refine reaches_run [credentialPlay, validationPlay, nodePlay] [] clusterPlay rfl hbefore
      (Playbook.reaches_runPlay rfl rfl ?_)
    rw [runPart_include (i := clusterInclude) hcluster fun _ => rfl]
    change Reaches _ _ (Playbook.runFile sel ["node"] (.task ((checkHealth.within ["cluster"] []).task
      env calmWorld) :: (([reportUnavailable].map Entry.task).map (Entry.entry env calmWorld
        ["cluster"]) ++ .task ((clearBlocks.within ["cluster"] []).task env calmWorld) ::
          (indexTasks.map Entry.task).map (Entry.entry env calmWorld ["cluster"]))))
    rw [Playbook.runFile_cons]
    refine reaches_bind hhealth fun _ => ?_
    rw [Playbook.runFile_append]
    refine reaches_bind hreport.strict fun _ => ?_
    rw [Playbook.runFile_cons]
    exact reaches_bind_left hclear
  exact hreach [] ⟨fun e he => absurd he (by simp), trivial⟩

end Unconfirmed

/-- For some tags and switches, nothing is changed without confirmation, whatever the inventory,
the other variables and the nodes, exactly if the switches need no refusal, or the tags leave
the assertion to run, or they leave no change that an unconfirmed run could reach. -/
theorem changesConfirmed_iff (sel : Playbook.TagSelection) (apply confirm : Value) :
    (∀ env world, env.setting .apply = apply → env.setting .confirm = confirm →
      ChangesConfirmed sel env world) ↔
    (toBool apply → toBool confirm) ∨ sel.runs [] ∨
      (¬sel.runs ["node"] ∧ ¬(sel.runs ["cluster"] ∧ sel.runs ["cluster", "opensearch"])) := by
  constructor
  · intro h
    by_contra hcond
    simp only [not_or, Classical.not_imp] at hcond
    obtain ⟨⟨happly, hconfirm⟩, hsel, hselected⟩ := hcond
    by_cases hnode : sel.runs ["node"]
    · obtain ⟨e, he, hm⟩ := exists_change_node confirm hsel hnode happly
      exact hconfirm (h _ _ rfl rfl e he hm).2
    · obtain ⟨hcluster, hopensearch⟩ : sel.runs ["cluster"] ∧ sel.runs ["cluster", "opensearch"] := by
        by_contra hnone
        exact hselected ⟨hnode, hnone⟩
      obtain ⟨e, he, hm⟩ := exists_change_cluster confirm hsel hnode hcluster hopensearch happly
      exact hconfirm (h _ _ rfl rfl e he hm).2
  · rintro h env world rfl rfl
    rcases h with h | h | ⟨hnode, hcluster⟩
    · exact changesConfirmed_of_implies h
    · exact changesConfirmed_of_untagged h
    · exact changesConfirmed_of_unselected hnode hcluster

/-- `--tags node -e free_disk_space_apply=true`, with an artifact to remove. -/
theorem not_changesConfirmed : ¬ChangesConfirmed ⟨["node"], []⟩
    (oneCleanup (.bool true) (.bool false) .removeFreebsdArtifacts) calmWorld := by
  intro h
  have hsel : ¬Playbook.TagSelection.runs ⟨["node"], []⟩ [] := by decide
  have happly : toBool (.bool true) := rfl
  obtain ⟨e, he, hm⟩ := exists_change_node (.bool false) hsel (by decide) happly
  exact nomatch (h e he hm).2

end Yggdrasil.DiskCleanup
