import Yggdrasil.DiskCleanup.Calm
import Yggdrasil.Library.History

/-! The purge of binary logs. A node purges when it was marked safe; the mark comes after the
assertion on all nodes, but the assertion has no tags, and a run that leaves it out marks every
node all the same. -/

namespace Yggdrasil.DiskCleanup

open Effect Program Python History

/-- The node has passed the assertion that refuses an unsafe purge. -/
def Passed (log : List Event) (node : String) : Prop :=
  ∃ e ∈ log, e.host = node ∧ e.task = refusePurge.name ∧ e.result.failed = false

/-- A purge on any node comes after all nodes have passed. -/
def Gated (env : Env) (log : List Event) : Prop :=
  Guarded (fun e before => e.task = purgeLogs.name → ∀ node ∈ env.deploymentNodes, Passed before node)
    log

def PurgeGated (sel : Playbook.TagSelection) (env : Env) (world : World) : Prop :=
  Gated env ((run env world sel).run []).2

variable {sel : Playbook.TagSelection} {env : Env} {world : World} {a : Action}

theorem Passed.append {log s : List Event} {node : String} (h : Passed log node) :
    Passed (log ++ s) node := by
  obtain ⟨e, he, hpassed⟩ := h
  exact ⟨e, List.mem_append_left s he, hpassed⟩

theorem tags_of_purge : ∀ p ∈ playbook, ∀ part ∈ p.parts, ∀ a ∈ part.actions,
    a.name = purgeLogs.name → part.tags = ["node"] ∧ a = purgeLogs := by decide +kernel

theorem tags_of_refuse : ∀ p ∈ playbook, ∀ part ∈ p.parts, ∀ a ∈ part.actions,
    a.name = refusePurge.name → a.tags = [] := by decide +kernel

/-- The task sets the mark that a purge asks for. -/
def Action.marks (a : Action) : Prop := ∃ x ∈ a.module.sets, x.1 = .mariadbSafe

instance (a : Action) : Decidable a.marks :=
  inferInstanceAs (Decidable (∃ x ∈ a.module.sets, x.1 = .mariadbSafe))

theorem tags_of_marks : ∀ p ∈ playbook, ∀ part ∈ p.parts, ∀ a ∈ part.actions, a.marks →
    part.tags = ["mariadb"] := by decide +kernel

theorem not_marks : ∀ p ∈ [credentialPlay, nodePlay, clusterPlay], ∀ part ∈ p.parts,
    ∀ a ∈ part.actions, ¬a.marks := by decide +kernel

/-! ### Runs whose purges are gated -/

def Marked (log : List Event) : Prop := ∃ e ∈ log, ∃ v, (.mariadbSafe, v) ∈ e.facts

/-- Purges have been gated, and no node is marked before all have passed. -/
def MarkedLate (env : Env) (log : List Event) : Prop :=
  Gated env log ∧ (Marked log → ∀ node ∈ env.deploymentNodes, Passed log node)

theorem marked_of_purge {log : List Event} {host : String} {item : Option Item}
    (h : Cond.mariadbSafe.eval ⟨env, log, host, item⟩) : Marked log := by
  cases hfact : factOf log host .mariadbSafe with
  | none => simp [Cond.eval, Context.fact, hfact, Value.truthy] at h
  | some v =>
    obtain ⟨e, he, -, hv⟩ := exists_of_factOf hfact
    exact ⟨e, he, v, hv⟩

/-- An event of a task that does not mark its node. -/
theorem markedLate_append (ha : InPlaybook a) (hmarks : ¬a.marks) {log : List Event} {host : String}
    {item : Option Item} (hlog : MarkedLate env log)
    (hwhen : ∀ cond ∈ a.when, cond.eval ⟨env, log, host, item⟩) :
    MarkedLate env (log ++ [a.event world ⟨env, log, host, item⟩]) := by
  obtain ⟨p, hp, part, hpart, ha⟩ := ha
  refine ⟨guarded_append.2 ⟨hlog.1, fun hpurge => hlog.2 ?_⟩, ?_⟩
  · obtain ⟨-, rfl⟩ := tags_of_purge p hp part hpart a ha hpurge
    exact marked_of_purge (hwhen .mariadbSafe (by simp [purgeLogs]))
  · rintro ⟨e, he, v, hv⟩ node hnode
    rcases List.mem_append.1 he with he | he
    · exact (hlog.2 ⟨e, he, v, hv⟩ node hnode).append
    · rw [List.mem_singleton.1 he] at hv
      obtain ⟨x, hx, hxv⟩ := List.mem_map.1 hv
      exact absurd ⟨x, hx, congrArg Prod.fst hxv⟩ hmarks

theorem keeps_markedLate (ha : InPlaybook a) (hmarks : ¬a.marks) (host : String) :
    Playbook.Keeps True (MarkedLate env) (a.task env world) host :=
  keeps_task fun _ _ hlog hwhen => ⟨markedLate_append ha hmarks hlog hwhen, fun _ => trivial⟩

theorem kept_play {p : Play} (hp : p ∈ playbook) (h : ∀ a, Selected sel p a → ¬a.marks) :
    Playbook.Kept True (MarkedLate env) (Playbook.runPlay sel (p.play env world)) := by
  refine Playbook.kept_runPlay fun t ht host _ => ?_
  obtain ⟨a, ha, rfl⟩ := exists_of_selected ht
  exact keeps_markedLate (ha.inPlaybook hp) (h a ha) host

/-- The assertion lets no run go on where a node has not passed it. -/
theorem refuse_passes (hsel : sel.runs []) : Triple False (MarkedLate env)
    (Playbook.runTask sel env.deploymentNodes ((refusePurge.within [] []).task env world))
    (fun _ log => MarkedLate env log ∧
      ∀ node ∈ env.deploymentNodes, toBool (env.setting .apply) → Passed log node)
    fun _ => MarkedLate env := by
  refine Playbook.triple_runTask_all (t := (refusePurge.within [] []).task env world)
    (Q := fun node log => toBool (env.setting .apply) → Passed log node)
    (fun _ _ _ h happly => (h happly).append) hsel fun node _ => triple_perform rfl ?_ ?_
  · intro log hlog hwhen
    refine ⟨markedLate_append (by decide +kernel) (by decide) hlog hwhen, fun hok _ => ?_⟩
    refine ⟨_, List.mem_append_right _ (List.mem_singleton_self _), rfl, rfl, ?_⟩
    simpa [Action.succeeds, Action.within, refusePurge] using (Bool.and_eq_true_iff.1 hok).2
  · intro log hlog hskip
    refine ⟨hlog, fun _ happly => ?_⟩
    have hwhen : (refusePurge.within [] []).when.all (Cond.eval ⟨env, log, node, none⟩) := by
      refine List.all_eq_true.2 fun cond hcond => ?_
      simp only [Action.within, refusePurge, List.nil_append, List.mem_cons, List.not_mem_nil,
        or_false] at hcond
      rcases hcond with rfl | rfl
      · exact happly
      · rfl
    simp [hwhen] at hskip

/-- A node is marked after all have passed. -/
theorem mark_keeps (host : String) :
    Playbook.Keeps True (fun log => MarkedLate env log ∧
      ∀ node ∈ env.deploymentNodes, toBool (env.setting .apply) → Passed log node)
      ((markSafe.within [] []).task env world) host := by
  have hname : markSafe.name ≠ purgeLogs.name := by decide
  refine keeps_task fun log item hlog hwhen => ⟨⟨⟨?_, ?_⟩, ?_⟩, fun _ => trivial⟩
  · exact guarded_append.2 ⟨hlog.1.1, fun hpurge => absurd hpurge hname⟩
  · have happly : toBool (env.setting .apply) := hwhen (.holds .apply) (by decide)
    exact fun _ node hnode => (hlog.2 node hnode happly).append
  · exact fun node hnode happly => (hlog.2 node hnode happly).append

theorem preflight_file : preflightTasks.map (Entry.entry env world []) =
    (preflightChecks.map Entry.task).map (Entry.entry env world []) ++
      [.task ((refusePurge.within [] []).task env world),
        .task ((markSafe.within [] []).task env world)] := rfl

theorem inPlaybook_preflight (ha : a ∈ preflightChecks ++ [refusePurge, markSafe]) :
    InPlaybook (a.within [] []) :=
  inPlaybook_of_include (p := validationPlay) (i := preflightInclude) (.tail _ (.head _))
    (List.mem_append_right _ (.head _)) (List.mem_map_of_mem ha)

theorem checks_not_marks : ∀ a ∈ preflightChecks, ¬(a.within [] []).marks := by decide +kernel

/-- The preflight of all nodes, with its assertion. -/
theorem kept_preflight (hsel : sel.runs []) : Playbook.Kept True (MarkedLate env)
    (Playbook.runFile sel env.deploymentNodes (preflightTasks.map (Entry.entry env world []))) := by
  rw [preflight_file, Playbook.runFile_append, Playbook.runFile_cons, Playbook.runFile_cons]
  have hchecks : Playbook.Kept True (MarkedLate env) (Playbook.runFile sel env.deploymentNodes
      ((preflightChecks.map Entry.task).map (Entry.entry env world []))) :=
    kept_tasks fun a ha host _ => keeps_markedLate
      (inPlaybook_preflight (List.mem_append_left _ ha)) (checks_not_marks a ha) host
  refine triple_bind hchecks fun _ => ?_
  refine triple_bind ((refuse_passes hsel).consequence (fun _ => id) (fun _ _ => id)
    fun _ _ h => ⟨h, trivial⟩) fun _ => ?_
  refine triple_bind ((Playbook.kept_runTask fun _ host _ => mark_keeps host).consequence
    (fun _ => id) (fun _ _ h => h.1) fun _ _ h => ⟨h.1.1, trivial⟩) fun _ => ?_
  exact triple_pure fun _ h => h

theorem kept_validation (hsel : sel.runs []) :
    Playbook.Kept True (MarkedLate env) (Playbook.runPlay sel (validationPlay.play env world)) := by
  rw [Playbook.runPlay_eq sel rfl]
  refine Playbook.kept_foldlM fun q hq => ?_
  obtain ⟨part, hpart, rfl⟩ := List.mem_map.1 hq
  rcases validation_parts hpart with ⟨a, rfl, -, ha, hsets⟩ | rfl
  · refine Playbook.kept_runTask fun _ host _ => keeps_markedLate ha ?_ host
    simp [Action.marks, hsets]
  · refine Playbook.kept_include fun log _ => ?_
    -- the condition of the include is the same on every node
    by_cases hcleanup : toBool (env.setting .mariadbBinlogCleanup)
    · have hhosts : env.deploymentNodes.filter (includeHolds env preflightInclude.when log) =
          env.deploymentNodes :=
        List.filter_eq_self.2 fun _ _ => List.all_eq_true.2 fun cond hcond => by
          rw [List.mem_singleton.1 hcond]
          exact hcleanup
      change Playbook.Kept True _ (Playbook.runFile sel (env.deploymentNodes.filter
        (includeHolds env preflightInclude.when log)) (preflightTasks.map (Entry.entry env world [])))
      rw [hhosts]
      exact kept_preflight hsel
    · refine Playbook.kept_runFile fun _ _ _ _ _ host hhost => ?_
      have hholds := (List.mem_filter.1 hhost).2
      exact absurd (List.all_eq_true.1 hholds _ (List.mem_singleton_self _)) hcleanup

theorem purgeGated_of_kept (h : Playbook.Kept True (MarkedLate env) (run env world sel)) :
    PurgeGated sel env world := by
  have hstart : MarkedLate env [] :=
    ⟨guarded_nil, fun ⟨_, he, _⟩ => absurd he (by simp)⟩
  have hboth := h.consequence (fun _ => id) (fun _ _ => id) fun _ _ hend => hend.1
  exact (hboth.ends hstart).1

theorem purgeGated_of_untagged (hsel : sel.runs []) : PurgeGated sel env world := by
  refine purgeGated_of_kept (Playbook.kept_foldlM fun q hq => ?_)
  obtain ⟨p, hp, rfl⟩ := List.mem_map.1 hq
  have hplays : p = validationPlay ∨ p ∈ [credentialPlay, nodePlay, clusterPlay] := by
    simp only [playbook, List.mem_cons, List.not_mem_nil, or_false] at hp ⊢
    tauto
  rcases hplays with rfl | hplay
  · exact kept_validation hsel
  · exact kept_play hp fun a ⟨part, hpart, ha, _⟩ => not_marks p hplay part hpart a ha

/-- Without the preflight no node is marked. -/
theorem purgeGated_of_unmarked (h : ¬sel.runs ["mariadb"]) : PurgeGated sel env world := by
  refine purgeGated_of_kept (Playbook.kept_foldlM fun q hq => ?_)
  obtain ⟨p, hp, rfl⟩ := List.mem_map.1 hq
  refine kept_play hp fun a ⟨part, hpart, ha, htags, _⟩ hmarks => h ?_
  rwa [tags_of_marks p hp part hpart a ha hmarks] at htags

theorem purgeGated_of_unselected (h : ¬(sel.runs ["node"] ∧ sel.runs ["node", "mariadb"])) :
    PurgeGated sel env world := by
  have hemits : Emits (fun e => e.task ≠ purgeLogs.name) (run env world sel) := by
    refine emits_run fun p hp a ⟨part, hpart, ha, htags, hsel⟩ host =>
      emits_perform fun _ _ _ hpurge => h ?_
    obtain ⟨htag, rfl⟩ := tags_of_purge p hp part hpart a ha hpurge
    exact ⟨htag ▸ htags, hsel⟩
  intro before e after hlog hpurge
  exact absurd hpurge (hemits [] e (by simp [hlog]))

/-! ### A run with an ungated purge -/

/-- The cleanup of binary logs, applied and confirmed, on one node. -/
def binlogCleanup : Env := oneCleanup (.bool true) (.bool true) .mariadbBinlogCleanup

/-- What the preflight of the node has found, and what it has marked. -/
def Listed (log : List Event) : Prop :=
  True ∧ Has (fun e => e.register = some .mariadbContainers) log

def Resolved (log : List Event) : Prop :=
  Listed log ∧ Has (fun e => (.mariadbPassword, .str "secret") ∈ e.facts) log

def MarkedSafe (log : List Event) : Prop :=
  Resolved log ∧ Has (fun e => (.mariadbSafe, .bool true) ∈ e.facts) log

theorem lasting_listed : Lasting Listed := lasting_true.has

theorem lasting_resolved : Lasting Resolved := lasting_listed.has

theorem lasting_markedSafe : Lasting MarkedSafe := lasting_resolved.has

/-- The calm node has a container and a password. -/
theorem prerequisites_hold {log : List Event} {item : Option Item} (hlog : Quiet Resolved log) :
    ∀ cond ∈ refuseCleanup.module.asserts, cond.eval ⟨binlogCleanup, log, "node", item⟩ := by
  intro cond hcond
  simp only [refuseCleanup, Module.asserts, List.mem_cons, List.not_mem_nil, or_false] at hcond
  rcases hcond with rfl | rfl
  · obtain ⟨x, hresult, hstdout, -⟩ := calm_registered binlogCleanup item hlog.1 hlog.2.1.2
    have hlines : (splitlines "mariadb").contains "mariadb" := by decide +kernel
    simpa [Cond.eval, Context.hasLine, Context.stdout, hresult, hstdout] using hlines
  · obtain ⟨e, he, hhost, hfact⟩ := hlog.2.2
    have hpassword : factOf log "node" .mariadbPassword = some (.str "secret") :=
      factOf_eq_some he hhost hfact fun e he => (hlog.1 e he).password
    simp [Cond.eval, Context.fact, hpassword, textOf]

theorem passwordFiles_asserts : ∀ a ∈ passwordFileTasks, a.module.asserts = [] := by decide

theorem stateQueries_asserts : ∀ a ∈ stateQueries, a.module.asserts = [] := by decide

/-- The preflight without its assertion: it marks the node. -/
theorem preflight_marks (hsel : ¬sel.runs []) (hmariadb : sel.runs ["mariadb"]) :
    Triple False (Quiet fun _ => True)
      (Playbook.runFile sel ["node"] (preflightTasks.map (Entry.entry binlogCleanup calmWorld [])))
      (fun _ => Quiet MarkedSafe) fun _ _ => False := by
  have hlist : Triple False (Quiet fun _ => True)
      (Playbook.runTask sel ["node"] ((listContainers.within [] []).task binlogCleanup calmWorld))
      (fun _ => Quiet Listed) fun _ _ => False :=
    triple_calm lasting_true (inPlaybook_preflight (.head _)) hmariadb rfl rfl
      (fun _ _ _ hcond => absurd hcond (by simp [Action.within, listContainers])) fun _ => rfl
  have hfiles : Playbook.Kept False (Quiet Listed) (Playbook.runFile sel ["node"]
      ((passwordFileTasks.map Entry.task).map (Entry.entry binlogCleanup calmWorld []))) :=
    kept_calm_tasks lasting_listed fun a ha =>
      ⟨inPlaybook_preflight (by simp [preflightChecks, ha]), passwordFiles_asserts a ha⟩
  have hresolve : Triple False (Quiet Listed)
      (Playbook.runTask sel ["node"] ((resolvePassword.within [] []).task binlogCleanup calmWorld))
      (fun _ => Quiet Resolved) fun _ _ => False :=
    triple_calm lasting_listed (inPlaybook_preflight (by simp [preflightChecks])) hmariadb rfl rfl
      (fun _ _ _ hcond => absurd hcond (by simp [Action.within, resolvePassword]))
      fun _ => List.mem_singleton_self _
  have hreport : Playbook.Kept False (Quiet Resolved) (Playbook.runFile sel ["node"]
      (([reportMissing].map Entry.task).map (Entry.entry binlogCleanup calmWorld []))) :=
    kept_calm_tasks lasting_resolved fun a ha => by
      rw [List.mem_singleton.1 ha]
      exact ⟨inPlaybook_preflight (by simp [preflightChecks]), rfl⟩
  have hrefuse : Playbook.Kept False (Quiet Resolved) (Playbook.runTask sel ["node"]
      ((refuseCleanup.within [] []).task binlogCleanup calmWorld)) := by
    refine Playbook.kept_runTask fun _ host hhost => ?_
    rw [List.mem_singleton.1 hhost]
    exact keeps_calm lasting_resolved (inPlaybook_preflight (by simp [preflightChecks]))
      fun _ _ hlog => prerequisites_hold hlog
  have hqueries : Playbook.Kept False (Quiet Resolved) (Playbook.runFile sel ["node"]
      ((stateQueries.map Entry.task).map (Entry.entry binlogCleanup calmWorld []))) :=
    kept_calm_tasks lasting_resolved fun a ha =>
      ⟨inPlaybook_preflight (by simp [preflightChecks, ha]), stateQueries_asserts a ha⟩
  have hassert : Playbook.Kept False (Quiet Resolved) (Playbook.runTask sel ["node"]
      ((refusePurge.within [] []).task binlogCleanup calmWorld)) :=
    Playbook.kept_runTask fun hruns => absurd hruns hsel
  have hmark : Triple False (Quiet Resolved)
      (Playbook.runTask sel ["node"] ((markSafe.within [] []).task binlogCleanup calmWorld))
      (fun _ => Quiet MarkedSafe) fun _ _ => False := by
    refine triple_calm lasting_resolved (inPlaybook_preflight (by simp)) hmariadb rfl rfl
      (fun _ _ cond hcond => ?_) fun _ => List.mem_singleton_self _
    simp only [Action.within, markSafe, List.nil_append, List.mem_cons, List.not_mem_nil,
      or_false] at hcond
    rcases hcond with rfl | rfl <;> rfl
  have hfile : preflightTasks.map (Entry.entry binlogCleanup calmWorld []) =
      .task ((listContainers.within [] []).task binlogCleanup calmWorld) ::
        ((passwordFileTasks.map Entry.task).map (Entry.entry binlogCleanup calmWorld []) ++
      .task ((resolvePassword.within [] []).task binlogCleanup calmWorld) ::
        (([reportMissing].map Entry.task).map (Entry.entry binlogCleanup calmWorld []) ++
      .task ((refuseCleanup.within [] []).task binlogCleanup calmWorld) ::
        ((stateQueries.map Entry.task).map (Entry.entry binlogCleanup calmWorld []) ++
      [.task ((refusePurge.within [] []).task binlogCleanup calmWorld),
        .task ((markSafe.within [] []).task binlogCleanup calmWorld)]))) := rfl
  rw [hfile, Playbook.runFile_cons]
  refine triple_bind hlist fun _ => ?_
  rw [Playbook.runFile_append]
  refine triple_bind hfiles.strict fun _ => ?_
  rw [Playbook.runFile_cons]
  refine triple_bind hresolve fun _ => ?_
  rw [Playbook.runFile_append]
  refine triple_bind hreport.strict fun _ => ?_
  rw [Playbook.runFile_cons]
  refine triple_bind hrefuse.strict fun _ => ?_
  rw [Playbook.runFile_append]
  refine triple_bind hqueries.strict fun _ => ?_
  rw [Playbook.runFile_cons]
  refine triple_bind hassert.strict fun _ => ?_
  rw [Playbook.runFile_cons]
  exact triple_bind hmark fun _ => triple_pure fun _ h => h

/-- The node purges its logs, for it is marked. -/
theorem reaches_purge (hpurge : sel.runs ["node", "mariadb"]) : Reaches (Quiet MarkedSafe)
    (fun e => e.task = purgeLogs.name)
    (Playbook.runTask sel ["node"] ((purgeLogs.within ["node"] []).task binlogCleanup calmWorld)) := by
  refine Playbook.reaches_runTask hpurge (reaches_perform none [] (fun _ _ => rfl)
    (fun log hlog cond hcond => ?_) fun log => rfl)
  simp only [Action.within, purgeLogs, List.nil_append, List.mem_cons, List.not_mem_nil,
    or_false] at hcond
  rcases hcond with rfl | rfl | rfl
  · rfl
  · rfl
  · obtain ⟨e, he, hhost, hfact⟩ := hlog.2.2
    have hsafe : factOf log "node" .mariadbSafe = some (.bool true) :=
      factOf_eq_some he hhost hfact fun e he => (hlog.1 e he).safe
    simp [Cond.eval, Context.fact, hsafe, Value.truthy]

theorem exists_purge (hsel : ¬sel.runs []) (hmariadb : sel.runs ["mariadb"])
    (hnode : sel.runs ["node"]) (hpurge : sel.runs ["node", "mariadb"]) :
    ∃ e ∈ ((run binlogCleanup calmWorld sel).run []).2, e.task = purgeLogs.name := by
  have hpreflight : Triple False (Quiet fun _ => True) (Playbook.runPart sel ["node"]
      ((Part.includeTasks preflightInclude).part binlogCleanup calmWorld))
      (fun _ => Quiet MarkedSafe) fun _ _ => False := by
    rw [runPart_include (i := preflightInclude) hmariadb fun _ => rfl]
    exact preflight_marks hsel hmariadb
  have hearly : Triple False (Quiet fun _ => True) (Playbook.runPlays sel
      ([credentialPlay, validationPlay].map (Play.play binlogCleanup calmWorld)))
      (fun _ => Quiet MarkedSafe) fun _ _ => False := by
    rw [List.map_cons, List.map_singleton, Playbook.runPlays_cons, Playbook.runPlays_cons]
    refine triple_bind calm_credentials.strict fun _ => ?_
    exact triple_bind (calm_validation hsel hpreflight) fun _ => triple_pure fun _ h => h
  have hbefore : Playbook.Kept False (Quiet MarkedSafe) (Playbook.runFile sel ["node"]
      (((hostLogTasks ++ containerLogTasks ++ dockerPruneTasks ++ packageTasks ++ [findArtifacts] ++
        [removeArtifacts] ++ cephTasks ++ binlogTasks).map Entry.task).map
        (Entry.entry binlogCleanup calmWorld ["node"]))) :=
    kept_calm_tasks lasting_markedSafe fun a ha =>
      ⟨inPlaybook_node (List.mem_append_left _ (List.mem_append_left _ ha)), nodeTasks_asserts a ha⟩
  obtain ⟨rest, hfile⟩ : ∃ rest, nodeTasks.map (Entry.entry binlogCleanup calmWorld ["node"]) =
      ((hostLogTasks ++ containerLogTasks ++ dockerPruneTasks ++ packageTasks ++ [findArtifacts] ++
        [removeArtifacts] ++ cephTasks ++ binlogTasks).map Entry.task).map
        (Entry.entry binlogCleanup calmWorld ["node"]) ++
      .task ((purgeLogs.within ["node"] []).task binlogCleanup calmWorld) :: rest := ⟨_, rfl⟩
  have hreach : Reaches (Quiet fun _ => True) (fun e => e.task = purgeLogs.name)
      (run binlogCleanup calmWorld sel) := by
    refine reaches_run [credentialPlay, validationPlay] [clusterPlay] nodePlay rfl hearly
      (Playbook.reaches_runPlay rfl rfl ?_)
    rw [runPart_include (i := nodeInclude) hnode fun _ => rfl]
    change Reaches _ _
      (Playbook.runFile sel ["node"] (nodeTasks.map (Entry.entry binlogCleanup calmWorld ["node"])))
    rw [hfile, Playbook.runFile_append]
    refine reaches_bind hbefore.strict fun _ => ?_
    rw [Playbook.runFile_cons]
    exact reaches_bind_left (reaches_purge hpurge)
  exact hreach [] ⟨fun e he => absurd he (by simp), trivial⟩

theorem not_purgeGated_of_unasserted (hsel : ¬sel.runs []) (hmariadb : sel.runs ["mariadb"])
    (hnode : sel.runs ["node"]) (hpurge : sel.runs ["node", "mariadb"]) :
    ¬PurgeGated sel binlogCleanup calmWorld := by
  intro hgated
  have hemits : Emits (fun e => e.task ≠ refusePurge.name) (run binlogCleanup calmWorld sel) := by
    refine emits_run fun p hp a ⟨part, hpart, ha, _, hruns⟩ host =>
      emits_perform fun _ _ _ hrefuse => hsel ?_
    rwa [tags_of_refuse p hp part hpart a ha hrefuse] at hruns
  obtain ⟨e, he, htask⟩ := exists_purge hsel hmariadb hnode hpurge
  obtain ⟨before, after, hlog⟩ := List.append_of_mem he
  obtain ⟨e', he', -, hrefuse, -⟩ := hgated before e after hlog htask "node" (by simp [binlogCleanup,
    oneCleanup])
  exact hemits [] e' (by simp [hlog, he']) hrefuse

/-- For some tags, every purge comes after all nodes have passed the assertion, whatever the
inventory, the variables and the nodes, exactly if the tags leave the assertion to run, or
leave out the mark or the purge. -/
theorem purgeGated_iff (sel : Playbook.TagSelection) :
    (∀ env world, PurgeGated sel env world) ↔
      sel.runs [] ∨ ¬(sel.runs ["mariadb"] ∧ sel.runs ["node"] ∧ sel.runs ["node", "mariadb"]) := by
  constructor
  · intro h
    by_contra hcond
    obtain ⟨hsel, hselected⟩ := not_or.1 hcond
    obtain ⟨hmariadb, hnode, hpurge⟩ := not_not.1 hselected
    exact not_purgeGated_of_unasserted hsel hmariadb hnode hpurge (h _ _)
  · intro h env world
    rcases h with hsel | hselected
    · exact purgeGated_of_untagged hsel
    · by_cases hmariadb : sel.runs ["mariadb"]
      · exact purgeGated_of_unselected fun h => hselected ⟨hmariadb, h⟩
      · exact purgeGated_of_unmarked hmariadb

/-- `--tags mariadb,node` on a node whose replication is not confirmed. -/
theorem not_purgeGated : ¬PurgeGated ⟨["mariadb", "node"], []⟩ binlogCleanup calmWorld :=
  not_purgeGated_of_unasserted (by decide) (by decide) (by decide) (by decide)

end Yggdrasil.DiskCleanup
