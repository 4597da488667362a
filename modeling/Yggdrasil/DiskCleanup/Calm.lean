import Yggdrasil.DiskCleanup.Runs

/-! A world in which every module succeeds and every host answers the same. With one node and
one cleanup switched on, only an assertion can end the playbook there. -/

namespace Yggdrasil.DiskCleanup

open Effect Program Python

def calm : Result := ⟨false, false, some 0, "mariadb", ["artifact"], true, true, none, 200, ""⟩

def calmWorld : World := fun _ _ _ _ => calm

/-- One node, and one cleanup besides the two switches. -/
def oneCleanup (apply confirm : Value) (cleanup : Setting) : Env where
  deploymentController := []
  deploymentNodes := ["node"]
  extra
    | .apply => some apply
    | .confirm => some confirm
    | s => some (.bool (s = cleanup))
  rootPassword := fun _ => "secret"

/-- An event of the calm world; only two of the variables that are set matter here. -/
structure Calm (e : Event) : Prop where
  stdout : e.result.stdout = "mariadb"
  files : e.result.files = ["artifact"]
  status : e.result.status = 200
  password : ∀ v, (.mariadbPassword, v) ∈ e.facts → v = .str "secret"
  safe : ∀ v, (.mariadbSafe, v) ∈ e.facts → v = .bool true

def CalmLog (log : List Event) : Prop := ∀ e ∈ log, Calm e

/-- What the module asserts. -/
def Module.asserts : Module → List Cond
  | assert that => that
  | _ => []

theorem sets_password : ∀ p ∈ playbook, ∀ part ∈ p.parts, ∀ a ∈ part.actions,
    ∀ x ∈ a.module.sets, x.1 = .mariadbPassword → x.2 = .password := by decide +kernel

theorem sets_safe : ∀ p ∈ playbook, ∀ part ∈ p.parts, ∀ a ∈ part.actions,
    ∀ x ∈ a.module.sets, x.1 = .mariadbSafe → x.2 = .literal true := by decide +kernel

variable {apply confirm : Value} {cleanup : Setting} {a : Action} {host : String}

/-- The result of a module, if not for its assertions. -/
theorem calm_result (a : Action) (c : Context) :
    ∃ failed, (a.event calmWorld c).result = { calm with failed := failed } := by
  refine ⟨(a.event calmWorld c).result.failed, ?_⟩
  cases hm : a.module <;> simp [Action.event, hm, Module.result, calmWorld, calm]

theorem calm_event (ha : InPlaybook a) (log : List Event) (item : Option Item) :
    Calm (a.event calmWorld ⟨oneCleanup apply confirm cleanup, log, host, item⟩) := by
  obtain ⟨p, hp, part, hpart, ha⟩ := ha
  obtain ⟨failed, hresult⟩ := calm_result a ⟨oneCleanup apply confirm cleanup, log, host, item⟩
  refine ⟨by rw [hresult]; rfl, by rw [hresult]; rfl, by rw [hresult]; rfl, fun v hv => ?_,
    fun v hv => ?_⟩
  · obtain ⟨x, hx, hxv⟩ := List.mem_map.1 hv
    obtain ⟨hfact, hvalue⟩ := Prod.mk.inj hxv
    rw [← hvalue, sets_password p hp part hpart a ha x hx hfact]
    rfl
  · obtain ⟨x, hx, hxv⟩ := List.mem_map.1 hv
    obtain ⟨hfact, hvalue⟩ := Prod.mk.inj hxv
    rw [← hvalue, sets_safe p hp part hpart a ha x hx hfact]
    rfl

theorem calm_succeeds {c : Context} (h : ∀ cond ∈ a.module.asserts, cond.eval c) :
    a.succeeds (a.event calmWorld c).result := by
  cases hm : a.module <;> rw [hm] at h <;>
    simp_all [Action.succeeds, Action.event, Module.result, calmWorld, calm, Module.asserts]

theorem CalmLog.append {log : List Event} {e : Event} (h : CalmLog log) (he : Calm e) :
    CalmLog (log ++ [e]) := by
  intro e' he'
  rcases List.mem_append.1 he' with h' | h'
  · exact h e' h'
  · rwa [List.mem_singleton.1 h']

/-- A task on the node has left an event. -/
def Has (Q : Event → Prop) (log : List Event) : Prop := ∃ e ∈ log, e.host = "node" ∧ Q e

theorem Has.append {Q : Event → Prop} {log s : List Event} (h : Has Q log) : Has Q (log ++ s) := by
  obtain ⟨e, he, hQ⟩ := h
  exact ⟨e, List.mem_append_left s he, hQ⟩

/-- What was registered on the node is a calm result. -/
theorem calm_registered (env : Env) (item : Option Item) {log : List Event} {r : Register}
    (hlog : CalmLog log) (h : Has (fun e => e.register = some r) log) :
    ∃ x, Context.result ⟨env, log, "node", item⟩ r = some x ∧ x.stdout = "mariadb" ∧
      x.files = ["artifact"] ∧ x.status = 200 := by
  obtain ⟨e, he, hhost, hr⟩ := h
  obtain ⟨e', he', hresult⟩ := exists_result (c := ⟨env, log, "node", item⟩) he hhost hr
  have hcalm := hlog e' he'
  exact ⟨e'.result, hresult, hcalm.stdout, hcalm.files, hcalm.status⟩

/-- What more history cannot refute. -/
abbrev Lasting (F : List Event → Prop) : Prop := ∀ log s, F log → F (log ++ s)

theorem lasting_true : Lasting fun _ => True := fun _ _ => id

theorem Lasting.has {F : List Event → Prop} {Q : Event → Prop} (h : Lasting F) :
    Lasting fun log => F log ∧ Has Q log := fun log s hlog => ⟨h log s hlog.1, hlog.2.append⟩

section Runs

variable {sel : Playbook.TagSelection} {F : List Event → Prop}

/-- What the calm world keeps, besides something that lasts. -/
abbrev Quiet (F : List Event → Prop) (log : List Event) : Prop := CalmLog log ∧ F log

/-- A task whose assertions hold does not fail. -/
theorem keeps_calm (hF : Lasting F) (ha : InPlaybook a)
    (h : ∀ log item, Quiet F log →
      ∀ cond ∈ a.module.asserts, cond.eval ⟨oneCleanup apply confirm cleanup, log, host, item⟩) :
    Playbook.Keeps False (Quiet F) (a.task (oneCleanup apply confirm cleanup) calmWorld) host := by
  refine keeps_task fun log item hlog _ => ⟨⟨hlog.1.append (calm_event ha log item), ?_⟩, ?_⟩
  · exact hF log _ hlog.2
  · intro hfail
    rw [calm_succeeds (h log item hlog)] at hfail
    exact nomatch hfail

/-- A task that is selected and whose conditions hold leaves an event. -/
theorem triple_calm {Q : Event → Prop} (hF : Lasting F) (ha : InPlaybook a)
    (hsel : sel.runs a.tags) (hloop : a.loop = none) (hasserts : a.module.asserts = [])
    (hwhen : ∀ log, Quiet F log →
      ∀ cond ∈ a.when, cond.eval ⟨oneCleanup apply confirm cleanup, log, "node", none⟩)
    (hQ : ∀ log, Q (a.event calmWorld ⟨oneCleanup apply confirm cleanup, log, "node", none⟩)) :
    Triple False (Quiet F)
      (Playbook.runTask sel ["node"] (a.task (oneCleanup apply confirm cleanup) calmWorld))
      (fun _ => Quiet fun log => F log ∧ Has Q log) fun _ _ => False := by
  have hkept : Playbook.Kept False (Quiet F)
      (Playbook.runTask sel ["node"] (a.task (oneCleanup apply confirm cleanup) calmWorld)) :=
    Playbook.kept_runTask fun _ host _ => keeps_calm hF ha fun _ _ _ _ h => by simp [hasserts] at h
  have hleaves : Triple False (Quiet F)
      (Playbook.runTask sel ["node"] (a.task (oneCleanup apply confirm cleanup) calmWorld))
      (fun _ log => Quiet F log ∧ ∀ host ∈ Playbook.onHosts a.runOnce ["node"],
        ∃ e ∈ log, e.host = host ∧ Q e) fun _ => Quiet F := by
    refine Playbook.triple_runTask_all (t := a.task _ _) ?_ hsel fun host hhost => ?_
    · rintro host log s ⟨e, he, hQe⟩
      exact ⟨e, List.mem_append_left s he, hQe⟩
    · rw [List.mem_singleton.1 hhost]
      refine triple_perform hloop (fun log hlog _ => ?_) fun log hlog hskip => ?_
      · exact ⟨⟨hlog.1.append (calm_event ha log none), hF _ _ hlog.2⟩,
          fun _ => ⟨_, List.mem_append_right _ (List.mem_singleton_self _), rfl, hQ log⟩⟩
      · rw [List.all_eq_true.2 (hwhen log hlog)] at hskip
        exact nomatch hskip
  refine (hkept.and hleaves).consequence (fun _ h => ⟨h, h⟩) (fun _ log h => ?_) fun _ _ h => h.1.2
  refine ⟨h.1.1, h.1.2, h.2.2 "node" ?_⟩
  unfold Playbook.onHosts
  split_ifs <;> simp

theorem inPlaybook_node (ha : a ∈ hostLogTasks ++ containerLogTasks ++ dockerPruneTasks ++
    packageTasks ++ [findArtifacts] ++ [removeArtifacts] ++ cephTasks ++ binlogTasks ++
    [purgeLogs] ++ fluentdTasks) : InPlaybook (a.within ["node"] []) :=
  inPlaybook_of_include (p := nodePlay) (i := nodeInclude) (.tail _ (.tail _ (.head _))) (.head _)
    (List.mem_append_left _ (List.mem_map_of_mem ha))

theorem nodeTasks_asserts : ∀ a ∈ hostLogTasks ++ containerLogTasks ++ dockerPruneTasks ++
    packageTasks ++ [findArtifacts] ++ [removeArtifacts] ++ cephTasks ++ binlogTasks,
    a.module.asserts = [] := by decide

/-- Tasks without assertions do not fail. -/
theorem kept_calm_tasks {l : List Action} {applied hosts : List String}
    (hF : Lasting F)
    (h : ∀ a ∈ l, InPlaybook (a.within applied []) ∧ a.module.asserts = []) :
    Playbook.Kept False (Quiet F) (Playbook.runFile sel hosts ((l.map Entry.task).map
      (Entry.entry (oneCleanup apply confirm cleanup) calmWorld applied))) := by
  refine kept_tasks fun a ha host _ => ?_
  obtain ⟨hin, hasserts⟩ := h a ha
  refine keeps_calm hF hin fun log item _ cond hcond => ?_
  change cond ∈ a.module.asserts at hcond
  simp [hasserts] at hcond

/-- Nothing is asked of a deployment controller. -/
theorem calm_credentials : Playbook.Kept False (Quiet F)
    (Playbook.runPlay sel (credentialPlay.play (oneCleanup apply confirm cleanup) calmWorld)) :=
  Playbook.kept_runPlay fun _ _ _ hhost => absurd hhost (by simp [Play.play, credentialPlay,
    Group.members, oneCleanup])

/-- Without the tasks that have no tags, the validation is what it includes. -/
theorem calm_validation {J : List Event → Prop} (hsel : ¬sel.runs [])
    (h : Triple False (Quiet F) (Playbook.runPart sel ["node"] ((Part.includeTasks
      preflightInclude).part (oneCleanup apply confirm cleanup) calmWorld)) (fun _ => J)
      fun _ _ => False) :
    Triple False (Quiet F)
      (Playbook.runPlay sel (validationPlay.play (oneCleanup apply confirm cleanup) calmWorld))
      (fun _ => J) fun _ _ => False := by
  have huntagged {a : Action} (ha : a.tags = []) : Playbook.Kept False (Quiet F)
      (Playbook.runPart sel ["node"]
        ((Part.task a).part (oneCleanup apply confirm cleanup) calmWorld)) := by
    refine Playbook.kept_runTask fun hruns => absurd hruns ?_
    change ¬sel.runs a.tags
    rwa [ha]
  rw [Playbook.runPlay_eq sel rfl]
  change Triple _ _ (Playbook.runParts sel ([_, _, _, _] : List _) _) _ _
  rw [Playbook.runParts_cons, Playbook.runParts_cons, Playbook.runParts_cons, Playbook.runParts_cons]
  refine triple_bind (huntagged rfl).strict fun _ => ?_
  refine triple_bind (huntagged rfl).strict fun _ => ?_
  refine triple_bind (huntagged rfl).strict fun _ => ?_
  exact triple_bind h fun _ => triple_pure fun _ hJ => hJ

/-- A play is reached through what comes before it. -/
theorem reaches_run {env : Env} {I J : List Event → Prop} {P : Event → Prop}
    (before after : List Play) (p : Play) (hplaybook : playbook = before ++ p :: after)
    (h : Triple False I (Playbook.runPlays sel (before.map (Play.play env calmWorld))) (fun _ => J)
      fun _ _ => False)
    (hp : Reaches J P (Playbook.runPlay sel (p.play env calmWorld))) :
    Reaches I P (run env calmWorld sel) := by
  rw [run, hplaybook, List.map_append, List.map_cons]
  exact Playbook.reaches_foldlM h hp

end Runs

end Yggdrasil.DiskCleanup
