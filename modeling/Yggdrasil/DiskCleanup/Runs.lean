import Yggdrasil.DiskCleanup.Tasks

/-! What one task adds to the history of a run, what a history says of a variable, and which
tasks some tags leave to run. -/

namespace Yggdrasil.DiskCleanup

open Effect Program Python

variable {env : Env} {world : World} {a : Action} {host : String}

/-! ### One task -/

theorem emits_perform {P : Event → Prop}
    (h : ∀ log item, (∀ cond ∈ a.when, cond.eval ⟨env, log, host, item⟩) →
      P (a.event world ⟨env, log, host, item⟩)) :
    Emits P (a.perform env world host) := by
  refine emits_bind emits_history fun _ => emits_foldlM (fun ok item => ?_) _ true
  refine emits_bind (emits_bind emits_history fun log => ?_) fun _ => emits_pure _
  refine emits_ite (fun hwhen => ?_) fun _ => emits_pure _
  exact emits_bind (emits_emit (h log item (List.all_eq_true.1 hwhen))) fun _ => emits_pure _

section Triples

variable {I : List Event → Prop}

theorem triple_runItem {item : Option Item} {Post : Bool → List Event → Prop}
    {Err : Unit → List Event → Prop}
    (hrun : ∀ log, I log → (∀ cond ∈ a.when, cond.eval ⟨env, log, host, item⟩) →
      Post (a.succeeds (a.event world ⟨env, log, host, item⟩).result)
        (log ++ [a.event world ⟨env, log, host, item⟩]))
    (hskip : ∀ log, I log → a.when.all (Cond.eval ⟨env, log, host, item⟩) = false → Post true log) :
    Triple False I (a.runItem env world host item) Post Err := by
  refine triple_bind (M := fun log u => I log ∧ u = log)
    ⟨fun t ht => by simpa using ht⟩ fun log => ?_
  refine triple_ite (fun hwhen => ?_) fun hwhen => triple_pure fun u hu => ?_
  · refine triple_bind
      (M := fun _ u => I log ∧ u = log ++ [a.event world ⟨env, log, host, item⟩])
      (triple_emit fun u hu => ⟨hu.1, by rw [hu.2]⟩) fun _ => triple_pure fun u hu => ?_
    rw [hu.2]
    exact hrun log hu.1 (List.all_eq_true.1 hwhen)
  · rw [hu.2]
    exact hskip log hu.1 (by simpa using hwhen)

/-- A task keeps what each of its events keeps. -/
theorem keeps_task {Fail : Prop}
    (h : ∀ log item, I log → (∀ cond ∈ a.when, cond.eval ⟨env, log, host, item⟩) →
      I (log ++ [a.event world ⟨env, log, host, item⟩]) ∧
        (a.succeeds (a.event world ⟨env, log, host, item⟩).result = false → Fail)) :
    Playbook.Keeps Fail I (a.task env world) host := by
  refine triple_bind (M := fun _ => I) ⟨fun t ht => by simpa using ht⟩ fun log₀ => ?_
  refine (triple_foldlM (I := fun ok log => I log ∧ (ok = false → Fail)) ?_ true).consequence
    (fun _ hI => ⟨hI, fun h => nomatch h⟩) (fun _ _ => id) fun _ _ => id
  intro ok item _
  refine triple_bind (M := fun ok' log => (I log ∧ (ok = false → Fail)) ∧ (ok' = false → Fail))
    (triple_runItem ?_ ?_) fun ok' => triple_pure fun log hlog => ⟨hlog.1.1, fun hok => ?_⟩
  · intro log hlog hwhen
    obtain ⟨hI, hFail⟩ := h log item hlog.1 hwhen
    exact ⟨⟨hI, hlog.2⟩, hFail⟩
  · exact fun log hlog _ => ⟨hlog, fun h => nomatch h⟩
  · rcases Bool.and_eq_false_iff.1 hok with hok' | hok
    · exact hlog.2 hok'
    · exact hlog.1.2 hok

/-- A task without a loop runs once on a host, if its conditions hold. -/
theorem triple_perform (ha : a.loop = none) {Post : Bool → List Event → Prop}
    {Err : Unit → List Event → Prop}
    (hrun : ∀ log, I log → (∀ cond ∈ a.when, cond.eval ⟨env, log, host, none⟩) →
      Post (a.succeeds (a.event world ⟨env, log, host, none⟩).result)
        (log ++ [a.event world ⟨env, log, host, none⟩]))
    (hskip : ∀ log, I log → a.when.all (Cond.eval ⟨env, log, host, none⟩) = false → Post true log) :
    Triple False I (a.perform env world host) Post Err := by
  refine triple_bind (M := fun _ => I) ⟨fun t ht => by simpa using ht⟩ fun log₀ => ?_
  have hitems : a.items ⟨env, log₀, host, none⟩ = [none] := by simp only [Action.items, ha]
  rw [hitems]
  simpa [List.foldlM_cons, List.foldlM_nil] using
    (triple_runItem hrun hskip : Triple False I (a.runItem env world host none) Post Err)

theorem reaches_perform {P : Event → Prop} (item : Option Item) (items : List (Option Item))
    (hitems : ∀ log, I log → a.items ⟨env, log, host, none⟩ = item :: items)
    (hwhen : ∀ log, I log → ∀ cond ∈ a.when, cond.eval ⟨env, log, host, item⟩)
    (hP : ∀ log, P (a.event world ⟨env, log, host, item⟩)) :
    Reaches I P (a.perform env world host) := by
  intro log hlog
  have hemit : Reaches (fun u => u = log) P (a.runItem env world host item) := by
    intro u hu
    rw [Action.runItem, run_bind_value (run_history u)]
    subst hu
    refine ⟨a.event world ⟨env, u, host, item⟩, ?_, hP u⟩
    rw [List.append_nil, List.nil_append, if_pos (List.all_eq_true.2 (hwhen u hlog))]
    exact mem_run_bind (by simp)
  obtain ⟨e, he, hPe⟩ := hemit log rfl
  refine ⟨e, ?_, hPe⟩
  rw [Action.perform, run_bind_value (run_history log), hitems log hlog, List.foldlM_cons,
    List.append_nil, List.nil_append]
  exact mem_run_bind (mem_run_bind he)

end Triples

/-! ### Variables in a history -/

section Variables

variable {log : List Event} {f : Fact} {v : Value}

theorem exists_of_factOf (h : factOf log host f = some v) :
    ∃ e ∈ log, e.host = host ∧ (f, v) ∈ e.facts := by
  obtain ⟨⟨f', v'⟩, hmem, hv⟩ := List.exists_of_findSome?_eq_some h
  obtain ⟨e, he, hp⟩ := List.mem_flatMap.1 (List.mem_reverse.1 hmem)
  obtain ⟨hlog, hhost⟩ := List.mem_filter.1 he
  split_ifs at hv with hf
  cases hv
  cases hf
  exact ⟨e, hlog, by simpa using hhost, hp⟩

/-- A fact that was set, and only to one value, has this value. -/
theorem factOf_eq_some {e : Event} (he : e ∈ log) (hhost : e.host = host) (hf : (f, v) ∈ e.facts)
    (hlog : ∀ e ∈ log, ∀ v', (f, v') ∈ e.facts → v' = v) : factOf log host f = some v := by
  cases hfact : factOf log host f with
  | none =>
    unfold factOf at hfact
    rw [List.findSome?_eq_none_iff] at hfact
    have := hfact (f, v) (by simp only [List.mem_reverse, List.mem_flatMap, List.mem_filter]
                             exact ⟨e, ⟨he, by simpa using hhost⟩, hf⟩)
    simp at this
  | some v' =>
    obtain ⟨e', he', -, hf'⟩ := exists_of_factOf hfact
    rw [hlog e' he' v' hf']

/-- A variable that was registered has the result of a run of its task. -/
theorem exists_result {c : Context} {r : Register} {e : Event} (he : e ∈ c.log)
    (hhost : e.host = c.host) (hr : e.register = some r) :
    ∃ e' ∈ c.log, c.result r = some e'.result := by
  have hmem : e ∈ c.runs r := by simp [Context.runs, he, hhost, hr]
  obtain ⟨e', he'⟩ : ∃ e', (c.runs r).getLast? = some e' := by
    cases hlast : (c.runs r).getLast? with
    | none => rw [List.getLast?_eq_none_iff.1 hlast] at hmem; exact absurd hmem (by simp)
    | some e' => exact ⟨e', rfl⟩
  refine ⟨e', (List.mem_filter.1 (List.mem_of_getLast? he')).1, ?_⟩
  rw [Context.result, he']
  rfl

end Variables

/-! ### The tasks that some tags leave -/

def Part.tags : Part → List String
  | task a => a.tags
  | includeTasks i => i.tags

/-- A task of the playbook, whatever its tags. -/
def InPlaybook (a : Action) : Prop := ∃ p ∈ playbook, ∃ part ∈ p.parts, a ∈ part.actions

instance (a : Action) : Decidable (InPlaybook a) :=
  inferInstanceAs (Decidable (∃ p ∈ playbook, ∃ part ∈ p.parts, a ∈ part.actions))

/-- A task of a play that some tags leave to run. -/
def Selected (sel : Playbook.TagSelection) (p : Play) (a : Action) : Prop :=
  ∃ part ∈ p.parts, a ∈ part.actions ∧ sel.runs part.tags ∧ sel.runs a.tags

theorem Selected.inPlaybook {sel : Playbook.TagSelection} {p : Play} (h : Selected sel p a)
    (hp : p ∈ playbook) : InPlaybook a := by
  obtain ⟨part, hpart, ha, -⟩ := h
  exact ⟨p, hp, part, hpart, ha⟩

theorem inPlaybook_of_include {p : Play} (hp : p ∈ playbook) {i : Include}
    (hi : .includeTasks i ∈ p.parts) (ha : .task a ∈ i.file) :
    InPlaybook (a.within i.applied []) :=
  ⟨p, hp, .includeTasks i, hi, List.mem_flatMap.2 ⟨.task a, ha, List.mem_singleton_self _⟩⟩

theorem tasks_entry (applied : List String) (e : Entry) :
    (e.entry env world applied).tasks = (e.actions applied).map (Action.task env world) := by
  cases e <;> simp [Entry.entry, Entry.actions, Playbook.Entry.tasks, Function.comp_def]

theorem Part.exists_of_selected {sel : Playbook.TagSelection} {part : Part}
    {t : Playbook.Task String Event} (ht : t ∈ (part.part env world).selected sel) :
    ∃ a ∈ part.actions, sel.runs part.tags ∧ sel.runs a.tags ∧ t = a.task env world := by
  cases part with
  | task a =>
    obtain ⟨ht, hsel⟩ := List.mem_filter.1 ht
    rw [List.mem_singleton.1 ht] at hsel ⊢
    exact ⟨a, List.mem_singleton_self a, hsel, hsel, rfl⟩
  | includeTasks i =>
    rw [Part.part, Playbook.Part.selected] at ht
    split_ifs at ht with htags
    · obtain ⟨hfile, hsel⟩ := List.mem_filter.1 ht
      obtain ⟨e, he, hte⟩ := List.mem_flatMap.1 hfile
      obtain ⟨entry, hentry, rfl⟩ := List.mem_map.1 he
      rw [tasks_entry] at hte
      obtain ⟨a, ha, rfl⟩ := List.mem_map.1 hte
      exact ⟨a, List.mem_flatMap.2 ⟨entry, hentry, ha⟩, htags, hsel, rfl⟩
    · exact absurd ht (by simp)

theorem exists_of_selected {sel : Playbook.TagSelection} {p : Play}
    {t : Playbook.Task String Event} (ht : t ∈ (p.play env world).selected sel) :
    ∃ a, Selected sel p a ∧ t = a.task env world := by
  obtain ⟨q, hq, hmem⟩ := List.mem_flatMap.1 ht
  obtain ⟨part, hpart, rfl⟩ := List.mem_map.1 hq
  obtain ⟨a, ha, htags, hsel, rfl⟩ := Part.exists_of_selected hmem
  exact ⟨a, ⟨part, hpart, ha, htags, hsel⟩, rfl⟩

/-- The validation has tasks without tags, and the include. -/
theorem validation_parts {part : Part} (h : part ∈ validationPlay.parts) :
    (∃ a, part = .task a ∧ a.tags = [] ∧ InPlaybook a ∧ a.module.sets = []) ∨
      part = .includeTasks preflightInclude := by
  simp only [validationPlay, showStateTasks, List.map_cons, List.map_nil, List.cons_append,
    List.nil_append, List.mem_cons, List.not_mem_nil, or_false] at h
  rcases h with rfl | rfl | rfl | rfl
  · exact .inl ⟨_, rfl, rfl, by decide +kernel, rfl⟩
  · exact .inl ⟨_, rfl, rfl, by decide +kernel, rfl⟩
  · exact .inl ⟨_, rfl, rfl, by decide +kernel, rfl⟩
  · exact .inr rfl

theorem runPart_include {sel : Playbook.TagSelection} {i : Include} (hsel : sel.runs i.tags)
    (hholds : ∀ log, includeHolds env i.when log host) :
    Playbook.runPart sel [host] ((Part.includeTasks i).part env world) =
      Playbook.runFile sel [host] (i.file.map (Entry.entry env world i.applied)) :=
  Playbook.runPart_include sel hsel hholds

/-- A file of plain tasks, as far as it goes. -/
theorem kept_tasks {sel : Playbook.TagSelection} {Fail : Prop} {I : List Event → Prop}
    {l : List Action} {applied hosts : List String}
    (h : ∀ a ∈ l, ∀ host ∈ hosts,
      Playbook.Keeps Fail I ((a.within applied []).task env world) host) :
    Playbook.Kept Fail I (Playbook.runFile sel hosts
      ((l.map Entry.task).map (Entry.entry env world applied))) := by
  refine Playbook.kept_runFile fun e he t ht _ host hhost => ?_
  rw [List.map_map] at he
  obtain ⟨a, ha, rfl⟩ := List.mem_map.1 he
  rw [List.mem_singleton.1 ht]
  exact h a ha host hhost

/-- What every event of a selected task satisfies, every event of the run does. -/
theorem emits_run {sel : Playbook.TagSelection} {P : Event → Prop}
    (h : ∀ p ∈ playbook, ∀ a, Selected sel p a → ∀ host, Emits P (a.perform env world host)) :
    Emits P (run env world sel) := by
  refine Playbook.emits_runPlays fun q hq t ht host _ => ?_
  obtain ⟨p, hp, rfl⟩ := List.mem_map.1 hq
  obtain ⟨a, ha, rfl⟩ := exists_of_selected ht
  exact h p hp a ha host

end Yggdrasil.DiskCleanup
