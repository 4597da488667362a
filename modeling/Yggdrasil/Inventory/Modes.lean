import Yggdrasil.Inventory.Report

/-! Strict and best-effort inventories. The strict mode raises where the best-effort mode
records an error, at every listing of both providers and in the assembly of the report, so
a strict run returns exactly when the best-effort run returns without an error. -/

namespace Yggdrasil.Inventory

open Effect Effect.Program Python

/-- The strict program returns exactly when the best-effort one returns and records nothing. -/
abbrev Modes {α : Type} (strict lenient : Prog α) : Prop :=
  Agree (fun e : Event => e.isIssue = true) strict lenient

/-- A program that records no error. -/
abbrev Silent {α : Type} (m : Prog α) : Prop := Emits (fun e : Event => ¬e.isIssue = true) m

variable {α : Type} {cloud : Cloud}

theorem modes_refl {m : Prog α} (h : Silent m) : Modes m m := agree_refl h

theorem emits_send {P : Event → Prop} {request : Request} (h : ∀ answer, P (.listing request answer)) :
    Emits P (send cloud request) :=
  emits_bind emits_history fun _ => emits_bind (emits_emit (h _)) fun _ => emits_pure _

theorem emits_ofOption {P : Event → Prop} (o : Option α) : Emits P (ofOption o) := by
  cases o with
  | none => exact emits_throw _
  | some a => exact emits_pure _

theorem emits_serialize {P : Event → Prop} (objects : List Value) : Emits P (serialize objects) :=
  emits_ofOption _

theorem silent_listing {r : Request} (answer : Answer) : ¬(Event.listing r answer).isIssue = true := by
  simp [Event.isIssue]

/-- Recording an error and then going on in one mode only. -/
theorem modes_record {resource : String} {x y : Exc} {a : α} :
    Modes (do record resource x; throw y) (do record resource x; return a) := by
  refine agree_of_emits (fun t b s hr => ?_) fun t => ?_
  · obtain ⟨_, _, _, _, h, _⟩ := run_bind_eq_value.1 hr
    simp at h
  · exact ⟨.issue (providerError resource x), mem_run_bind (by simp [record]), rfl⟩

theorem modes_tolerate {resource : String} {listing : Prog (List Value)} (h : Silent listing) :
    Modes (tolerate true resource listing) (tolerate false resource listing) := by
  refine agree_handle h fun x => ?_
  cases x with
  | other message => exact modes_refl (emits_throw _)
  | inventory kind message =>
    exact agree_ite (fun _ => modes_refl (emits_pure _)) fun _ => modes_record

theorem emits_filterRelated {P : Event → Prop} (service : String) (c : Collected) :
    Emits P (filterRelated service c) := by
  refine emits_foldlM (fun c entry => ?_) _ _
  unfold filterType
  exact emits_ite (fun _ => emits_bind (emits_serialize _) fun _ => emits_pure _)
    fun _ => emits_pure _

/-! ### The builtin provider -/

section Builtin

variable (p : BuiltinProvider)

/-- The events of a listing are requests for its type. -/
theorem emits_listAll {P : Event → Prop} {name : String}
    (hP : ∀ r answer, r.resource = name → P (.listing r answer)) (c : ResourceClass)
    (path query : List (String × Value)) : Emits P (listAll cloud p name c path query) := by
  refine emits_ite (fun _ => emits_throw _) fun _ => emits_bind (emits_send fun _ => hP _ _ rfl)
    fun answer => ?_
  cases answer with
  | objects items => exact emits_pure _
  | nothing => exact emits_pure _
  | failed yielded error => exact emits_throw _

theorem emits_listWithProjectFilterFallback {P : Event → Prop} {name : String}
    (hP : ∀ r answer, r.resource = name → P (.listing r answer)) (c : ResourceClass)
    (path filter : List (String × Value)) :
    Emits P (listWithProjectFilterFallback cloud p name c path filter) := by
  refine emits_handle (emits_listAll p hP c path filter) fun x => ?_
  cases x with
  | other message => exact emits_throw _
  | inventory kind message =>
    exact emits_ite (fun _ => emits_throw _) fun _ => emits_listAll p hP _ _ _

theorem emits_listCombination {P : Event → Prop} {spec : Spec}
    (hP : ∀ r answer, r.resource = spec.name → P (.listing r answer)) (projectId : String)
    (acc : List (List (String × String)) × List Value) (combination : List Value) :
    Emits P (listCombination cloud p spec projectId acc combination) := by
  unfold listCombination
  split
  · exact emits_pure _
  · refine emits_ite (fun _ => emits_pure _) fun _ => ?_
    exact emits_bind (emits_listWithProjectFilterFallback p hP _ _ _) fun _ => emits_pure _

theorem emits_listSpec {P : Event → Prop} {spec : Spec}
    (hP : ∀ r answer, r.resource = spec.name → P (.listing r answer)) (projectId : String)
    (parents : List (String × List Value)) : Emits P (listSpec cloud p spec projectId parents) := by
  refine emits_ite (fun _ => ?_) fun _ => ?_
  · exact emits_bind (emits_listWithProjectFilterFallback p hP _ _ _) fun _ => emits_pure _
  · split
    · exact emits_pure _
    · refine emits_ite (fun _ => emits_pure _) fun _ => ?_
      exact emits_bind (emits_foldlM (fun acc combination =>
        emits_listCombination p hP projectId acc combination) _ _) fun _ => emits_pure _

theorem modes_collectSpec (projectId : String) (c : Collected) (spec : Spec) :
    Modes (collectSpec cloud p true projectId c spec) (collectSpec cloud p false projectId c spec) := by
  refine agree_bind (modes_tolerate
    (emits_listSpec p (fun _ _ _ => silent_listing _) projectId c.objects)) fun objects => ?_
  exact modes_refl (emits_bind (emits_serialize _) fun _ => emits_pure _)

theorem emits_dropByIds {P : Event → Prop} (ids : List String) (name key : String) (c : Collected) :
    Emits P (dropByIds ids name key c) :=
  emits_bind (emits_serialize _) fun _ => emits_pure _

theorem emits_excludeDefaultSecurityGroup {P : Event → Prop} (c : Collected) :
    Emits P (excludeDefaultSecurityGroup p c) := by
  refine emits_ite (fun _ => emits_pure _) fun _ => emits_bind (emits_dropByIds _ _ _ _) fun c => ?_
  exact emits_ite (fun _ => emits_dropByIds _ _ _ _) fun _ => emits_pure _

theorem emits_projectRecord {P : Event → Prop} (project : Project) :
    Emits P (projectRecord p project) :=
  emits_ite (fun _ => emits_bind (emits_ofOption _) fun _ => emits_pure _) fun _ => emits_pure _

theorem modes_collectDirect (project : Project) :
    Modes (collectDirect cloud p true project) (collectDirect cloud p false project) := by
  refine agree_bind (modes_refl (emits_projectRecord p project)) fun c => ?_
  refine agree_bind (agree_foldlM (fun c spec => modes_collectSpec p _ c spec) _ _) fun c => ?_
  refine agree_bind (modes_refl (emits_excludeDefaultSecurityGroup p c)) fun c => ?_
  exact modes_refl (emits_filterRelated _ _)

theorem modes_collectContainer (c : ResourceClass) (entries : List Mapping) (container : Value) :
    Modes (collectContainer cloud p true c entries container)
      (collectContainer cloud p false c entries container) := by
  refine agree_ite (fun _ => modes_refl (emits_pure _)) fun _ => ?_
  refine agree_bind (modes_tolerate
    (emits_listAll p (fun _ _ _ => silent_listing _) _ _ _)) fun objects => ?_
  exact modes_refl (emits_bind (emits_ofOption _) fun _ => emits_pure _)

theorem modes_collectContainers (c : ResourceClass) (s : Collected) :
    Modes (collectContainers cloud p true c s) (collectContainers cloud p false c s) := by
  refine agree_ite (fun _ => modes_refl (emits_pure _)) fun _ => ?_
  refine agree_bind (modes_tolerate
    (emits_listAll p (fun _ _ _ => silent_listing _) _ _ _)) fun containers => ?_
  exact modes_refl (emits_bind (emits_serialize _) fun _ => emits_pure _)

theorem modes_collectObjectStore (s : Collected) :
    Modes (collectObjectStore cloud p true s) (collectObjectStore cloud p false s) := by
  refine agree_ite (fun _ => modes_refl (emits_pure _)) fun _ => ?_
  split
  · refine agree_bind (modes_collectContainers p _ s) fun s => ?_
    refine agree_bind (agree_foldlM (fun entries container =>
      modes_collectContainer p _ entries container) _ _) fun entries => ?_
    exact modes_refl (emits_pure _)
  · exact modes_record

theorem modes_nestedStep (projectId : String) (s : Pass) (spec : Spec) :
    Modes (nestedStep cloud p true projectId s spec) (nestedStep cloud p false projectId s spec) := by
  refine agree_ite (fun _ => ?_) fun _ => modes_refl (emits_pure _)
  exact agree_bind (modes_collectSpec p _ _ _) fun c => modes_refl (emits_pure _)

theorem modes_nestedLoop (projectId : String) (fuel : ℕ) (c : Collected) (pending : List Spec) :
    Modes (nestedLoop cloud p true projectId fuel c pending)
      (nestedLoop cloud p false projectId fuel c pending) := by
  induction fuel generalizing c pending with
  | zero => exact modes_refl (emits_pure _)
  | succ fuel ih =>
    refine agree_ite (fun _ => modes_refl (emits_pure _)) fun _ => ?_
    refine agree_bind (agree_foldlM (fun s spec => modes_nestedStep p _ s spec) _ _) fun s => ?_
    exact agree_ite (fun _ => ih _ _) fun _ => modes_refl (emits_pure _)

theorem modes_builtin (project : Project) :
    Modes (p.collect cloud true project) (p.collect cloud false project) := by
  refine agree_bind ?_ fun c => modes_refl (emits_pure _)
  refine agree_bind (modes_collectDirect p project) fun c => ?_
  refine agree_bind (modes_collectObjectStore p c) fun c => ?_
  exact modes_nestedLoop p _ _ c _

end Builtin

/-! ### The legacy provider -/

section Legacy

variable (p : LegacyProvider)

theorem silent_listManager (name : String) (kwargs : List (String × Value)) :
    Silent (listManager cloud p name kwargs) := by
  refine emits_bind (emits_send silent_listing) fun answer => ?_
  cases answer with
  | objects items => exact emits_pure _
  | nothing => exact emits_pure _
  | failed yielded error => exact emits_throw _

theorem silent_keep (c : Collected) (name : String) (objects : List Value) :
    Silent (keep c name objects) :=
  emits_ite (fun _ => emits_pure _) fun _ => emits_bind (emits_serialize _) fun _ => emits_pure _

theorem modes_collectManager (projectId : String) (c : Collected) (m : Manager) :
    Modes (collectManager cloud p true projectId c m)
      (collectManager cloud p false projectId c m) := by
  refine agree_bind (modes_tolerate (silent_listManager p _ _)) fun values => ?_
  exact modes_refl (silent_keep _ _ _)

theorem modes_collectCombination (m : Manager) (acc : Nested) (combination : List Value) :
    Modes (collectCombination cloud p true m acc combination)
      (collectCombination cloud p false m acc combination) := by
  refine agree_ite (fun _ => modes_refl (emits_pure _)) fun _ => ?_
  refine agree_bind (modes_refl (emits_send silent_listing)) fun answer => ?_
  dsimp only
  split
  · exact modes_refl (emits_pure _)
  · exact agree_ite (fun _ => modes_refl (emits_pure _)) fun _ => modes_record

theorem modes_collectNested (s : Collected × List String) (m : Manager) :
    Modes (collectNested cloud p true s m) (collectNested cloud p false s m) := by
  unfold collectNested
  dsimp only
  split
  · exact modes_refl (emits_pure _)
  · refine agree_ite (fun _ => modes_refl (emits_pure _)) fun _ => ?_
    refine agree_bind (agree_foldlM (fun acc combination =>
      modes_collectCombination p m acc combination) _ _) fun nested => ?_
    exact modes_refl (emits_bind (silent_keep _ _ _) fun _ => emits_pure _)

/-- The strict mode raises an error that the best-effort mode records for some resource. -/
theorem modes_complain {resources : List String} (h : resources ≠ []) (x : Exc) :
    Modes (complain true resources x) (complain false resources x) := by
  refine agree_of_emits (fun t a s hr => ?_) fun t => ?_
  · obtain ⟨_, _, _, _, h, _⟩ := run_bind_eq_value.1 hr
    simp at h
  · cases resources with
    | nil => exact absurd rfl h
    | cons resource resources =>
      refine ⟨.issue (providerError resource x), ?_, rfl⟩
      unfold complain
      refine mem_run_bind ?_
      rw [List.foldlM_cons]
      exact mem_run_bind (by simp [record])

theorem modes_collectAll (project : Project) :
    Modes (p.collectAll cloud true project) (p.collectAll cloud false project) := by
  refine agree_bind ?_ fun _ => ?_
  · exact agree_ite (fun _ => modes_complain (by simp) _) fun _ => modes_refl (emits_pure _)
  · refine agree_bind ?_ fun c => agree_bind (agree_foldlM (fun s m =>
      modes_collectNested p s m) _ _) fun s => agree_bind ?_ fun _ => modes_refl (emits_pure _)
    · refine agree_bind (agree_foldlM (fun c m => modes_collectManager p _ c m) _ _) fun c => ?_
      exact modes_refl (emits_filterRelated _ _)
    · refine agree_ite (fun _ => modes_refl (emits_pure _)) fun hne => modes_complain ?_ _
      simpa using hne

theorem modes_legacy (project : Project) :
    Modes (p.collect cloud true project) (p.collect cloud false project) :=
  agree_bind (modes_collectAll p project) fun _ => modes_refl (emits_pure _)

end Legacy

/-- Both providers collect the same in both modes, or record an error in one and raise in the
other. -/
theorem modes_collect (provider : Provider) (project : Project) :
    Modes (provider.collect cloud true project) (provider.collect cloud false project) := by
  cases provider with
  | builtin p => exact modes_builtin p project
  | legacy p => exact modes_legacy p project

/-! ### The report -/

section Report

variable {sdk : Sdk} {project : Project}

theorem filterMap_issue_eq_nil {s : List Event} :
    s.filterMap Event.issue? = [] ↔ ∀ e ∈ s, ¬e.isIssue = true := by
  rw [List.filterMap_eq_nil_iff]
  refine forall₂_congr fun e _ => ?_
  cases e <;> simp [Event.issue?, Event.isIssue]

/-- What a provider that returns adds to a report. -/
def Report.add (r : Report) (entry : Endpoint × Provider) (collected : List (String × List Mapping))
    (s : List Event) : Report :=
  { r with
    resources := Dict.set r.resources entry.1.serviceType collected
    providers := Dict.set r.providers entry.1.serviceType ⟨entry.2.name, entry.1⟩
    errors := r.errors ++ (s.filterMap Event.issue?).map (ReportIssue.mk entry.1.serviceType) }

theorem collectEndpoint_strict {r r' : Report} {entry : Endpoint × Provider} {t s : List Event} :
    (collectEndpoint sdk true project r entry).run t = (.value r', s) ↔
      ∃ collected, (entry.2.collect sdk.answer true project).run t = (.value collected, s) ∧
        r' = r.add entry collected s := by
  obtain ⟨e, provider⟩ := entry
  simp only [collectEndpoint, run_bind_eq_value, run_attempt_eq_value]
  constructor
  · rintro ⟨_, s₁, s₂, ⟨collected, hrun, rfl⟩ | ⟨x, _, rfl⟩, h, rfl⟩
    · simp only [run_pure, Prod.mk.injEq, Outcome.value.injEq] at h
      obtain ⟨rfl, rfl⟩ := h
      exact ⟨collected, by simpa using hrun, by simp [Report.add]⟩
    · simp at h
  · rintro ⟨collected, hrun, rfl⟩
    exact ⟨_, s, [], .inl ⟨collected, hrun, rfl⟩, by simp [Report.add], by simp⟩

/-- A best-effort step that adds no error is a returned collection without issues. -/
theorem collectEndpoint_lenient {r r' : Report} {entry : Endpoint × Provider} {t s : List Event}
    (hr : r.errors = []) :
    ((collectEndpoint sdk false project r entry).run t = (.value r', s) ∧ r'.errors = []) ↔
      ∃ collected, (entry.2.collect sdk.answer false project).run t = (.value collected, s) ∧
        (∀ e ∈ s, ¬e.isIssue = true) ∧ r' = r.add entry collected s := by
  obtain ⟨e, provider⟩ := entry
  simp only [collectEndpoint, run_bind_eq_value, run_attempt_eq_value]
  constructor
  · rintro ⟨⟨_, s₁, s₂, ⟨collected, hrun, rfl⟩ | ⟨x, _, rfl⟩, h, rfl⟩, herr⟩
    · simp only [run_pure, Prod.mk.injEq, Outcome.value.injEq] at h
      obtain ⟨rfl, rfl⟩ := h
      refine ⟨collected, by simpa using hrun, ?_, by simp [Report.add]⟩
      rw [List.append_nil, ← filterMap_issue_eq_nil]
      simpa [hr] using herr
    · simp only [Bool.false_eq_true, if_false, run_pure, Prod.mk.injEq, Outcome.value.injEq] at h
      obtain ⟨rfl, rfl⟩ := h
      simp at herr
  · rintro ⟨collected, hrun, hsilent, rfl⟩
    refine ⟨⟨_, s, [], .inl ⟨collected, hrun, rfl⟩, by simp [Report.add], by simp⟩, ?_⟩
    simp [Report.add, hr, filterMap_issue_eq_nil.2 hsilent]

theorem collectEndpoint_modes {r r' : Report} {entry : Endpoint × Provider} {t s : List Event}
    (hr : r.errors = []) :
    (collectEndpoint sdk true project r entry).run t = (.value r', s) ↔
      (collectEndpoint sdk false project r entry).run t = (.value r', s) ∧ r'.errors = [] := by
  rw [collectEndpoint_strict, collectEndpoint_lenient hr]
  refine exists_congr fun collected => ?_
  rw [modes_collect entry.2 project t collected s, and_assoc]

/-- The errors of a report are never taken back. -/
theorem collectEndpoint_errors {r r' : Report} {entry : Endpoint × Provider} {t s : List Event}
    (h : (collectEndpoint sdk false project r entry).run t = (.value r', s)) :
    r'.errors = [] → r.errors = [] := by
  obtain ⟨e, provider⟩ := entry
  simp only [collectEndpoint, run_bind_eq_value, run_attempt_eq_value] at h
  obtain ⟨_, _, _, ⟨collected, _, rfl⟩ | ⟨x, _, rfl⟩, h, _⟩ := h
  · simp only [run_pure, Prod.mk.injEq, Outcome.value.injEq] at h
    obtain ⟨rfl, _⟩ := h
    intro he
    exact (List.append_eq_nil_iff.1 he).1
  · simp only [Bool.false_eq_true, if_false, run_pure, Prod.mk.injEq, Outcome.value.injEq] at h
    obtain ⟨rfl, _⟩ := h
    intro he
    simp at he

theorem foldlM_collectEndpoint_errors {providers : List (Endpoint × Provider)} {r r' : Report}
    {t s : List Event}
    (h : (providers.foldlM (collectEndpoint sdk false project) r).run t = (.value r', s)) :
    r'.errors = [] → r.errors = [] := by
  induction providers generalizing r t s with
  | nil =>
    simp only [List.foldlM_nil, run_pure, Prod.mk.injEq, Outcome.value.injEq] at h
    rw [h.1]
    exact id
  | cons entry providers ih =>
    rw [List.foldlM_cons] at h
    obtain ⟨r₁, _, _, h₁, h₂, _⟩ := run_bind_eq_value.1 h
    exact fun he => collectEndpoint_errors h₁ (ih h₂ he)

theorem foldlM_collectEndpoint_modes {providers : List (Endpoint × Provider)} {r r' : Report}
    {t s : List Event} (hr : r.errors = []) :
    (providers.foldlM (collectEndpoint sdk true project) r).run t = (.value r', s) ↔
      (providers.foldlM (collectEndpoint sdk false project) r).run t = (.value r', s) ∧
        r'.errors = [] := by
  induction providers generalizing r t s with
  | nil =>
    simp only [List.foldlM_nil, run_pure, Prod.mk.injEq, Outcome.value.injEq]
    constructor
    · rintro ⟨rfl, hs⟩
      exact ⟨⟨rfl, hs⟩, hr⟩
    · exact And.left
  | cons entry providers ih =>
    rw [List.foldlM_cons, List.foldlM_cons, run_bind_eq_value, run_bind_eq_value]
    constructor
    · rintro ⟨r₁, s₁, s₂, h₁, h₂, rfl⟩
      obtain ⟨h₁, hr₁⟩ := (collectEndpoint_modes hr).1 h₁
      obtain ⟨h₂, hr'⟩ := (ih hr₁).1 h₂
      exact ⟨⟨r₁, s₁, s₂, h₁, h₂, rfl⟩, hr'⟩
    · rintro ⟨⟨r₁, s₁, s₂, h₁, h₂, rfl⟩, hr'⟩
      have hr₁ : r₁.errors = [] := foldlM_collectEndpoint_errors h₂ hr'
      exact ⟨r₁, s₁, s₂, (collectEndpoint_modes hr).2 ⟨h₁, hr₁⟩, (ih hr₁).2 ⟨h₂, hr'⟩, rfl⟩

theorem inventory_modes (endpoints : List Endpoint) (connection : Connection) (t s : List Event)
    (report : Report) :
    (inventory sdk endpoints connection project true).run t = (.value report, s) ↔
      (inventory sdk endpoints connection project false).run t = (.value report, s) ∧
        report.errors = [] := by
  unfold inventory
  dsimp only
  rw [run_bind_eq_value, run_bind_eq_value]
  constructor
  · rintro ⟨⟨providers, errors⟩, s₁, s₂, h₁, h₂, rfl⟩
    by_cases he : errors = []
    · subst he
      simp only [ne_eq, not_true_eq_false, false_and, if_false] at h₂
      obtain ⟨h₂, hr⟩ := (foldlM_collectEndpoint_modes rfl).1 h₂
      exact ⟨⟨_, s₁, s₂, h₁, by simpa using h₂, rfl⟩, hr⟩
    · simp [he] at h₂
  · rintro ⟨⟨⟨providers, errors⟩, s₁, s₂, h₁, h₂, rfl⟩, hr⟩
    simp only [Bool.false_eq_true, and_false, if_false] at h₂
    have he : errors = [] := foldlM_collectEndpoint_errors h₂ hr
    subst he
    refine ⟨_, s₁, s₂, h₁, ?_, rfl⟩
    simpa using (foldlM_collectEndpoint_modes rfl).2 ⟨h₂, hr⟩

end Report

/-- The modes agree: for both providers and for the whole inventory, a strict run returns
exactly when the best-effort run returns without a recorded error, with the same resources. -/
theorem strict_iff_lenient :
    (∀ (cloud : Cloud) (provider : Provider) (project : Project) (t s : List Event)
      (resources : List (String × List Mapping)),
      (provider.collect cloud true project).run t = (.value resources, s) ↔
        (provider.collect cloud false project).run t = (.value resources, s) ∧
          ∀ e ∈ s, ¬e.isIssue = true) ∧
    ∀ (sdk : Sdk) (endpoints : List Endpoint) (connection : Connection) (project : Project)
      (t s : List Event) (report : Report),
      (inventory sdk endpoints connection project true).run t = (.value report, s) ↔
        (inventory sdk endpoints connection project false).run t = (.value report, s) ∧
          report.errors = [] :=
  ⟨fun _ provider project t s resources => modes_collect provider project t resources s,
    fun _ endpoints connection _ t s report => inventory_modes endpoints connection t s report⟩

end Yggdrasil.Inventory
