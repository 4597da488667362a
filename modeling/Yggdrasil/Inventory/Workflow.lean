import Yggdrasil.Inventory.Provenance

/-! Executions of the workflow service. The loop over the listed types keeps an execution
only next to its workflow; it runs before the nested types are listed, and it knows an
execution type by two names. Executions that it does not reach are kept whatever workflow
they refer to. -/

namespace Yggdrasil.Inventory

open Combination Effect Effect.Program Python

/-- The names under which the filter looks for executions. -/
def executionNames : List String := ["execution", "workflow_execution"]

def isExecution (name : String) : Bool :=
  ["execution", "workflowexecution"].contains (stripPlural (normalizedName name))

def isWorkflow (name : String) : Bool := stripPlural (normalizedName name) == "workflow"

/-- The request is for a type that is listed for its parents. -/
def Request.nested (r : Request) : Bool :=
  match r.resourceClass with
  | some c => !(resourcePlaceholders c).isEmpty
  | none => !r.path.isEmpty

/-- The nested managers of a legacy client keep what they list, also before a failure. -/
def Request.keepsAll (r : Request) : Bool := r.resourceClass.isNone && r.nested

/-- The objects that a provider keeps of an answer. -/
def Request.kept (r : Request) (projectId : String) : Answer → List Value
  | .objects items => if r.keepsAll then items else ownedBy projectId items
  | .nothing => []
  | .failed yielded _ => if r.keepsAll then yielded else []

/-- An execution type that the filter does not reach is answered with no object to keep. -/
def Event.Filtered (projectId : String) : Event → Prop
  | .listing r answer => isExecution r.resource = true →
      (r.nested = false ∧ r.resource ∈ executionNames) ∨ r.kept projectId answer = []
  | _ => True

/-- The run lists the object under this name. -/
def Named (t : List Event) (name : String) (o : Value) : Prop :=
  ∃ r answer, .listing r answer ∈ t ∧ r.resource = name ∧ o ∈ answer.items

/-- The execution refers to the workflow. -/
def Refers (execution workflow : Value) : Prop :=
  (value workflow "id").isNone = false ∧ text (value workflow "id") = text (value execution "workflow_id")

/-- Every execution of the result refers to a workflow of the result. -/
def OwnedExecutions (t : List Event) (result : List (String × List Mapping)) : Prop :=
  ∀ name entries, Dict.get? result name = some entries → isExecution name = true →
    ∀ entry ∈ entries, ∃ o, Named t name o ∧ resourceToDict o = some entry ∧
      ∃ name' entries' entry' w, Dict.get? result name' = some entries' ∧ isWorkflow name' = true ∧
        entry' ∈ entries' ∧ Named t name' w ∧ resourceToDict w = some entry' ∧ Refers o w

variable {cloud : Cloud} {Q : Claim} {names : List String} {t : List Event} {c c' : Collected}
  {name : String} {service : String} {project : Project}

/-! ### The filter -/

/-- The entries are those of the objects. -/
structure Mirrored (c : Collected) : Prop where
  nodup : (c.objects.map Prod.fst).Nodup
  entries : ∀ name entries, Dict.get? c.result name = some entries →
    ((Dict.get? c.objects name).getD []).mapM resourceToDict = some entries
  listed : ∀ name, (Dict.get? c.objects name).getD [] ≠ [] → (Dict.get? c.result name).isSome

/-- Every execution refers to a workflow. -/
def Related (c : Collected) : Prop :=
  ∀ name ∈ executionNames, ∀ o ∈ (Dict.get? c.objects name).getD [],
    ∃ w ∈ (Dict.get? c.objects "workflow").getD [], Refers o w

theorem Mirrored.set (h : Mirrored c) {objects : List Value} {entries : List Mapping}
    (he : objects.mapM resourceToDict = some entries) :
    Mirrored ⟨Dict.set c.objects name objects, Dict.set c.result name entries⟩ where
  nodup := Dict.nodup_set h.nodup name objects
  entries name' entries' hr := by
    simp only at hr ⊢
    by_cases hn : name' = name
    · subst hn
      rw [Dict.get?_set_self] at hr ⊢
      exact he.trans hr
    · rw [Dict.get?_set_of_ne hn] at hr ⊢
      exact h.entries name' entries' hr
  listed name' ho := by
    simp only at ho ⊢
    by_cases hn : name' = name
    · exact Dict.isSome_get?_set _ (.inl hn)
    · rw [Dict.get?_set_of_ne hn] at ho
      exact Dict.isSome_get?_set _ (.inr (h.listed name' ho))

/-- A type without entries may be listed without objects. -/
theorem Mirrored.clear (h : Mirrored c) (hn : Dict.get? c.result name = none) :
    Mirrored ⟨Dict.set c.objects name [], c.result⟩ where
  nodup := Dict.nodup_set h.nodup name []
  entries name' entries' hr := by
    simp only at hr ⊢
    by_cases hn' : name' = name
    · subst hn'
      simp [hn] at hr
    · rw [Dict.get?_set_of_ne hn']
      exact h.entries name' entries' hr
  listed name' ho := by
    simp only at ho ⊢
    by_cases hn' : name' = name
    · subst hn'
      simp at ho
    · rw [Dict.get?_set_of_ne hn'] at ho
      exact h.listed name' ho

theorem Mirrored.stores (h : Mirrored c) (hs : Stores Q t name c c')
    (hn : Dict.get? c.result name = none) : Mirrored c' := by
  obtain ⟨objects, entries, _, he, hobjects, hresult⟩ := hs
  obtain ⟨objects', result'⟩ := c'
  simp only at hobjects hresult
  subst hobjects
  rcases hresult with rfl | ⟨rfl, rfl⟩
  · exact h.set he
  · exact h.clear hn

theorem refers_of_mem_filter {objects : List Value} {parents : List (String × List Value)} {o : Value}
    (hn : name ∈ executionNames)
    (ho : o ∈ filterRelatedResources "workflow" name objects parents) :
    ∃ w ∈ (Dict.get? parents "workflow").getD [], Refers o w := by
  have hc : ["execution", "workflow_execution"].contains name = true := by
    simpa [executionNames] using hn
  rw [filterRelatedResources, if_pos ⟨rfl, hc⟩] at ho
  obtain ⟨_, hid⟩ := List.mem_filter.1 ho
  simp only [List.contains_iff_mem, List.mem_map, List.mem_filter, Bool.not_eq_true'] at hid
  obtain ⟨w, ⟨hw, hnone⟩, hid⟩ := hid
  exact ⟨w, hw, hnone, hid⟩

theorem filter_of_notMem {objects : List Value} {parents : List (String × List Value)}
    (hn : name ∉ executionNames) :
    filterRelatedResources service name objects parents = objects := by
  rw [filterRelatedResources, if_neg]
  rintro ⟨_, hc⟩
  exact hn (by simpa [executionNames] using hc)

/-- The loop has filtered the types of `done`, from the state `c`. -/
structure Filtering (c : Collected) (done : List String) (c' : Collected) : Prop where
  mirrored : Mirrored c'
  same : ∀ name, name ∉ done ∨ name ∉ executionNames →
    Dict.get? c'.objects name = Dict.get? c.objects name
  related : ∀ name ∈ done, name ∈ executionNames → ∀ o ∈ (Dict.get? c'.objects name).getD [],
    ∃ w ∈ (Dict.get? c.objects "workflow").getD [], Refers o w

/-- One pass of the loop. -/
theorem Filtering.pass {done : List String} {objects : List Value} {c'' : Collected}
    (h : Filtering c done c') (hd : name ∉ done) (hc : Dict.get? c.objects name = some objects)
    (hm : Mirrored c'')
    (ho : c''.objects = Dict.set c'.objects name
      (filterRelatedResources "workflow" name objects c'.objects)) :
    Filtering c (done ++ [name]) c'' where
  mirrored := hm
  same name' hn := by
    rw [ho]
    by_cases he : name' = name
    · subst he
      have hx : name' ∉ executionNames := hn.resolve_left fun hn => hn (by simp)
      rw [Dict.get?_set_self, filter_of_notMem hx, hc]
    · rw [Dict.get?_set_of_ne he]
      exact h.same name' (hn.imp_left fun hn hm => hn (by simp [hm]))
  related name' hn hx o hmem := by
    rw [ho] at hmem
    by_cases he : name' = name
    · subst he
      rw [Dict.get?_set_self, Option.getD_some] at hmem
      have hw := refers_of_mem_filter hx hmem
      rwa [h.same "workflow" (.inr (by simp [executionNames]))] at hw
    · rw [Dict.get?_set_of_ne he] at hmem
      have hn : name' ∈ done := (List.mem_append.1 hn).resolve_right (by simpa using he)
      exact h.related name' hn hx o hmem

theorem triple_filterType {done : List String} {objects : List Value} (h : Filtering c done c')
    (hd : name ∉ done) (hc : Dict.get? c.objects name = some objects) :
    Triple True (fun _ => True) (filterType "workflow" c' (name, objects))
      (fun c'' _ => Filtering c (done ++ [name]) c'') (fun _ _ => True) := by
  unfold filterType
  dsimp only
  refine triple_ite (fun _ => ?_) fun hn => triple_pure fun t _ => ?_
  · refine triple_bind (M := fun entries _ => (filterRelatedResources "workflow" name objects
      c'.objects).mapM resourceToDict = some entries) (triple_ofOption fun entries t he _ => he)
      fun entries => triple_pure fun t he => ?_
    exact h.pass hd hc (h.mirrored.set he) rfl
  · -- without entries the type has no objects, and there is nothing to filter
    have hempty : objects = [] := by
      have hsame := h.same name (.inl hd)
      rw [hc] at hsame
      by_contra hne
      exact hn (h.mirrored.listed name (by simpa [hsame] using hne))
    have hfilter : filterRelatedResources "workflow" name objects c'.objects = [] :=
      List.eq_nil_iff_forall_not_mem.2 fun o ho => by
        simpa [hempty] using mem_filterRelatedResources ho
    have hnone : Dict.get? c'.result name = none := by simpa using hn
    exact h.pass hd hc (hfilter ▸ h.mirrored.clear hnone) rfl

theorem triple_filterRelated_related (hc : Mirrored c) :
    Triple True (fun _ => True) (filterRelated "workflow" c) (fun c' _ => Mirrored c' ∧ Related c')
      (fun _ _ => True) := by
  unfold filterRelated
  refine (triple_foldlM_done (I := fun done c' _ => Filtering c (done.map Prod.fst) c')
    (fun pre entry post c' he => ?_) c).consequence (fun t _ => ?_) (fun c' t h => ?_) fun _ _ => id
  · refine triple_intro fun t h => ?_
    have hnodup := hc.nodup
    rw [he, List.map_append, List.map_cons] at hnodup
    have hmem : entry ∈ c.objects := by
      rw [he]
      simp
    rw [List.map_append]
    refine (triple_filterType h ?_ (Dict.get?_of_mem hc.nodup hmem)).consequence
      (fun _ _ => trivial) (fun _ _ => id) fun _ _ => id
    exact fun hm => (List.nodup_append.1 hnodup).2.2 _ hm _ List.mem_cons_self rfl
  · exact ⟨hc, fun _ _ => rfl, fun _ hm => by simp at hm⟩
  · refine ⟨h.mirrored, fun name hx o ho => ?_⟩
    rw [h.same "workflow" (.inr (by simp [executionNames]))]
    by_cases hm : name ∈ c.objects.map Prod.fst
    · exact h.related name hm hx o ho
    · rw [h.same name (.inl hm), Dict.get?_eq_none hm] at ho
      simp at ho

/-! ### The direct types -/

/-- The types listed so far are mirrored and are no others. -/
structure Fresh (Q : Claim) (names : List String) (t : List Event) (c : Collected) : Prop where
  sound : Sound Q names t c
  mirrored : Mirrored c
  known : ∀ name, (Dict.get? c.result name).isSome → name ∈ names

theorem Fresh.stores (h : Fresh Q names t c) (hs : Stores Q t name c c') (hn : name ∉ names) :
    Fresh Q (names ++ [name]) t c' where
  sound := h.sound.stores hs
  mirrored := h.mirrored.stores hs (by
    by_contra hne
    exact hn (h.known name (Option.isSome_iff_ne_none.2 hne)))
  known name' hr := by
    obtain ⟨objects, entries, _, _, _, hresult⟩ := hs
    by_cases he : name' = name
    · simp [he]
    · have hr' : (Dict.get? c.result name').isSome := by
        rcases hresult with h | ⟨_, h⟩
        · rwa [h, Dict.get?_set_of_ne he] at hr
        · rwa [h] at hr
      exact List.mem_append_left _ (h.known name' hr')

/-- Listing types with different names, one after the other. -/
theorem triple_foldlM_stores {ι : Type} {step : Collected → ι → Prog Collected} {key : ι → String}
    {l : List ι} (hl : (l.map key).Nodup)
    (hstep : ∀ c names, ∀ a ∈ l, Triple True (fun t => Sound Q names t c) (step c a)
      (fun c' t => Sound Q names t c ∧ Stores Q t (key a) c c') (fun _ _ => True)) :
    Triple True (fun _ => True) (l.foldlM step ⟨[], []⟩) (fun c t => Fresh Q (l.map key) t c)
      (fun _ _ => True) := by
  refine (triple_foldlM_done (I := fun done c t => Fresh Q (done.map key) t c)
    (fun pre a post c he => ?_) ⟨[], []⟩).consequence (fun t _ => ⟨sound_empty, ?_, by simp⟩)
    (fun _ _ => id) fun _ _ => id
  · refine triple_intro fun t h => ?_
    have ha : a ∈ l := by
      rw [he]
      simp
    have hfresh : key a ∉ pre.map key := by
      rw [he, List.map_append, List.map_cons] at hl
      exact fun hm => (List.nodup_append.1 hl).2.2 _ hm _ List.mem_cons_self rfl
    rw [List.map_append]
    refine (hstep c (pre.map key) a ha).consequence (fun u hu => hu ▸ h.sound)
      (fun c' u h' => ?_) fun _ _ => id
    exact Fresh.stores ⟨h'.1, h.mirrored, h.known⟩ h'.2 hfresh
  · exact ⟨by simp, fun _ _ hr => by simp at hr, fun _ ho => by simp at ho⟩

/-! ### From the filter to the result -/

/-- The execution refers to a workflow with the property, which has an entry in the result. -/
def HasWorkflow (Q : Claim) (t : List Event) (result : List (String × List Mapping)) (o : Value) :
    Prop :=
  ∃ entries entry w, Dict.get? result "workflow" = some entries ∧ entry ∈ entries ∧
    Q t "workflow" w ∧ resourceToDict w = some entry ∧ Refers o w

/-- The executions of the result refer to its workflows. A result that may still get other
workflows has no executions. -/
structure Linked (Q : Claim) (nested : List String) (t : List Event)
    (result : List (String × List Mapping)) : Prop where
  owned : ∀ name ∈ executionNames, ∀ entries, Dict.get? result name = some entries →
    ∀ entry ∈ entries, ∃ o, Q t name o ∧ resourceToDict o = some entry ∧ HasWorkflow Q t result o
  none : "workflow" ∈ nested → ∀ name ∈ executionNames, ∀ entries,
    Dict.get? result name = some entries → entries = []

theorem HasWorkflow.mono {P : Claim} {u : List Event} {result : List (String × List Mapping)} {o : Value}
    (h : HasWorkflow Q t result o) (hP : ∀ name o, Q t name o → P u name o) :
    HasWorkflow P u result o := by
  obtain ⟨entries, entry, w, hr, he, hw, hd, hrefers⟩ := h
  exact ⟨entries, entry, w, hr, he, hP _ _ hw, hd, hrefers⟩

theorem Linked.mono {P : Claim} {u : List Event} {nested : List String}
    {result : List (String × List Mapping)} (h : Linked Q nested t result)
    (hP : ∀ name o, Q t name o → P u name o) : Linked P nested u result where
  owned name hx entries hr entry he := by
    obtain ⟨o, ho, hd, hw⟩ := h.owned name hx entries hr entry he
    exact ⟨o, hP _ _ ho, hd, hw.mono hP⟩
  none := h.none

theorem linked_of_related {nested : List String} (hs : Sound Q names t c) (hm : Mirrored c)
    (hr : Related c) (hn : "workflow" ∈ nested → ∀ o, ¬Q t "workflow" o) :
    Linked Q nested t c.result := by
  have howned : ∀ name ∈ executionNames, ∀ entries, Dict.get? c.result name = some entries →
      ∀ entry ∈ entries, ∃ o, Q t name o ∧ resourceToDict o = some entry ∧
        HasWorkflow Q t c.result o := by
    intro name hx entries hres entry he
    obtain ⟨o, ho, hd⟩ := mem_of_mapM (hm.entries name entries hres) he
    obtain ⟨w, hw, hrefers⟩ := hr name hx o ho
    obtain ⟨ws, hws⟩ := Option.isSome_iff_exists.1 (hm.listed "workflow" (List.ne_nil_of_mem hw))
    obtain ⟨entry', he', hd'⟩ := exists_mem_of_mapM (hm.entries "workflow" ws hws) hw
    exact ⟨o, hs.get o ho, hd, ws, entry', w, hws, he', hs.get w hw, hd', hrefers⟩
  refine ⟨howned, fun hw name hx entries hres => List.eq_nil_iff_forall_not_mem.2 fun entry he => ?_⟩
  obtain ⟨o, _, _, _, _, w, _, _, hQ, _⟩ := howned name hx entries hres entry he
  exact hn hw w hQ

/-- Listing a nested type under whose name no execution is kept. -/
theorem Linked.stores {nested : List String} (h : Linked Q nested t c.result)
    (hs : Stores Q t name c c') (hn : name ∈ nested)
    (hx : name ∈ executionNames → ∀ o, ¬Q t name o) : Linked Q nested t c'.result := by
  obtain ⟨objects, entries, ho, he, _, hresult⟩ := hs
  rcases hresult with hr | ⟨_, hr⟩
  · have hempty : ∀ name' ∈ executionNames, name' = name → entries = [] := by
      intro name' hx' hname
      have hobjects : objects = [] := List.eq_nil_iff_forall_not_mem.2 fun o hmem =>
        hx (hname ▸ hx') o (ho o hmem)
      rw [hobjects] at he
      exact (Option.some.inj he).symm
    refine ⟨fun name' hx' entries' hres entry hmem => ?_, fun hw name' hx' entries' hres => ?_⟩
    · by_cases hname : name' = name
      · rw [hr, hname, Dict.get?_set_self, hempty name' hx' hname] at hres
        rw [← Option.some.inj hres] at hmem
        simp at hmem
      · rw [hr, Dict.get?_set_of_ne hname] at hres
        by_cases hw : "workflow" = name
        · rw [h.none (hw ▸ hn) name' hx' entries' hres] at hmem
          simp at hmem
        · obtain ⟨o, hQ, hd, ws, entry', w, hws, hw'⟩ := h.owned name' hx' entries' hres entry hmem
          refine ⟨o, hQ, hd, ws, entry', w, ?_, hw'⟩
          rwa [hr, Dict.get?_set_of_ne hw]
    · by_cases hname : name' = name
      · rw [hr, hname, Dict.get?_set_self, hempty name' hx' hname] at hres
        exact (Option.some.inj hres).symm
      · rw [hr, Dict.get?_set_of_ne hname] at hres
        exact h.none hw name' hx' entries' hres
  · rwa [hr]

/-! ### Both providers -/

/-- A request of the kind lists the object, and the provider keeps it. -/
def KeptBy (K : Request → Prop) (projectId : String) : Claim := fun t name o =>
  ∃ r answer, .listing r answer ∈ t ∧ K r ∧ r.resource = name ∧ o ∈ r.kept projectId answer

variable {K : Request → Prop} {nested : List String} {projectId : String}

theorem mem_kept {r : Request} {answer : Answer} {o : Value} (h : o ∈ r.kept projectId answer) :
    o ∈ answer.items := by
  cases answer with
  | objects items =>
    rw [Request.kept] at h
    split_ifs at h
    · exact h
    · exact (mem_ownedBy.1 h).1
  | nothing => simp [Request.kept] at h
  | failed yielded error =>
    rw [Request.kept] at h
    split_ifs at h
    · exact h
    · simp at h

theorem evidence_kept (hs : service = "workflow") (hK : ∀ r, K r → r.service = service) :
    Evidence K (KeptBy K project.projectId) service project where
  mono t s name o := fun ⟨r, answer, hm, h⟩ => ⟨r, answer, List.mem_append_left s hm, h⟩
  record t h := by simp [hs] at h
  checked t r items o hm hr _ ho hb := by
    refine ⟨r, _, hm, hr, rfl, ?_⟩
    rw [Request.kept]
    split_ifs
    · exact ho
    · exact mem_ownedBy.2 ⟨ho, hb⟩
  child t r answer o hm hr hc hp _ ho := by
    have hall : r.keepsAll = true := by
      rcases hc with hc | hc
      · simpa [Request.keepsAll, Request.nested, hc] using hp
      · simp [hs] at hc
    refine ⟨r, answer, hm, hr, rfl, ?_⟩
    cases answer with
    | objects items =>
      rw [Request.kept, if_pos hall]
      exact ho
    | nothing => simp [Answer.items] at ho
    | failed yielded error =>
      rw [Request.kept, if_pos hall]
      exact ho
  container t r items o _ hr hu _ := by
    have hservice := hK r hr
    rw [hu.1, hs] at hservice
    simp at hservice
  contained t r o container entry _ _ h := by simp [hs] at h

theorem isExecution_of_mem (h : name ∈ executionNames) : isExecution name = true := by
  simp only [executionNames, List.mem_cons, List.not_mem_nil, or_false] at h
  rcases h with rfl | rfl <;> decide

/-- What the loop over the nested types keeps. -/
structure Executions (K : Request → Prop) (nested : List String) (projectId : String) (c : Collected)
    (t : List Event) : Prop where
  sound : Sound (KeptBy K projectId) [] t c
  linked : (∀ e ∈ t, e.Filtered projectId) → Linked (KeptBy K projectId) nested t c.result

theorem Executions.stores (hN : ∀ r, K r → r.resource ∈ nested → r.nested = true)
    (h : Executions K nested projectId c t) (hs : Stores (KeptBy K projectId) t name c c')
    (hn : name ∈ nested) : Executions K nested projectId c' t where
  sound := (h.sound.stores hs).fewer (by simp)
  linked ht := by
    refine (h.linked ht).stores hs hn fun hx o ⟨r, answer, hm, hr, hname, ho⟩ => ?_
    subst hname
    rcases ht _ hm (isExecution_of_mem hx) with ⟨hf, _⟩ | hkept
    · rw [hN r hr hn] at hf
      cases hf
    · rw [hkept] at ho
      simp at ho

theorem linked_append {s : List Event}
    (h : (∀ e ∈ t, e.Filtered projectId) → Linked (KeptBy K projectId) nested t c.result) :
    (∀ e ∈ t ++ s, e.Filtered projectId) → Linked (KeptBy K projectId) nested (t ++ s) c.result := by
  intro ht
  refine (h fun e he => ht e (List.mem_append_left s he)).mono fun name o => ?_
  rintro ⟨r, answer, hm, hr⟩
  exact ⟨r, answer, List.mem_append_left s hm, hr⟩

/-- After the filter, every execution is one of the direct types and refers to a workflow of
these. -/
theorem executions_of_related (hN : ∀ r, K r → r.resource ∈ nested → r.nested = true)
    (hs : Sound (KeptBy (fun r => K r ∧ r.nested = false) projectId) names t c) (hm : Mirrored c)
    (hr : Related c) : Executions K nested projectId c t := by
  have hmono : ∀ name o, KeptBy (fun r => K r ∧ r.nested = false) projectId t name o →
      KeptBy K projectId t name o := fun name o ⟨r, answer, hl, hk, h⟩ => ⟨r, answer, hl, hk.1, h⟩
  refine ⟨(hs.mono hmono).fewer (by simp), fun _ => ?_⟩
  refine (linked_of_related hs hm hr fun hw o => ?_).mono hmono
  rintro ⟨r, answer, _, ⟨hk, hdirect⟩, hname, _⟩
  rw [hN r hk (hname ▸ hw)] at hdirect
  cases hdirect

theorem Executions.owned (h : Executions K nested projectId c t)
    (ht : ∀ e ∈ t, e.Filtered projectId) : OwnedExecutions t c.result := by
  have hnamed : ∀ name o, KeptBy K projectId t name o → Named t name o :=
    fun name o ⟨r, answer, hl, _, hname, ho⟩ => ⟨r, answer, hl, hname, mem_kept ho⟩
  intro name entries hres hx entry he
  have hmem : name ∈ executionNames := by
    obtain ⟨o, ⟨r, answer, hl, _, hname, ho⟩, _⟩ :=
      h.sound.result name entries (Dict.mem_of_get? hres) entry he
    rcases ht _ hl (hname ▸ hx) with ⟨_, hx⟩ | hkept
    · exact hname ▸ hx
    · rw [hkept] at ho
      simp at ho
  obtain ⟨o, ho, hd, ws, entry', w, hws, he', hw, hd', hrefers⟩ :=
    (h.linked ht).owned name hmem entries hres entry he
  exact ⟨o, hnamed _ _ ho, hd, "workflow", ws, entry', w, hws, by decide, he', hnamed _ _ hw, hd',
    hrefers⟩

/-- The direct types of a provider, listed and filtered. -/
theorem triple_direct {ι : Type} {step : Collected → ι → Prog Collected} {key : ι → String}
    {l : List ι} (hN : ∀ r, K r → r.resource ∈ nested → r.nested = true) (hl : (l.map key).Nodup)
    (hstep : ∀ c names, ∀ a ∈ l, Triple True
      (fun t => Sound (KeptBy (fun r => K r ∧ r.nested = false) projectId) names t c) (step c a)
      (fun c' t => Sound (KeptBy (fun r => K r ∧ r.nested = false) projectId) names t c ∧
        Stores (KeptBy (fun r => K r ∧ r.nested = false) projectId) t (key a) c c')
      (fun _ _ => True)) :
    Triple True (fun _ => True) (do let c ← l.foldlM step ⟨[], []⟩; filterRelated "workflow" c)
      (fun c t => Executions K nested projectId c t) (fun _ _ => True) := by
  refine triple_bind (triple_foldlM_stores hl hstep) fun c => triple_intro fun t h => ?_
  exact (triple_filterRelated.and (triple_filterRelated_related h.mirrored)).consequence
    (fun u hu => ⟨hu ▸ h.sound, trivial⟩)
    (fun c' u h' => executions_of_related hN h'.1 h'.2.1 h'.2.2) fun _ _ _ => trivial

theorem triple_builtin {p : BuiltinProvider} {strict : Bool} (hs : p.service = "workflow") :
    Triple True (fun _ => True) (p.collectAll cloud strict project)
      (fun c t => Executions p.Makes (p.nestedSpecs.map Spec.name) project.projectId c t)
      (fun _ _ => True) := by
  have hE : ∀ K : Request → Prop, (∀ r, K r → p.Makes r) →
      Evidence K (KeptBy K project.projectId) p.service project :=
    fun K hK => evidence_kept hs fun r hr => (hK r hr).1
  have hN : ∀ r, p.Makes r → r.resource ∈ p.nestedSpecs.map Spec.name → r.nested = true := by
    intro r ⟨_, resourceClass, hclass, hm⟩ hr
    obtain ⟨spec, hspec, hname⟩ := List.mem_map.1 hr
    have hp := placeholders_of_nested (hname ▸ hm) hspec
    simpa [Request.nested, hclass] using hp
  -- the project record, the default security group and the object store are other services'
  have hdirect : collectDirect cloud p strict project = (do
      let c ← p.directSpecs.foldlM (collectSpec cloud p strict project.projectId) ⟨[], []⟩
      filterRelated "workflow" c) := by
    simp [collectDirect, projectRecord, excludeDefaultSecurityGroup, hs]
  have hstore : ∀ c, collectObjectStore cloud p strict c = pure c := by
    simp [collectObjectStore, hs]
  unfold BuiltinProvider.collectAll
  simp only [hdirect, hstore, pure_bind]
  refine triple_bind (triple_direct hN nodup_specs fun c names spec hspec =>
    triple_collectSpec (hE _ fun _ h => h.1) fun path query => ?_) fun c => ?_
  · obtain ⟨hm, hp, hd⟩ := mem_directSpecs.1 hspec
    have hempty : resourcePlaceholders spec.resourceClass = [] := by
      rw [← hp]
      simp only [BuiltinProvider.isDirect, Bool.and_eq_true, List.isEmpty_iff] at hd
      exact hd.1.2
    exact ⟨makes_request hm, by simp [Request.nested, hempty]⟩
  · refine triple_nestedLoop (I := fun c t =>
      Executions p.Makes (p.nestedSpecs.map Spec.name) project.projectId c t)
      (fun c spec hspec => ?_) _ _ fun _ => id
    refine ((triple_collectSpec_nested (hE p.Makes fun _ => id) hspec).frame
      fun t s => linked_append).consequence (fun t h => ⟨h.sound, h.linked⟩) (fun c' t h => ?_)
      fun _ _ _ => trivial
    exact Executions.stores hN ⟨h.1.1, h.2⟩ h.1.2 (List.mem_map_of_mem hspec)

theorem triple_legacy {p : LegacyProvider} {strict : Bool} (hs : p.service = "workflow") :
    Triple True (fun _ => True) (p.collectAll cloud strict project)
      (fun c t => Executions p.Makes (p.nestedManagers.map Manager.name) project.projectId c t)
      (fun _ _ => True) := by
  have hE : ∀ K : Request → Prop, (∀ r, K r → p.Makes r) →
      Evidence K (KeptBy K project.projectId) p.service project :=
    fun K hK => evidence_kept hs fun r hr => (hK r hr).1
  have hN : ∀ r, p.Makes r → r.resource ∈ p.nestedManagers.map Manager.name → r.nested = true := by
    intro r hr hm
    obtain ⟨m, hm, hname⟩ := List.mem_map.1 hm
    have hp := path_of_nested hr hm hname
    simpa [Request.nested, hr.2.1] using hp
  unfold LegacyProvider.collectAll collectManagers
  rw [hs]
  refine triple_bind (M := fun _ _ => True) triple_true fun _ => ?_
  refine triple_bind (triple_direct hN nodup_managers fun c names m hm =>
    triple_collectManager (hE _ fun _ h => h.1) fun query => ⟨makes_manager hm, rfl⟩) fun c => ?_
  refine triple_bind (M := fun s t =>
      Executions p.Makes (p.nestedManagers.map Manager.name) project.projectId s.1 t)
    (triple_foldlM (I := fun (s : Collected × List String) t =>
      Executions p.Makes (p.nestedManagers.map Manager.name) project.projectId s.1 t)
      (fun s m hm => ?_) (c, [])) fun s => ?_
  · refine ((triple_collectNested (hE p.Makes fun _ => id) hm s.2).frame
      fun t s => linked_append).consequence (fun t h => ⟨h.sound, h.linked⟩) (fun s' t h => ?_)
      fun _ _ _ => trivial
    rcases h.1.2 with he | hstores
    · rw [he]
      exact ⟨h.1.1, h.2⟩
    · exact Executions.stores hN ⟨h.1.1, h.2⟩ hstores (List.mem_map_of_mem hm)
  · refine triple_bind (M := fun _ t =>
        Executions p.Makes (p.nestedManagers.map Manager.name) project.projectId s.1 t)
      ((triple_true.keep fun t s' h => ⟨(hE p.Makes fun _ => id).sound_append h.sound s',
        linked_append h.linked⟩).consequence (fun _ => id) (fun _ _ h => h.2) fun _ _ _ => trivial)
      fun _ => triple_pure fun _ => id

/-- In every run that answers the execution types out of the filter's reach with no object to
keep, every execution of the result refers to a workflow of the result. -/
theorem workflow_executions_owned {provider : Provider} {strict : Bool} {s : List Event}
    {result : List (String × List Mapping)}
    (hrun : (provider.collect cloud strict project).run [] = (.value result, s))
    (hservice : provider.service = "workflow")
    (hs : ∀ e ∈ s, e.Filtered project.projectId) : OwnedExecutions s result := by
  cases provider with
  | builtin p =>
    obtain ⟨c, s₁, s₂, h₁, h₂, rfl⟩ := run_bind_eq_value.1 hrun
    simp only [run_pure, Prod.mk.injEq, Outcome.value.injEq] at h₂
    obtain ⟨rfl, rfl⟩ := h₂
    rw [List.append_nil] at hs ⊢
    exact ((triple_builtin hservice).value trivial h₁).owned hs
  | legacy p =>
    obtain ⟨c, s₁, s₂, h₁, h₂, rfl⟩ := run_bind_eq_value.1 hrun
    simp only [run_pure, Prod.mk.injEq, Outcome.value.injEq] at h₂
    obtain ⟨rfl, rfl⟩ := h₂
    rw [List.append_nil] at hs ⊢
    exact ((triple_legacy hservice).value trivial h₁).owned hs

/-! ### Two workflow services -/

def workflowConnection : Connection := ⟨"session", "p1"⟩

def workflowProject : Project := ⟨"p1", "tenant", .record [("id", .str "p1")]⟩

def workflowEntry : Mapping := [(.str "id", .str "w1")]

def executionEntry (workflow : String) : Mapping :=
  [(.str "id", .str "e1"), (.str "workflow_id", .str workflow)]

/-- A service with the workflow `w1` and an execution of a workflow. -/
def workflowCloud (workflow : String) : Cloud := fun _ r =>
  .objects [.dict (if isExecution r.resource then executionEntry workflow else workflowEntry)]

def workflowRegistry : Registry :=
  ⟨[("execution", ⟨"execution", "/executions", true, [], []⟩),
    ("workflow", ⟨"workflow", "/workflows", true, [], []⟩)], by simp⟩

def workflowProxy : BuiltinProvider := ⟨workflowConnection, "workflow", "Proxy", true, workflowRegistry⟩

theorem workflowProxy_owned :
    OwnedExecutions
      [.listing (workflowProxy.request "execution" ⟨"execution", "/executions", true, [], []⟩ [] [])
        (.objects [.dict (executionEntry "w1")]),
       .listing (workflowProxy.request "workflow" ⟨"workflow", "/workflows", true, [], []⟩ [] [])
        (.objects [.dict workflowEntry])]
      [("execution", [executionEntry "w1"]), ("workflow", [workflowEntry])] := by
  refine workflow_executions_owned (show (Provider.collect (workflowCloud "w1") true workflowProject
    (.builtin workflowProxy)).run [] = _ from rfl) rfl fun e he => ?_
  rcases List.mem_cons.1 he with rfl | he
  · exact fun _ => .inl ⟨by decide, by decide⟩
  · rw [List.mem_singleton.1 he]
    exact fun h => absurd h (by decide)

/-- The managers of a legacy client have plural names. -/
def workflowClient : LegacyProvider :=
  ⟨workflowConnection, "workflow", "mistralclient", "mistralclient",
    ⟨[⟨"executions", true, []⟩, ⟨"workflows", true, []⟩], by simp⟩⟩

def legacyRequest (name : String) : Request :=
  ⟨workflowConnection, "workflow", name, none, [], []⟩

theorem run_workflowClient :
    (Provider.collect (workflowCloud "w2") true workflowProject (.legacy workflowClient)).run [] =
      (.value [("executions", [executionEntry "w2"]), ("workflows", [workflowEntry])],
        [.listing (legacyRequest "executions") (.objects [.dict (executionEntry "w2")]),
         .listing (legacyRequest "workflows") (.objects [.dict workflowEntry])]) := by
  rfl

/-- The execution of another workflow enters the inventory of a client with plural names. -/
theorem workflowClient_not_owned : ∃ (cloud : Cloud) (provider : Provider) (strict : Bool)
    (project : Project) (s : List Event) (result : List (String × List Mapping)),
    provider.service = "workflow" ∧
      (provider.collect cloud strict project).run [] = (.value result, s) ∧
      ¬OwnedExecutions s result := by
  refine ⟨workflowCloud "w2", .legacy workflowClient, true, workflowProject, _, _, rfl,
    run_workflowClient, fun h => ?_⟩
  obtain ⟨o, ⟨r, answer, hr, hn, ho⟩, hd, name, _, _, w, _, hw, _, ⟨r', answer', hr', hn', ho'⟩, _,
    hrefers⟩ := h "executions" [executionEntry "w2"] rfl (by decide) (executionEntry "w2") (by simp)
  simp only [List.mem_cons, Event.listing.injEq, List.not_mem_nil, or_false] at hr hr'
  rcases hr with ⟨rfl, rfl⟩ | ⟨rfl, rfl⟩
  · rcases hr' with ⟨rfl, rfl⟩ | ⟨rfl, rfl⟩
    · exact absurd (hn' ▸ hw) (by decide)
    · rw [List.mem_singleton.1 ho, List.mem_singleton.1 ho'] at hrefers
      exact absurd hrefers.2 (by decide)
  · exact absurd hn (by decide)

end Yggdrasil.Inventory
