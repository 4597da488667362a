import Yggdrasil.Inventory.Provenance
import Yggdrasil.Inventory.Modes

/-! Failed requests and clients. Both providers record every request that fails and is neither
missing nor sent again without its filter, and a report has the recorded errors of its
providers, so a report without errors comes from a run without failures. -/

namespace Yggdrasil.Inventory

open Combination Effect Effect.Program Python

/-! ### Failed requests -/

def Answer.error? : Answer → Option String
  | .failed _ error => some error
  | _ => none

/-- The error that the listing of a nested manager ends with. -/
def nestedError (service name : String) (container : Value) (answer : Answer) : Option String :=
  if service == "object-store" && ["object", "objects"].contains (normalizedName name) then
    (containedValues container answer.items).2.orElse fun _ => answer.error?
  else answer.error?

/-- The message of an error of a legacy client. -/
def legacyFailure (service what name error : String) : String :=
  "listing " ++ what ++ " " ++ Python.reprStr name ++ " for service " ++ Python.reprStr service ++
    " failed: " ++ error

/-- The message of the error that a request ends with. -/
def Request.failure (r : Request) (answer : Answer) : Option String :=
  match r.resourceClass with
  | some c => answer.error?.map fun error =>
    "listing SDK resource " ++ Python.reprStr c.key ++ " failed: " ++ error
  | none =>
    if r.path = [] then
      answer.error?.map fun error => legacyFailure r.service "legacy SDK resource" r.resource error
    else (nestedError r.service r.resource ((r.path.map Prod.snd).headD .none) answer).map
      fun error => legacyFailure r.service "nested legacy SDK resource" r.resource error

/-- The request is sent again without its project filter. -/
def Request.SentAgain (r : Request) (message : String) : Prop :=
  r.resourceClass.isSome = true ∧ r.query ≠ [] ∧ isInvalidProjectFilterError message = true

/-- A request that fails for good, with another error than a missing resource. -/
def Event.Failed : Event → Prop
  | .listing r answer => ∃ message, r.failure answer = some message ∧
      isMissingResourceError message = false ∧ ¬r.SentAgain message
  | _ => False

theorem not_failed_of_none {r : Request} {answer : Answer} (h : r.failure answer = none) :
    ¬(Event.listing r answer).Failed := by
  rintro ⟨message, hm, -⟩
  rw [h] at hm
  cases hm

theorem not_failed_of_some {r : Request} {answer : Answer} {message : String}
    (h : r.failure answer = some message)
    (hm : isMissingResourceError message = true ∨ r.SentAgain message) :
    ¬(Event.listing r answer).Failed := by
  rintro ⟨message', hm', hnot, hagain⟩
  rw [h] at hm'
  obtain rfl := Option.some.inj hm'
  rcases hm with hm | hm
  · rw [hm] at hnot
    cases hnot
  · exact hagain hm

/-- If a request failed, an error is recorded. -/
def Tracked (t : List Event) : Prop := (∃ e ∈ t, e.Failed) → ∃ e ∈ t, e.isIssue = true

theorem tracked_of_issue {t : List Event} {e : Event} (he : e ∈ t) (hi : e.isIssue = true) :
    Tracked t := fun _ => ⟨e, he, hi⟩

theorem Tracked.append {t s : List Event} (h : Tracked t) (hs : ∀ e ∈ s, ¬e.Failed) :
    Tracked (t ++ s) := by
  rintro ⟨e, he, hf⟩
  rcases List.mem_append.1 he with he | he
  · obtain ⟨i, hi, hissue⟩ := h ⟨e, he, hf⟩
    exact ⟨i, List.mem_append_left s hi, hissue⟩
  · exact absurd hf (hs e he)

/-- After an exception that is about to be recorded a failure may still be open. -/
def Due (query : List (String × Value)) : Exc → List Event → Prop
  | .inventory _ message, t =>
    (isMissingResourceError message = true ∨
      query ≠ [] ∧ isInvalidProjectFilterError message = true) → Tracked t
  | .other _, t => Tracked t

variable {α : Type} {cloud : Cloud} {strict : Bool} {project : Project} {c : Collected}

/-- What emits no failed request keeps every failure recorded. -/
theorem tracked_of_emits {m : Prog α} (h : Emits (fun e => ¬e.Failed) m) :
    Triple True Tracked m (fun _ => Tracked) (fun _ _ => True) := by
  apply triple_of_value
  intro t a s ht hr
  apply ht.append
  have hs := h t
  rwa [hr] at hs

theorem triple_send_tracked {r : Request} {Err : Exc → List Event → Prop} :
    Triple True Tracked (send cloud r)
      (fun answer t => ¬(Event.listing r answer).Failed → Tracked t) Err := by
  apply triple_send
  intro t ht hf
  apply ht.append
  intro e he
  rwa [List.mem_singleton.1 he]

theorem triple_tolerate_tracked {resource : String} {listing : Prog (List Value)}
    (h : Triple True Tracked listing (fun _ => Tracked) (Due [])) :
    Triple True Tracked (tolerate strict resource listing) (fun _ => Tracked)
      (fun _ _ => True) := by
  apply triple_handle h
  intro x
  cases x with
  | other message => exact triple_throw fun _ _ => trivial
  | inventory kind message =>
    apply triple_ite
    · exact fun hmissing => triple_pure fun _ h => h (.inl hmissing)
    · intro _
      apply triple_bind (M := fun _ => Tracked)
      · exact triple_emit fun t _ =>
          tracked_of_issue (List.mem_append_right t (List.mem_singleton_self _)) rfl
      · intro _
        apply triple_ite
        · exact fun _ => triple_throw fun _ _ => trivial
        · exact fun _ => triple_pure fun _ => id

/-! ### The builtin provider -/

section Builtin

variable {p : BuiltinProvider} {spec : Spec} {name projectId : String}
  {resourceClass : ResourceClass} {path query filter : List (String × Value)}

theorem triple_listAll_tracked :
    Triple True Tracked (listAll cloud p name resourceClass path query) (fun _ => Tracked)
      (Due query) := by
  unfold listAll
  apply triple_ite
  · exact fun _ => triple_throw fun _ h _ => h
  · intro _
    apply triple_bind (M := fun answer t =>
      ¬(Event.listing (p.request name resourceClass path query) answer).Failed → Tracked t)
    · exact triple_send_tracked
    · intro answer
      cases answer with
      | objects items => exact triple_pure fun t h => h (not_failed_of_none rfl)
      | nothing => exact triple_pure fun t h => h (not_failed_of_none rfl)
      | failed yielded error =>
        apply triple_throw
        intro t h hdue
        apply h
        apply not_failed_of_some rfl
        exact hdue.imp_right fun hinvalid => ⟨rfl, hinvalid⟩

theorem triple_listWithProjectFilterFallback_tracked :
    Triple True Tracked (listWithProjectFilterFallback cloud p name resourceClass path filter)
      (fun _ => Tracked) (Due []) := by
  apply triple_handle triple_listAll_tracked
  intro x
  cases x with
  | other message => exact triple_throw fun _ => id
  | inventory kind message =>
    apply triple_ite
    · intro _
      apply triple_throw
      rintro t h (hmissing | ⟨hne, -⟩)
      · exact h (.inl hmissing)
      · exact absurd rfl hne
    · intro hagain
      rw [not_or, Bool.not_eq_false] at hagain
      exact triple_listAll_tracked.consequence (fun _ h => h (.inr hagain)) (fun _ _ => id)
        fun _ _ => id

theorem triple_listSpec_tracked {parents : List (String × List Value)} :
    Triple True Tracked (listSpec cloud p spec projectId parents) (fun _ => Tracked)
      (Due []) := by
  apply triple_ite
  · intro _
    apply triple_bind triple_listWithProjectFilterFallback_tracked
    exact fun _ => triple_pure fun _ => id
  · intro _
    split
    · exact triple_pure fun _ => id
    · apply triple_ite
      · exact fun _ => triple_pure fun _ => id
      · intro _
        apply triple_bind (M := fun _ => Tracked)
        · apply triple_foldlM (I := fun _ => Tracked)
          intro acc combination _
          unfold listCombination
          split
          · exact triple_pure fun _ => id
          · apply triple_ite
            · exact fun _ => triple_pure fun _ => id
            · intro _
              apply triple_bind triple_listWithProjectFilterFallback_tracked
              exact fun _ => triple_pure fun _ => id
        · exact fun _ => triple_pure fun _ => id

theorem triple_collectSpec_tracked :
    Triple True Tracked (collectSpec cloud p strict projectId c spec) (fun _ => Tracked)
      (fun _ _ => True) := by
  apply triple_bind (triple_tolerate_tracked triple_listSpec_tracked)
  exact fun _ => tracked_of_emits (emits_bind (emits_serialize _) fun _ => emits_pure _)

theorem triple_collectDirect_tracked :
    Triple True Tracked (collectDirect cloud p strict project) (fun _ => Tracked)
      (fun _ _ => True) := by
  apply triple_bind (tracked_of_emits (emits_projectRecord p project))
  intro c
  apply triple_bind (M := fun _ => Tracked)
  · exact triple_foldlM (fun _ _ _ => triple_collectSpec_tracked) c
  · intro c
    apply triple_bind (tracked_of_emits (emits_excludeDefaultSecurityGroup p c))
    exact fun c => tracked_of_emits (emits_filterRelated p.service c)

theorem triple_collectObjectStore_tracked :
    Triple True Tracked (collectObjectStore cloud p strict c) (fun _ => Tracked)
      (fun _ _ => True) := by
  apply triple_ite
  · exact fun _ => triple_pure fun _ => id
  · intro _
    split
    · apply triple_bind (M := fun _ => Tracked)
      · apply triple_ite
        · exact fun _ => triple_pure fun _ => id
        · intro _
          apply triple_bind (triple_tolerate_tracked triple_listAll_tracked)
          exact fun _ => tracked_of_emits (emits_bind (emits_serialize _) fun _ => emits_pure _)
      · intro c
        apply triple_bind (M := fun _ => Tracked)
        · apply triple_foldlM (I := fun _ => Tracked)
          intro entries container _
          apply triple_ite
          · exact fun _ => triple_pure fun _ => id
          · intro _
            apply triple_bind (triple_tolerate_tracked triple_listAll_tracked)
            exact fun _ => tracked_of_emits (emits_bind (emits_ofOption _) fun _ => emits_pure _)
        · exact fun _ => triple_pure fun _ => id
    · apply tracked_of_emits
      apply emits_bind
      · exact emits_emit (P := fun e : Event => ¬e.Failed) (e := .issue _) id
      · exact fun _ => emits_ite (fun _ => emits_throw _) fun _ => emits_pure _

theorem triple_collectAll_tracked :
    Triple True Tracked (p.collectAll cloud strict project) (fun _ => Tracked)
      (fun _ _ => True) := by
  apply triple_bind triple_collectDirect_tracked
  intro c
  apply triple_bind triple_collectObjectStore_tracked
  intro c
  exact triple_nestedLoop (I := fun _ => Tracked) (fun _ _ _ => triple_collectSpec_tracked) _ _
    fun _ => id

end Builtin

/-! ### The legacy provider -/

section Legacy

variable {p : LegacyProvider} {m : Manager}

theorem nestedValues_error (name : String) (container : Value) (answer : Answer) :
    (nestedValues p name container answer).2 = nestedError p.service name container answer := by
  unfold nestedValues nestedError isObjectStoreObject
  dsimp only
  split_ifs
  · cases answer <;> rfl
  · cases answer <;> rfl

theorem triple_listManager_tracked {name : String} {kwargs : List (String × Value)} :
    Triple True Tracked (listManager cloud p name kwargs) (fun _ => Tracked) (Due []) := by
  unfold listManager
  apply triple_bind triple_send_tracked
  intro answer
  cases answer with
  | objects items => exact triple_pure fun t h => h (not_failed_of_none rfl)
  | nothing => exact triple_pure fun t h => h (not_failed_of_none rfl)
  | failed yielded error =>
    apply triple_throw
    rintro t h (hmissing | ⟨hne, -⟩)
    · apply h
      exact not_failed_of_some rfl (.inl hmissing)
    · exact absurd rfl hne

theorem triple_keep_tracked {name : String} {objects : List Value} :
    Triple True Tracked (keep c name objects) (fun _ => Tracked) (fun _ _ => True) :=
  tracked_of_emits (emits_ite (fun _ => emits_pure _) fun _ =>
    emits_bind (emits_serialize _) fun _ => emits_pure _)

/-- The message that the provider raises for a nested manager is that of its request. -/
theorem failure_nestedRequest {combination : List Value} {answer : Answer}
    (hpath : (nestedRequest p m (parentArguments m combination)).path ≠ []) :
    (nestedRequest p m (parentArguments m combination)).failure answer =
      ((nestedValues p m.name ((parentArguments m combination).headD .none) answer).2).map
        (listFailure p "nested legacy SDK resource" m.name) := by
  have hclass : (nestedRequest p m (parentArguments m combination)).resourceClass = none := rfl
  unfold Request.failure
  rw [hclass]
  dsimp only
  rw [if_neg hpath, arguments_nestedRequest, nestedValues_error]
  rfl

theorem triple_collectCombination_tracked {combination : List Value} {acc : Nested}
    (hpath : (nestedRequest p m (parentArguments m combination)).path ≠ []) :
    Triple True Tracked (collectCombination cloud p strict m acc combination)
      (fun _ => Tracked) (fun _ _ => True) := by
  unfold collectCombination
  apply triple_ite
  · exact fun _ => triple_pure fun _ => id
  · intro _
    apply triple_bind (triple_send_tracked
      (r := nestedRequest p m (parentArguments m combination)))
    intro answer
    dsimp only
    split
    · rename_i hnone
      apply triple_pure
      intro t h
      apply h
      apply not_failed_of_none
      rw [failure_nestedRequest hpath, parentArguments, hnone]
      rfl
    · rename_i error herror
      have hfailure : (nestedRequest p m (parentArguments m combination)).failure answer =
          some (listFailure p "nested legacy SDK resource" m.name error) := by
        rw [failure_nestedRequest hpath, parentArguments, herror]
        rfl
      apply triple_ite
      · intro hmissing
        apply triple_pure
        intro t h
        apply h
        exact not_failed_of_some hfailure (.inl hmissing)
      · intro _
        apply triple_bind (M := fun _ => Tracked)
        · exact triple_emit fun t _ =>
            tracked_of_issue (List.mem_append_right t (List.mem_singleton_self _)) rfl
        · intro _
          apply triple_ite
          · exact fun _ => triple_throw fun _ _ => trivial
          · exact fun _ => triple_pure fun _ => id

theorem triple_collectNested_tracked (hm : m ∈ p.nestedManagers) (s : Collected × List String) :
    Triple True Tracked (collectNested cloud p strict s m) (fun _ => Tracked)
      (fun _ _ => True) := by
  unfold collectNested
  dsimp only
  split
  · exact triple_pure fun _ => id
  · rename_i options ho
    apply triple_ite
    · exact fun _ => triple_pure fun _ => id
    · intro _
      apply triple_bind (M := fun _ => Tracked)
      · apply triple_foldlM (I := fun _ => Tracked)
        intro acc combination hcombination
        apply triple_collectCombination_tracked
        exact path_nestedRequest_ne hm (length_combination ho hcombination)
      · intro nested
        apply triple_bind triple_keep_tracked
        exact fun _ => triple_pure fun _ => id

theorem triple_complain_tracked {resources : List String} {x : Exc} :
    Triple True Tracked (complain strict resources x) (fun _ => Tracked) (fun _ _ => True) := by
  apply tracked_of_emits
  apply emits_bind
  · exact emits_foldlM (fun _ resource =>
      emits_emit (P := fun e : Event => ¬e.Failed) (e := .issue _) id) _ _
  · exact fun _ => emits_ite (fun _ => emits_throw _) fun _ => emits_pure _

theorem triple_collectAll_legacy_tracked :
    Triple True Tracked (p.collectAll cloud strict project) (fun _ => Tracked)
      (fun _ _ => True) := by
  apply triple_bind (M := fun _ => Tracked)
  · apply triple_ite
    · exact fun _ => triple_complain_tracked
    · exact fun _ => triple_pure fun _ => id
  intro _
  apply triple_bind (M := fun _ => Tracked)
  · apply triple_bind (M := fun _ => Tracked)
    · apply triple_foldlM (I := fun _ => Tracked)
      intro c m _
      apply triple_bind (triple_tolerate_tracked triple_listManager_tracked)
      exact fun _ => triple_keep_tracked
    · exact fun c => tracked_of_emits (emits_filterRelated p.service c)
  intro c
  apply triple_bind (M := fun _ => Tracked)
  · exact triple_foldlM (fun s _ hm => triple_collectNested_tracked hm s) (c, [])
  · intro s
    apply triple_bind (M := fun _ => Tracked)
    · apply triple_ite
      · exact fun _ => triple_pure fun _ => id
      · exact fun _ => triple_complain_tracked
    · exact fun _ => triple_pure fun _ => id

end Legacy

/-- A provider records the failures of its requests, in both modes. -/
theorem triple_collect_tracked (provider : Provider) :
    Triple True Tracked (provider.collect cloud strict project) (fun _ => Tracked)
      (fun _ _ => True) := by
  cases provider with
  | builtin p => exact triple_bind triple_collectAll_tracked fun _ => triple_pure fun _ => id
  | legacy p => exact triple_bind triple_collectAll_legacy_tracked fun _ => triple_pure fun _ => id

/-! ### The errors of a report -/

section Report

variable {sdk : Sdk} {connection : Connection}

/-- An endpoint has no service client. -/
def NoClient (sdk : Sdk) (connection : Connection) (project : Project) (e : Endpoint) : Prop :=
  ∃ kind message, sdk.resolveProvider e (providerConnection connection
    (asProjectConnection sdk connection project) e) = .error (.inventory kind message)

def HasClients (sdk : Sdk) (connection : Connection) (project : Project)
    (endpoints : List Endpoint) : Prop :=
  ∀ e ∈ endpoints, isIgnoredEndpoint e = false → ¬NoClient sdk connection project e

/-- A report without errors: every endpoint has a client, and nothing has failed so far. -/
def Sincere (clients : Prop) (r : Report) (t : List Event) : Prop :=
  r.errors = [] → clients ∧ ∀ e ∈ t, ¬e.Failed ∧ ¬e.isIssue = true

theorem triple_collectEndpoint_sincere {clients : Prop} (r : Report)
    (entry : Endpoint × Provider) :
    Triple True (Sincere clients r) (collectEndpoint sdk strict project r entry)
      (Sincere clients) (fun _ _ => True) := by
  apply triple_of_value
  intro t r' s h hr hnil
  obtain ⟨e, provider⟩ := entry
  simp only [collectEndpoint, run_bind_eq_value, run_attempt_eq_value] at hr
  obtain ⟨_, s₁, s₂, ⟨collected, hrun, rfl⟩ | ⟨x, -, rfl⟩, hr, rfl⟩ := hr
  · simp only [run_pure, Prod.mk.injEq, Outcome.value.injEq] at hr
    obtain ⟨rfl, rfl⟩ := hr
    obtain ⟨herrors, hissues⟩ := List.append_eq_nil_iff.1 hnil
    obtain ⟨hclients, hclean⟩ := h herrors
    rw [List.map_eq_nil_iff, filterMap_issue_eq_nil] at hissues
    have hstart : Tracked t := by
      rintro ⟨e, he, hf⟩
      exact absurd hf (hclean e he).1
    have htracked : Tracked (t ++ s₁) := (triple_collect_tracked provider).value hstart hrun
    have hnone : ∀ e ∈ t ++ s₁, ¬e.isIssue = true := fun e he =>
      (List.mem_append.1 he).elim (fun he => (hclean e he).2) (hissues e)
    rw [List.append_nil]
    refine ⟨hclients, fun e he => ⟨fun hf => ?_, hnone e he⟩⟩
    obtain ⟨i, hi, hissue⟩ := htracked ⟨e, he, hf⟩
    exact hnone i hi hissue
  · exfalso
    dsimp only at hr
    split_ifs at hr
    · simp at hr
    · simp only [run_pure, Prod.mk.injEq, Outcome.value.injEq] at hr
      obtain ⟨rfl, -⟩ := hr
      simp at hnil

/-- Every endpoint so far without a client has left an error. -/
def Resolved (sdk : Sdk) (connection : Connection) (project : Project) (done : List Endpoint)
    (acc : List (Endpoint × Provider) × List ReportIssue) (t : List Event) : Prop :=
  t = [] ∧ (acc.2 = [] → ∀ e ∈ done, ¬NoClient sdk connection project e)

theorem triple_resolveEndpoint_resolved (endpoints : List Endpoint) :
    Triple True (fun t => t = [])
      (endpoints.foldlM (resolveEndpoint sdk connection
        (asProjectConnection sdk connection project)) ([], []))
      (Resolved sdk connection project endpoints) (fun _ _ => True) := by
  have hloop : Triple True (Resolved sdk connection project [] ([], []))
      (endpoints.foldlM (resolveEndpoint sdk connection
        (asProjectConnection sdk connection project)) ([], []))
      (Resolved sdk connection project endpoints) (fun _ _ => True) := by
    apply triple_foldlM_done
    intro pre e post acc _
    unfold resolveEndpoint
    split
    · rename_i provider hprovider
      apply triple_pure
      rintro t ⟨ht, h⟩
      refine ⟨ht, fun hnil e' he' => ?_⟩
      rcases List.mem_append.1 he' with he' | he'
      · exact h hnil e' he'
      · rw [List.mem_singleton.1 he']
        rintro ⟨kind, message, herror⟩
        rw [hprovider] at herror
        cases herror
    · apply triple_pure
      rintro t ⟨ht, h⟩
      refine ⟨ht, fun hnil => ?_⟩
      simp at hnil
    · exact triple_throw fun _ _ => trivial
  apply hloop.consequence
  · exact fun t ht => ⟨ht, fun _ e he => by simp at he⟩
  · exact fun _ _ => id
  · exact fun _ _ => id

/-- A report without errors comes from a run in which no client and no request failed. -/
theorem triple_inventory_sincere (endpoints : List Endpoint) :
    Triple True (fun t => t = []) (inventory sdk endpoints connection project strict)
      (Sincere (HasClients sdk connection project endpoints)) (fun _ _ => True) := by
  unfold inventory
  dsimp only
  apply triple_bind (triple_resolveEndpoint_resolved _)
  rintro ⟨providers, errors⟩
  apply triple_ite
  · exact fun _ => triple_throw fun _ _ => trivial
  · intro _
    apply (triple_foldlM (I := Sincere (HasClients sdk connection project endpoints))
      (fun r entry _ => triple_collectEndpoint_sincere r entry) _).consequence
    · rintro t ⟨rfl, h⟩ hnil
      refine ⟨fun e he hi => h hnil e ?_, fun e he => by simp at he⟩
      exact List.mem_filter.2 ⟨he, by simp [hi]⟩
    · exact fun _ _ => id
    · exact fun _ _ => id

end Report

end Yggdrasil.Inventory
