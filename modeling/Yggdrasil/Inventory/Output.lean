import Yggdrasil.EndToEnd
import Yggdrasil.Inventory.Completeness

/-! What the inventory command writes to its standard output: the report, once, after everything
that the providers do. -/

namespace Yggdrasil.Inventory

open Effect Effect.Program Python

/-! ### The steps of a run -/

section Session

variable {P : Event → Prop} {cloud : Cloud} {project : Project} {strict : Bool}

/-- A run that only lists and records errors emits what these two emit. -/
structure Session (P : Event → Prop) : Prop where
  listing : ∀ r answer, P (.listing r answer)
  issue : ∀ i, P (.issue i)

theorem emits_collectObjectStore (hP : Session P) (p : BuiltinProvider) (c : Collected) :
    Emits P (collectObjectStore cloud p strict c) := by
  have hlist (name : String) (resourceClass : ResourceClass) (path : List (String × Value)) :
      Emits P (tolerate strict name (listAll cloud p name resourceClass path [])) :=
    emits_tolerate (emits_listAll p (fun _ _ _ => hP.listing _ _) _ _ _) hP.issue
  apply emits_ite
  · exact fun _ => emits_pure _
  intro _
  split
  · apply emits_bind
    · apply emits_ite
      · exact fun _ => emits_pure _
      · exact fun _ => emits_bind (hlist _ _ _) fun _ =>
          emits_bind (emits_serialize _) fun _ => emits_pure _
    · intro c
      apply emits_bind
      · apply emits_foldlM
        intro entries container
        apply emits_ite
        · exact fun _ => emits_pure _
        · exact fun _ => emits_bind (hlist _ _ _) fun _ =>
            emits_bind (emits_ofOption _) fun _ => emits_pure _
      · exact fun _ => emits_pure _
  · apply emits_bind (emits_emit (hP.issue _))
    exact fun _ => emits_ite (fun _ => emits_throw _) fun _ => emits_pure _

theorem emits_nestedLoop (hP : Session P) (p : BuiltinProvider) (projectId : String) (fuel : ℕ)
    (c : Collected) (pending : List Spec) :
    Emits P (nestedLoop cloud p strict projectId fuel c pending) := by
  have hspec (c : Collected) (spec : Spec) : Emits P (collectSpec cloud p strict projectId c spec) :=
    emits_collectSpec (fun _ _ _ => hP.listing _ _) hP.issue
  induction fuel generalizing c pending with
  | zero => exact emits_pure _
  | succ fuel ih =>
    apply emits_ite
    · exact fun _ => emits_pure _
    intro _
    apply emits_bind
    · apply emits_foldlM
      intro s spec
      exact emits_ite (fun _ => emits_bind (hspec _ _) fun _ => emits_pure _) fun _ => emits_pure _
    · exact fun s => emits_ite (fun _ => ih _ _) fun _ => emits_pure _

theorem emits_collectAll (hP : Session P) (p : BuiltinProvider) :
    Emits P (p.collectAll cloud strict project) := by
  apply emits_bind
  · apply emits_bind (P := P) (emits_projectRecord p project)
    intro c
    apply emits_bind
    · apply emits_foldlM
      exact fun c spec => emits_collectSpec (fun _ _ _ => hP.listing _ _) hP.issue
    · exact fun c => emits_bind (emits_excludeDefaultSecurityGroup p c) fun c =>
        emits_filterRelated p.service c
  · exact fun c => emits_bind (emits_collectObjectStore hP p c) fun c => emits_nestedLoop hP p _ _ _ _

theorem emits_complain (hP : Session P) (resources : List String) (x : Exc) :
    Emits P (complain strict resources x) := by
  apply emits_bind
  · exact emits_foldlM (fun _ _ => emits_emit (hP.issue _)) _ _
  · exact fun _ => emits_ite (fun _ => emits_throw _) fun _ => emits_pure _

theorem emits_keep (c : Collected) (name : String) (objects : List Value) :
    Emits P (keep c name objects) :=
  emits_ite (fun _ => emits_pure _) fun _ => emits_bind (emits_serialize _) fun _ => emits_pure _

theorem emits_collectCombination (hP : Session P) (p : LegacyProvider) (m : Manager) (acc : Nested)
    (combination : List Value) : Emits P (collectCombination cloud p strict m acc combination) := by
  unfold collectCombination
  apply emits_ite
  · exact fun _ => emits_pure _
  intro _
  apply emits_bind (emits_send fun _ => hP.listing _ _)
  intro answer
  dsimp only
  split
  · exact emits_pure _
  · apply emits_ite
    · exact fun _ => emits_pure _
    · exact fun _ => emits_bind (emits_emit (hP.issue _)) fun _ =>
        emits_ite (fun _ => emits_throw _) fun _ => emits_pure _

theorem emits_collectNested (hP : Session P) (p : LegacyProvider) (s : Collected × List String)
    (m : Manager) : Emits P (collectNested cloud p strict s m) := by
  obtain ⟨c, unlisted⟩ := s
  unfold collectNested
  dsimp only
  split
  · exact emits_pure _
  · apply emits_ite
    · exact fun _ => emits_pure _
    · intro _
      apply emits_bind (emits_foldlM (fun acc c => emits_collectCombination hP p m acc c) _ _)
      exact fun nested => emits_bind (emits_keep _ _ _) fun _ => emits_pure _

theorem emits_collectManager (hP : Session P) (p : LegacyProvider) (projectId : String)
    (c : Collected) (m : Manager) : Emits P (collectManager cloud p strict projectId c m) := by
  apply emits_bind
  · apply emits_tolerate _ hP.issue
    apply emits_bind (emits_send fun _ => hP.listing _ _)
    intro answer
    cases answer with
    | objects items => exact emits_pure _
    | nothing => exact emits_pure _
    | failed yielded error => exact emits_throw _
  · exact fun values => emits_keep _ _ _

theorem emits_collectAll_legacy (hP : Session P) (p : LegacyProvider) :
    Emits P (p.collectAll cloud strict project) := by
  apply emits_bind (emits_ite (fun _ => emits_complain hP _ _) fun _ => emits_pure _)
  intro _
  apply emits_bind
  · apply emits_bind (emits_foldlM (fun c m => emits_collectManager hP p _ c m) _ _)
    exact fun c => emits_filterRelated _ _
  · intro c
    apply emits_bind (emits_foldlM (fun s m => emits_collectNested hP p s m) _ _)
    intro s
    exact emits_bind (emits_ite (fun _ => emits_pure _) fun _ => emits_complain hP _ _) fun _ =>
      emits_pure _

theorem emits_collect (hP : Session P) (provider : Provider) :
    Emits P (provider.collect cloud strict project) := by
  cases provider with
  | builtin p => exact emits_bind (emits_collectAll hP p) fun _ => emits_pure _
  | legacy p => exact emits_bind (emits_collectAll_legacy hP p) fun _ => emits_pure _

theorem emits_attempt {X α : Type} {m : Program Event X α} (h : Emits P m) :
    Emits P (attempt m) := by
  intro t e he
  have hm := h t
  simp only [attempt] at he
  rcases hr : m.run t with ⟨a | x | _, s⟩ <;> rw [hr] at he hm <;> exact hm e he

theorem emits_inventory {sdk : Sdk} (hP : Session P) (endpoints : List Endpoint)
    (connection : Connection) : Emits P (inventory sdk endpoints connection project strict) := by
  unfold inventory
  dsimp only
  apply emits_bind
  · apply emits_foldlM
    intro acc e
    unfold resolveEndpoint
    split
    · exact emits_pure _
    · exact emits_pure _
    · exact emits_throw _
  intro resolved
  apply emits_ite
  · exact fun _ => emits_throw _
  intro _
  apply emits_foldlM
  intro r entry
  unfold collectEndpoint
  apply emits_bind (emits_attempt (emits_collect hP _))
  rintro ⟨outcome, events⟩
  dsimp only
  split
  · exact emits_pure _
  · exact emits_ite (fun _ => emits_throw _) fun _ => emits_pure _

end Session

/-! ### The output of a run -/

section Run

def Event.isPrinted : Event → Bool
  | .json _ => true
  | .table _ => true
  | _ => false

variable {sdk : Sdk} {args : Args}

/-- A run with exit status 0 that is asked for JSON prints one report, at its end. -/
theorem exists_printed {u : List Event} (hjson : args.json = true)
    (h : (main sdk args).run [] = (.value 0, u)) :
    ∃ s printed, u = s ++ [.json printed] ∧ ∀ e ∈ s, e.isPrinted = false := by
  have hP : Session fun e => e.isPrinted = false := ⟨fun _ _ => rfl, fun _ => rfl⟩
  rcases run_handle_eq_value.1 h with h | ⟨x, _, _, _, hx, _⟩
  · obtain ⟨connection, _, s₁, hconnect, h₁, rfl⟩ := run_bind_eq_value.1 h
    obtain ⟨endpoints, _, s₂, hendpoints, h₂, rfl⟩ := run_bind_eq_value.1 h₁
    obtain ⟨project, _, s₃, hproject, h₃, rfl⟩ := run_bind_eq_value.1 h₂
    obtain ⟨-, rfl⟩ := run_ofExcept_eq_value.1 hconnect
    obtain ⟨-, rfl⟩ := run_ofExcept_eq_value.1 hendpoints
    obtain ⟨-, rfl⟩ := run_ofExcept_eq_value.1 hproject
    obtain ⟨r, s, s₅, hinventory, h₄, rfl⟩ := run_bind_eq_value.1 h₃
    obtain ⟨_, s₆, s₇, hprint, h₅, rfl⟩ := run_bind_eq_value.1 h₄
    simp only [run_pure, Prod.mk.injEq, Outcome.value.injEq] at h₅
    obtain ⟨-, rfl⟩ := h₅
    have hquiet : Emits (fun e => e.isPrinted = false)
        (inventory sdk endpoints connection project args.strict) :=
      emits_inventory hP endpoints connection
    rcases printReport_eq_value hprint with ⟨-, printed, -, rfl⟩ | ⟨hnot, -⟩
    · refine ⟨s, printed, by simp, fun e he => hquiet ([] ++ [] ++ [] ++ []) e ?_⟩
      rw [hinventory]
      exact he
    · rw [hjson] at hnot
      cases hnot
  · exfalso
    split_ifs at hx
    · simp at hx
    · obtain ⟨_, _, _, _, hreturn, _⟩ := run_bind_eq_value.1 hx
      simp at hreturn

end Run

end Yggdrasil.Inventory
