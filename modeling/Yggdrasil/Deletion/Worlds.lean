import Yggdrasil.Deletion.UsageErrors

/-! Two worlds for the delete command: one where every request succeeds, and one where
no process can be started any more after the first deletion. In the first a plan is
executed without errors; in the second it ends in a usage error if it starts a process
late. -/

namespace Yggdrasil.Deletion

open Effect Effect.Program Python

/-- A usage error after a deletion. -/
def LateUsage (x : Exc) (t : List Event) : Prop := x.isUsage = true ∧ Touched t

/-- A world whose processes fail to start once something has been deleted. -/
def breaking (file : Read) : World :=
  { obliging file fun _ => .osError "" with
    start := fun t _ =>
      if t.any Event.isDeletion then .osError "Resource temporarily unavailable"
      else .completed ⟨0, "", ""⟩ }

/-- The SDK finds every object and has deleted it when asked to, and the clock stands still. -/
structure Cooperative (w : World) : Prop where
  connect : ∀ t, w.connect t = .ok ()
  senlinGet : ∀ t kind identifier, w.senlinGet t kind identifier = .ok ()
  senlinDelete : ∀ t kind identifier, w.senlinDelete t kind identifier = .error "NotFoundException"
  monotonic : ∀ t, w.monotonic t = 0

theorem cooperative_obliging (file : Read) (inventory : List Event → Inventory) :
    Cooperative (obliging file inventory) :=
  ⟨fun _ => rfl, fun _ _ _ => rfl, fun _ _ _ => rfl, fun _ => rfl⟩

theorem cooperative_breaking (file : Read) : Cooperative (breaking file) :=
  ⟨fun _ => rfl, fun _ _ _ => rfl, fun _ _ _ => rfl, fun _ => rfl⟩

/-- The planned Senlin resources are of the kinds the SDK deletes. -/
def Deletable (op : Operation) : Prop :=
  op.isClustering = true → (Dict.get? senlinKinds op.resource.resource).isSome = true

theorem deletable_of_planned {report : Mapping} {operations : List Operation}
    {issues : List String} (h : planDeletions report = .ok (operations, issues)) :
    ∀ op ∈ operations, Deletable op := by
  intro op hop hc
  have hservice : op.resource.service = "clustering" := by simpa [Operation.isClustering] using hc
  obtain ⟨r, hr⟩ : ∃ r, operationOf r = some op := by
    unfold planDeletions at h
    split at h
    · simp at h
    · simp only [Except.ok.injEq, Prod.mk.injEq] at h
      rw [← h.1, List.mem_insertionSort, List.mem_filterMap] at hop
      exact ⟨_, hop.choose_spec.2⟩
  unfold operationOf at hr
  cases hcommand : commandFor r with
  | error issue => simp [hcommand] at hr
  | ok argv =>
    simp only [hcommand, Option.some.injEq] at hr
    subst hr
    dsimp only at hservice ⊢
    unfold commandFor at hcommand
    simp only [hservice, String.reduceEq, false_and, if_false] at hcommand
    have table : ∀ p ∈ commands, p.1.1 = "clustering" →
        (Dict.get? senlinKinds p.1.2).isSome = true := by decide +kernel
    cases hwords : Dict.get? commands ("clustering", r.resource) with
    | none => simp [hwords] at hcommand
    | some words => exact table _ (Dict.mem_of_get? hwords) rfl

variable {w : World} {o : Options} {Pre : List Event → Prop}

theorem triple_deleteSenlinResource (hw : Cooperative w) (fuel : ℕ) (resource : Resource)
    (timeout poll : Seconds) (h : (Dict.get? senlinKinds resource.resource).isSome = true) :
    Triple False (fun _ => True) (deleteSenlinResource w fuel resource timeout poll)
      (fun errors t => errors = [] ∧ Touched t) (fun _ _ => False) := by
  obtain ⟨force, hforce⟩ := Option.isSome_iff_exists.1 h
  unfold deleteSenlinResource
  simp only [hforce]
  refine triple_bind (M := fun got _ => got = .ok ()) (triple_ask fun t _ => hw.senlinGet t _ _)
    fun got => ?_
  cases got with
  | error name => exact triple_pure fun _ h => by simp at h
  | ok _ =>
    refine triple_bind (M := fun deleted t => deleted = .error "NotFoundException" ∧ Touched t)
      (triple_ask fun t _ => ⟨hw.senlinDelete t _ _, touched_snoc rfl⟩) fun deleted => ?_
    cases deleted with
    | error name =>
      refine triple_pure fun t ht => ?_
      obtain ⟨hname, ht⟩ := ht
      simp only [Except.error.injEq] at hname
      exact ⟨by simp [senlinFailure, hname], ht⟩
    | ok action => exact triple_intro fun _ ht => by simp at ht

theorem triple_executeClustering_gone (hw : Cooperative w) (fuel : ℕ) (settings : Settings)
    (p : Progress) (resource : Resource)
    (h : (Dict.get? senlinKinds resource.resource).isSome = true) :
    Triple False (fun _ => True) (executeClustering w fuel settings p resource)
      (fun p' t => p'.errors = p.errors ∧ Touched t) (fun _ _ => False) := by
  unfold executeClustering
  refine triple_bind (M := fun connected _ => connected = .ok ()) ?_ fun connected => ?_
  · exact triple_ite (fun _ => triple_pure fun _ _ => rfl)
      fun _ => triple_ask fun t _ => hw.connect t
  · cases connected with
    | error name => exact triple_pure fun _ h => by simp at h
    | ok _ =>
      refine triple_bind ((triple_deleteSenlinResource hw fuel resource _ _ h).consequence
        (fun _ _ => trivial) (fun _ _ => id) fun _ _ => id) fun errors => ?_
      exact triple_pure fun _ ht => ⟨by simp [ht.1], ht.2⟩

/-- A command that succeeds has changed something. -/
theorem triple_runOpenstack_ok {openstackBin : String} {argv : List String}
    (h : ∀ t, Pre t → ∃ out, w.start t (openstackBin :: argv) = .completed ⟨0, out, ""⟩)
    (Err : Exc → List Event → Prop) :
    Triple False Pre (runOpenstack w openstackBin argv) (fun r t => r.1 = true ∧ Touched t) Err := by
  unfold runOpenstack
  refine triple_bind (M := fun c t => c.returncode = 0 ∧ Touched t) (triple_subprocess fun t ht => ?_)
    fun c => ?_
  · obtain ⟨out, hout⟩ := h t ht
    simp only [hout]
    exact ⟨trivial, touched_snoc rfl⟩
  · refine triple_ite (fun _ => triple_pure fun _ ht => ⟨rfl, ht.2⟩) fun hc => ?_
    exact triple_intro fun _ ht => absurd ht.1 hc

/-- A process that fails to start after a deletion. -/
theorem triple_subprocess_late {event : List String → Started → Event} {argv : List String}
    (h : ∀ t, Pre t → Touched t ∧ ∃ message, w.start t argv = .osError message)
    (Post : Completed → List Event → Prop) :
    Triple False Pre (subprocess w event argv) Post LateUsage := by
  refine triple_subprocess fun t ht => ?_
  obtain ⟨htouched, message, hmessage⟩ := h t ht
  simp only [hmessage]
  exact ⟨rfl, htouched.append _⟩

/-! A world that always succeeds: the plan is executed without errors. -/

section Obliging

variable (file : Read) (inventory : List Event → Inventory)

theorem triple_routerCommand_ok (openstackBin router : String) (argv errors : List String)
    (Err : Exc → List Event → Prop) :
    Triple False (fun _ => errors = []) (routerCommand (obliging file inventory) openstackBin router
      errors argv) (fun errors t => errors = [] ∧ Touched t) Err := by
  unfold routerCommand
  refine triple_intro fun _ herr => ?_
  refine triple_bind (triple_runOpenstack_ok (fun _ _ => ⟨_, rfl⟩) _) fun r => ?_
  obtain ⟨ok, detail⟩ := r
  refine triple_intro fun t ht => ?_
  obtain ⟨rfl, htouched⟩ := ht
  exact triple_pure fun _ hu => ⟨herr, hu ▸ htouched⟩

theorem triple_deleteRouter_ok (openstackBin : String) (resource : Resource)
    (Err : Exc → List Event → Prop) :
    Triple False (fun _ => True) (deleteRouter (obliging file inventory) openstackBin resource)
      (fun errors t => errors = [] ∧ Touched t) Err := by
  unfold deleteRouter
  refine triple_bind (M := fun r _ => r = ([], none)) ?_ fun r => ?_
  · unfold routerPorts
    refine triple_bind (M := fun c _ => c = ⟨0, "", ""⟩)
      (triple_subprocess fun t _ => by simp [obliging]) fun c => ?_
    refine triple_intro fun _ hc => ?_
    subst hc
    exact triple_pure fun _ _ => rfl
  · refine triple_intro fun _ hr => ?_
    subst hr
    refine triple_bind (M := fun errors _ => errors = []) (triple_pure fun _ _ => rfl)
      fun errors => ?_
    refine triple_foldlM_cons (triple_routerCommand_ok file inventory _ _ _ _ _) fun errors argv _ => ?_
    exact (triple_routerCommand_ok file inventory _ _ _ _ _).consequence (fun _ ht => ht.1)
      (fun _ _ => id) fun _ _ => id

theorem triple_waitForStackDelete_ok {timeout : Seconds} (h : timeout.positive = true) (fuel : ℕ)
    (openstackBin stack : String) (poll : Seconds) (Err : Exc → List Event → Prop) :
    Triple False Touched
      (waitForStackDelete (obliging file inventory) (fuel + 1) openstackBin stack timeout poll)
      (fun error t => error = none ∧ Touched t) Err := by
  unfold waitForStackDelete
  refine triple_bind (M := fun start t => start = 0 ∧ Touched t)
    (triple_now fun t ht => ⟨rfl, ht.append _⟩) fun start => ?_
  unfold stackLoop
  refine triple_bind (M := fun current t => (start = 0 ∧ current = 0) ∧ Touched t)
    (triple_now fun t ht => ⟨⟨ht.1, rfl⟩, ht.2.append _⟩) fun current => ?_
  refine triple_intro fun t ht => ?_
  obtain ⟨⟨rfl, rfl⟩, ht⟩ := ht
  rw [if_pos (Seconds.before_of_positive h 0)]
  refine triple_bind (M := fun c t => c = ⟨0, "DELETE_COMPLETE", ""⟩ ∧ Touched t)
    (triple_subprocess fun u hu => ?_) fun c => ?_
  · subst hu
    simpa [obliging] using ht.append _
  · refine triple_intro fun u hu => ?_
    obtain ⟨rfl, hu⟩ := hu
    rw [if_neg (by simp), if_neg (by simp), if_pos (by decide +kernel)]
    exact triple_pure fun _ hv => ⟨rfl, hv ▸ hu⟩

theorem triple_executeCommand_ok {o : Options} {op : Operation} (fuel : ℕ)
    (h : isStack op.resource = true → o.waitSeconds.positive = true)
    (Err : Exc → List Event → Prop) :
    Triple False (fun _ => True) (executeCommand (obliging file inventory) (fuel + 1) o.settings op)
      (fun errors t => errors = [] ∧ Touched t) Err := by
  unfold executeCommand
  refine triple_bind (triple_runOpenstack_ok (fun _ _ => ⟨_, rfl⟩) _) fun r => ?_
  obtain ⟨ok, detail⟩ := r
  refine triple_intro fun t ht => ?_
  obtain ⟨rfl, ht⟩ := ht
  refine triple_ite (fun hf => by simp at hf) fun _ => ?_
  refine triple_ite (fun hs => ?_) fun _ => triple_pure fun _ hu => ⟨rfl, hu ▸ ht⟩
  refine triple_bind ((triple_waitForStackDelete_ok file inventory (h hs) _ _ _ _ _).consequence
    (fun _ hu => hu ▸ ht) (fun _ _ => id) fun _ _ => id) fun error => ?_
  refine triple_intro fun u hu => ?_
  obtain ⟨rfl, hu⟩ := hu
  exact triple_pure fun _ hv => ⟨rfl, hv ▸ hu⟩

theorem triple_executeOperation_ok {o : Options} {op : Operation} (fuel : ℕ) (p : Progress)
    (hop : Deletable op) (h : isStack op.resource = true → o.waitSeconds.positive = true) :
    Triple False (fun _ => p.errors = [])
      (executeOperation (obliging file inventory) (fuel + 1) o.settings p op)
      (fun p' t => p'.errors = [] ∧ Touched t) (fun _ _ => False) := by
  unfold executeOperation
  refine triple_intro fun _ hp => ?_
  refine triple_bind (M := fun _ _ => True) (triple_print fun _ _ => trivial) fun _ => ?_
  refine triple_ite (fun hs => ?_) fun _ => triple_ite (fun _ => ?_) fun _ => ?_
  · have hkind := hop (by simpa [Operation.isClustering] using hs)
    exact (triple_executeClustering_gone (cooperative_obliging file inventory) _ _ _ _
      hkind).consequence (fun _ => id) (fun _ _ ht => ⟨ht.1.trans hp, ht.2⟩) fun _ _ => id
  · refine triple_bind (triple_deleteRouter_ok file inventory _ _ _) fun errors => ?_
    exact triple_pure fun _ ht => ⟨by simp [ht.1, hp], ht.2⟩
  · refine triple_bind (triple_executeCommand_ok file inventory fuel h _) fun errors => ?_
    exact triple_pure fun _ ht => ⟨by simp [ht.1, hp], ht.2⟩

theorem triple_executePlan_ok {o : Options} {operations : List Operation} (fuel : ℕ)
    (hne : operations ≠ []) (hops : ∀ op ∈ operations, Deletable op)
    (h : ∀ op ∈ operations, isStack op.resource = true → o.waitSeconds.positive = true) :
    Triple False (fun _ => True)
      (executePlan (obliging file inventory) (fuel + 1) o.settings operations)
      (fun errors t => errors = [] ∧ Touched t) (fun _ _ => False) := by
  unfold executePlan
  cases operations with
  | nil => exact absurd rfl hne
  | cons op ops =>
    refine triple_bind (M := fun p t => p.errors = [] ∧ Touched t)
      (triple_foldlM_cons ?_ fun p op' hop' => ?_) fun p => triple_pure fun _ => id
    · exact (triple_executeOperation_ok file inventory fuel _ (hops op (by simp))
        (h op (by simp))).consequence (fun _ _ => rfl) (fun _ _ => id) fun _ _ => id
    · exact (triple_executeOperation_ok file inventory fuel p (hops op' (by simp [hop']))
        (h op' (by simp [hop']))).consequence (fun _ ht => ht.1) (fun _ _ => id) fun _ _ => id

end Obliging

/-! A world that breaks after the first deletion: a plan that starts a process late fails. -/

section Breaking

variable (file : Read) {op : Operation}

theorem breaking_start_untouched {t : List Event} (h : Untouched t) (argv : List String) :
    (breaking file).start t argv = .completed ⟨0, "", ""⟩ := by
  have : t.any Event.isDeletion = false := by simpa [Untouched] using h
  simp only [breaking, this, Bool.false_eq_true, if_false]

theorem breaking_start_touched {t : List Event} (h : Touched t) (argv : List String) :
    (breaking file).start t argv = .osError "Resource temporarily unavailable" := by
  have : t.any Event.isDeletion = true := by simpa [Touched] using h
  simp only [breaking, this, if_true]

theorem late_start {t : List Event} (h : Touched t) (argv : List String) :
    Touched t ∧ ∃ message, (breaking file).start t argv = .osError message :=
  ⟨h, _, breaking_start_touched file h argv⟩

theorem triple_runOpenstack_late (openstackBin : String) (argv : List String)
    (Post : Bool × String → List Event → Prop) :
    Triple False Touched (runOpenstack (breaking file) openstackBin argv) Post LateUsage := by
  unfold runOpenstack
  exact triple_bind (triple_subprocess_late (fun t ht => late_start file ht _) fun _ _ => False)
    fun c => triple_intro fun _ => False.elim

/-- Every later operation but a Senlin one fails to start its first process. -/
theorem triple_executeOperation_late (fuel : ℕ) (p : Progress) (hop : Deletable op) :
    Triple False Touched (executeOperation (breaking file) fuel o.settings p op)
      (fun _ t => op.isClustering = true ∧ Touched t) LateUsage := by
  unfold executeOperation
  refine triple_bind (M := fun _ => Touched) (triple_print fun _ ht => ht.append _) fun _ => ?_
  refine triple_ite (fun hs => ?_) fun _ => triple_ite (fun _ => ?_) fun _ => ?_
  · have hc : op.isClustering = true := by simpa [Operation.isClustering] using hs
    exact (triple_executeClustering_gone (cooperative_breaking file) _ _ _ _ (hop hc)).consequence
      (fun _ _ => trivial) (fun _ _ ht => ⟨hc, ht.2⟩) fun _ _ => False.elim
  · refine triple_bind (M := fun _ _ => False) ?_ fun _ => triple_intro fun _ => False.elim
    unfold deleteRouter routerPorts
    refine triple_bind (M := fun _ _ => False) ?_ fun _ => triple_intro fun _ => False.elim
    exact triple_bind (triple_subprocess_late (fun t ht => late_start file ht _) fun _ _ => False)
      fun _ => triple_intro fun _ => False.elim
  · refine triple_bind (M := fun _ _ => False) ?_ fun _ => triple_intro fun _ => False.elim
    unfold executeCommand
    exact triple_bind (triple_runOpenstack_late file _ _ fun _ _ => False)
      fun _ => triple_intro fun _ => False.elim

theorem triple_operations_late {ops : List Operation} (fuel : ℕ) (p : Progress)
    (hops : ∀ op ∈ ops, Deletable op) :
    Triple False Touched (ops.foldlM (executeOperation (breaking file) fuel o.settings) p)
      (fun _ _ => ∀ op ∈ ops, op.isClustering = true) LateUsage := by
  induction ops generalizing p with
  | nil => exact triple_pure fun _ _ => by simp
  | cons op ops ih =>
    rw [List.foldlM_cons]
    refine triple_bind (triple_executeOperation_late file fuel p (hops op (by simp))) fun p' => ?_
    refine triple_intro fun t ht => ?_
    refine (ih p' fun op' hop' => hops op' (by simp [hop'])).consequence (fun _ hu => hu ▸ ht.2)
      (fun _ _ hall => ?_) fun _ _ => id
    simpa [ht.1] using hall

/-- A router: the port list and the gateway command succeed, the delete command fails. -/
theorem triple_deleteRouter_breaks (openstackBin : String) (resource : Resource)
    (Post : List String → List Event → Prop) :
    Triple False Untouched (deleteRouter (breaking file) openstackBin resource) Post LateUsage := by
  unfold deleteRouter
  refine triple_bind (M := fun r t => r = ([], none) ∧ Untouched t) ?_ fun r => ?_
  · unfold routerPorts
    refine triple_bind (M := fun c t => c = ⟨0, "", ""⟩ ∧ Untouched t)
      (triple_subprocess fun t ht => ?_) fun c => triple_intro fun t ht => ?_
    · rw [breaking_start_untouched file ht]
      exact ⟨rfl, ht.snoc rfl⟩
    · obtain ⟨rfl, ht⟩ := ht
      exact triple_pure fun _ hu => ⟨rfl, hu ▸ ht⟩
  · refine triple_intro fun t ht => ?_
    obtain ⟨rfl, ht⟩ := ht
    refine triple_bind (M := fun _ u => u = t) (triple_pure fun _ hu => hu) fun errors => ?_
    rw [List.foldlM_cons]
    refine triple_bind (M := fun _ => Touched) ?_ fun errors => ?_
    · unfold routerCommand
      refine triple_bind (triple_runOpenstack_ok (fun u hu => ?_) _) fun r => ?_
      · exact ⟨"", by rw [breaking_start_untouched file (hu ▸ ht)]⟩
      · exact triple_ite (fun _ => triple_pure fun _ hu => hu.2)
          fun _ => triple_pure fun _ hu => hu.2
    · refine triple_bind (M := fun _ _ => False) ?_ fun _ => triple_intro fun _ => False.elim
      unfold routerCommand
      exact triple_bind (triple_runOpenstack_late file _ _ fun _ _ => False)
        fun _ => triple_intro fun _ => False.elim

/-- A wait that has a first look fails to start it. -/
theorem triple_waitForStackDelete_late (timeout poll : Seconds) (fuel : ℕ)
    (openstackBin stack : String) :
    Triple False Touched
      (waitForStackDelete (breaking file) (fuel + 1) openstackBin stack timeout poll)
      (fun _ t => timeout.positive = false ∧ Touched t) LateUsage := by
  unfold waitForStackDelete
  refine triple_bind (M := fun start t => start = 0 ∧ Touched t)
    (triple_now fun _ ht => ⟨rfl, ht.append _⟩) fun start => ?_
  unfold stackLoop
  refine triple_bind (M := fun current t => (start = 0 ∧ current = 0) ∧ Touched t)
    (triple_now fun _ ht => ⟨⟨ht.1, rfl⟩, ht.2.append _⟩) fun current => ?_
  refine triple_intro fun t ht => ?_
  obtain ⟨⟨rfl, rfl⟩, ht⟩ := ht
  refine triple_ite (fun _ => ?_) fun hb => ?_
  · exact triple_bind (triple_subprocess_late (fun u hu => late_start file (hu ▸ ht) _)
      fun _ _ => False) fun _ => triple_intro fun _ => False.elim
  · refine triple_pure fun _ hu => ⟨?_, hu ▸ ht⟩
    by_contra hpositive
    exact hb (Seconds.before_of_positive (by simpa using hpositive) 0)

theorem triple_executeCommand_breaks (fuel : ℕ) :
    Triple False Untouched (executeCommand (breaking file) (fuel + 1) o.settings op)
      (fun _ t => (isStack op.resource = true → o.waitSeconds.positive = false) ∧ Touched t)
      LateUsage := by
  unfold executeCommand
  refine triple_bind (triple_runOpenstack_ok (fun t ht => ?_) _) fun r => ?_
  · exact ⟨"", by rw [breaking_start_untouched file ht]⟩
  · obtain ⟨ok, detail⟩ := r
    refine triple_intro fun t ht => ?_
    obtain ⟨rfl, ht⟩ := ht
    refine triple_ite (fun hf => by simp at hf) fun _ => triple_ite (fun _ => ?_) fun hs => ?_
    · refine triple_bind ((triple_waitForStackDelete_late file _ _ _ _ _).consequence
        (fun _ hu => hu ▸ ht) (fun _ _ => id) fun _ _ => id) fun error => ?_
      cases error with
      | some error => exact triple_pure fun _ hu => ⟨fun _ => hu.1, hu.2⟩
      | none => exact triple_pure fun _ hu => ⟨fun _ => hu.1, hu.2⟩
    · exact triple_pure fun _ hu => ⟨fun hs' => absurd hs' hs, hu ▸ ht⟩

/-- The first operation deletes; if it starts a further process, it fails. -/
theorem triple_executeOperation_breaks (fuel : ℕ) (p : Progress) (hop : Deletable op) :
    Triple False Untouched (executeOperation (breaking file) (fuel + 1) o.settings p op)
      (fun _ t => op.followsUp o = false ∧ Touched t) LateUsage := by
  unfold executeOperation
  refine triple_bind (M := fun _ => Untouched) (triple_print fun _ ht => ht.snoc rfl) fun _ => ?_
  refine triple_ite (fun hs => ?_) fun hs => triple_ite (fun hr => ?_) fun hr => ?_
  · have hc : op.isClustering = true := by simpa [Operation.isClustering] using hs
    exact (triple_executeClustering_gone (cooperative_breaking file) _ _ _ _ (hop hc)).consequence
      (fun _ _ => trivial) (fun _ _ ht => ⟨by simp [Operation.followsUp, hc], ht.2⟩)
      fun _ _ => False.elim
  · exact triple_bind (triple_deleteRouter_breaks file _ _ fun _ _ => False)
      fun _ => triple_intro fun _ => False.elim
  · refine triple_bind (triple_executeCommand_breaks file fuel) fun errors => ?_
    refine triple_pure fun _ ht => ⟨?_, ht.2⟩
    cases hstack : isStack op.resource with
    | false => simp [Operation.followsUp, hstack, hr]
    | true => simp [Operation.followsUp, hr, ht.1 hstack]

/-- A plan that starts a process late ends in a usage error after a deletion. -/
theorem triple_executePlan_breaks {operations : List Operation} (fuel : ℕ)
    (hops : ∀ op ∈ operations, Deletable op) (h : StartsLate o operations) :
    Triple False Untouched (executePlan (breaking file) (fuel + 1) o.settings operations)
      (fun _ _ => False) LateUsage := by
  unfold executePlan
  cases operations with
  | nil => exact h.elim
  | cons op ops =>
    refine triple_bind (M := fun _ _ => False) ?_ fun _ => triple_intro fun _ => False.elim
    rw [List.foldlM_cons]
    refine triple_bind (triple_executeOperation_breaks file fuel _ (hops op (by simp))) fun p => ?_
    refine triple_intro fun t ht => ?_
    refine (triple_operations_late file (fuel + 1) p fun op' hop' =>
      hops op' (by simp [hop'])).consequence (fun _ hu => hu ▸ ht.2) (fun _ _ hall => ?_)
      fun _ _ => id
    rcases h with h | ⟨op', hop', hc⟩
    · simp [ht.1] at h
    · simp [hall op' hop'] at hc

end Breaking

end Yggdrasil.Deletion
