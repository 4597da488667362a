import Yggdrasil.Deletion.Coverage
import Yggdrasil.Deletion.Safety

/-! Exit status 2 is the answer to every usage error and every `OSError`, also to those
met after the first deletion. Here is the condition under which a run on a report file
has none of the latter, and that it suffices against every world. -/

namespace Yggdrasil.Deletion

open Effect Effect.Program Python

/-- The exceptions that `main` turns into exit status 2. -/
def Exc.isUsage : Exc → Bool
  | .other _ => false
  | _ => true

/-- Some deletion in a history. -/
def Touched (t : List Event) : Prop := ∃ e ∈ t, e.isDeletion = true

theorem not_untouched_of_touched {t : List Event} (h : Touched t) : ¬Untouched t := by
  obtain ⟨e, he, hd⟩ := h
  intro hu
  simp [hu e he] at hd

theorem Untouched.append {s t : List Event} (hs : Untouched s) (ht : Untouched t) :
    Untouched (s ++ t) := fun e he => (List.mem_append.1 he).elim (hs e) (ht e)

theorem Untouched.snoc {t : List Event} {e : Event} (ht : Untouched t) (he : e.isDeletion = false) :
    Untouched (t ++ [e]) := ht.append (by simpa [Untouched] using he)

theorem Touched.append {t : List Event} (ht : Touched t) (s : List Event) : Touched (t ++ s) := by
  obtain ⟨e, he, hd⟩ := ht
  exact ⟨e, List.mem_append_left s he, hd⟩

theorem touched_snoc {t : List Event} {e : Event} (he : e.isDeletion = true) :
    Touched (t ++ [e]) := ⟨e, by simp, he⟩

/-! ### Rules for the requests -/

section Rules

variable {w : World} {α : Type} {Run : Prop} {Pre : List Event → Prop}
  {Post : α → List Event → Prop} {Err : Exc → List Event → Prop}

theorem triple_ask {answer : List Event → α} {event : α → Event}
    (h : ∀ t, Pre t → Post (answer t) (t ++ [event (answer t)])) :
    Triple Run Pre (ask answer event) Post Err := by
  refine ⟨fun t ht => ?_⟩
  rw [run_ask]
  exact h t ht

theorem triple_print {text : String} {Post : Unit → List Event → Prop}
    (h : ∀ t, Pre t → Post () (t ++ [.print text])) : Triple Run Pre (print text) Post Err :=
  triple_emit h

theorem triple_subprocess {event : List String → Started → Event} {argv : List String}
    {Post : Completed → List Event → Prop}
    (h : ∀ t, Pre t → match w.start t argv with
      | .completed c => Post c (t ++ [event argv (.completed c)])
      | .osError message => Err (.os message) (t ++ [event argv (.osError message)])
      | .failed name => Err (.other name) (t ++ [event argv (.failed name)])) :
    Triple Run Pre (subprocess w event argv) Post Err := by
  refine triple_bind (M := fun started t => match started with
    | .completed c => Post c t
    | .osError message => Err (.os message) t
    | .failed name => Err (.other name) t) (triple_ask fun t ht => ?_) fun started => ?_
  · have := h t ht
    cases hs : w.start t argv <;> simpa [hs] using this
  · cases started with
    | completed c => exact triple_pure fun _ h => h
    | osError message => exact triple_throw fun _ h => h
    | failed name => exact triple_throw fun _ h => h

/-- A quiet program keeps a history without deletions. -/
theorem triple_of_quiet {m : Prog α} (h : Quiet m) {Q : α → Prop}
    (hQ : ∀ t s a, m.run t = (.value a, s) → Q a) :
    Triple True Untouched m (fun a t => Q a ∧ Untouched t) (fun _ t => Untouched t) := by
  refine ⟨fun t ht => ?_⟩
  have hs := h t
  rcases hr : m.run t with ⟨a | x | _, s⟩ <;> rw [hr] at hs
  · exact ⟨hQ t s a hr, ht.append hs⟩
  · exact ht.append hs
  · trivial

end Rules

/-! ### The condition -/

/-- A wait of this length has a first look. -/
def Seconds.positive : Seconds → Bool
  | .finite q => decide (0 < q)
  | .infinite => true
  | _ => false

theorem Seconds.before_of_positive {timeout : Seconds} (h : timeout.positive = true) (start : ℚ) :
    timeout.before start start = true := by
  cases timeout with
  | finite q => simpa [before, positive] using h
  | _ => simp_all [before, positive]

theorem Seconds.not_before {timeout : Seconds} (h : timeout.positive = false) {start now : ℚ}
    (hle : start ≤ now) : timeout.before start now = false := by
  cases timeout with
  | finite q =>
    simp only [positive, decide_eq_false_iff_not, not_lt] at h
    simp only [before, decide_eq_false_iff_not, not_lt]
    linarith
  | _ => simp_all [before, positive]

def Operation.isClustering (op : Operation) : Bool := op.resource.service == "clustering"

/-- The operation starts another process after its first change. -/
def Operation.followsUp (o : Options) (op : Operation) : Bool :=
  !op.isClustering && (op.resource.resource == "router" ||
    (isStack op.resource && o.waitSeconds.positive))

/-- Some process is started after the first operation of the plan may have deleted. -/
def StartsLate (o : Options) : List Operation → Prop
  | [] => False
  | op :: ops => op.followsUp o = true ∨ ∃ op' ∈ ops, op'.isClustering = false

/-- The whole plan can succeed, and is then followed by a verification. -/
def VerifiesLate (o : Options) (operations : List Operation) : Prop :=
  o.verify = true ∧ ∀ op ∈ operations, isStack op.resource = true → o.waitSeconds.positive = true

/-- A run on a report file reaches no usage error after a deletion: it refuses to delete, or
its plan is empty, or nothing can fail once the first operation may have deleted. -/
def UsageExitSafe (o : Options) (file : Read) : Prop :=
  ∀ report operations, file.report = .ok report → blockingErrors report o = [] →
    planDeletions report = .ok (operations, []) → o.yes = true → operations ≠ [] →
    ¬StartsLate o operations ∧ ¬VerifiesLate o operations

/-! ### The condition suffices -/

section Sufficient

variable {w : World}

/-- After a usage error nothing has been deleted. -/
def UntouchedUsage (x : Exc) (t : List Event) : Prop := x.isUsage = true → Untouched t

theorem triple_now {Run : Prop} {Pre : List Event → Prop} {Post : ℚ → List Event → Prop}
    {Err : Exc → List Event → Prop}
    (h : ∀ t, Pre t → Post (w.monotonic t) (t ++ [.monotonic (w.monotonic t)])) :
    Triple Run Pre (now w) Post Err := triple_ask h

/-- A program whose exceptions all end in a traceback. -/
abbrev NoUsage {α : Type} (m : Prog α) : Prop := Raises (fun x => x.isUsage = false) m

theorem noUsage_ask {α : Type} (answer : List Event → α) (event : α → Event) :
    NoUsage (ask answer event) := triple_ask fun _ _ => trivial

theorem noUsage_sleep (seconds : Seconds) : NoUsage (sleep seconds) := by
  unfold sleep
  split
  · exact triple_throw fun _ _ => rfl
  · exact triple_emit fun _ _ => trivial

theorem noUsage_actionStatus (action : Option String) : NoUsage (actionStatus w action) := by
  unfold actionStatus
  cases action with
  | none => exact raises_pure _
  | some action =>
    refine triple_ite (fun _ => raises_pure _) fun _ => ?_
    refine raises_bind (noUsage_ask _ _) fun answer => ?_
    cases answer with
    | ok status => exact raises_pure _
    | error name => exact triple_ite (fun _ => raises_pure _) fun _ => raises_pure _

theorem noUsage_senlinLoop (kind identifier : String) (action : Option String)
    (timeout poll : Seconds) (start : ℚ) (fuel : ℕ) :
    NoUsage (senlinLoop w kind identifier action timeout poll start fuel) := by
  induction fuel with
  | zero => exact triple_diverge trivial
  | succ fuel ih =>
    unfold senlinLoop
    refine raises_bind (noUsage_ask _ _) fun current => ?_
    refine triple_ite (fun _ => ?_) fun _ => raises_pure _
    refine raises_bind (noUsage_ask _ _) fun got => ?_
    cases got with
    | error name => exact raises_pure _
    | ok _ =>
      refine raises_bind (noUsage_actionStatus action) fun status => ?_
      cases status with
      | error name => exact raises_pure _
      | ok status =>
        refine triple_ite (fun _ => raises_pure _) fun _ => ?_
        exact raises_bind (noUsage_sleep poll) fun _ => ih

theorem noUsage_deleteSenlinResource (fuel : ℕ) (resource : Resource) (timeout poll : Seconds) :
    NoUsage (deleteSenlinResource w fuel resource timeout poll) := by
  unfold deleteSenlinResource
  dsimp only
  split
  · exact raises_pure _
  · refine raises_bind (noUsage_ask _ _) fun got => ?_
    cases got with
    | error name => exact raises_pure _
    | ok _ =>
      refine raises_bind (noUsage_ask _ _) fun deleted => ?_
      cases deleted with
      | error name => exact raises_pure _
      | ok action =>
        exact raises_bind (noUsage_ask _ _) fun start => noUsage_senlinLoop _ _ _ _ _ _ _

/-- The Senlin operations raise no usage error, and only add errors. -/
theorem triple_executeClustering (fuel : ℕ) (settings : Settings) (p : Progress)
    (resource : Resource) :
    Triple True (fun _ => True) (executeClustering w fuel settings p resource)
      (fun p' _ => p.errors ≠ [] → p'.errors ≠ []) (fun x _ => x.isUsage = false) := by
  unfold executeClustering
  refine triple_bind (M := fun _ _ => True) ?_ fun connected => ?_
  · exact triple_ite (fun _ => triple_pure fun _ _ => trivial)
      fun _ => triple_ask fun _ _ => trivial
  · cases connected with
    | error name => exact triple_pure fun _ _ => by simp
    | ok _ =>
      refine triple_bind (noUsage_deleteSenlinResource _ _ _ _) fun errors => ?_
      exact triple_pure fun _ _ h => by simp [h]

theorem triple_runOpenstack (openstackBin : String) (argv : List String) :
    Triple True Untouched (runOpenstack w openstackBin argv) (fun _ _ => True) UntouchedUsage := by
  unfold runOpenstack
  refine triple_bind (M := fun _ _ => True) (triple_subprocess fun t ht => ?_) fun c => ?_
  · cases w.start t (openstackBin :: argv) with
    | completed c => trivial
    | osError message =>
      intro _
      exact ht.snoc rfl
    | failed name =>
      intro h
      simp [Exc.isUsage] at h
  · refine triple_ite (fun _ => triple_pure fun _ _ => trivial) fun _ => ?_
    exact triple_ite (fun _ => triple_pure fun _ _ => trivial)
      fun _ => triple_pure fun _ _ => trivial

/-- A wait without a first look reports that the stack remained visible. -/
theorem triple_waitForStackDelete {timeout : Seconds} (h : timeout.positive = false) (fuel : ℕ)
    (openstackBin stack : String) (poll : Seconds) :
    Triple True (fun _ => True) (waitForStackDelete w fuel openstackBin stack timeout poll)
      (fun error _ => error.isSome = true) UntouchedUsage := by
  unfold waitForStackDelete
  refine triple_bind (M := fun start t => start ≤ w.monotonic t)
    (triple_now fun t _ => w.monotonic_le t _) fun start => ?_
  cases fuel with
  | zero => exact triple_diverge trivial
  | succ fuel =>
    unfold stackLoop
    refine triple_bind (M := fun current _ => start ≤ current)
      (triple_now fun t ht => ht) fun current => ?_
    refine triple_intro fun t hle => ?_
    rw [if_neg (by simp [Seconds.not_before h hle])]
    exact triple_pure fun _ _ => rfl

/-- A single command: a usage error comes before it, and a stack that is not waited for
counts as an error. -/
theorem triple_executeCommand {o : Options} {op : Operation} (fuel : ℕ)
    (h : isStack op.resource = true → o.waitSeconds.positive = false) :
    Triple True Untouched (executeCommand w fuel o.settings op)
      (fun errors _ => isStack op.resource = true → errors ≠ []) UntouchedUsage := by
  unfold executeCommand
  refine triple_bind (triple_runOpenstack _ _) fun r => ?_
  obtain ⟨ok, detail⟩ := r
  refine triple_ite (fun _ => triple_pure fun _ _ _ => by simp) fun _ => ?_
  refine triple_ite (fun hs => ?_) fun hs => triple_pure fun _ _ hs' => absurd hs' hs
  refine triple_bind (triple_waitForStackDelete (h hs) _ _ _ _) fun error => ?_
  cases error with
  | some error => exact triple_pure fun _ _ _ => by simp
  | none => exact triple_pure fun _ h => by simp at h

variable {o : Options}

theorem Operation.not_isStack {op : Operation} (h : op.isClustering = true) :
    isStack op.resource = false := by
  simp only [isClustering, beq_iff_eq] at h
  simp [isStack, h]

/-- A Senlin operation keeps the errors. -/
theorem triple_executeOperation_clustering {op : Operation} (fuel : ℕ) (p : Progress)
    (h : op.isClustering = true) (P : Prop) :
    Triple True (fun _ => P → p.errors ≠ []) (executeOperation w fuel o.settings p op)
      (fun p' _ => P → p'.errors ≠ []) UntouchedUsage := by
  have hservice : op.resource.service = "clustering" := by simpa [Operation.isClustering] using h
  unfold executeOperation
  refine triple_intro fun _ hp => triple_bind (M := fun _ _ => True)
    (triple_print fun _ _ => trivial) fun _ => ?_
  refine triple_ite (fun _ => ?_) fun hn => absurd hservice hn
  refine (triple_executeClustering _ _ _ _).consequence (fun _ _ => trivial) ?_ ?_
  · intro p' _ hkeep hP
    exact hkeep (hp hP)
  · intro x _ hx hu
    simp [hx] at hu

/-- The first operation, where it starts no process after its first change. -/
theorem triple_executeOperation_first {op : Operation} (fuel : ℕ) (p : Progress)
    (h : op.followsUp o = false) :
    Triple True Untouched (executeOperation w fuel o.settings p op)
      (fun p' _ => isStack op.resource = true → p'.errors ≠ []) UntouchedUsage := by
  by_cases hc : op.isClustering = true
  · refine (triple_executeOperation_clustering fuel p hc False).consequence
      (fun _ _ => False.elim) ?_ fun _ _ => id
    intro p' _ _ hs
    simp [op.not_isStack hc] at hs
  · have hc' : op.resource.service ≠ "clustering" := by simpa [Operation.isClustering] using hc
    simp only [Operation.followsUp, Bool.and_eq_false_iff, Bool.or_eq_false_iff, hc,
      Bool.not_false, beq_eq_false_iff_ne, Bool.true_eq_false, false_or] at h
    obtain ⟨hrouter, hstack⟩ := h
    unfold executeOperation
    refine triple_bind (M := fun _ => Untouched) (triple_print fun t ht => ht.snoc rfl)
      fun _ => ?_
    refine triple_ite (fun hs => absurd hs hc') fun _ => ?_
    refine triple_ite (fun hr => absurd hr hrouter) fun _ => ?_
    have hwait : isStack op.resource = true → o.waitSeconds.positive = false := fun hs =>
      hstack.resolve_left (by simp [hs])
    refine triple_bind (triple_executeCommand fuel hwait) fun errors => ?_
    exact triple_pure fun _ herr hs => by simp [herr hs]

/-- A usage error of the execution comes before every deletion, and a stack that is not
waited for leaves an error. -/
theorem triple_executePlan {operations : List Operation} (fuel : ℕ)
    (h : ¬StartsLate o operations) :
    Triple True Untouched (executePlan w fuel o.settings operations)
      (fun errors _ => o.waitSeconds.positive = false →
        (∃ op ∈ operations, isStack op.resource = true) → errors ≠ []) UntouchedUsage := by
  unfold executePlan
  cases operations with
  | nil =>
    exact triple_bind (M := fun _ _ => True) (triple_pure fun _ _ => trivial) fun _ =>
      triple_pure fun _ _ _ => by simp
  | cons op ops =>
    simp only [StartsLate, not_or, Bool.not_eq_true, not_exists, not_and,
      Bool.not_eq_false] at h
    obtain ⟨hfirst, hrest⟩ := h
    refine triple_bind (M := fun p _ => isStack op.resource = true → p.errors ≠ []) ?_ fun p => ?_
    · exact triple_foldlM_cons (triple_executeOperation_first fuel _ hfirst)
        fun p' op' hop' => triple_executeOperation_clustering fuel p' (hrest op' hop') _
    · refine triple_pure fun _ herr _ hstack => herr ?_
      obtain ⟨op', hop', hs⟩ := hstack
      rcases List.mem_cons.1 hop' with rfl | hop'
      · exact hs
      · simp [op'.not_isStack (hrest op' hop')] at hs

theorem triple_deleteReport {file : Read} {report : Mapping} (fuel : ℕ) (path : String)
    (h : UsageExitSafe o file) (hfile : file.report = .ok report) :
    Triple True Untouched (deleteReport w fuel o (.report path) report)
      (fun n _ => n ≠ 2) UntouchedUsage := by
  unfold deleteReport
  refine triple_bind ((triple_of_quiet (prints_checkedPlan o report).quiet
    fun _ _ _ => checkedPlan_eq_value).consequence (fun _ => id) (fun _ _ => id)
      fun _ _ ht _ => ht) fun operations => ?_
  refine triple_ite (fun _ => ?_) fun hne => triple_ite (fun _ => ?_) fun hyes => ?_
  · exact triple_bind (M := fun _ _ => True) (triple_print fun _ _ => trivial) fun _ =>
      triple_pure fun _ _ => by simp
  · refine triple_bind (M := fun _ _ => True) ?_ fun _ => triple_pure fun _ _ => by simp
    exact ((triple_of_quiet (prints_dryRun operations).quiet (Q := fun _ => True)
      fun _ _ _ _ => trivial).consequence (fun _ ht => ht.2) (fun _ _ _ => trivial)
        fun _ _ ht _ => ht)
  · refine triple_intro fun t ⟨⟨hb, hp⟩, ht⟩ => ?_
    obtain ⟨hstart, hverify⟩ := h report operations hfile hb hp (by simpa using hyes) hne
    unfold execute
    refine triple_bind ((triple_executePlan fuel hstart).consequence
      (fun _ hu => hu ▸ ht) (fun _ _ => id) fun _ _ => id) fun errors => ?_
    refine triple_ite (fun _ => ?_) fun herr => triple_ite (fun hv => ?_) fun _ => ?_
    · refine triple_bind (M := fun _ _ => True) ?_ fun _ => triple_pure fun _ _ => by simp
      exact triple_foldlM (I := fun _ _ => True) (fun _ _ _ => triple_print fun _ _ => trivial) ()
        |>.consequence (fun _ _ => trivial) (fun _ _ => id) fun _ _ => id
    · -- every stack would have left an error, so the verification is not reached
      refine triple_bind (M := fun _ _ => True) ?_ fun _ => triple_pure fun _ _ => by simp
      refine triple_throw fun _ hstack => ?_
      exfalso
      simp only [VerifiesLate, hv, true_and, not_forall] at hverify
      obtain ⟨op, hop, hs, hwait⟩ := hverify
      exact herr (by simpa using hstack (by simpa using hwait) ⟨op, hop, hs⟩)
    · exact triple_pure fun _ _ => by simp

/-- Against every world, exit status 2 of a safe run means that nothing was deleted. -/
theorem main_usageExit {file : Read} {path : String} (fuel : ℕ) (hw : w.read [] path = file)
    (h : UsageExitSafe o file) :
    Triple True (fun t => t = []) (main w fuel o (.report path)) (fun n t => n = 2 → Untouched t)
      (fun _ _ => True) := by
  unfold main
  refine triple_handle (M := UntouchedUsage) ?_ fun x => ?_
  · unfold body
    refine triple_bind (M := fun report t => file.report = .ok report ∧ Untouched t) ?_
      fun report => ?_
    · refine triple_bind (M := fun answer t => answer = file ∧ Untouched t)
        (triple_ask fun t ht => ?_) fun answer => ?_
      · subst ht
        exact ⟨hw, by simp [Untouched, Event.isDeletion]⟩
      · refine triple_ofExcept (fun _ _ hr ht => ⟨ht.1 ▸ hr, ht.2⟩) fun _ _ _ ht _ => ht.2
    · refine triple_intro fun t hreport => ?_
      obtain ⟨hr, ht⟩ := hreport
      exact (triple_deleteReport fuel path h hr).consequence (fun _ hu => hu ▸ ht)
        (fun _ _ hn h2 => absurd h2 hn) fun _ _ => id
  · cases x with
    | deletePlan message =>
      exact triple_bind (M := fun _ => Untouched) (triple_print fun t ht => (ht rfl).snoc rfl)
        fun _ => triple_pure fun _ ht _ => ht
    | os message =>
      exact triple_bind (M := fun _ => Untouched) (triple_print fun t ht => (ht rfl).snoc rfl)
        fun _ => triple_pure fun _ ht _ => ht
    | other name => exact triple_throw fun _ _ => trivial

end Sufficient

end Yggdrasil.Deletion
