import Yggdrasil.Deletion.Senlin
import Yggdrasil.Library.Segments

/-! Best effort: the execution of a plan attempts every operation once and in order, whatever
the earlier ones did, and returns no error exactly when all of them succeeded. The run of a
plan that returns is cut into one segment for each operation; an attempt is what a segment
consists of, and its success is read off the answers in it. -/

namespace Yggdrasil.Deletion

open Effect Effect.Program Python

/-! ### Answers -/

/-- A process that succeeded or reported a missing object. -/
def Completed.settled (c : Completed) : Bool := c.returncode == 0 || missingOutput c.output

/-- The answer of a look at a stack that is gone. -/
def Completed.showsGone (c : Completed) : Bool :=
  if c.returncode = 0 then casefold (strip c.stdout) == "delete_complete"
  else missingOutput c.output

/-- Every process but one that failed. -/
def Event.settled : Event → Bool
  | .query _ (.completed c) => c.settled
  | .command _ (.completed c) => c.settled
  | _ => true

def Started.unfinished : Started → Bool
  | .completed _ => false
  | _ => true

/-- A process that was not started or whose run ended in an exception. -/
def Event.unfinished : Event → Bool
  | .query _ answer => answer.unfinished
  | .command _ answer => answer.unfinished
  | _ => false

def Event.connects : Event → Bool
  | .connect (.ok _) => true
  | _ => false

/-! ### Attempts -/

def stackShow (openstackBin stack : String) : List String :=
  [openstackBin, "stack", "show", stack, "-f", "value", "-c", "stack_status"]

def portList (openstackBin router : String) : List String :=
  [openstackBin, "port", "list", "--router", router, "-f", "value", "-c", "ID"]

/-- Each listed port is removed, then the gateway is unset and the router deleted. -/
def routerCommands (router : String) (ports : List String) : List (List String) :=
  ports.map (fun port => ["router", "remove", "port", router, port]) ++
    [["router", "unset", "--external-gateway", router], ["router", "delete", router]]

/-- A command that ran to its end. -/
def Ran (openstackBin : String) (argv : List String) (e : Event) : Prop :=
  ∃ c, e = .command (openstackBin :: argv) (.completed c)

def Event.isStackPoll (openstackBin stack : String) : Event → Bool
  | .monotonic _ => true
  | .query argv (.completed _) => argv == stackShow openstackBin stack
  | .sleep _ => true
  | _ => false

/-- One command; a stack is then waited for. -/
inductive CommandAttempt (openstackBin : String) (op : Operation) : List Event → Prop
  | single (c : Completed) : (c.settled && isStack op.resource) = false →
    CommandAttempt openstackBin op [.command (openstackBin :: op.argv) (.completed c)]
  | wait (c : Completed) (start : ℚ) (polls : List Event) :
    (c.settled && isStack op.resource) = true →
    (∀ e ∈ polls, e.isStackPoll openstackBin op.resource.identifier = true) →
    CommandAttempt openstackBin op
      (.command (openstackBin :: op.argv) (.completed c) :: .monotonic start :: polls)

/-- The ports are listed; nothing further follows only if that failed. -/
inductive RouterAttempt (openstackBin router : String) : List Event → Prop
  | unlisted (c : Completed) : c.settled = false →
    RouterAttempt openstackBin router [.query (portList openstackBin router) (.completed c)]
  | listed (c : Completed) (commands : List Event) : c.settled = true →
    List.Forall₂ (Ran openstackBin) (routerCommands router (textLines c.stdout)) commands →
    RouterAttempt openstackBin router
      (.query (portList openstackBin router) (.completed c) :: commands)

/-- A Senlin resource is looked up and then asked for its deletion once. -/
inductive SenlinAttempt (kind identifier : String) : List Event → Prop
  | unsupported : Dict.get? senlinKinds kind = none → SenlinAttempt kind identifier []
  | lookup (name : String) (force : Bool) : Dict.get? senlinKinds kind = some force →
    SenlinAttempt kind identifier [.senlinGet kind identifier (.error name)]
  | request (force : Bool) (answer : Except String (Option String)) (polls : List Event) :
    Dict.get? senlinKinds kind = some force →
    (∀ e ∈ polls, e.isSenlinPoll kind identifier = true) →
    SenlinAttempt kind identifier
      (.senlinGet kind identifier (.ok ()) :: .senlinDelete kind identifier force answer :: polls)

/-- The SDK is connected to first, unless an earlier attempt has done so. -/
inductive ClusteringAttempt (resource : Resource) : Bool → List Event → Prop
  | refused (name : String) : ClusteringAttempt resource false [.connect (.error name)]
  | connected (calls : List Event) : SenlinAttempt resource.resource resource.identifier calls →
    ClusteringAttempt resource false (.connect (.ok ()) :: calls)
  | again (calls : List Event) : SenlinAttempt resource.resource resource.identifier calls →
    ClusteringAttempt resource true calls

def Operation.announcement (op : Operation) : String :=
  "Deleting " ++ op.resource.service ++ "/" ++ op.resource.resource ++ " " ++
    op.resource.identifier ++ ": " ++ " ".intercalate op.argv

/-- The events of one operation, after the SDK has been connected to or not. -/
def Attempt (openstackBin : String) (connected : Bool) (op : Operation) (s : List Event) : Prop :=
  ∃ calls, s = .print op.announcement :: calls ∧
    if op.resource.service = "clustering" then ClusteringAttempt op.resource connected calls
    else if op.resource.resource = "router" then
      RouterAttempt openstackBin op.resource.identifier calls
    else CommandAttempt openstackBin op calls

/-- One attempt for each operation, in order. -/
inductive Attempts (openstackBin : String) : Bool → List Operation → List (List Event) → Prop
  | nil (connected : Bool) : Attempts openstackBin connected [] []
  | cons {connected : Bool} {op : Operation} {ops : List Operation} {s : List Event}
    {segments : List (List Event)} : Attempt openstackBin connected op s →
    Attempts openstackBin (connected || s.any Event.connects) ops segments →
    Attempts openstackBin connected (op :: ops) (s :: segments)

/-! ### Success -/

/-- A look that was begun before the deadline found the stack gone. -/
def SeenGone (timeout : Seconds) (start : ℚ) (polls : List Event) : Prop :=
  ∃ before now argv c after, polls = before ++ .monotonic now :: .query argv (.completed c) :: after ∧
    timeout.before start now = true ∧ c.showsGone = true

/-- The wait for a stack, after the announcement and the command, saw it gone. -/
def StackGone (timeout : Seconds) (s : List Event) : Prop :=
  ∃ announcement command start polls, s = announcement :: command :: .monotonic start :: polls ∧
    SeenGone timeout start polls

/-- Every command of the attempt succeeded or reported a missing object, a stack was seen
gone before the deadline, and a Senlin resource was reported missing. -/
structure Succeeded (timeout : Seconds) (op : Operation) (s : List Event) : Prop where
  settled : ∀ e ∈ s, e.settled = true
  stack : isStack op.resource = true → StackGone timeout s
  senlin : op.resource.service = "clustering" → ∃ e ∈ s, e.reportsMissing = true

/-! ### Runs that return -/

section Values

variable {w : World} {t s : List Event}

theorem ask_value {α : Type} {answer : List Event → α} {event : α → Event} {a : α}
    (h : (ask answer event).run t = (.value a, s)) : s = [event a] := by
  rw [run_ask, Prod.mk.injEq, Outcome.value.injEq] at h
  rw [← h.2, h.1]

theorem subprocess_value {event : List String → Started → Event} {argv : List String}
    {c : Completed} (h : (subprocess w event argv).run t = (.value c, s)) :
    s = [event argv (.completed c)] := by
  unfold subprocess at h
  obtain ⟨started, s₁, s₂, h₁, h₂, rfl⟩ := run_bind_eq_value.1 h
  cases ask_value h₁
  cases started with
  | completed c' =>
    cases h₂
    rfl
  | osError message => cases h₂
  | failed name => cases h₂

theorem runOpenstack_value {openstackBin : String} {argv : List String} {r : Bool × String}
    (h : (runOpenstack w openstackBin argv).run t = (.value r, s)) :
    ∃ c, s = [.command (openstackBin :: argv) (.completed c)] ∧ r.1 = c.settled := by
  unfold runOpenstack at h
  obtain ⟨c, s₁, s₂, h₁, h₂, rfl⟩ := run_bind_eq_value.1 h
  refine ⟨c, ?_, ?_⟩
  · rw [subprocess_value h₁]
    split_ifs at h₂ <;> cases h₂ <;> rfl
  · unfold Completed.settled
    split_ifs at h₂ with hcode hmissing
    · cases h₂
      simp [hcode]
    · cases h₂
      simp [hmissing]
    · cases h₂
      simp [hcode, hmissing]

theorem routerPorts_value {openstackBin router : String} {r : List String × Option String}
    (h : (routerPorts w openstackBin router).run t = (.value r, s)) :
    ∃ c, s = [.query (portList openstackBin router) (.completed c)] ∧
      if c.settled = true then r = (textLines c.stdout, none) else r.2.isSome = true := by
  unfold routerPorts at h
  obtain ⟨c, s₁, s₂, h₁, h₂, rfl⟩ := run_bind_eq_value.1 h
  refine ⟨c, ?_, ?_⟩
  · rw [subprocess_value h₁]
    split_ifs at h₂ <;> cases h₂ <;> rfl
  · have hsettled : c.settled = true ↔ ¬(c.returncode ≠ 0 ∧ missingOutput c.output = false) := by
      simp only [Completed.settled, Bool.or_eq_true, beq_iff_eq]
      cases missingOutput c.output <;> simp
    split_ifs at h₂ with hfailed
    · cases h₂
      rw [if_neg (mt hsettled.1 (not_not_intro hfailed))]
      rfl
    · cases h₂
      rw [if_pos (hsettled.2 hfailed)]

/-! ### Routers -/

/-- A pass that runs one command and notes an error unless it is settled. -/
def NotesCommand {α : Type} (openstackBin : String) (argv : α → List String)
    (f : List String → α → Prog (List String)) : Prop :=
  ∀ t errors a errors₁ s, (f errors a).run t = (.value errors₁, s) →
    (∃ e, s = [e] ∧ Ran openstackBin (argv a) e) ∧
      (errors₁ = [] ↔ errors = [] ∧ ∀ e ∈ s, e.settled = true)

theorem notesCommand_of_runOpenstack {α : Type} {openstackBin : String} {argv : α → List String}
    (text : α → String → String) :
    NotesCommand openstackBin argv fun errors a => do
      let (ok, detail) ← runOpenstack w openstackBin (argv a)
      if ok then return errors
      else return errors ++ [text a detail] := by
  intro t errors a errors₁ s h
  obtain ⟨⟨ok, detail⟩, s₁, s₂, h₁, h₂, rfl⟩ := run_bind_eq_value.1 h
  obtain ⟨c, rfl, rfl⟩ := runOpenstack_value h₁
  have hevent : ∀ s₂ : List Event, s₂ = [] → (∃ e,
      [Event.command (openstackBin :: argv a) (.completed c)] ++ s₂ = [e] ∧
        Ran openstackBin (argv a) e) := by
    rintro _ rfl
    exact ⟨_, rfl, c, rfl⟩
  cases hc : c.settled with
  | true =>
    rw [hc] at h₂
    cases h₂
    exact ⟨hevent [] rfl, by simp [Event.settled, hc]⟩
  | false =>
    rw [hc] at h₂
    cases h₂
    exact ⟨hevent [] rfl, by simp [Event.settled, hc]⟩

/-- A loop of such passes runs the commands in order. -/
theorem NotesCommand.foldlM {α : Type} {openstackBin : String} {argv : α → List String}
    {f : List String → α → Prog (List String)} (hf : NotesCommand openstackBin argv f) {l : List α}
    {errors errors₁ : List String} (h : (l.foldlM f errors).run t = (.value errors₁, s)) :
    List.Forall₂ (Ran openstackBin) (l.map argv) s ∧
      (errors₁ = [] ↔ errors = [] ∧ ∀ e ∈ s, e.settled = true) := by
  obtain ⟨segments, hsegments, rfl⟩ := run_foldlM_eq_value.1 h
  clear h
  induction hsegments with
  | nil t errors => exact ⟨.nil, by simp⟩
  | cons h₁ _ ih =>
    obtain ⟨⟨e, rfl, hran⟩, herrors⟩ := hf _ _ _ _ _ h₁
    refine ⟨.cons hran ih.1, ?_⟩
    rw [ih.2, herrors, List.flatten_cons, List.forall_mem_append, and_assoc]

theorem deleteRouter_value {openstackBin : String} {resource : Resource} {errors : List String}
    (h : (deleteRouter w openstackBin resource).run t = (.value errors, s)) :
    RouterAttempt openstackBin resource.identifier s ∧
      (errors = [] ↔ ∀ e ∈ s, e.settled = true) := by
  unfold deleteRouter at h
  obtain ⟨⟨ports, error⟩, s₁, s₂, h₁, h₂, rfl⟩ := run_bind_eq_value.1 h
  obtain ⟨c, rfl, hlist⟩ := routerPorts_value h₁
  cases hc : c.settled with
  | false =>
    rw [hc, if_neg Bool.false_ne_true] at hlist
    obtain ⟨error, rfl⟩ := Option.isSome_iff_exists.1 hlist
    cases h₂
    exact ⟨.unlisted c hc, by simp [Event.settled, hc]⟩
  | true =>
    rw [hc, if_pos rfl] at hlist
    cases hlist
    obtain ⟨errors₁, s₃, s₄, h₃, h₄, rfl⟩ := run_bind_eq_value.1 h₂
    obtain ⟨hremoved, herrors₁⟩ := (notesCommand_of_runOpenstack _).foldlM h₃
    obtain ⟨hdeleted, herrors⟩ := (notesCommand_of_runOpenstack _).foldlM h₄
    refine ⟨.listed c _ hc ?_, ?_⟩
    · rw [routerCommands]
      exact List.rel_append hremoved (by simpa using hdeleted)
    · rw [herrors, herrors₁]
      simp [Event.settled, hc, or_imp, forall_and]

/-! ### Stacks -/

theorem sleep_value {seconds : Seconds} {a : Unit} (h : (sleep seconds).run t = (.value a, s)) :
    s = [.sleep seconds] := by
  unfold sleep at h
  split at h
  · cases h
  · cases h
    rfl

/-- A look in the history of a wait is the first one or belongs to the rest of the loop. -/
theorem seenGone_cons {timeout poll : Seconds} {start now : ℚ} {argv : List String} {c : Completed}
    {polls : List Event} :
    SeenGone timeout start (.monotonic now :: .query argv (.completed c) :: .sleep poll :: polls) ↔
      (timeout.before start now = true ∧ c.showsGone = true) ∨ SeenGone timeout start polls := by
  constructor
  · rintro ⟨pre, now', argv', c', post, heq, hgone⟩
    rcases pre with _ | ⟨e₁, _ | ⟨e₂, _ | ⟨e₃, pre⟩⟩⟩
    · cases heq
      exact .inl hgone
    · cases heq
    · cases heq
    · simp only [List.cons_append, List.cons.injEq] at heq
      exact .inr ⟨pre, now', argv', c', post, heq.2.2.2, hgone⟩
  · rintro (hgone | ⟨pre, now', argv', c', post, rfl, hgone⟩)
    · exact ⟨[], now, argv, c, _, rfl, hgone⟩
    · exact ⟨.monotonic now :: .query argv (.completed c) :: .sleep poll :: pre, now', argv', c', post,
        rfl, hgone⟩

/-- A wait that ends with a look saw the stack gone exactly in that look. -/
theorem seenGone_last {timeout : Seconds} {start now : ℚ} {argv : List String} {c : Completed} :
    SeenGone timeout start [.monotonic now, .query argv (.completed c)] ↔
      timeout.before start now = true ∧ c.showsGone = true := by
  constructor
  · rintro ⟨pre, now', argv', c', post, heq, hgone⟩
    rcases pre with _ | ⟨e₁, _ | ⟨e₂, pre⟩⟩
    · cases heq
      exact hgone
    · cases heq
    · simp at heq
  · exact fun hgone => ⟨[], now, argv, c, [], rfl, hgone⟩

theorem not_seenGone_singleton {timeout : Seconds} {start : ℚ} {e : Event} :
    ¬SeenGone timeout start [e] := by
  rintro ⟨pre, now, argv, c, post, heq, -⟩
  have hlength := congrArg List.length heq
  simp only [List.length_append, List.length_cons, List.length_nil] at hlength
  omega

/-- The wait reports no error exactly when a look before the deadline saw the stack gone, and
then none of its looks failed. -/
theorem stackLoop_value {openstackBin stack : String} {timeout poll : Seconds} {start : ℚ}
    {fuel : ℕ} {error : Option String}
    (h : (stackLoop w openstackBin stack timeout poll start fuel).run t = (.value error, s)) :
    (∀ e ∈ s, e.isStackPoll openstackBin stack = true) ∧
      (error = none ↔ SeenGone timeout start s) ∧ (error = none → ∀ e ∈ s, e.settled = true) := by
  induction fuel generalizing t s with
  | zero => cases h
  | succ fuel ih =>
    unfold stackLoop at h
    obtain ⟨current, s₁, s₂, h₁, h₂, rfl⟩ := run_bind_eq_value.1 h
    obtain rfl := ask_value h₁
    split_ifs at h₂ with hbefore
    · obtain ⟨c, s₃, s₄, h₃, h₄, rfl⟩ := run_bind_eq_value.1 h₂
      obtain rfl := subprocess_value h₃
      split_ifs at h₄ with hmissing hfailed hcomplete hstopped
      · cases h₄
        obtain ⟨hcode, hout⟩ := hmissing
        refine ⟨?_, ?_, ?_⟩
        · simp [Event.isStackPoll, stackShow]
        · exact iff_of_true rfl (seenGone_last.2 ⟨hbefore, by simp [Completed.showsGone, hcode, hout]⟩)
        · simp [Event.settled, Completed.settled, hout]
      · cases h₄
        refine ⟨by simp [Event.isStackPoll, stackShow], iff_of_false (by simp) ?_, by simp⟩
        intro hseen
        have hgone := (seenGone_last.1 hseen).2
        rw [Completed.showsGone, if_neg hfailed] at hgone
        exact hmissing ⟨hfailed, hgone⟩
      · cases h₄
        rw [not_not] at hfailed
        refine ⟨by simp [Event.isStackPoll, stackShow], ?_, ?_⟩
        · exact iff_of_true rfl (seenGone_last.2
            ⟨hbefore, by simp [Completed.showsGone, hfailed, hcomplete]⟩)
        · simp [Event.settled, Completed.settled, hfailed]
      · cases h₄
        rw [not_not] at hfailed
        refine ⟨by simp [Event.isStackPoll, stackShow], iff_of_false (by simp) ?_, by simp⟩
        intro hseen
        have hgone := (seenGone_last.1 hseen).2
        rw [Completed.showsGone, if_pos hfailed] at hgone
        exact hcomplete (beq_iff_eq.1 hgone)
      · rw [not_not] at hfailed
        obtain ⟨_, s₅, s₆, h₅, h₆, rfl⟩ := run_bind_eq_value.1 h₄
        obtain rfl := sleep_value h₅
        obtain ⟨hall, hseen, hsettled⟩ := ih h₆
        refine ⟨?_, ?_, fun herror => ?_⟩
        · simpa [Event.isStackPoll, stackShow] using hall
        · refine hseen.trans ((seenGone_cons.trans (or_iff_right ?_)).symm)
          rintro ⟨-, hgone⟩
          rw [Completed.showsGone, if_pos hfailed] at hgone
          exact hcomplete (beq_iff_eq.1 hgone)
        · simpa [Event.settled, Completed.settled, hfailed] using hsettled herror
    · cases h₂
      exact ⟨by simp [Event.isStackPoll], iff_of_false (by simp) not_seenGone_singleton, by simp⟩

theorem executeCommand_value {fuel : ℕ} {settings : Settings} {op : Operation}
    {errors : List String}
    (h : (executeCommand w fuel settings op).run t = (.value errors, s)) :
    CommandAttempt settings.openstackBin op s ∧
      (errors = [] ↔ (∀ e ∈ s, e.settled = true) ∧ (isStack op.resource = true →
        ∃ command start polls, s = command :: .monotonic start :: polls ∧
          SeenGone settings.waitSeconds start polls)) := by
  unfold executeCommand at h
  obtain ⟨⟨ok, detail⟩, s₁, s₂, h₁, h₂, rfl⟩ := run_bind_eq_value.1 h
  obtain ⟨c, rfl, rfl⟩ := runOpenstack_value h₁
  cases hc : c.settled with
  | false =>
    rw [hc] at h₂
    cases h₂
    exact ⟨.single c (by simp [hc]), by simp [Event.settled, hc]⟩
  | true =>
    simp only [hc, Bool.not_true, Bool.false_eq_true, if_false] at h₂
    split_ifs at h₂ with hstack
    · obtain ⟨error, s₃, s₄, h₃, h₄, rfl⟩ := run_bind_eq_value.1 h₂
      unfold waitForStackDelete at h₃
      obtain ⟨start, s₅, polls, h₅, h₆, rfl⟩ := run_bind_eq_value.1 h₃
      obtain rfl := ask_value h₅
      obtain ⟨hpolls, hseen, hsettled⟩ := stackLoop_value h₆
      have hs₄ : s₄ = [] ∧ (errors = [] ↔ error = none) := by
        cases error <;> cases h₄ <;> exact ⟨rfl, by simp⟩
      obtain ⟨rfl, herrors⟩ := hs₄
      simp only [List.append_nil, List.singleton_append]
      refine ⟨.wait c start polls (by simp [hc, hstack]) hpolls, herrors.trans ?_⟩
      constructor
      · intro hnone
        refine ⟨?_, fun _ => ⟨_, start, polls, rfl, hseen.1 hnone⟩⟩
        simpa [Event.settled, hc] using hsettled hnone
      · rintro ⟨-, hgone⟩
        obtain ⟨command, start', polls', heq, hgone⟩ := hgone hstack
        cases heq
        exact hseen.2 hgone
    · cases h₂
      exact ⟨.single c (by simp [hstack]), by simp [Event.settled, hc, hstack]⟩

/-! ### Senlin resources -/

theorem deleteSenlinResource_value {fuel : ℕ} {resource : Resource} {timeout poll : Seconds}
    {errors : List String}
    (h : (deleteSenlinResource w fuel resource timeout poll).run t = (.value errors, s)) :
    SenlinAttempt resource.resource resource.identifier s ∧
      (errors = [] ↔ ∃ e ∈ s, e.reportsMissing = true) := by
  cases hkind : Dict.get? senlinKinds resource.resource with
  | none =>
    unfold deleteSenlinResource at h
    simp only [hkind] at h
    cases h
    exact ⟨.unsupported hkind, by simp⟩
  | some force =>
    constructor
    · unfold deleteSenlinResource at h
      simp only [hkind] at h
      obtain ⟨got, s₁, s₂, h₁, h₂, rfl⟩ := run_bind_eq_value.1 h
      obtain rfl := ask_value h₁
      cases got with
      | error name =>
        cases h₂
        exact .lookup name force hkind
      | ok _ =>
        obtain ⟨deleted, s₃, s₄, h₃, h₄, rfl⟩ := run_bind_eq_value.1 h₂
        obtain rfl := ask_value h₃
        refine .request force deleted s₄ hkind ?_
        cases deleted with
        | error name =>
          cases h₄
          simp
        | ok action =>
          obtain ⟨start, s₅, s₆, h₅, h₆, rfl⟩ := run_bind_eq_value.1 h₄
          obtain rfl := ask_value h₅
          refine List.forall_mem_append.2 ⟨by simp [Event.isSenlinPoll], fun e he => ?_⟩
          exact emits_senlinLoop _ _ _ _ _ _ _ _ e (by rw [h₆]; exact he)
    · have hsome : (Dict.get? senlinKinds resource.resource).isSome = true := by rw [hkind]; rfl
      have hspec := (triple_deleteSenlinResource_answers w resource fuel timeout poll hsome t).value
        ⟨[], (List.append_nil t).symm, fun e he => by cases he⟩ h
      obtain ⟨s', hs, hanswers⟩ := hspec
      rw [List.append_cancel_left hs]
      rcases hanswers with ⟨rfl, hmissing⟩ | ⟨⟨error, rfl, -⟩, hnone⟩
      · exact iff_of_true rfl hmissing
      · refine iff_of_false (by simp) ?_
        rintro ⟨e, he, hmissing⟩
        rw [hnone e he] at hmissing
        cases hmissing

/-! ### The plan -/

theorem SenlinAttempt.settled {kind identifier : String} (h : SenlinAttempt kind identifier s) :
    ∀ e ∈ s, e.settled = true ∧ e.connects = false := by
  have hpoll : ∀ e : Event, e.isSenlinPoll kind identifier = true →
      e.settled = true ∧ e.connects = false := by
    intro e he
    cases e <;> simp_all [Event.isSenlinPoll, Event.settled, Event.connects]
  cases h with
  | unsupported _ => simp
  | lookup name force _ => simp [Event.settled, Event.connects]
  | request force answer polls _ hpolls =>
    intro e he
    simp only [List.mem_cons] at he
    rcases he with rfl | rfl | he
    · exact ⟨rfl, rfl⟩
    · exact ⟨rfl, rfl⟩
    · exact hpoll e (hpolls e he)

theorem executeClustering_value {fuel : ℕ} {settings : Settings} {p p' : Progress}
    {resource : Resource}
    (h : (executeClustering w fuel settings p resource).run t = (.value p', s)) :
    ClusteringAttempt resource p.connected s ∧ p'.connected = (p.connected || s.any Event.connects) ∧
      (∀ e ∈ s, e.settled = true) ∧
      (p'.errors = [] ↔ p.errors = [] ∧ ∃ e ∈ s, e.reportsMissing = true) := by
  unfold executeClustering at h
  obtain ⟨connected, s₁, s₂, h₁, h₂, rfl⟩ := run_bind_eq_value.1 h
  cases hc : p.connected with
  | true =>
    rw [hc, if_pos rfl, run_pure] at h₁
    cases h₁
    obtain ⟨errors, s₃, s₄, h₃, h₄, rfl⟩ := run_bind_eq_value.1 h₂
    obtain ⟨hattempt, herrors⟩ := deleteSenlinResource_value h₃
    cases h₄
    refine ⟨.again _ (by simpa using hattempt), by simp, ?_, ?_⟩
    · simpa using fun e he => (hattempt.settled e he).1
    · simpa [List.append_eq_nil_iff] using fun _ => herrors
  | false =>
    rw [hc, if_neg Bool.false_ne_true] at h₁
    obtain rfl := ask_value h₁
    cases connected with
    | error name =>
      cases h₂
      exact ⟨.refused name, by simp [hc, Event.connects], by simp [Event.settled],
        by simp [Event.reportsMissing]⟩
    | ok _ =>
      obtain ⟨errors, s₃, s₄, h₃, h₄, rfl⟩ := run_bind_eq_value.1 h₂
      obtain ⟨hattempt, herrors⟩ := deleteSenlinResource_value h₃
      cases h₄
      refine ⟨.connected _ (by simpa using hattempt), by simp [Event.connects], ?_, ?_⟩
      · simpa [Event.settled] using fun e he => (hattempt.settled e he).1
      · simpa [List.append_eq_nil_iff, Event.reportsMissing] using fun _ => herrors

theorem RouterAttempt.not_connects {openstackBin router : String}
    (h : RouterAttempt openstackBin router s) : s.any Event.connects = false := by
  cases h with
  | unlisted c _ => rfl
  | listed c commands _ hcommands =>
    simp only [List.any_cons, Event.connects, Bool.false_or, List.any_eq_false]
    intro e he
    obtain ⟨i, hi, rfl⟩ := List.getElem_of_mem he
    obtain ⟨c, hran⟩ := hcommands.get (by rw [hcommands.length_eq]; exact hi) hi
    rw [List.get_eq_getElem] at hran
    rw [hran]
    exact Bool.false_ne_true

theorem CommandAttempt.not_connects {openstackBin : String} {op : Operation}
    (h : CommandAttempt openstackBin op s) : s.any Event.connects = false := by
  cases h with
  | single c _ => rfl
  | wait c start polls _ hpolls =>
    simp only [List.any_cons, Event.connects, Bool.false_or, List.any_eq_false]
    intro e he hconnects
    have hpoll := hpolls e he
    cases e <;> simp_all [Event.isStackPoll]

/-- One operation of the plan: its attempt, and no error is added exactly if it succeeded. -/
theorem executeOperation_value {fuel : ℕ} {settings : Settings} {p p' : Progress} {op : Operation}
    (h : (executeOperation w fuel settings p op).run t = (.value p', s)) :
    Attempt settings.openstackBin p.connected op s ∧
      p'.connected = (p.connected || s.any Event.connects) ∧
      (p'.errors = [] ↔ p.errors = [] ∧ Succeeded settings.waitSeconds op s) := by
  unfold executeOperation at h
  obtain ⟨_, s₁, s₂, h₁, h₂, rfl⟩ := run_bind_eq_value.1 h
  cases h₁
  have hannounced : ∀ e ∈ [Event.print op.announcement], e.settled = true := by simp [Event.settled]
  split_ifs at h₂ with hservice hrouter
  · obtain ⟨hattempt, hconnected, hsettled, herrors⟩ := executeClustering_value h₂
    have hstack : isStack op.resource = false :=
      op.not_isStack (by simp [Operation.isClustering, hservice])
    refine ⟨⟨s₂, rfl, by rwa [if_pos hservice]⟩, hconnected, herrors.trans (and_congr_right' ?_)⟩
    constructor
    · rintro ⟨e, he, hmissing⟩
      exact ⟨List.forall_mem_append.2 ⟨hannounced, hsettled⟩, by simp [hstack],
        fun _ => ⟨e, List.mem_append_right _ he, hmissing⟩⟩
    · intro hs
      obtain ⟨e, he, hmissing⟩ := hs.senlin hservice
      rcases List.mem_append.1 he with he | he
      · rw [List.mem_singleton.1 he] at hmissing
        cases hmissing
      · exact ⟨e, he, hmissing⟩
  · obtain ⟨errors, s₃, s₄, h₃, h₄, rfl⟩ := run_bind_eq_value.1 h₂
    obtain ⟨hattempt, herrors⟩ := deleteRouter_value h₃
    cases h₄
    have hstack : isStack op.resource = false := by simp [isStack, hrouter]
    rw [List.append_nil]
    refine ⟨⟨s₃, rfl, by rwa [if_neg hservice, if_pos hrouter]⟩, ?_, ?_⟩
    · simp [hattempt.not_connects, Event.connects]
    · rw [List.append_eq_nil_iff, herrors]
      refine and_congr_right' ⟨fun hs => ?_, fun hs => (List.forall_mem_append.1 hs.settled).2⟩
      exact ⟨List.forall_mem_append.2 ⟨hannounced, hs⟩, by simp [hstack], fun hc => absurd hc hservice⟩
  · obtain ⟨errors, s₃, s₄, h₃, h₄, rfl⟩ := run_bind_eq_value.1 h₂
    obtain ⟨hattempt, herrors⟩ := executeCommand_value h₃
    cases h₄
    rw [List.append_nil]
    refine ⟨⟨s₃, rfl, by rwa [if_neg hservice, if_neg hrouter]⟩, ?_, ?_⟩
    · simp [hattempt.not_connects, Event.connects]
    · rw [List.append_eq_nil_iff, herrors]
      refine and_congr_right' ⟨?_, fun hs => ⟨(List.forall_mem_append.1 hs.settled).2, ?_⟩⟩
      · rintro ⟨hsettled, hgone⟩
        refine ⟨List.forall_mem_append.2 ⟨hannounced, hsettled⟩, fun hstack => ?_,
          fun hc => absurd hc hservice⟩
        obtain ⟨command, start, polls, rfl, hseen⟩ := hgone hstack
        exact ⟨_, command, start, polls, rfl, hseen⟩
      · intro hstack
        obtain ⟨announcement, command, start, polls, heq, hseen⟩ := hs.stack hstack
        cases heq
        exact ⟨command, start, polls, rfl, hseen⟩

/-- The passes of the plan are its attempts. -/
theorem attempts_of_segmented {fuel : ℕ} {settings : Settings} {p p' : Progress}
    {operations : List Operation} {segments : List (List Event)}
    (h : Segmented (executeOperation w fuel settings) t p operations segments p') :
    Attempts settings.openstackBin p.connected operations segments ∧
      (p'.errors = [] ↔ p.errors = [] ∧
        List.Forall₂ (Succeeded settings.waitSeconds) operations segments) := by
  induction h with
  | nil t p => exact ⟨.nil _, by simp⟩
  | cons h₁ _ ih =>
    obtain ⟨hattempt, hconnected, herrors⟩ := executeOperation_value h₁
    rw [hconnected] at ih
    refine ⟨.cons hattempt ih.1, ?_⟩
    rw [ih.2, herrors, List.forall₂_cons, and_assoc]

end Values

/-! ### Runs that do not return -/

section Stops

variable {w : World}

/-- What can end a run early: a pause that cannot be made, or a process without an end. -/
def Broken (poll : Seconds) (s : List Event) : Prop :=
  poll.sleepError.isSome = true ∨ ∃ e ∈ s, e.unfinished = true

/-- Since the history `t` only that can have ended the program early, and it is left running
only if `Run`. -/
abbrev BreaksOnly {α : Type} (Run : Prop) (poll : Seconds) (t : List Event) (m : Prog α) : Prop :=
  Triple Run (Since t fun _ => True) m (fun _ => Since t fun _ => True) fun _ => Since t (Broken poll)

variable {Run : Prop} {poll : Seconds} {t : List Event}

theorem breaksOnly_pure {α : Type} (a : α) : BreaksOnly Run poll t (pure a : Prog α) :=
  triple_pure fun _ hu => hu

theorem breaksOnly_ask {α : Type} (answer : List Event → α) (event : α → Event) :
    BreaksOnly Run poll t (ask answer event) := triple_ask fun _ hu => hu.snoc fun _ => id

/-- A program that ends unless `Run`. -/
theorem breaksOnly_of_ends {α : Type} {m : Prog α} (h : BreaksOnly True poll t m)
    (hends : ¬Run → Triple False (fun _ => True) m (fun _ _ => True) fun _ _ => True) :
    BreaksOnly Run poll t m := by
  refine ⟨fun u hu => ?_⟩
  have hspec := h.spec u hu
  rcases hr : m.run u with ⟨a | x | _, s⟩ <;> rw [hr] at hspec
  · exact hspec
  · exact hspec
  · by_contra hrun
    have hend := (hends hrun).spec u trivial
    rwa [hr] at hend

theorem breaksOnly_subprocess {event : List String → Started → Event} (argv : List String)
    (hevent : ∀ answer : Started, answer.unfinished = true → (event argv answer).unfinished = true) :
    BreaksOnly Run poll t (subprocess w event argv) := by
  have hbroken : ∀ answer : Started, answer.unfinished = true → ∀ u, Since t (fun _ => True) u →
      Since t (Broken poll) (u ++ [event argv answer]) := by
    intro answer hanswer u hu
    exact hu.snoc fun s _ => .inr ⟨_, by simp, hevent answer hanswer⟩
  refine triple_subprocess fun u hu => ?_
  cases w.start u argv with
  | completed c => exact hu.snoc fun _ => id
  | osError message => exact hbroken (.osError message) rfl u hu
  | failed name => exact hbroken (.failed name) rfl u hu

theorem breaksOnly_runOpenstack (openstackBin : String) (argv : List String) :
    BreaksOnly Run poll t (runOpenstack w openstackBin argv) := by
  unfold runOpenstack
  refine triple_bind (breaksOnly_subprocess _ fun _ => id) fun c => ?_
  refine triple_ite (fun _ => breaksOnly_pure _) fun _ => ?_
  exact triple_ite (fun _ => breaksOnly_pure _) fun _ => breaksOnly_pure _

theorem breaksOnly_deleteRouter (openstackBin : String) (resource : Resource) :
    BreaksOnly Run poll t (deleteRouter w openstackBin resource) := by
  unfold deleteRouter
  refine triple_bind (M := fun _ => Since t fun _ => True) ?_ fun listed => ?_
  · unfold routerPorts
    refine triple_bind (breaksOnly_subprocess _ fun _ => id) fun c => ?_
    exact triple_ite (fun _ => breaksOnly_pure _) fun _ => breaksOnly_pure _
  · obtain ⟨ports, _ | error⟩ := listed
    · refine triple_bind (M := fun _ => Since t fun _ => True)
        (triple_foldlM (I := fun _ => Since t fun _ => True) (fun errors port _ => ?_) [])
        fun errors => triple_foldlM (I := fun _ => Since t fun _ => True)
          (fun errors argv _ => ?_) errors
      · unfold removePort
        exact triple_bind (breaksOnly_runOpenstack _ _) fun r =>
          triple_ite (fun _ => breaksOnly_pure _) fun _ => breaksOnly_pure _
      · unfold routerCommand
        exact triple_bind (breaksOnly_runOpenstack _ _) fun r =>
          triple_ite (fun _ => breaksOnly_pure _) fun _ => breaksOnly_pure _
    · exact breaksOnly_pure _

theorem breaksOnly_stackLoop (openstackBin stack : String) (timeout : Seconds) (start : ℚ)
    (fuel : ℕ) :
    BreaksOnly True poll t (stackLoop w openstackBin stack timeout poll start fuel) := by
  induction fuel with
  | zero => exact triple_diverge trivial
  | succ fuel ih =>
    unfold stackLoop
    refine triple_bind (breaksOnly_ask _ _) fun current => ?_
    refine triple_ite (fun _ => ?_) fun _ => breaksOnly_pure _
    refine triple_bind (breaksOnly_subprocess _ fun _ => id) fun c => ?_
    refine triple_ite (fun _ => breaksOnly_pure _) fun _ => ?_
    refine triple_ite (fun _ => breaksOnly_pure _) fun _ => ?_
    refine triple_ite (fun _ => breaksOnly_pure _) fun _ => ?_
    refine triple_ite (fun _ => breaksOnly_pure _) fun _ => ?_
    refine triple_bind (triple_sleep (fun u hu => hu.snoc fun _ => id) fun name u hname hu => ?_)
      fun _ => ih
    obtain ⟨s, rfl, -⟩ := hu
    exact ⟨s, rfl, .inl (by rw [hname]; rfl)⟩

/-- The loop ends before its fuel does if the timeout passes before. -/
theorem triple_stackLoop_ends {openstackBin stack : String} {timeout : Seconds} {n : ℕ}
    (hn : Expires w timeout poll n) (t : List Event) (fuel : ℕ) :
    Triple False (Since t fun s => n ≤ fuel + s.countP (Event.isPause poll))
      (stackLoop w openstackBin stack timeout poll (w.monotonic t) (fuel + 1))
      (fun _ _ => True) (fun _ _ => True) := by
  induction fuel with
  | zero =>
    unfold stackLoop
    refine triple_bind (M := fun current _ => timeout.before (w.monotonic t) current = false)
      (triple_now fun u hu => ?_) fun current => triple_intro fun _ hc => ?_
    · obtain ⟨s, rfl, hs⟩ := hu
      exact hn t s (by omega)
    · rw [if_neg (by rw [hc]; exact Bool.false_ne_true)]
      exact triple_pure fun _ _ => trivial
  | succ fuel ih =>
    unfold stackLoop
    refine triple_bind (M := fun _ => Since t fun s => n ≤ fuel + 1 + s.countP (Event.isPause poll))
      (triple_now fun u hu => hu.noPause rfl) fun current => ?_
    refine triple_ite (fun _ => ?_) fun _ => triple_pure fun _ _ => trivial
    refine triple_bind (M := fun _ => Since t fun s => n ≤ fuel + 1 + s.countP (Event.isPause poll))
      (triple_subprocess fun u hu => ?_) fun c => ?_
    · cases w.start u _ with
      | completed c => exact hu.noPause rfl
      | osError message => trivial
      | failed name => trivial
    · refine triple_ite (fun _ => triple_pure fun _ _ => trivial) fun _ => ?_
      refine triple_ite (fun _ => triple_pure fun _ _ => trivial) fun _ => ?_
      refine triple_ite (fun _ => triple_pure fun _ _ => trivial) fun _ => ?_
      refine triple_ite (fun _ => triple_pure fun _ _ => trivial) fun _ => ?_
      exact triple_bind (triple_sleep (fun u hu => hu.pause) fun _ _ _ _ => trivial) fun _ => ih

theorem breaksOnly_waitForStackDelete {fuel : ℕ} {timeout : Seconds}
    (hrun : ¬Run → ∃ n, Expires w timeout poll n ∧ n < fuel) (openstackBin stack : String) :
    BreaksOnly Run poll t (waitForStackDelete w fuel openstackBin stack timeout poll) := by
  unfold waitForStackDelete
  refine breaksOnly_of_ends (triple_bind (breaksOnly_ask _ _)
    fun start => breaksOnly_stackLoop _ _ _ _ _) fun hnot => ?_
  obtain ⟨n, hn, hfuel⟩ := hrun hnot
  obtain ⟨fuel, rfl⟩ := Nat.exists_eq_succ_of_ne_zero (Nat.ne_of_gt (Nat.zero_lt_of_lt hfuel))
  refine triple_bind (M := fun start u => ∃ t, start = w.monotonic t ∧
      Since t (fun s => n ≤ fuel + s.countP (Event.isPause poll)) u)
    (triple_now fun u _ => ⟨u, rfl, _, rfl, ?_⟩) fun start => triple_intro fun u hu => ?_
  · exact (Nat.lt_succ_iff.1 hfuel).trans (Nat.le_add_right _ _)
  · obtain ⟨t, rfl, hs⟩ := hu
    exact (triple_stackLoop_ends hn t fuel).consequence (fun v hv => hv ▸ hs) (fun _ _ => id)
      fun _ _ => id

theorem breaksOnly_deleteSenlinResource {fuel : ℕ} {timeout : Seconds}
    (hrun : ¬Run → ∃ n, Expires w timeout poll n ∧ n < fuel) (resource : Resource) :
    BreaksOnly Run poll t (deleteSenlinResource w fuel resource timeout poll) := by
  refine breaksOnly_of_ends ?_ fun hnot => ?_
  · cases hkind : Dict.get? senlinKinds resource.resource with
    | none =>
      unfold deleteSenlinResource
      simp only [hkind]
      exact breaksOnly_pure _
    | some force =>
      have hsome : (Dict.get? senlinKinds resource.resource).isSome = true := by rw [hkind]; rfl
      refine ⟨fun u hu => ?_⟩
      obtain ⟨s₀, rfl, -⟩ := hu
      have hspec := (triple_deleteSenlinResource_answers w resource fuel timeout poll hsome
        (t ++ s₀)).spec (t ++ s₀) ⟨[], (List.append_nil _).symm, fun e he => by cases he⟩
      rcases hr : (deleteSenlinResource w fuel resource timeout poll).run (t ++ s₀) with
        ⟨errors | x | _, s⟩ <;> rw [hr] at hspec
      · exact ⟨s₀ ++ s, List.append_assoc _ _ _, trivial⟩
      · exact ⟨s₀ ++ s, List.append_assoc _ _ _, .inl hspec⟩
      · trivial
  · obtain ⟨n, hn, hfuel⟩ := hrun hnot
    exact triple_deleteSenlinResource_ends w resource fuel timeout poll hn hfuel

variable {fuel : ℕ} {settings : Settings}
  (hrun : ¬Run → ∃ n, Expires w settings.waitSeconds settings.pollSeconds n ∧ n < fuel)

include hrun

theorem breaksOnly_executeOperation (p : Progress) (op : Operation) :
    BreaksOnly Run settings.pollSeconds t (executeOperation w fuel settings p op) := by
  unfold executeOperation
  refine triple_bind (M := fun _ => Since t fun _ => True)
    (triple_print fun _ hu => hu.snoc fun _ => id) fun _ => ?_
  refine triple_ite (fun _ => ?_) fun _ => triple_ite (fun _ => ?_) fun _ => ?_
  · unfold executeClustering
    refine triple_bind (M := fun _ => Since t fun _ => True)
      (triple_ite (fun _ => breaksOnly_pure _) fun _ => breaksOnly_ask _ _) fun connected => ?_
    cases connected with
    | error name => exact breaksOnly_pure _
    | ok _ => exact triple_bind (breaksOnly_deleteSenlinResource hrun _) fun _ => breaksOnly_pure _
  · exact triple_bind (breaksOnly_deleteRouter _ _) fun _ => breaksOnly_pure _
  · refine triple_bind (M := fun _ => Since t fun _ => True) ?_ fun _ => breaksOnly_pure _
    unfold executeCommand
    refine triple_bind (breaksOnly_runOpenstack _ _) fun r => ?_
    refine triple_ite (fun _ => breaksOnly_pure _) fun _ => triple_ite (fun _ => ?_)
      fun _ => breaksOnly_pure _
    refine triple_bind (breaksOnly_waitForStackDelete hrun _ _) fun error => ?_
    cases error with
    | none => exact breaksOnly_pure _
    | some error => exact breaksOnly_pure _

theorem breaksOnly_executePlan (operations : List Operation) :
    BreaksOnly Run settings.pollSeconds t (executePlan w fuel settings operations) := by
  unfold executePlan
  refine triple_bind (M := fun _ => Since t fun _ => True) ?_ fun p => breaksOnly_pure _
  exact triple_foldlM (I := fun _ => Since t fun _ => True)
    (fun p op _ => breaksOnly_executeOperation hrun p op) _

end Stops

/-! ### The whole plan -/

/-- Over every plan and every world: a run that returns has attempted every operation once, in
order, and returns no error exactly if every attempt succeeded; only a pause that cannot be
made or a process without an end raises; and the run returns once the waits have timed out. -/
theorem executePlan_attempts (w : World) (fuel : ℕ) (settings : Settings)
    (operations : List Operation) (t : List Event) :
    let r := (executePlan w fuel settings operations).run t
    (∀ errors, r.1 = .value errors → ∃ segments, r.2 = segments.flatten ∧
        Attempts settings.openstackBin false operations segments ∧
        (errors = [] ↔ List.Forall₂ (Succeeded settings.waitSeconds) operations segments)) ∧
      (∀ x, r.1 = .raised x → Broken settings.pollSeconds r.2) ∧
      ∀ n, Expires w settings.waitSeconds settings.pollSeconds n → n < fuel → r.1 ≠ .running := by
  intro r
  have hbegun : Since t (fun _ => True) t := ⟨[], (List.append_nil t).symm, trivial⟩
  refine ⟨fun errors hr => ?_, fun x hr => ?_, fun n hn hfuel hr => ?_⟩
  · have hpair : (executePlan w fuel settings operations).run t = (.value errors, r.2) :=
      Prod.ext hr rfl
    obtain ⟨p, s₁, s₂, h₁, h₂, hs⟩ := run_bind_eq_value.1 hpair
    obtain ⟨segments, hsegments, rfl⟩ := run_foldlM_eq_value.1 h₁
    obtain ⟨hattempts, herrors⟩ := attempts_of_segmented hsegments
    cases h₂
    refine ⟨segments, by rw [hs, List.append_nil], hattempts, herrors.trans ?_⟩
    exact and_iff_right rfl
  · have hbreaks : BreaksOnly True settings.pollSeconds t (executePlan w fuel settings operations) :=
      breaksOnly_executePlan (fun hnot => absurd trivial hnot) operations
    have hspec := hbreaks.spec t hbegun
    have hpair : (executePlan w fuel settings operations).run t = (.raised x, r.2) :=
      Prod.ext hr rfl
    rw [hpair] at hspec
    obtain ⟨s, hs, hbroken⟩ := hspec
    rwa [List.append_cancel_left hs]
  · have hbreaks : BreaksOnly False settings.pollSeconds t (executePlan w fuel settings operations) :=
      breaksOnly_executePlan (fun _ => ⟨n, hn, hfuel⟩) operations
    have hspec := hbreaks.spec t hbegun
    have hpair : (executePlan w fuel settings operations).run t = (.running, r.2) :=
      Prod.ext hr rfl
    rwa [hpair] at hspec

def Event.announces (op : Operation) : Event → Bool
  | .print text => text == op.announcement
  | _ => false

/-- A world whose stacks keep being deleted. -/
def pending : World :=
  { obliging (.failed "") fun _ => .failed "" with
    start := fun _ argv => .completed
      ⟨0, if (argv.drop 1).take 2 = ["stack", "show"] then "DELETE_IN_PROGRESS" else "", ""⟩ }

/-- A world whose processes print what is no text. -/
def garbled : World :=
  { obliging (.failed "") fun _ => .failed "" with
    start := fun _ _ => .failed "UnicodeDecodeError" }

def stackThenServer : List Operation :=
  [⟨40, ⟨"orchestration", "stack", "s1", []⟩, ["stack", "delete", "--yes", "s1"]⟩,
    ⟨80, ⟨"compute", "server", "v1", []⟩, ["server", "delete", "--wait", "v1"]⟩]

/-- With a negative poll interval, or output that cannot be decoded, the run ends in a
traceback at the first operation and the second is never attempted. -/
theorem executePlan_stops_early :
    let paused := (executePlan pending 2 ⟨"openstack", .finite 600, .finite (-1)⟩ stackThenServer).run []
    let noisy := (executePlan garbled 2 ⟨"openstack", .finite 600, .finite 2⟩ stackThenServer).run []
    (paused.1 = .raised (.other "ValueError") ∧
      stackThenServer.map (fun op => paused.2.any (Event.announces op)) = [true, false]) ∧
    noisy.1 = .raised (.other "UnicodeDecodeError") ∧
      stackThenServer.map (fun op => noisy.2.any (Event.announces op)) = [true, false] := by
  decide +kernel

end Yggdrasil.Deletion
