import Mathlib.Tactic.Linarith
import Yggdrasil.Deletion.UsageErrors
import Yggdrasil.Library.Segments

/-! The deletion of one Senlin resource, over every sequence of answers of the SDK: what it
returns, how often it asks for the deletion, and that it returns once the clock has passed
the deadline. -/

namespace Yggdrasil.Deletion

open Effect Effect.Program Python

/-- A getter or deleter call that found nothing. -/
def Event.reportsMissing : Event → Bool
  | .senlinGet _ _ (.error name) => name == "NotFoundException"
  | .senlinDelete _ _ _ (.error name) => name == "NotFoundException"
  | _ => false

def Event.isSenlinDelete : Event → Bool
  | .senlinDelete .. => true
  | _ => false

/-- What the wait for a resource may do: it looks at it and at its action. -/
def Event.isSenlinPoll (kind identifier : String) : Event → Bool
  | .monotonic _ => true
  | .senlinGet k i _ => k == kind && i == identifier
  | .senlinAction .. => true
  | .sleep _ => true
  | _ => false

def Event.isPause (poll : Seconds) : Event → Bool
  | .sleep seconds => seconds = poll
  | _ => false

/-- An error text that begins with the resource it is about. -/
def Names (kind identifier error : String) : Prop :=
  ∃ text, error = "clustering/" ++ kind ++ "/" ++ identifier ++ ": " ++ text

/-- No error after a report that the object is missing, otherwise one that names it. -/
def Answers (kind identifier : String) (errors : List String) (s : List Event) : Prop :=
  (errors = [] ∧ ∃ e ∈ s, e.reportsMissing = true) ∨
    ((∃ error, errors = [error] ∧ Names kind identifier error) ∧
      ∀ e ∈ s, e.reportsMissing = false)

/-- After `n` pauses between polls the timeout has passed. -/
def Expires (w : World) (timeout poll : Seconds) (n : ℕ) : Prop :=
  ∀ t s, n ≤ s.countP (Event.isPause poll) →
    timeout.before (w.monotonic t) (w.monotonic (t ++ s)) = false

/-- What happened after the history `t` satisfies `P`. -/
def Since (t : List Event) (P : List Event → Prop) (u : List Event) : Prop :=
  ∃ s, u = t ++ s ∧ P s

theorem Since.snoc {t u : List Event} {P Q : List Event → Prop} {e : Event} (h : Since t P u)
    (hPQ : ∀ s, P s → Q (s ++ [e])) : Since t Q (u ++ [e]) :=
  After.snoc h hPQ

/-- Nothing was reported missing. -/
def NoneMissing (s : List Event) : Prop := ∀ e ∈ s, e.reportsMissing = false

theorem NoneMissing.snoc {s : List Event} {e : Event} (h : NoneMissing s)
    (he : e.reportsMissing = false) : NoneMissing (s ++ [e]) := by
  intro e' he'
  rcases List.mem_append.1 he' with he' | he'
  · exact h e' he'
  · rwa [List.mem_singleton.1 he']

section Answers

variable {kind identifier : String}

theorem answers_of_error {error : String} {s : List Event} (h : Names kind identifier error)
    (hs : NoneMissing s) : Answers kind identifier [error] s := .inr ⟨⟨error, rfl, h⟩, hs⟩

/-- A failed call either found nothing or is reported. -/
theorem answers_senlinFailure {what name : String} {s : List Event} {e : Event} (hs : NoneMissing s)
    (he : e.reportsMissing = (name == "NotFoundException")) :
    Answers kind identifier (senlinFailure kind identifier what name) (s ++ [e]) := by
  unfold senlinFailure
  split_ifs with hname
  · exact .inl ⟨rfl, e, by simp, by simp [he, hname]⟩
  · refine answers_of_error ⟨what ++ " (" ++ name ++ ")", ?_⟩ (hs.snoc (by simp [he, hname]))
    simp only [String.append_assoc]

/-- What fits the answer of a call: a failure ends the deletion with what it returns. -/
def Heard {α : Type} (t : List Event) (kind identifier what : String) :
    Except String α → List Event → Prop
  | .ok _ => Since t NoneMissing
  | .error name => Since t (Answers kind identifier (senlinFailure kind identifier what name))

theorem triple_ask_heard {α : Type} {Run : Prop} {Err : Exc → List Event → Prop} {t : List Event}
    {answer : List Event → Except String α} {event : Except String α → Event} (what : String)
    (hok : ∀ a, (event (.ok a)).reportsMissing = false)
    (herr : ∀ name, (event (.error name)).reportsMissing = (name == "NotFoundException")) :
    Triple Run (Since t NoneMissing) (ask answer event) (Heard t kind identifier what) Err := by
  refine triple_ask fun u hu => ?_
  cases answer u with
  | ok a => exact hu.snoc fun s hs => hs.snoc (hok a)
  | error name => exact hu.snoc fun s hs => answers_senlinFailure hs (herr name)

end Answers

variable {w : World}

/-! ### Actions and pauses -/

/-- The lookup of the action reports no missing object to its caller. -/
theorem triple_actionStatus {Run : Prop} {P : List Event → Prop}
    {Err : Exc → List Event → Prop} (action : Option String)
    (hP : ∀ u name answer, P u → P (u ++ [.senlinAction name answer])) :
    Triple Run P (actionStatus w action)
      (fun status u => P u ∧ status ≠ .error "NotFoundException") Err := by
  have hquiet : ∀ (status : String) u, P u →
      P u ∧ (.ok status : Except String String) ≠ .error "NotFoundException" :=
    fun _ u hu => ⟨hu, by simp⟩
  unfold actionStatus
  cases action with
  | none => exact triple_pure fun u hu => hquiet _ u hu
  | some action =>
    refine triple_ite (fun _ => triple_pure fun u hu => hquiet _ u hu) fun _ => ?_
    refine triple_bind (M := fun _ => P) (triple_ask fun u hu => hP u _ _ hu) fun answer => ?_
    cases answer with
    | ok status => exact triple_pure fun u hu => hquiet _ u hu
    | error name =>
      refine triple_ite (fun _ => triple_pure fun u hu => hquiet _ u hu) fun hname => ?_
      exact triple_pure fun u hu => ⟨hu, by simpa using hname⟩

theorem triple_sleep {Run : Prop} {P Q : List Event → Prop} {Err : Exc → List Event → Prop}
    {seconds : Seconds} (hok : ∀ u, P u → Q (u ++ [.sleep seconds]))
    (herr : ∀ name u, seconds.sleepError = some name → P u → Err (.other name) u) :
    Triple Run P (sleep seconds) (fun _ => Q) Err := by
  unfold sleep
  cases h : seconds.sleepError with
  | none => exact triple_emit hok
  | some name => exact triple_throw fun u hu => herr name u h hu

/-- A clock that a pause moves on by its length reaches every deadline. -/
theorem expires_of_sleeps {q p : ℚ} (hp : 0 < p)
    (hw : ∀ t, w.monotonic t + p ≤ w.monotonic (t ++ [.sleep (.finite p)])) :
    Expires w (.finite q) (.finite p) ⌈q / p⌉₊ := by
  have hclock : ∀ s t, w.monotonic t + s.countP (Event.isPause (.finite p)) * p ≤
      w.monotonic (t ++ s) := by
    intro s
    induction s with
    | nil => simp
    | cons e s ih =>
      intro t
      have hrest := ih (t ++ [e])
      rw [List.append_assoc, List.singleton_append] at hrest
      cases he : e.isPause (.finite p) with
      | false =>
        rw [List.countP_cons_of_neg (by simp [he])]
        linarith [w.monotonic_le t [e]]
      | true =>
        have heq : e = .sleep (.finite p) := by
          cases e with
          | sleep seconds => simpa [Event.isPause] using he
          | _ => cases he
        rw [List.countP_cons_of_pos he, Nat.cast_succ, add_mul, one_mul]
        have hstep := hw t
        rw [← heq] at hstep
        linarith
  intro t s hs
  have hle : q ≤ s.countP (Event.isPause (.finite p)) * p :=
    (div_le_iff₀ hp).1 ((Nat.le_ceil _).trans (Nat.cast_le.2 hs))
  refine decide_eq_false (not_lt.2 ?_)
  exact (add_le_add_right hle _).trans (hclock s t)

section Pauses

variable {poll : Seconds} {t u : List Event} {n fuel : ℕ}

theorem Since.noPause {e : Event}
    (h : Since t (fun s => n ≤ fuel + s.countP (Event.isPause poll)) u) (he : e.isPause poll = false) :
    Since t (fun s => n ≤ fuel + s.countP (Event.isPause poll)) (u ++ [e]) := by
  refine h.snoc fun s hs => ?_
  rwa [List.countP_append, List.countP_singleton, he, if_neg Bool.false_ne_true, Nat.add_zero]

theorem Since.pause (h : Since t (fun s => n ≤ fuel + 1 + s.countP (Event.isPause poll)) u) :
    Since t (fun s => n ≤ fuel + s.countP (Event.isPause poll)) (u ++ [.sleep poll]) := by
  refine h.snoc fun s hs => ?_
  have hsleep : [Event.sleep poll].countP (Event.isPause poll) = 1 := by simp [Event.isPause]
  rw [List.countP_append, hsleep]
  omega

end Pauses

/-! ### The loop -/

section Loop

variable (kind identifier : String) (action : Option String) (timeout poll : Seconds)

/-- What the loop returns fits what was reported since; only the pause can raise. -/
theorem triple_senlinLoop (t : List Event) (start : ℚ) (fuel : ℕ) :
    Triple True (Since t NoneMissing) (senlinLoop w kind identifier action timeout poll start fuel)
      (fun errors => Since t (Answers kind identifier errors))
      (fun _ _ => poll.sleepError.isSome = true) := by
  induction fuel with
  | zero => exact triple_diverge trivial
  | succ fuel ih =>
    unfold senlinLoop
    refine triple_bind (M := fun _ => Since t NoneMissing)
      (triple_now fun u hu => hu.snoc fun s hs => hs.snoc rfl) fun current => ?_
    refine triple_ite (fun _ => ?_) fun _ => ?_
    · refine triple_bind (M := Heard t kind identifier "resource lookup failed")
        (triple_ask_heard _ (fun _ => rfl) fun _ => rfl) fun got => ?_
      cases got with
      | error name => exact triple_pure fun _ hu => hu
      | ok _ =>
        refine triple_bind (triple_actionStatus action fun u _ _ hu =>
          hu.snoc fun s hs => hs.snoc rfl) fun status => ?_
        cases status with
        | error name =>
          refine triple_pure fun u hu => ?_
          obtain ⟨⟨s, rfl, hs⟩, hname⟩ := hu
          have hn : name ≠ "NotFoundException" := by simpa using hname
          refine ⟨s, rfl, ?_⟩
          unfold senlinFailure
          rw [if_neg hn]
          refine answers_of_error ⟨"action lookup failed" ++ " (" ++ name ++ ")", ?_⟩ hs
          simp only [String.append_assoc]
        | ok status =>
          refine triple_ite (fun _ => triple_pure fun u hu => ?_) fun _ => ?_
          · obtain ⟨⟨s, rfl, hs⟩, -⟩ := hu
            refine ⟨s, rfl, answers_of_error ⟨"Senlin deletion action entered " ++ status, ?_⟩ hs⟩
            simp only [String.append_assoc]
            rfl
          · refine triple_bind (triple_sleep (fun u hu => hu.1.snoc fun s hs => hs.snoc rfl)
              fun name u hname _ => ?_) fun _ => ih
            rw [hname]
            rfl
    · refine triple_pure fun u hu => ?_
      obtain ⟨s, rfl, hs⟩ := hu
      refine ⟨s, rfl, answers_of_error
        ⟨"Senlin resource remained after " ++ timeout.format0f ++ " seconds", ?_⟩ hs⟩
      simp only [String.append_assoc]
      rfl

/-- The loop ends before its fuel does if the timeout passes before. -/
theorem triple_senlinLoop_ends {n : ℕ} (hn : Expires w timeout poll n) (t : List Event) (fuel : ℕ) :
    Triple False (Since t fun s => n ≤ fuel + s.countP (Event.isPause poll))
      (senlinLoop w kind identifier action timeout poll (w.monotonic t) (fuel + 1))
      (fun _ _ => True) (fun _ _ => True) := by
  induction fuel with
  | zero =>
    unfold senlinLoop
    refine triple_bind (M := fun current _ => timeout.before (w.monotonic t) current = false)
      (triple_now fun u hu => ?_) fun current => triple_intro fun _ hc => ?_
    · obtain ⟨s, rfl, hs⟩ := hu
      exact hn t s (by omega)
    · rw [if_neg (by rw [hc]; exact Bool.false_ne_true)]
      exact triple_pure fun _ _ => trivial
  | succ fuel ih =>
    unfold senlinLoop
    refine triple_bind (M := fun _ => Since t fun s => n ≤ fuel + 1 + s.countP (Event.isPause poll))
      (triple_now fun u hu => hu.noPause rfl) fun current => ?_
    refine triple_ite (fun _ => ?_) fun _ => triple_pure fun _ _ => trivial
    refine triple_bind (M := fun _ => Since t fun s => n ≤ fuel + 1 + s.countP (Event.isPause poll))
      (triple_ask fun u hu => hu.noPause rfl) fun got => ?_
    cases got with
    | error name => exact triple_pure fun _ _ => trivial
    | ok _ =>
      refine triple_bind (triple_actionStatus action fun u _ _ hu => hu.noPause rfl) fun status => ?_
      cases status with
      | error name => exact triple_pure fun _ _ => trivial
      | ok status =>
        refine triple_ite (fun _ => triple_pure fun _ _ => trivial) fun _ => ?_
        exact triple_bind (triple_sleep (fun u hu => hu.1.pause) fun _ _ _ _ => trivial) fun _ => ih

/-- The program asks for a deletion `n` times at most. -/
def AsksAtMost {α : Type} (n : ℕ) (m : Prog α) : Prop :=
  ∀ t, (m.run t).2.countP Event.isSenlinDelete ≤ n

theorem asksAtMost_ask {α : Type} (answer : List Event → α) (event : α → Event) :
    AsksAtMost 1 (ask answer event) := by
  intro t
  rw [run_ask]
  exact List.countP_le_length

theorem asksAtMost_of_emits {α : Type} {m : Prog α}
    (h : Emits (fun e => e.isSenlinDelete = false) m) : AsksAtMost 0 m := by
  intro t
  rw [Nat.le_zero, List.countP_eq_zero]
  intro e he
  rw [h t e he]
  exact Bool.false_ne_true

theorem asksAtMost_bind {α β : Type} {a b : ℕ} {m : Prog α} {k : α → Prog β}
    (hm : AsksAtMost a m) (hk : ∀ x, AsksAtMost b (k x)) : AsksAtMost (a + b) (m >>= k) := by
  intro t
  have hmt := hm t
  rw [run_bind]
  rcases hr : m.run t with ⟨x | x | _, s⟩ <;> rw [hr] at hmt
  · simp only [List.countP_append]
    exact Nat.add_le_add hmt (hk x (t ++ s))
  · exact hmt.trans (Nat.le_add_right a b)
  · exact hmt.trans (Nat.le_add_right a b)

theorem AsksAtMost.mono {α : Type} {a b : ℕ} {m : Prog α} (h : AsksAtMost a m) (hab : a ≤ b) :
    AsksAtMost b m := fun t => (h t).trans hab

theorem emits_senlinLoop (start : ℚ) (fuel : ℕ) :
    Emits (fun e => e.isSenlinPoll kind identifier = true)
      (senlinLoop w kind identifier action timeout poll start fuel) := by
  induction fuel with
  | zero => exact fun t e he => by cases he
  | succ fuel ih =>
    unfold senlinLoop
    refine emits_bind (emits_ask fun _ => rfl) fun current => emits_ite (fun _ => ?_)
      fun _ => emits_pure _
    refine emits_bind (emits_ask fun _ => by simp [Event.isSenlinPoll]) fun got => ?_
    cases got with
    | error name => exact emits_pure _
    | ok _ =>
      refine emits_bind ?_ fun status => ?_
      · unfold actionStatus
        cases action with
        | none => exact emits_pure _
        | some action =>
          refine emits_ite (fun _ => emits_pure _) fun _ =>
            emits_bind (emits_ask fun _ => rfl) fun answer => ?_
          cases answer with
          | ok status => exact emits_pure _
          | error name => exact emits_ite (fun _ => emits_pure _) fun _ => emits_pure _
      · cases status with
        | error name => exact emits_pure _
        | ok status =>
          refine emits_ite (fun _ => emits_pure _) fun _ => emits_bind ?_ fun _ => ih
          unfold sleep
          split
          · exact emits_throw _
          · exact emits_emit rfl

end Loop

/-! ### The deletion -/

variable (w) (resource : Resource) (fuel : ℕ) (timeout poll : Seconds)

theorem triple_deleteSenlinResource_answers
    (h : (Dict.get? senlinKinds resource.resource).isSome = true) (t : List Event) :
    Triple True (Since t NoneMissing) (deleteSenlinResource w fuel resource timeout poll)
      (fun errors => Since t (Answers resource.resource resource.identifier errors))
      (fun _ _ => poll.sleepError.isSome = true) := by
  obtain ⟨force, hforce⟩ := Option.isSome_iff_exists.1 h
  unfold deleteSenlinResource
  simp only [hforce]
  refine triple_bind
    (M := Heard t resource.resource resource.identifier "unable to load Senlin resource")
    (triple_ask_heard _ (fun _ => rfl) fun _ => rfl) fun got => ?_
  cases got with
  | error name => exact triple_pure fun _ hu => hu
  | ok _ =>
    refine triple_bind
      (M := Heard t resource.resource resource.identifier "delete request failed")
      (triple_ask_heard _ (fun _ => rfl) fun _ => rfl) fun deleted => ?_
    cases deleted with
    | error name => exact triple_pure fun _ hu => hu
    | ok action =>
      exact triple_bind (triple_now fun u hu => hu.snoc fun s hs => hs.snoc rfl) fun start =>
        triple_senlinLoop _ _ _ _ _ t start fuel

theorem asksAtMost_deleteSenlinResource :
    AsksAtMost 1 (deleteSenlinResource w fuel resource timeout poll) := by
  have hpure : ∀ errors : List String, AsksAtMost 0 (pure errors : Prog (List String)) :=
    fun _ => asksAtMost_of_emits (emits_pure _)
  unfold deleteSenlinResource
  dsimp only
  split
  · exact (hpure _).mono (Nat.zero_le 1)
  · have hget : AsksAtMost 0 (senlinGet w resource.resource resource.identifier) :=
      asksAtMost_of_emits (emits_ask fun _ => rfl)
    refine asksAtMost_bind (a := 0) (b := 1) hget fun got => ?_
    cases got with
    | error name => exact (hpure _).mono (Nat.zero_le 1)
    | ok _ =>
      refine asksAtMost_bind (a := 1) (b := 0) (asksAtMost_ask _ _) fun deleted => ?_
      cases deleted with
      | error name => exact hpure _
      | ok action =>
        have hnow : AsksAtMost 0 (now w) := asksAtMost_of_emits (emits_ask fun _ => rfl)
        refine asksAtMost_bind (a := 0) (b := 0) hnow fun start => ?_
        refine asksAtMost_of_emits ((emits_senlinLoop _ _ _ _ _ _ _).mono fun e he => ?_)
        cases e with
        | senlinDelete kind identifier force answer => cases he
        | _ => rfl

theorem triple_deleteSenlinResource_ends {n : ℕ} (hn : Expires w timeout poll n) (hfuel : n < fuel) :
    Triple False (fun _ => True) (deleteSenlinResource w fuel resource timeout poll)
      (fun _ _ => True) (fun _ _ => True) := by
  obtain ⟨fuel, rfl⟩ := Nat.exists_eq_succ_of_ne_zero (Nat.ne_of_gt (Nat.zero_lt_of_lt hfuel))
  unfold deleteSenlinResource
  dsimp only
  split
  · exact triple_pure fun _ _ => trivial
  · refine triple_bind (M := fun _ _ => True) (triple_ask fun _ _ => trivial) fun got => ?_
    cases got with
    | error name => exact triple_pure fun _ _ => trivial
    | ok _ =>
      refine triple_bind (M := fun _ _ => True) (triple_ask fun _ _ => trivial) fun deleted => ?_
      cases deleted with
      | error name => exact triple_pure fun _ _ => trivial
      | ok action =>
        refine triple_bind (M := fun start u => ∃ t, start = w.monotonic t ∧
            Since t (fun s => n ≤ fuel + s.countP (Event.isPause poll)) u)
          (triple_now fun u _ => ⟨u, rfl, _, rfl, ?_⟩) fun start => ?_
        · exact (Nat.lt_succ_iff.1 hfuel).trans (Nat.le_add_right _ _)
        · refine triple_intro fun u hu => ?_
          obtain ⟨t, rfl, hs⟩ := hu
          exact (triple_senlinLoop_ends _ _ _ _ _ hn t fuel).consequence
            (fun v hv => hv ▸ hs) (fun _ _ => id) fun _ _ => id

/-- A world whose Senlin objects stay while their action runs, and whose time passes in the
pauses of two seconds. -/
def lingering : World :=
  { obliging (.failed "") fun _ => .failed "" with
    senlinDelete := fun _ _ _ => .ok (some "a1")
    senlinAction := fun _ _ => .ok "RUNNING"
    monotonic := fun t => t.countP (Event.isPause (.finite 2)) * 2
    monotonic_le := fun t s => by
      rw [List.countP_append, Nat.cast_add]
      have hs : (0 : ℚ) ≤ (s.countP (Event.isPause (.finite 2)) : ℕ) := Nat.cast_nonneg _
      linarith }

theorem expires_lingering : Expires lingering (.finite 3) (.finite 2) ⌈(3 : ℚ) / 2⌉₊ := by
  refine expires_of_sleeps (by norm_num) fun t => ?_
  change ((t.countP _ : ℕ) : ℚ) * 2 + 2 ≤ (((t ++ [Event.sleep (.finite 2)]).countP _ : ℕ) : ℚ) * 2
  have hone : [Event.sleep (.finite 2)].countP (Event.isPause (.finite 2)) = 1 := by
    simp [Event.isPause]
  rw [List.countP_append, hone, Nat.cast_succ]
  linarith

end Yggdrasil.Deletion
