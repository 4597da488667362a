import Mathlib.Tactic.Linarith
import Yggdrasil.Capsule.Zun

/-! Creation is all or rollback. A capsule id is returned exactly if a poll begun before the
deadline reported the capsule ready, with nothing but pending reports before it; otherwise the
creation fails, and a capsule whose id is known has then been asked for its deletion once. -/

namespace Yggdrasil.Capsule

open Effect Effect.Program Python

/-! ### Reports -/

/-- The state in a response, `unknown` where it has none. -/
def Response.state (r : Response) : Except Failure Value := do
  let capsule ← r.responseJson
  getItem capsule "status" (.str "unknown")

/-- A poll that found the capsule in one of the ready states. -/
def ReportsReady (answer : Answer) : Prop :=
  ∃ r s, found answer = .ok (some r) ∧ r.state = .ok (.str s) ∧ s ∈ readyStates

/-- A poll that found the capsule in a state neither ready nor failed. -/
def ReportsPending (answer : Answer) : Prop :=
  ∃ r state, found answer = .ok (some r) ∧ r.state = .ok state ∧
    memStates readyStates state = .ok false ∧ memStates failedStates state = .ok false

/-- Some poll begun before the deadline found the capsule ready, and every poll before it was
begun in time and found it pending. -/
inductive ReadyInTime (url : String) (deadline : ℚ) : List Event → Prop
  | now {now : ℚ} {answer : Answer} {rest : List Event} : now < deadline → ReportsReady answer →
    ReadyInTime url deadline (.monotonic now :: .get url answer :: rest)
  | later {now : ℚ} {answer : Answer} {rest : List Event} : now < deadline →
    ReportsPending answer → ReadyInTime url deadline rest →
    ReadyInTime url deadline (.monotonic now :: .get url answer :: .sleep :: rest)

def Event.deleted : Event → Option String
  | .delete url _ => some url
  | _ => none

/-- The addresses of the delete requests. -/
def deletes (s : List Event) : List String := s.filterMap Event.deleted

def Event.isPause : Event → Bool
  | .sleep => true
  | _ => false

/-- After `n` pauses the longest timeout has passed. -/
def Expires (w : World) (n : ℕ) : Prop :=
  ∀ t s, n ≤ s.countP Event.isPause → w.monotonic t + createTimeout ≤ w.monotonic (t ++ s)

/-! ### Runs of a request -/

section Requests

variable {w : World} {α β : Type} {t : List Event}

theorem run_ask_bind (answer : List Event → α) (event : α → Event) (k : α → Prog β) :
    (ask answer event >>= k).run t =
      (((k (answer t)).run (t ++ [event (answer t)])).1,
        event (answer t) :: ((k (answer t)).run (t ++ [event (answer t)])).2) := rfl

theorem run_emit_bind (e : Event) (k : Unit → Prog β) :
    (emit e >>= k).run t = (((k ()).run (t ++ [e])).1, e :: ((k ()).run (t ++ [e])).2) := rfl

/-- A pass of a waiting loop has one pause. -/
theorem countP_pass (s : List Event) (now : ℚ) (url : String) (answer : Answer) :
    (s ++ ([Event.monotonic now] ++ ([Event.get url answer] ++ [Event.sleep]))).countP Event.isPause =
      s.countP Event.isPause + 1 := by
  simp [List.countP_cons, Event.isPause]

end Requests

/-! ### The wait -/

section Wait

variable {w : World} {base : String} {id : Value} {deadline : ℚ}

theorem memStates_eq_true {states : List String} {state : Value} :
    memStates states state = .ok true ↔ ∃ s, state = .str s ∧ s ∈ states := by
  cases state with
  | str s => simp [memStates]
  | seq kind items => cases kind <;> simp [memStates]
  | _ => simp [memStates]

/-- A report is one of a ready state, of a state on the way, or it ends the wait. -/
theorem readState_cases (id : Value) (r : Response) :
    ((∃ s, r.state = .ok (.str s) ∧ s ∈ readyStates) ∧
      ∃ capsule, readState id readyStates r = .ok (.reached capsule)) ∨
    (∃ state, r.state = .ok state ∧ memStates readyStates state = .ok false ∧
      memStates failedStates state = .ok false ∧ readState id readyStates r = .ok (.pending state)) ∨
    ((∀ state, r.state = .ok state → memStates readyStates state ≠ .ok true ∧
      (memStates readyStates state = .ok false → memStates failedStates state ≠ .ok false)) ∧
      ∃ e, readState id readyStates r = .error e) := by
  unfold readState Response.state
  cases hjson : r.responseJson with
  | error e => exact .inr (.inr ⟨by simp [bind, Except.bind], e, rfl⟩)
  | ok capsule =>
    simp only [bind, Except.bind]
    cases hitem : getItem capsule "status" (.str "unknown") with
    | error e => exact .inr (.inr ⟨by simp, e, rfl⟩)
    | ok state =>
      simp only
      cases hready : memStates readyStates state with
      | error e => exact .inr (.inr ⟨by simp [hready], e, rfl⟩)
      | ok ready =>
        cases ready with
        | true =>
          obtain ⟨s, rfl, hs⟩ := memStates_eq_true.1 hready
          exact .inl ⟨⟨s, rfl, hs⟩, capsule, rfl⟩
        | false =>
          simp only [Bool.false_eq_true, if_false]
          cases hfailed : memStates failedStates state with
          | error e => exact .inr (.inr ⟨by simp [hready, hfailed], e, rfl⟩)
          | ok failed =>
            cases failed with
            | true =>
              refine .inr (.inr ⟨by simp [hready, hfailed], ?_⟩)
              simp only [if_true]
              cases getItem capsule "status_reason" (.str "no status reason") with
              | error e => exact ⟨e, rfl⟩
              | ok reason => exact ⟨_, rfl⟩
            | false => exact .inr (.inl ⟨state, rfl, hready, hfailed, rfl⟩)

theorem readyInTime_cons {url : String} {now : ℚ} {answer : Answer} {s : List Event} :
    ReadyInTime url deadline (.monotonic now :: .get url answer :: s) ↔ now < deadline ∧
      (ReportsReady answer ∨
        ReportsPending answer ∧ ∃ s', s = .sleep :: s' ∧ ReadyInTime url deadline s') := by
  constructor
  · intro h
    cases h with
    | now hnow hready => exact ⟨hnow, .inl hready⟩
    | later hnow hpending hrest => exact ⟨hnow, .inr ⟨hpending, _, rfl, hrest⟩⟩
  · rintro ⟨hnow, hready | ⟨hpending, s', rfl, hrest⟩⟩
    · exact .now hnow hready
    · exact .later hnow hpending hrest

/-- A report without a readable state in a response ends the wait. -/
theorem not_readyInTime_cons {url : String} {now : ℚ} {answer : Answer} {s : List Event}
    (h : ∀ r state, found answer = .ok (some r) → r.state = .ok state →
      memStates readyStates state ≠ .ok true ∧
        (memStates readyStates state = .ok false → memStates failedStates state ≠ .ok false)) :
    ¬ReadyInTime url deadline (.monotonic now :: .get url answer :: s) := by
  rw [readyInTime_cons]
  rintro ⟨-, ⟨r, state, hfound, hstate, hready⟩ | ⟨⟨r, state, hfound, hstate, hready, hfailed⟩, -⟩⟩
  · exact (h r _ hfound hstate).1 (memStates_eq_true.2 ⟨state, rfl, hready⟩)
  · exact (h r _ hfound hstate).2 hready hfailed

/-- The wait finds the capsule ready exactly if that is reported in time, whatever follows. -/
theorem waitLoop_ready (w : World) (base : String) (id : Value) (deadline : ℚ) (t rest : List Event)
    (last : Value) (fuel : ℕ)
    (h : ((waitLoop w base id readyStates deadline last fuel).run t).1 = .running → rest = []) :
    ReadyInTime (capsuleUrl w base id) deadline
        (((waitLoop w base id readyStates deadline last fuel).run t).2 ++ rest) ↔
      ∃ capsule, ((waitLoop w base id readyStates deadline last fuel).run t).1 =
        .value (some capsule) := by
  induction fuel generalizing t last with
  | zero =>
    rw [h rfl]
    refine iff_of_false (fun hready => ?_) (by rintro ⟨capsule, hc⟩; cases hc)
    cases hready
  | succ fuel ih =>
    unfold waitLoop at h ⊢
    simp only [now, run_ask_bind] at h ⊢
    by_cases hlate : w.monotonic t < deadline
    · simp only [hlate, if_true, getCapsule, bind_assoc, run_ask_bind] at h ⊢
      generalize w.get (t ++ [.monotonic (w.monotonic t)]) (capsuleUrl w base id) = answer at h ⊢
      cases hfound : found answer with
      | error e =>
        refine iff_of_false (not_readyInTime_cons fun r state hr => ?_) ?_
        · rw [hfound] at hr
          cases hr
        · rintro ⟨capsule, hc⟩
          cases hc
      | ok o =>
        cases o with
        | none =>
          refine iff_of_false (not_readyInTime_cons fun r state hr => ?_) ?_
          · rw [hfound] at hr
            cases hr
          · rintro ⟨capsule, hc⟩
            cases hc
        | some r =>
          rw [hfound] at h
          rcases readState_cases id r with ⟨⟨s, hstate, hs⟩, capsule, hread⟩ |
            ⟨state, hstate, hready, hfailed, hread⟩ | ⟨hover, e, hread⟩
          · simp only [liftExcept, pure_bind, hread]
            exact iff_of_true (.now hlate ⟨r, s, hfound, hstate, hs⟩) ⟨capsule, rfl⟩
          · simp only [liftExcept, pure_bind, hread, pause, run_emit_bind] at h ⊢
            rw [List.cons_append, List.cons_append, List.cons_append, readyInTime_cons,
              ← ih _ _ h]
            constructor
            · rintro ⟨-, ⟨r', s, hr', hstate', hs⟩ | ⟨-, s', hs', hrest⟩⟩
              · rw [hfound] at hr'
                cases hr'
                rw [hstate] at hstate'
                cases hstate'
                rw [memStates_eq_true.2 ⟨s, rfl, hs⟩] at hready
                cases hready
              · cases hs'
                exact hrest
            · intro hrest
              exact ⟨hlate, .inr ⟨⟨r, state, hfound, hstate, hready, hfailed⟩, _, rfl, hrest⟩⟩
          · simp only [liftExcept, pure_bind, hread]
            refine iff_of_false (not_readyInTime_cons fun r' state hr hstate => ?_) ?_
            · rw [hfound] at hr
              cases hr
              exact hover state hstate
            · rintro ⟨capsule, hc⟩
              cases hc
    · simp only [hlate, if_false] at h ⊢
      refine iff_of_false ?_ (by rintro ⟨capsule, hc⟩; cases hc)
      intro hready
      cases hready with
      | now hnow _ => exact hlate hnow
      | later hnow _ _ => exact hlate hnow

/-- The wait ends before its fuel does if the timeout passes before. -/
theorem waitLoop_ends {n : ℕ} (hn : Expires w n) (t s : List Event) (last : Value) (fuel : ℕ)
    (h : n ≤ fuel + s.countP Event.isPause) :
    ((waitLoop w base id readyStates (w.monotonic t + createTimeout) last (fuel + 1)).run
      (t ++ s)).1 ≠ .running := by
  induction fuel generalizing s last with
  | zero =>
    have hlate := hn t s (by omega)
    unfold waitLoop
    simp only [now, run_ask_bind]
    rw [if_neg (not_lt.2 hlate)]
    exact fun hr => by cases hr
  | succ fuel ih =>
    unfold waitLoop
    simp only [now, run_ask_bind]
    split_ifs
    · simp only [getCapsule, bind_assoc, run_ask_bind]
      cases hfound : found (w.get (t ++ s ++ [.monotonic (w.monotonic (t ++ s))])
          (capsuleUrl w base id)) with
      | error e => exact fun hr => by cases hr
      | ok o =>
        cases o with
        | none => exact fun hr => by cases hr
        | some r =>
          simp only [liftExcept, pure_bind]
          cases readState id readyStates r with
          | error e => exact fun hr => by cases hr
          | ok poll =>
            cases poll with
            | reached capsule => exact fun hr => by cases hr
            | pending state =>
              simp only [pure_bind, pause, run_emit_bind, List.append_assoc]
              refine ih _ _ ?_
              rw [countP_pass]
              omega
    · exact fun hr => by cases hr

end Wait

/-! ### Delete requests -/

section Deletes

variable {w : World} {α β : Type} {url : String}

/-- A program that sends no delete request. -/
abbrev Keeps (m : Prog α) : Prop := Emits (fun e => e.deleted = none) m

theorem Keeps.deletes_eq {m : Prog α} (h : Keeps m) (t : List Event) : deletes (m.run t).2 = [] :=
  List.filterMap_eq_nil_iff.2 (h t)

/-- A program that sends one delete request in every run, to one address. -/
def DeletesOnce (url : String) (m : Prog α) : Prop := ∀ t, deletes (m.run t).2 = [url]

theorem DeletesOnce.bind {m : Prog α} {k : α → Prog β} (hm : DeletesOnce url m)
    (hk : ∀ a, Keeps (k a)) : DeletesOnce url (m >>= k) := by
  intro t
  have hmt := hm t
  rw [run_bind]
  rcases hr : m.run t with ⟨a | x | _, s⟩ <;> rw [hr] at hmt
  · change deletes (s ++ _) = [url]
    rw [deletes, List.filterMap_append]
    exact (congrArg₂ (· ++ ·) hmt ((hk a).deletes_eq _)).trans (List.append_nil _)
  · exact hmt
  · exact hmt

theorem DeletesOnce.handle {m : Prog α} {h : Exc → Prog α} (hm : DeletesOnce url m)
    (hh : ∀ x, Keeps (h x)) : DeletesOnce url (handle m h) := by
  intro t
  have hmt := hm t
  simp only [Program.handle]
  rcases hr : m.run t with ⟨a | x | _, s⟩ <;> rw [hr] at hmt
  · exact hmt
  · rw [deletes, List.filterMap_append]
    exact (congrArg₂ (· ++ ·) hmt ((hh x).deletes_eq _)).trans (List.append_nil _)
  · exact hmt

theorem keeps_ask (answer : List Event → α) (event : α → Event) (h : ∀ a, (event a).deleted = none) :
    Keeps (ask answer event) := by
  intro t e he
  rw [run_ask, List.mem_singleton] at he
  rw [he]
  exact h _

theorem keeps_liftExcept (r : Except Failure α) : Keeps (liftExcept r) := by
  cases r with
  | error e => exact emits_throw _
  | ok a => exact emits_pure _

theorem keeps_getCapsule (url : String) : Keeps (getCapsule w url) :=
  emits_bind (keeps_ask _ _ fun _ => rfl) fun _ => keeps_liftExcept _

theorem keeps_waitLoop (base : String) (id : Value) (states : List String) (deadline : ℚ)
    (last : Value) (fuel : ℕ) : Keeps (waitLoop w base id states deadline last fuel) := by
  induction fuel generalizing last with
  | zero => exact fun t e he => by cases he
  | succ fuel ih =>
    unfold waitLoop
    refine emits_bind (keeps_ask _ _ fun _ => rfl) fun current => emits_ite (fun _ => ?_)
      fun _ => emits_throw _
    refine emits_bind (keeps_getCapsule _) fun o => ?_
    cases o with
    | none => exact emits_pure _
    | some r =>
      refine emits_bind (keeps_liftExcept _) fun poll => ?_
      cases poll with
      | reached capsule => exact emits_pure _
      | pending state => exact emits_bind (emits_emit rfl) fun _ => ih state

theorem keeps_goneLoop (url : String) (id : Value) (deadline : ℚ) (fuel : ℕ) :
    Keeps (goneLoop w url id deadline fuel) := by
  induction fuel with
  | zero => exact fun t e he => by cases he
  | succ fuel ih =>
    unfold goneLoop
    refine emits_bind (keeps_ask _ _ fun _ => rfl) fun current => emits_ite (fun _ => ?_)
      fun _ => emits_throw _
    refine emits_bind (keeps_getCapsule _) fun o => ?_
    cases o with
    | none => exact emits_pure _
    | some r => exact emits_bind (emits_emit rfl) fun _ => ih

theorem keeps_awaitReady (fuel : ℕ) (base : String) (id : Value) :
    Keeps (awaitReady w fuel base id) := by
  unfold awaitReady
  refine emits_ite (fun _ => emits_throw _) fun _ => ?_
  refine emits_bind (emits_bind (keeps_ask _ _ fun _ => rfl) fun start =>
    keeps_waitLoop _ _ _ _ _ _) fun o => ?_
  cases o with
  | none => exact emits_throw _
  | some capsule => exact emits_pure _

theorem keeps_confirmAbsent (url : String) (x : Exc) : Keeps (confirmAbsent w url x) := by
  unfold confirmAbsent
  refine emits_ite (fun _ => emits_pure _) fun _ => emits_bind (keeps_getCapsule _) fun o => ?_
  cases o with
  | none => exact emits_pure _
  | some r => exact emits_throw _

/-- However it ends, a deletion sends one delete request. -/
theorem deletesOnce_deleteCapsule (fuel : ℕ) (base : String) (id : Value) :
    DeletesOnce (capsuleUrl w base id) (deleteCapsule w fuel base id) := by
  have hrequest : DeletesOnce (capsuleUrl w base id) (requestDelete w (capsuleUrl w base id)) :=
    DeletesOnce.bind (fun t => rfl) fun _ => keeps_liftExcept _
  unfold deleteCapsule
  refine (hrequest.handle (keeps_confirmAbsent _)).bind fun gone => ?_
  exact emits_ite (fun _ => emits_pure _) fun _ =>
    emits_bind (keeps_ask _ _ fun _ => rfl) fun start => keeps_goneLoop _ _ _ _

theorem deletesOnce_rollBack (fuel : ℕ) (base : String) {id : Value} (hid : id.truthy = true)
    (x : Exc) : DeletesOnce (capsuleUrl w base id) (rollBack w fuel base id x) := by
  unfold rollBack
  rw [if_pos hid]
  refine DeletesOnce.bind ?_ fun _ => emits_throw _
  refine DeletesOnce.handle ?_ fun _ => emits_emit rfl
  exact (deletesOnce_deleteCapsule fuel base id).bind fun _ => emits_pure _

end Deletes

/-! ### Creation -/

section Create

variable {w : World} {base : String} {id : Value} {fuel : ℕ} {t : List Event}

/-- Zun has answered the creation with this id. -/
def Created (answer : Answer) (id : Value) : Prop :=
  answer.bind createdId = .ok id ∧ id.truthy = true

/-- The rollback ends in the failure of the creation, if it ends. -/
theorem rollBack_outcome (w : World) (fuel : ℕ) (base : String) (id : Value) (x : Exc)
    (t : List Event) :
    ((rollBack w fuel base id x).run t).1 = .raised (.resourceCreation x.text id) ∨
      ((rollBack w fuel base id x).run t).1 = .running := by
  unfold rollBack
  split_ifs
  · rw [run_bind]
    simp only [Program.handle]
    rcases (do let _ ← deleteCapsule w fuel base id : Prog Unit).run t with ⟨a | x' | _, s⟩
    · exact .inl rfl
    · exact .inl rfl
    · exact .inr rfl
  · exact .inl rfl

/-- Waiting for a known capsule returns its id exactly if it was reported ready in time. -/
theorem awaitReady_ready (w : World) (base : String) (fuel : ℕ) (hid : id.truthy = true)
    (t rest : List Event)
    (h : ((awaitReady w fuel base id).run t).1 = .running → rest = []) :
    (∃ start polls, ((awaitReady w fuel base id).run t).2 ++ rest = .monotonic start :: polls ∧
        ReadyInTime (capsuleUrl w base id) (start + createTimeout) polls) ↔
      ((awaitReady w fuel base id).run t).1 = .value id := by
  unfold awaitReady waitForState at h ⊢
  rw [if_neg (by simp [hid])] at h ⊢
  simp only [now, bind_assoc, run_ask_bind] at h ⊢
  have hready := waitLoop_ready w base id (w.monotonic t + createTimeout)
    (t ++ [.monotonic (w.monotonic t)]) rest (.str "unknown") fuel
  rcases hr : (waitLoop w base id readyStates (w.monotonic t + createTimeout) (.str "unknown")
    fuel).run (t ++ [.monotonic (w.monotonic t)]) with ⟨o | x | _, s⟩ <;>
    simp only [run_bind, hr] at hready h ⊢
  · have hready := hready fun hrun => by cases hrun
    cases o with
    | none =>
      refine iff_of_false ?_ (fun hv => by cases hv)
      rintro ⟨start, polls, heq, hpolls⟩
      cases heq
      obtain ⟨capsule, hc⟩ := hready.1 (by simpa [fail, Program.throw] using hpolls)
      cases hc
    | some capsule =>
      refine iff_of_true ⟨_, _, rfl, ?_⟩ rfl
      simpa using hready.2 ⟨capsule, rfl⟩
  · refine iff_of_false ?_ (fun hv => by cases hv)
    rintro ⟨start, polls, heq, hpolls⟩
    cases heq
    obtain ⟨capsule, hc⟩ := (hready fun hrun => by cases hrun).1 hpolls
    cases hc
  · refine iff_of_false ?_ (fun hv => by cases hv)
    rintro ⟨start, polls, heq, hpolls⟩
    cases heq
    obtain ⟨capsule, hc⟩ := (hready h).1 hpolls
    cases hc

/-- Waiting returns nothing but the id, and asks the clock first. -/
theorem awaitReady_value {id' : Value} (h : ((awaitReady w fuel base id).run t).1 = .value id') :
    id' = id ∧ id.truthy = true := by
  cases hid : id.truthy with
  | false =>
    unfold awaitReady at h
    rw [if_pos (by simp [hid])] at h
    cases h
  | true =>
    refine ⟨?_, rfl⟩
    unfold awaitReady at h
    rw [if_neg (by simp [hid])] at h
    rcases hr : (waitForState w fuel base id readyStates createTimeout).run t with ⟨o | x | _, s⟩ <;>
      simp only [run_bind, hr] at h
    · cases o with
      | none => cases h
      | some capsule =>
        cases h
        rfl
    · cases h
    · cases h

variable {template : Value}

abbrev creation (w : World) (base : String) (template : Value) (t : List Event) : Event :=
  .post (w.urljoin base "capsules/") (.record [("template", template)])
    (w.post t (w.urljoin base "capsules/") (.record [("template", template)]))

theorem doCreate_run_error {e : Failure}
    (h : (w.post t (w.urljoin base "capsules/") (.record [("template", template)])).bind createdId =
      .error e) :
    (doCreate w fuel base template).run t =
      (.raised (.resourceCreation e.text .none), [creation w base template t]) := by
  have hrequest : (requestCreate w base template).run t =
      (.raised (.failure e), [creation w base template t]) := by
    simp only [requestCreate, run_ask_bind, h, liftExcept]
    rfl
  simp only [doCreate, run_bind, Program.handle, hrequest]
  rfl

theorem doCreate_run_ok (fuel : ℕ)
    (h : (w.post t (w.urljoin base "capsules/") (.record [("template", template)])).bind createdId =
      .ok id) :
    (doCreate w fuel base template).run t =
      (((handle (awaitReady w fuel base id) (rollBack w fuel base id)).run
          (t ++ [creation w base template t])).1,
        creation w base template t :: ((handle (awaitReady w fuel base id)
          (rollBack w fuel base id)).run (t ++ [creation w base template t])).2) := by
  have hrequest : (requestCreate w base template).run t =
      (.value id, [creation w base template t]) := by
    simp only [requestCreate, run_ask_bind, h, liftExcept]
    rfl
  unfold doCreate
  rw [run_bind]
  simp only [Program.handle, hrequest]
  rfl

/-- What follows the creation of a capsule: the wait, and the rollback if that fails. -/
theorem awaitOrRollBack_outcome (w : World) (fuel : ℕ) (base : String) (id : Value)
    (t : List Event) :
    let r := (handle (awaitReady w fuel base id) (rollBack w fuel base id)).run t
    (∀ id', r.1 = .value id' ↔ id' = id ∧ id.truthy = true ∧ ∃ start polls,
      r.2 = .monotonic start :: polls ∧
        ReadyInTime (capsuleUrl w base id) (start + createTimeout) polls) ∧
      (r.1 = .value id ∨ r.1 = .running ∨ ∃ message, r.1 = .raised (.resourceCreation message id) ∧
        deletes r.2 = if id.truthy = true then [capsuleUrl w base id] else []) := by
  intro r
  have hrun : r = (handle (awaitReady w fuel base id) (rollBack w fuel base id)).run t := rfl
  simp only [Program.handle] at hrun
  have hkeeps := (keeps_awaitReady (w := w) fuel base id).deletes_eq t
  rcases hr : (awaitReady w fuel base id).run t with ⟨id' | x | _, s⟩ <;>
    rw [hr] at hrun hkeeps <;> simp only at hrun hkeeps
  · obtain ⟨rfl, hid⟩ := awaitReady_value (congrArg Prod.fst hr)
    have hready := (awaitReady_ready w base fuel hid t []
      fun _ => rfl).2 (congrArg Prod.fst hr)
    rw [hr, List.append_nil] at hready
    rw [hrun]
    refine ⟨fun id'' => ?_, .inl rfl⟩
    simp only [Outcome.value.injEq]
    exact ⟨fun heq => ⟨heq.symm, hid, hready⟩, fun h => h.1.symm⟩
  · have hnot : ∀ rest, id.truthy = true → ¬∃ start polls, s ++ rest = .monotonic start :: polls ∧
        ReadyInTime (capsuleUrl w base id) (start + createTimeout) polls := by
      intro rest hid hready
      have hvalue := (awaitReady_ready w base fuel hid t rest
        (by rw [hr]; exact fun hx => by cases hx)).1 (by rw [hr]; exact hready)
      rw [hr] at hvalue
      cases hvalue
    have hdeletes : deletes r.2 = if id.truthy = true then [capsuleUrl w base id] else [] := by
      rw [hrun, deletes, List.filterMap_append]
      change deletes s ++ deletes _ = _
      rw [hkeeps, List.nil_append]
      split_ifs with hid
      · exact deletesOnce_rollBack fuel base hid x _
      · unfold rollBack
        rw [if_neg hid]
        rfl
    have hends := rollBack_outcome w fuel base id x (t ++ s)
    have hnovalue : ∀ id', r.1 ≠ .value id' := by
      intro id' hv
      rw [hrun] at hv
      rcases hends with hends | hends <;> rw [hends] at hv <;> cases hv
    refine ⟨fun id' => iff_of_false (hnovalue id') ?_, .inr ?_⟩
    · rintro ⟨-, hid, hready⟩
      rw [hrun] at hready
      exact hnot _ hid hready
    · rcases hends with hends | hends
      · exact .inr ⟨x.text, by rw [hrun]; exact hends, hdeletes⟩
      · exact .inl (by rw [hrun]; exact hends)
  · rw [hrun]
    refine ⟨fun id' => iff_of_false (fun hv => by cases hv) ?_, .inr (.inl rfl)⟩
    rintro ⟨-, hid, hready⟩
    have hvalue := (awaitReady_ready w base fuel hid t []
      fun _ => rfl).1 (by rw [hr, List.append_nil]; exact hready)
    rw [hr] at hvalue
    cases hvalue

theorem goneLoop_ends {n : ℕ} (hn : Expires w n) {url : String} (t s : List Event) (fuel : ℕ)
    (h : n ≤ fuel + s.countP Event.isPause) :
    ((goneLoop w url id (w.monotonic t + deleteTimeout) (fuel + 1)).run (t ++ s)).1 ≠ .running := by
  induction fuel generalizing s with
  | zero =>
    have hlate : w.monotonic t + deleteTimeout ≤ w.monotonic (t ++ s) := by
      have hexpired := hn t s (by omega)
      simp only [createTimeout, deleteTimeout] at hexpired ⊢
      linarith
    unfold goneLoop
    simp only [now, run_ask_bind]
    rw [if_neg (not_lt.2 hlate)]
    exact fun hr => by cases hr
  | succ fuel ih =>
    unfold goneLoop
    simp only [now, run_ask_bind]
    split_ifs
    · simp only [getCapsule, bind_assoc, run_ask_bind]
      cases hfound : found (w.get (t ++ s ++ [.monotonic (w.monotonic (t ++ s))]) url) with
      | error e => exact fun hr => by cases hr
      | ok o =>
        cases o with
        | none => exact fun hr => by cases hr
        | some r =>
          simp only [liftExcept, pure_bind, pause, run_emit_bind, List.append_assoc]
          refine ih _ ?_
          rw [countP_pass]
          omega
    · exact fun hr => by cases hr

/-- A program that ends in every run. -/
abbrev Ends {α : Type} (m : Prog α) : Prop :=
  Triple False (fun _ => True) m (fun _ _ => True) fun _ _ => True

theorem ends_of_run {α : Type} {m : Prog α} (h : ∀ t, (m.run t).1 ≠ .running) : Ends m := by
  refine ⟨fun t _ => ?_⟩
  have ht := h t
  rcases hr : m.run t with ⟨a | x | _, s⟩ <;> rw [hr] at ht
  · trivial
  · trivial
  · exact ht rfl

theorem Ends.run {α : Type} {m : Prog α} (h : Ends m) (t : List Event) : (m.run t).1 ≠ .running := by
  have ht := h.spec t trivial
  rcases hr : m.run t with ⟨a | x | _, s⟩ <;> rw [hr] at ht
  · exact fun hrun => by cases hrun
  · exact fun hrun => by cases hrun
  · exact ht.elim

theorem ends_ask {α : Type} (answer : List Event → α) (event : α → Event) :
    Ends (ask answer event) := ends_of_run fun _ hrun => by cases hrun

theorem ends_liftExcept {α : Type} (r : Except Failure α) : Ends (liftExcept r) := by
  cases r with
  | error e => exact triple_throw fun _ _ => trivial
  | ok a => exact triple_pure fun _ _ => trivial

theorem ends_awaitReady {n : ℕ} (hn : Expires w n) (hfuel : n < fuel) :
    Ends (awaitReady w fuel base id) := by
  obtain ⟨fuel, rfl⟩ := Nat.exists_eq_succ_of_ne_zero (Nat.ne_of_gt (Nat.zero_lt_of_lt hfuel))
  have hwait : Ends (waitForState w (fuel + 1) base id readyStates createTimeout) := by
    refine ends_of_run fun t => ?_
    unfold waitForState
    simp only [now, run_ask_bind]
    exact waitLoop_ends hn t [.monotonic (w.monotonic t)] _ fuel
      ((Nat.lt_succ_iff.1 hfuel).trans (Nat.le_add_right _ _))
  unfold awaitReady
  refine triple_ite (fun _ => triple_throw fun _ _ => trivial) fun _ => triple_bind hwait fun o => ?_
  cases o with
  | none => exact triple_throw fun _ _ => trivial
  | some capsule => exact triple_pure fun _ _ => trivial

/-- A deletion is total as soon as its waiting loop is. -/
theorem ends_deleteCapsule {n : ℕ} (hn : Expires w n) (hfuel : n < fuel) :
    Ends (deleteCapsule w fuel base id) := by
  obtain ⟨fuel, rfl⟩ := Nat.exists_eq_succ_of_ne_zero (Nat.ne_of_gt (Nat.zero_lt_of_lt hfuel))
  have hgone : Ends (now w >>= fun start =>
      goneLoop w (capsuleUrl w base id) id (start + deleteTimeout) (fuel + 1)) := by
    refine ends_of_run fun t => ?_
    simp only [now, run_ask_bind]
    exact goneLoop_ends hn t [.monotonic (w.monotonic t)] fuel
      ((Nat.lt_succ_iff.1 hfuel).trans (Nat.le_add_right _ _))
  unfold deleteCapsule
  refine triple_bind (M := fun _ _ => True) (triple_handle (M := fun _ _ => True) ?_ fun x => ?_)
    fun gone => triple_ite (fun _ => triple_pure fun _ _ => trivial) fun _ => hgone
  · exact triple_bind (ends_ask _ _) fun _ => ends_liftExcept _
  · unfold confirmAbsent
    refine triple_ite (fun _ => triple_pure fun _ _ => trivial) fun _ => ?_
    refine triple_bind (M := fun _ _ => True) (triple_bind (ends_ask _ _) fun _ =>
      ends_liftExcept _) fun o => ?_
    cases o with
    | none => exact triple_pure fun _ _ => trivial
    | some r => exact triple_throw fun _ _ => trivial

theorem ends_doCreate {n : ℕ} (hn : Expires w n) (hfuel : n < fuel) :
    Ends (doCreate w fuel base template) := by
  unfold doCreate
  refine triple_bind (M := fun _ _ => True) (triple_handle (M := fun _ _ => True) ?_ fun x =>
    triple_throw fun _ _ => trivial) fun id => triple_handle (M := fun _ _ => True)
      (ends_awaitReady hn hfuel) fun x => ?_
  · exact triple_bind (ends_ask _ _) fun _ => ends_liftExcept _
  · unfold rollBack
    refine triple_ite (fun _ => triple_bind (M := fun _ _ => True) ?_ fun _ =>
      triple_throw fun _ _ => trivial) fun _ => triple_throw fun _ _ => trivial
    refine triple_handle (M := fun _ _ => True) (triple_bind (ends_deleteCapsule hn hfuel) fun _ =>
      triple_pure fun _ _ => trivial) fun _ => ?_
    exact triple_emit fun _ _ => trivial

end Create

/-- Over every sequence of answers: an id is returned exactly if Zun gave it and a poll begun
before the deadline reported the capsule ready, all before it pending; every other run that
ends raises the failure of the creation, after exactly one delete request for a known id and
none otherwise; and the run ends once the clock has passed the timeouts. -/
theorem doCreate_outcome (w : World) (fuel : ℕ) (base : String) (template : Value)
    (t : List Event) :
    let r := (doCreate w fuel base template).run t
    ∃ answer rest, r.2 = .post (w.urljoin base "capsules/") (.record [("template", template)]) answer
        :: rest ∧
      (∀ id, r.1 = .value id ↔ Created answer id ∧ ∃ start polls, rest = .monotonic start :: polls ∧
        ReadyInTime (capsuleUrl w base id) (start + createTimeout) polls) ∧
      ((∃ id, r.1 = .value id) ∨ r.1 = .running ∨ ∃ message id,
        r.1 = .raised (.resourceCreation message id) ∧
        ((Created answer id ∧ deletes rest = [capsuleUrl w base id]) ∨
          (∀ id, ¬Created answer id) ∧ deletes rest = [])) ∧
      ∀ n, Expires w n → n < fuel → r.1 ≠ .running := by
  intro r
  have hends : ∀ n, Expires w n → n < fuel → r.1 ≠ .running := fun n hn hfuel =>
    (ends_doCreate hn hfuel).run t
  cases hcreated : (w.post t (w.urljoin base "capsules/")
      (.record [("template", template)])).bind createdId with
  | error e =>
    have hrun : r = (.raised (.resourceCreation e.text .none), [creation w base template t]) :=
      doCreate_run_error hcreated
    have hnone : ∀ id, ¬Created (w.post t (w.urljoin base "capsules/")
        (.record [("template", template)])) id := by
      rintro id ⟨hid, -⟩
      rw [hcreated] at hid
      cases hid
    refine ⟨_, [], by rw [hrun], fun id => ?_, ?_, hends⟩
    · refine iff_of_false (fun hv => by rw [hrun] at hv; cases hv) fun h => hnone id h.1
    · exact .inr (.inr ⟨_, _, by rw [hrun], .inr ⟨hnone, rfl⟩⟩)
  | ok id =>
    have hrun := doCreate_run_ok fuel hcreated
    obtain ⟨hvalue, hother⟩ := awaitOrRollBack_outcome w fuel base id
      (t ++ [creation w base template t])
    have hcreated_iff : ∀ id', Created (w.post t (w.urljoin base "capsules/")
        (.record [("template", template)])) id' ↔ id' = id ∧ id.truthy = true := by
      intro id'
      unfold Created
      rw [hcreated]
      constructor
      · rintro ⟨heq, hid⟩
        cases heq
        exact ⟨rfl, hid⟩
      · rintro ⟨rfl, hid⟩
        exact ⟨rfl, hid⟩
    refine ⟨_, _, congrArg Prod.snd hrun, fun id' => ?_, ?_, hends⟩
    · rw [congrArg Prod.fst hrun, hvalue id', hcreated_iff, and_assoc]
      constructor
      · rintro ⟨rfl, hready⟩
        exact ⟨rfl, hready⟩
      · rintro ⟨rfl, hready⟩
        exact ⟨rfl, hready⟩
    · rcases hother with hreturned | hrunning | ⟨message, hraised, hdeletes⟩
      · exact .inl ⟨id, (congrArg Prod.fst hrun).trans hreturned⟩
      · exact .inr (.inl ((congrArg Prod.fst hrun).trans hrunning))
      · refine .inr (.inr ⟨message, id, (congrArg Prod.fst hrun).trans hraised, ?_⟩)
        by_cases hid : id.truthy = true
        · rw [if_pos hid] at hdeletes
          exact .inl ⟨(hcreated_iff id).2 ⟨rfl, hid⟩, hdeletes⟩
        · rw [if_neg hid] at hdeletes
          exact .inr ⟨fun id' h => hid ((hcreated_iff id').1 h).2, hdeletes⟩

end Yggdrasil.Capsule
