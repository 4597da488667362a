import Yggdrasil.Capsule.Creation
import Yggdrasil.Library.Segments

/-! Deletion is confirmed. A deletion that ends returns exactly if some answer reported the
capsule as not found, in the delete request, in the lookup after a failed one or in a poll;
otherwise it raises the failure of the deletion, and it sends one delete request either way. -/

namespace Yggdrasil.Capsule

open Effect Effect.Program Python

/-- An answer that the object is not found, as a response or as an exception. -/
def isAbsent : Answer → Bool
  | .ok r => r.statusCode == 404
  | .error e => e.isNotFound

/-- A request to the address whose answer is that the object is not found. -/
def Event.reportsAbsent (url : String) : Event → Bool
  | .get u answer => u == url && isAbsent answer
  | .delete u answer => u == url && isAbsent answer
  | _ => false

/-- Some answer was that the object is not found. -/
def Reported (url : String) (s : List Event) : Prop := ∃ e ∈ s, e.reportsAbsent url = true

theorem reported_snoc {url : String} {s : List Event} {e : Event} :
    Reported url (s ++ [e]) ↔ Reported url s ∨ e.reportsAbsent url = true := by
  simp [Reported, or_and_right, exists_or]

theorem status_text {n : ℤ} (h : 400 ≤ n ∧ n < 600) (hn : n ≠ 404) : toString n ≠ "404" := by
  have table : ∀ k ∈ List.range 200, k ≠ 4 → toString (400 + k : ℤ) ≠ "404" := by decide +kernel
  have hk := table (n - 400).toNat (List.mem_range.2 (by omega)) (by omega)
  have hcast : (400 + ((n - 400).toNat : ℤ)) = n := by omega
  rwa [hcast] at hk

/-- The exception of `raise_for_status` of another status is no report of absence. -/
theorem not_isNotFound_of_raiseForStatus {r : Response} {e : Failure}
    (h : r.raiseForStatus = .error e) (hr : r.statusCode ≠ 404) : e.isNotFound = false := by
  unfold Response.raiseForStatus at h
  split_ifs at h with hstatus
  cases h
  have htext := status_text hstatus hr
  simpa [Failure.isNotFound, Value.isNone, Value.toStr, Value.repr] using htext

theorem found_eq_none {answer : Answer} : found answer = .ok none ↔ isAbsent answer = true := by
  cases answer with
  | error e => cases h : e.isNotFound <;> simp [found, isAbsent, h]
  | ok r =>
    by_cases h : r.statusCode = 404
    · simp [found, isAbsent, h]
    · cases hraise : r.raiseForStatus <;> simp [found, isAbsent, h, hraise, Except.map]

/-- A delete request reports absence by its result or by its exception. -/
theorem deletedAlready_cases (answer : Answer) :
    (∃ gone, deletedAlready answer = .ok gone ∧ (isAbsent answer = true ↔ gone = true)) ∨
      ∃ e, deletedAlready answer = .error e ∧ (isAbsent answer = true ↔ e.isNotFound = true) := by
  cases answer with
  | error e => exact .inr ⟨e, rfl, Iff.rfl⟩
  | ok r =>
    by_cases h : r.statusCode = 404
    · exact .inl ⟨true, by simp [deletedAlready, h], by simp [isAbsent, h]⟩
    · cases hraise : r.raiseForStatus with
      | error e =>
        have hnot := not_isNotFound_of_raiseForStatus hraise h
        exact .inr ⟨e, by simp [deletedAlready, h, hraise, Except.map], by simp [isAbsent, h, hnot]⟩
      | ok _ => exact .inl ⟨false, by simp [deletedAlready, h, hraise, Except.map], by simp [isAbsent, h]⟩

section Deletion

variable {w : World} {url : String} {t : List Event}

theorem triple_ask {α : Type} {Run : Prop} {Pre : List Event → Prop} {Post : α → List Event → Prop}
    {Err : Exc → List Event → Prop} {answer : List Event → α} {event : α → Event}
    (h : ∀ u, Pre u → Post (answer u) (u ++ [event (answer u)])) :
    Triple Run Pre (ask answer event) Post Err := by
  refine ⟨fun u hu => ?_⟩
  rw [run_ask]
  exact h u hu

/-- A lookup before any report: it finds nothing exactly if its answer is the first report. -/
theorem triple_getCapsule :
    Triple True (After t fun s => ¬Reported url s) (getCapsule w url)
      (fun o => After t fun s => Reported url s ↔ o = none)
      (fun _ => After t fun s => ¬Reported url s) := by
  refine triple_bind (M := fun answer => After t fun s => Reported url s ↔ isAbsent answer = true)
    (triple_ask fun u hu => hu.snoc fun s hs => ?_) fun answer => ?_
  · rw [reported_snoc, or_iff_right hs]
    simp [Event.reportsAbsent]
  · cases hfound : found answer with
    | error e =>
      have habsent : ¬isAbsent answer = true := fun h => by
        rw [found_eq_none.2 h] at hfound
        cases hfound
      exact triple_throw fun u hu => hu.mono fun s hs => hs.not.2 habsent
    | ok o =>
      refine triple_pure fun u hu => hu.mono fun s hs => hs.trans ?_
      rw [← found_eq_none, hfound, Except.ok.injEq]

/-- A value comes after a report, an exception without one. -/
theorem triple_confirmAbsent (x : Exc) :
    Triple True (After t fun s => Reported url s ↔ x.isNotFound = true) (confirmAbsent w url x)
      (fun gone => After t fun s => Reported url s ↔ gone = true)
      (fun _ => After t fun s => ¬Reported url s) := by
  unfold confirmAbsent
  refine triple_ite (fun hx => triple_pure fun u hu => hu.mono fun s hs => hs.trans (by simp [hx]))
    fun hx => ?_
  refine triple_bind (triple_getCapsule.consequence (fun u hu => hu.mono fun s hs => hs.not.2 hx)
    (fun _ _ => id) fun _ _ => id) fun o => ?_
  cases o with
  | none => exact triple_pure fun u hu => hu.mono fun s hs => by simpa using hs
  | some r => exact triple_throw fun u hu => hu.mono fun s hs => by simpa using hs

theorem triple_goneLoop (id : Value) (deadline : ℚ) (fuel : ℕ) :
    Triple True (After t fun s => ¬Reported url s) (goneLoop w url id deadline fuel)
      (fun gone => After t fun s => gone = true ∧ Reported url s)
      (fun _ => After t fun s => ¬Reported url s) := by
  induction fuel with
  | zero => exact triple_diverge trivial
  | succ fuel ih =>
    unfold goneLoop
    refine triple_bind (M := fun _ => After t fun s => ¬Reported url s)
      (triple_ask fun u hu => hu.snoc fun s hs => ?_) fun current => ?_
    · rw [reported_snoc]
      simp [hs, Event.reportsAbsent]
    · refine triple_ite (fun _ => triple_bind triple_getCapsule fun o => ?_)
        fun _ => triple_throw fun u hu => hu
      cases o with
      | none => exact triple_pure fun u hu => hu.mono fun s hs => ⟨rfl, hs.2 rfl⟩
      | some r =>
        refine triple_bind (M := fun _ => After t fun s => ¬Reported url s)
          (triple_emit fun u hu => hu.snoc fun s hs => ?_) fun _ => ih
        rw [reported_snoc, hs]
        simp [Event.reportsAbsent]

theorem triple_deleteCapsule (base : String) (id : Value) (fuel : ℕ) :
    Triple True (fun u => u = t) (deleteCapsule w fuel base id)
      (fun gone => After t fun s => gone = true ∧ Reported (capsuleUrl w base id) s)
      (fun _ => After t fun s => ¬Reported (capsuleUrl w base id) s) := by
  have hnone : ¬Reported (capsuleUrl w base id) [] := by simp [Reported]
  unfold deleteCapsule
  refine triple_bind (M := fun gone => After t fun s =>
      Reported (capsuleUrl w base id) s ↔ gone = true)
    (triple_handle (M := fun x => After t fun s =>
      Reported (capsuleUrl w base id) s ↔ x.isNotFound = true) ?_ triple_confirmAbsent) fun gone => ?_
  · refine triple_bind (M := fun answer => After t fun s =>
        Reported (capsuleUrl w base id) s ↔ isAbsent answer = true)
      (triple_ask fun u hu => ?_) fun answer => ?_
    · rw [hu]
      have hstart : After t (fun s => ¬Reported (capsuleUrl w base id) s) t := After.refl hnone
      refine hstart.snoc fun s hs => ?_
      rw [reported_snoc, or_iff_right hs]
      simp [Event.reportsAbsent]
    · rcases deletedAlready_cases answer with ⟨gone, hgone, habsent⟩ | ⟨e, he, habsent⟩
      · rw [hgone]
        exact triple_pure fun u hu => hu.mono fun s hs => hs.trans habsent
      · rw [he]
        exact triple_throw fun u hu => hu.mono fun s hs => hs.trans habsent
  · refine triple_ite (fun hgone => triple_pure fun u hu => hu.mono fun s hs => ⟨rfl, hs.2 hgone⟩)
      fun hgone => ?_
    refine triple_bind (M := fun _ => After t fun s => ¬Reported (capsuleUrl w base id) s)
      (triple_ask fun u hu => hu.snoc fun s hs => ?_) fun start => triple_goneLoop _ _ _
    rw [reported_snoc, hs]
    simp [hgone, Event.reportsAbsent]

end Deletion

/-- Over every sequence of answers to a node with a physical id: one delete request is sent,
what is returned is `True` and comes exactly after a report that the capsule is not found, every
other run that ends raises the failure of the deletion, and the run ends once the clock has
passed the timeouts. -/
theorem doDelete_outcome (w : World) (fuel : ℕ) (base : String) (id : Value) (t : List Event) :
    let r := (doDelete w fuel base id).run t
    deletes r.2 = [capsuleUrl w base id] ∧
      (∀ gone, r.1 = .value gone → gone = true ∧ Reported (capsuleUrl w base id) r.2) ∧
      ((∃ gone, r.1 = .value gone) ∨ r.1 = .running ∨
        ∃ message, r.1 = .raised (.resourceDeletion id message) ∧
          ¬Reported (capsuleUrl w base id) r.2) ∧
      ∀ n, Expires w n → n < fuel → r.1 ≠ .running := by
  intro r
  have hspec := (triple_deleteCapsule (w := w) base id fuel (t := t)).spec t rfl
  have hdeletes := deletesOnce_deleteCapsule (w := w) fuel base id t
  have hends : ∀ n, Expires w n → n < fuel → r.1 ≠ .running := fun n hn hfuel =>
    Ends.run (triple_handle (M := fun _ _ => True) (ends_deleteCapsule hn hfuel) fun x =>
      triple_throw fun _ _ => trivial) t
  have hrun : r = (doDelete w fuel base id).run t := rfl
  simp only [doDelete, Program.handle] at hrun
  rcases hr : (deleteCapsule w fuel base id).run t with ⟨gone | x | _, s⟩ <;>
    rw [hr] at hrun hspec hdeletes <;> simp only at hrun hspec hdeletes
  · refine ⟨by rw [hrun]; exact hdeletes, fun gone' h => ?_, .inl ⟨gone, by rw [hrun]⟩, hends⟩
    rw [hrun] at h ⊢
    cases h
    exact hspec.events
  · have hraised : r = (.raised (.resourceDeletion id x.text), s) := by
      rw [hrun]
      exact congrArg (Prod.mk _) (List.append_nil s)
    refine ⟨by rw [hraised]; exact hdeletes, fun gone h => ?_, .inr (.inr ⟨x.text, ?_⟩), hends⟩
    · rw [hraised] at h
      cases h
    · rw [hraised]
      exact ⟨rfl, hspec.events⟩
  · refine ⟨by rw [hrun]; exact hdeletes, fun gone h => ?_, .inr (.inl (by rw [hrun])), hends⟩
    rw [hrun] at h
    cases h

end Yggdrasil.Capsule
