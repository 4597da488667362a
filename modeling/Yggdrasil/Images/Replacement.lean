import Yggdrasil.Images.Glance

/-! Sequences of upload runs for one image name: from the first that succeeds on there is an
active image, and each that succeeds leaves exactly one, as long as a lookup of the name fails
only where there is no image. A second image makes it fail too, and then nothing is replaced. -/

namespace Yggdrasil.Images

open Effect Process Script

def Active (s : Glance) : Prop := ∃ i ∈ s, i.status = .active

/-- What the scripts take for granted of a call: a lookup fails only if there is no image, the
image that a rebuild need not replace is active, an image that a rebuild creates is active at
once, and a deletion that fails has deleted nothing. -/
def Granted (r : Run) (s : Glance) : (c : Call) → Except Exit (Answer c) → Glance → Prop
  | .showName, .ok _, s' => ∀ q, r = .rebuild q → q.forceRebuild = "" → Active s'
  | .showName, .error _, s' => s' = []
  | .create _, .ok _, s' => ∀ q, r = .rebuild q → ∀ i ∈ s', i.id ∉ s.ids → i.status = .active
  | .delete _, .error _, s' => Progress s s'
  | _, _, _ => True

def GrantedStep (r : Run) : World Glance Call Answer Exit :=
  fun s c a s' => Step s c a s' ∧ Granted r s c a s'

/-- The states of a sequence of runs. A run may succeed, fail, or be cut off in any state that it
passes; `uploaded` tells whether one has succeeded. -/
inductive Passes (W : Run → World Glance Call Answer Exit) (start : Glance) :
    Bool → Glance → Prop
  | start : Passes W start false start
  | wait {uploaded : Bool} {s s' : Glance} (h : Passes W start uploaded s) (hp : Progress s s') :
      Passes W start uploaded s'
  | succeeded {uploaded : Bool} {r : Run} {s s' : Glance} (h : Passes W start uploaded s)
      (hr : Exec (W r) r.script s (.value ()) s') : Passes W start true s'
  | failed {uploaded : Bool} {r : Run} {s s' : Glance} {x : Exit} (h : Passes W start uploaded s)
      (hr : Exec (W r) r.script s (.raised x) s') : Passes W start uploaded s'
  | cutOff {uploaded : Bool} {r : Run} {s s' : Glance} (h : Passes W start uploaded s)
      (hr : Exec (W r) r.script s .running s') : Passes W start uploaded s'

/-! ### Progress -/

section Progress

variable {s s' s'' : Glance} {e i : Image}

theorem Progress.refl (s : Glance) : Progress s s :=
  List.forall₂_same.2 fun _ _ => ⟨rfl, id⟩

theorem Progress.trans (h : Progress s s') (h' : Progress s' s'') : Progress s s'' := by
  induction h generalizing s'' with
  | nil => exact h'
  | cons hi _ ih =>
    cases h' with
    | cons hj h' => exact .cons ⟨hj.1.trans hi.1, fun ha => hj.2 (hi.2 ha)⟩ (ih h')

theorem Progress.ids (h : Progress s s') : s'.ids = s.ids := by
  induction h with
  | nil => rfl
  | cons hi _ ih => exact congrArg₂ List.cons hi.1 ih

theorem Progress.append (h : Progress s s') (i : Image) : Progress (s ++ [i]) (s' ++ [i]) :=
  List.rel_append h (Progress.refl [i])

theorem Progress.mem (h : Progress s s') (hi : i ∈ s) :
    ∃ j ∈ s', j.id = i.id ∧ (i.status = .active → j.status = .active) := by
  induction h with
  | nil => cases hi
  | cons hij _ ih =>
    rcases List.mem_cons.1 hi with rfl | hi
    · exact ⟨_, List.mem_cons_self, hij⟩
    · obtain ⟨j, hj, hji⟩ := ih hi
      exact ⟨j, List.mem_cons_of_mem _ hj, hji⟩

theorem Progress.active (h : Progress s s') (ha : Active s) : Active s' := by
  obtain ⟨i, hi, hact⟩ := ha
  obtain ⟨j, hj, -, hji⟩ := h.mem hi
  exact ⟨j, hj, hji hact⟩

theorem Active.append (h : Active s) (i : Image) : Active (s ++ [i]) := by
  obtain ⟨j, hj, hact⟩ := h
  exact ⟨j, List.mem_append_left _ hj, hact⟩

theorem progress_pair (h : Progress [e, i] s) : ∃ e' i', s = [e', i'] ∧ e'.id = e.id ∧ i'.id = i.id ∧
    (e.status = .active → e'.status = .active) := by
  cases h with
  | cons he h =>
    cases h with
    | cons hi h =>
      cases h with
      | nil => exact ⟨_, _, rfl, he.1, hi.1, he.2⟩

end Progress

/-! ### What a step does -/

section Steps

variable {s s' : Glance}

theorem progress_of_showName {a : Except Exit (Answer .showName)} (h : Step s .showName a s') :
    Progress s s' := by
  cases h <;> assumption

theorem progress_of_showStatus {id : String} {a : Except Exit (Answer (.showStatus id))}
    (h : Step s (.showStatus id) a s') : Progress s s' := by
  cases h <;> assumption

theorem progress_of_host {command : Host} {a : Except Exit (Answer (.host command))}
    (h : Step s (.host command) a s') : Progress s s' := by
  cases h <;> assumption

theorem active_of_create {arguments : List String} {a : Except Exit (Answer (.create arguments))}
    (h : Step s (.create arguments) a s') (ha : Active s) : Active s' := by
  cases h with
  | create hp => exact (hp.active ha).append _
  | createFailed hp => exact (hp.active ha).append _
  | failed hp => exact hp.active ha

end Steps

/-! ### Runs -/

section Runs

variable {b : Prop} {r : Run} {found s : Glance}

/-- There is an active image, if there has to be one. -/
def Kept (b : Prop) (s : Glance) : Prop := b → Active s

theorem Progress.kept {s' : Glance} (h : Progress s s') (hk : Kept b s) : Kept b s' :=
  fun hb => h.active (hk hb)

theorem triple_succeeds {α : Type} {W : World Glance Call Answer Exit} {I Pre T F : Glance → Prop}
    {Err : Exit → Glance → Prop} {p : Script α}
    (h : Triple W I Pre p (fun _ => T) fun _ => F) :
    Triple W I Pre (succeeds p) (fun c s => if c then T s else F s) Err := by
  refine triple_handle (M := fun _ s => F s ∧ I s) (triple_bind
    (h.last.consequence (fun _ hs => hs) (fun _ _ hs => hs) fun _ _ hs => hs) fun _ => ?_) fun _ => ?_
  · exact triple_ret (fun _ hs => hs.2) fun _ hs => hs.1
  · exact triple_ret (fun _ hs => hs.2) fun _ hs => hs.1

theorem triple_orTrue {W : World Glance Call Answer Exit} {I Pre T : Glance → Prop}
    {Err : Exit → Glance → Prop} {p : Script Unit} (h : Triple W I Pre p (fun _ => T) fun _ => T) :
    Triple W I Pre (orTrue p) (fun _ => T) Err :=
  triple_handle (M := fun _ s => T s ∧ I s) (h.last.consequence (fun _ hs => hs)
    (fun _ _ hs => hs.1) fun _ _ hs => hs) fun _ => triple_ret (fun _ hs => hs.2) fun _ hs => hs.1

/-- What does not reach Glance leaves time to it. -/
theorem triple_host (hk : Kept b found) (command : Host) :
    Triple (GrantedStep r) (Kept b) (Progress found) (host command) (fun _ => Progress found)
      fun _ => Progress found := by
  refine triple_perform (fun s hs => hs.kept hk) ?_ ?_
  · intro s a s' hs hw
    have hp := hs.trans (progress_of_host hw.1)
    exact ⟨hp, hp.kept hk⟩
  · intro s x s' hs hw
    have hp := hs.trans (progress_of_host hw.1)
    exact ⟨hp, hp.kept hk⟩

/-- What a lookup of the name finds. -/
def Found (r : Run) (existing : String) (s : Glance) : Prop :=
  (existing = "" ∧ s = []) ∨ ∃ e : Image, existing = e.id ∧ s = [e] ∧
    ∀ q, r = .rebuild q → q.forceRebuild = "" → e.status = .active

theorem triple_showName (hk : Kept b found) :
    Triple (GrantedStep r) (Kept b) (Progress found) showName
      (fun existing s => Progress found s ∧ Found r existing s) fun _ s => Progress found s ∧ s = [] := by
  refine triple_perform (fun s hs => hs.kept hk) ?_ ?_
  · rintro s a s' hs ⟨hw, hg⟩
    have hp := hs.trans (progress_of_showName hw)
    refine ⟨⟨hp, ?_⟩, hp.kept hk⟩
    cases hw with
    | @showName _ _ i hp hi =>
      refine .inr ⟨i, rfl, hi, fun q hq hf => ?_⟩
      obtain ⟨j, hj, hact⟩ := hg q hq hf
      rw [hi, List.mem_singleton] at hj
      rwa [hj] at hact
  · rintro s x s' hs ⟨hw, hg⟩
    have hp := hs.trans (progress_of_showName hw)
    exact ⟨⟨hp, hg⟩, hp.kept hk⟩

theorem triple_existingId :
    Triple (GrantedStep r) (Kept b) (Kept b) existingId (fun existing s => Kept b s ∧ Found r existing s)
      fun _ => Kept b := by
  refine triple_intro fun s hk => ?_
  have hshow : Triple (GrantedStep r) (Kept b) (Progress s) showName
      (fun _ => Progress s) fun _ u => Progress s u ∧ u = [] :=
    (triple_showName hk).consequence (fun _ h => h) (fun _ _ h => h.1) fun _ _ h => h
  refine triple_bind ((triple_succeeds hshow).consequence (fun u hu => hu ▸ Progress.refl s)
    (fun _ _ h => h) fun _ _ h => h) fun c => ?_
  cases c with
  | true =>
    exact (triple_showName hk).consequence (fun _ h => h) (fun _ _ h => ⟨h.1.kept hk, h.2⟩)
      fun _ _ h => h.1.kept hk
  | false =>
    exact triple_ret (fun _ h => h.1.kept hk) fun _ h => ⟨h.1.kept hk, .inl ⟨rfl, h.2⟩⟩

/-- An image is created beside those that were found. -/
theorem triple_create (hk : Kept b found) (arguments : List String) :
    Triple (GrantedStep r) (Kept b) (Progress found) (create arguments)
      (fun output s => ∃ i : Image, i.id ∉ found.ids ∧ (output = i.id ∨ output = "") ∧
        (∀ q, r = .rebuild q → i.status = .active) ∧ ∃ old, Progress found old ∧ s = old ++ [i])
      fun _ => Kept b := by
  refine triple_perform (fun s hs => hs.kept hk) ?_ ?_
  · rintro s a s' hs ⟨hw, hg⟩
    refine ⟨?_, fun hb => active_of_create hw (hs.kept hk hb)⟩
    cases hw with
    | @create _ old i _ _ hp hi ho =>
      rw [hs.ids] at hi
      refine ⟨i, hi, ho, fun q hq => hg q hq i (by simp) (by rwa [hs.ids]), old, hs.trans hp, rfl⟩
  · rintro s x s' hs ⟨hw, -⟩
    have hkept : Kept b s' := fun hb => active_of_create hw (hs.kept hk hb)
    exact ⟨hkept, hkept⟩

/-- The image of this ID is active. -/
def Uploaded (imageId : String) (s : Glance) : Prop :=
  ∃ j ∈ s, j.id = imageId ∧ j.status = .active

theorem triple_waitAttempts (hk : Kept b found) (imageId : String) (n : ℕ) :
    Triple (GrantedStep r) (Kept b) (Progress found) (waitAttempts imageId n)
      (fun _ s => Progress found s ∧ Uploaded imageId s) fun _ => Kept b := by
  induction n with
  | zero => exact triple_raise (fun _ hs => hs.kept hk) fun _ hs => hs.kept hk
  | succ n ih =>
    have hstatus : Triple (GrantedStep r) (Kept b) (Progress found)
        ((showStatus imageId >>= fun st => pure (some st)).handle fun _ => pure none)
        (fun st s => Progress found s ∧ (st = some .active → Uploaded imageId s))
        fun _ => Kept b := by
      apply triple_handle (M := fun _ => Progress found)
      · apply triple_bind (M := fun st s => Progress found s ∧ (st = .active → Uploaded imageId s))
        · refine triple_perform (fun s hs => hs.kept hk) ?_ ?_
          · rintro s a s' hs ⟨hw, -⟩
            have hp := hs.trans (progress_of_showStatus hw)
            refine ⟨⟨hp, ?_⟩, hp.kept hk⟩
            cases hw with
            | showStatus _ hi => exact fun hact => ⟨_, hi, rfl, hact⟩
          · rintro s x s' hs ⟨hw, -⟩
            have hp := hs.trans (progress_of_showStatus hw)
            exact ⟨hp, hp.kept hk⟩
        · intro st
          apply triple_ret
          · exact fun s hs => hs.1.kept hk
          · exact fun s hs => ⟨hs.1, fun hst => hs.2 (Option.some.inj hst)⟩
      · intro x
        exact triple_ret (fun s hs => hs.kept hk) fun s hs => ⟨hs, fun hst => nomatch hst⟩
    rw [waitAttempts]
    refine triple_bind hstatus fun st => ?_
    have hagain : Triple (GrantedStep r) (Kept b)
        (fun s => Progress found s ∧ (st = some .active → Uploaded imageId s))
        (host (.sleep 5) >>= fun _ => waitAttempts imageId n)
        (fun _ s => Progress found s ∧ Uploaded imageId s) fun _ => Kept b :=
      triple_bind ((triple_host hk _).consequence (fun _ hs => hs.1) (fun _ _ hs => hs)
        fun _ _ hs => hs.kept hk) fun _ => ih
    -- the three cases that end the loop, and those that go on with it
    rcases st with _ | ⟨⟨⟩⟩
    case some.active =>
      exact triple_ret (fun s hs => hs.1.kept hk) fun s hs => ⟨hs.1, hs.2 rfl⟩
    case some.killed =>
      exact triple_raise (fun s hs => hs.1.kept hk) fun s hs => hs.1.kept hk
    case some.deleted =>
      exact triple_raise (fun s hs => hs.1.kept hk) fun s hs => hs.1.kept hk
    all_goals exact hagain

variable {e i : Image}

/-- The old image goes once the new one is active; if it does not go, both are there. -/
theorem triple_delete_existing (hne : i.id ≠ e.id) (hk : Kept b [e]) :
    Triple (GrantedStep r) (Kept b) (fun s => Progress [e, i] s ∧ Uploaded i.id s) (delete e.id)
      (fun _ s => ∃ j, s = [j] ∧ j.status = .active) fun _ => Progress [e, i] := by
  have hk' : Kept b [e, i] := fun hb => (hk hb).append i
  refine triple_perform (fun s hs => hs.1.kept hk') ?_ ?_
  · rintro s a s' ⟨hs, hu⟩ ⟨hw, -⟩
    cases hw with
    | @delete _ s₁ _ hp =>
      obtain ⟨e', i', rfl, he, hi, -⟩ := progress_pair (hs.trans hp)
      obtain ⟨j, hj, hji, hact⟩ := hu
      obtain ⟨j', hj', hid, hact'⟩ := hp.mem hj
      have hfilter : [e', i'].filter (fun k => k.id ≠ e.id) = [i'] := by
        simp [he, hi, hne]
      rw [hfilter]
      have hactive : i'.status = .active := by
        rcases List.mem_pair.1 hj' with rfl | rfl
        · exact absurd ((hid.trans hji).symm.trans he) hne
        · exact hact' hact
      exact ⟨⟨i', rfl, hactive⟩, fun _ => ⟨i', List.mem_singleton_self i', hactive⟩⟩
  · rintro s x s' ⟨hs, -⟩ ⟨-, hg⟩
    have hp := hs.trans hg
    exact ⟨hp, hp.kept hk'⟩

theorem triple_delete_new (hne : i.id ≠ e.id) (hk : Kept b [e]) :
    Triple (GrantedStep r) (Kept b) (Progress [e, i]) (delete i.id) (fun _ => Kept b)
      fun _ => Kept b := by
  have hk' : Kept b [e, i] := fun hb => (hk hb).append i
  refine triple_perform (fun s hs => hs.kept hk') ?_ ?_
  · rintro s a s' hs ⟨hw, -⟩
    have hkept : Kept b s' := by
      cases hw with
      | @delete _ s₁ _ hp =>
        obtain ⟨e', i', rfl, he, hi, hact⟩ := progress_pair (hs.trans hp)
        have hfilter : [e', i'].filter (fun k => k.id ≠ i.id) = [e'] := by
          simp [he, hi, hne.symm]
        intro hb
        obtain ⟨k, hk, hkact⟩ := hk hb
        rw [List.mem_singleton.1 hk] at hkact
        rw [hfilter]
        exact ⟨e', List.mem_singleton_self e', hact hkact⟩
    exact ⟨hkept, hkept⟩
  · rintro s x s' hs ⟨-, hg⟩
    have hkept := (hs.trans hg).kept hk'
    exact ⟨hkept, hkept⟩

theorem triple_host_kept (command : Host) :
    Triple (GrantedStep r) (Kept b) (Kept b) (host command) (fun _ => Kept b) fun _ => Kept b :=
  triple_intro fun s hk => (triple_host hk command).consequence (fun _ hu => hu ▸ Progress.refl s)
    (fun _ _ hu => hu.kept hk) fun _ _ hu => hu.kept hk

/-- The one image that there is after a success. -/
def Single (s : Glance) : Prop := ∃ i : Image, s = [i] ∧ i.status = .active

theorem single_of_progress {s : Glance} (hs : Progress [i] s) (hu : Active s) : Single s := by
  cases hs with
  | cons hi h =>
    cases h with
    | nil =>
      obtain ⟨j, hj, hact⟩ := hu
      rw [List.mem_singleton.1 hj] at hact
      exact ⟨_, rfl, hact⟩

theorem Single.kept {s : Glance} (h : Single s) : Kept b s := by
  obtain ⟨i, rfl, hact⟩ := h
  exact fun _ => ⟨i, List.mem_singleton_self i, hact⟩

theorem triple_uploadImage (u : Upload) :
    Triple (GrantedStep r) (Kept b) (Kept b) (uploadImage u) (fun _ => Single) fun _ => Kept b := by
  have hdie (text : String) : Triple (GrantedStep r) (Kept b) (Kept b) (die text : Script Unit)
      (fun _ => Single) fun _ => Kept b := triple_raise (fun _ hk => hk) fun _ hk => hk
  refine triple_ite (fun _ => hdie _) fun _ => triple_ite (fun _ => hdie _) fun _ =>
    triple_ite (fun _ => hdie _) fun _ => ?_
  refine triple_bind (triple_host_kept _) fun _ => triple_bind triple_existingId fun existing => ?_
  refine triple_intro fun found ⟨hk, hfound⟩ => ?_
  refine triple_bind ((triple_create hk _).consequence (fun v hv => hv ▸ Progress.refl found)
    (fun _ _ h => h) fun _ _ h => h) fun output => ?_
  refine triple_intro ?_
  rintro s ⟨i, hi, ho, -, old, hp, rfl⟩
  have hs : Progress (found ++ [i]) (old ++ [i]) := hp.append i
  have hk' : Kept b (found ++ [i]) := fun hb => (hk hb).append i
  refine triple_ite (fun _ => ?_) fun hne => ?_
  · apply triple_raise
    · exact fun v hv => hv ▸ hs.kept hk'
    · exact fun v hv => hv ▸ hs.kept hk'
  obtain rfl := ho.resolve_right hne
  refine triple_bind ((triple_waitAttempts hk' i.id 120).consequence (fun v hv => hv ▸ hs)
    (fun _ _ h => h) fun _ _ h => h) fun _ => ?_
  rcases hfound with ⟨rfl, rfl⟩ | ⟨e, rfl, rfl, -⟩
  · rw [if_neg fun h => h.1 rfl]
    apply triple_ret
    · exact fun v hv => hv.1.kept hk'
    · intro v hv
      obtain ⟨j, hj, -, hact⟩ := hv.2
      exact single_of_progress hv.1 ⟨j, hj, hact⟩
  · have hne' : i.id ≠ e.id := fun h => hi (by simp [Glance.ids, h])
    rw [if_pos ⟨e.id_ne, hne'.symm⟩]
    refine triple_bind (triple_succeeds (triple_delete_existing hne' hk)) fun c => ?_
    cases c with
    | true => exact triple_ret (fun _ => Single.kept) fun _ hv => hv
    | false =>
      refine triple_bind (triple_orTrue (triple_delete_new hne' hk)) fun _ => ?_
      exact triple_raise (fun _ h => h) fun _ h => h

theorem triple_download (hk : Kept b found) (q : Rebuild) :
    Triple (GrantedStep r) (Kept b) (Progress found) q.download (fun _ => Progress found)
      fun _ => Progress found :=
  triple_ite (fun _ => triple_host hk _) fun _ => triple_bind (triple_host hk _) fun _ =>
    triple_host hk _

theorem triple_inject (hk : Kept b found) (q : Rebuild) :
    Triple (GrantedStep r) (Kept b) (Progress found) q.inject (fun _ => Progress found)
      fun _ => Progress found :=
  triple_ite (fun _ => triple_ret (fun _ hs => hs.kept hk) fun _ hs => hs) fun _ => triple_host hk _

theorem triple_build (hk : Kept b found) (q : Rebuild) :
    Triple (GrantedStep r) (Kept b) (Progress found) q.build (fun _ => Progress found)
      fun _ => Progress found := by
  refine triple_bind (triple_host hk _) fun _ => triple_bind (triple_download hk q) fun _ => ?_
  refine triple_bind (triple_host hk _) fun _ => triple_bind (triple_inject hk q) fun _ => ?_
  exact triple_host hk _

theorem triple_publish {q : Rebuild} {existing : String} (hr : r = .rebuild q) (hk : Kept b found)
    (hfound : Found r existing found) :
    Triple (GrantedStep r) (Kept b) (Progress found) (q.publish existing) (fun _ => Single)
      fun _ => Kept b := by
  rcases hfound with ⟨rfl, rfl⟩ | ⟨e, rfl, rfl, -⟩
  · refine triple_ite (fun _ => ?_) fun hne => absurd rfl hne
    refine triple_bind (triple_create hk _) fun output => ?_
    have hsingle (s : Glance) (h : ∃ i : Image, i.id ∉ Glance.ids [] ∧
        (output = i.id ∨ output = "") ∧ (∀ q, r = .rebuild q → i.status = .active) ∧
        ∃ old, Progress [] old ∧ s = old ++ [i]) : Single s := by
      obtain ⟨i, -, -, hact, old, hp, rfl⟩ := h
      cases hp
      exact ⟨i, rfl, hact q hr⟩
    exact triple_ret (fun s h => (hsingle s h).kept) hsingle
  · refine triple_ite (fun he => absurd he e.id_ne) fun _ => ?_
    refine triple_bind (triple_create hk _) fun output => triple_intro ?_
    rintro s ⟨i, hi, ho, hact, old, hp, rfl⟩
    have hs : Progress [e, i] (old ++ [i]) := hp.append i
    have hk' : Kept b [e, i] := fun hb => (hk hb).append i
    have hne : i.id ≠ e.id := fun h => hi (by simp [Glance.ids, h])
    refine triple_ite (fun _ => ?_) fun hout => ?_
    · refine triple_bind ((triple_host hk' _).consequence (fun v hv => hv ▸ hs) (fun _ _ h => h)
        fun _ _ h => h.kept hk') fun _ => ?_
      exact triple_raise (fun _ h => h.kept hk') fun _ h => h.kept hk'
    obtain rfl := ho.resolve_right hout
    have hu : Uploaded i.id (old ++ [i]) := ⟨i, by simp, rfl, hact q hr⟩
    refine triple_bind (triple_succeeds ((triple_delete_existing hne hk).consequence
      (fun v hv => hv ▸ ⟨hs, hu⟩) (fun _ _ h => h) fun _ _ h => h)) fun c => ?_
    cases c with
    | true => exact triple_ret (fun _ => Single.kept) fun _ hv => hv
    | false =>
      refine triple_bind (triple_orTrue (triple_delete_new hne hk)) fun _ => ?_
      refine triple_bind (triple_host_kept _) fun _ => ?_
      exact triple_raise (fun _ h => h) fun _ h => h

theorem triple_removeFiles_single (q : Rebuild) :
    Triple (GrantedStep r) (Kept b) Single q.removeFiles (fun _ => Single) fun _ => Kept b := by
  refine triple_intro fun s hs => ?_
  have hk : Kept b s := hs.kept
  obtain ⟨i, rfl, hact⟩ := hs
  refine (triple_host hk _).consequence (fun _ hu => hu ▸ Progress.refl [i]) (fun _ u hu => ?_)
    fun _ _ hu => hu.kept hk
  exact single_of_progress hu (hu.active ⟨i, List.mem_singleton_self i, hact⟩)

theorem triple_createOpenstackLinuxImage {q : Rebuild} (hr : r = .rebuild q) :
    Triple (GrantedStep r) (Kept b) (Kept b) (createOpenstackLinuxImage q) (fun _ => Single)
      fun _ => Kept b := by
  refine triple_bind triple_existingId fun existing => triple_intro fun found ⟨hk, hfound⟩ => ?_
  refine triple_ite (fun _ => ?_) fun hskip => ?_
  · refine triple_bind ((triple_build hk q).consequence (fun v hv => hv ▸ Progress.refl found)
      (fun _ _ h => h) fun _ _ h => h.kept hk) fun _ => ?_
    exact triple_bind (triple_publish hr hk hfound) fun _ => triple_removeFiles_single q
  · -- nothing is uploaded: the image is there and is not to be replaced
    push Not at hskip
    obtain ⟨hexisting, hforce⟩ := hskip
    rcases hfound with ⟨h, -⟩ | ⟨e, -, rfl, hact⟩
    · exact absurd h hexisting
    · have hsingle : Single [e] := ⟨e, rfl, hact q hr hforce⟩
      apply triple_ret
      · exact fun v hv => hv ▸ hk
      · exact fun v hv => hv ▸ hsingle

theorem triple_script : ∀ r : Run, Triple (GrantedStep r) (Kept b) (Kept b) r.script
    (fun _ => Single) fun _ => Kept b
  | .upload u => triple_uploadImage u
  | .rebuild _ => triple_createOpenstackLinuxImage rfl

end Runs

/-! ### Sequences of runs -/

theorem Passes.kept {start s : Glance} {uploaded : Bool} (h : Passes GrantedStep start uploaded s) :
    Kept (uploaded = true) s := by
  induction h with
  | start => exact fun h => nomatch h
  | wait _ hp ih => exact hp.kept ih
  | succeeded _ hr ih => exact ((triple_script _).value _ ih _ _ hr).kept
  | failed _ hr ih => exact (triple_script _).raised _ ih _ _ hr
  | cutOff _ hr ih => exact (triple_script _).always _ ih _ _ hr

/-- In every sequence of runs for which all that is granted, there is an active image from the
first success on, and a success leaves exactly one image, which is active. -/
theorem replacement_safe {start s : Glance} {uploaded : Bool}
    (h : Passes GrantedStep start uploaded s) :
    (uploaded = true → Active s) ∧ ∀ (r : Run) (s' : Glance),
      Exec (GrantedStep r) r.script s (.value ()) s' →
        ∃ i : Image, s' = [i] ∧ i.status = .active :=
  ⟨h.kept, fun r s' hr => (triple_script r).value s h.kept () s' hr⟩

section Example

private def omarchy : Upload :=
  ⟨"omarchy-latest", "public", "bios", "omarchy-image.raw",
    ["IMAGE_FORMAT=raw", "OMARCHY_VERSION=3.1", "DISK_SIZE_GIB=50"]⟩

private def first : Image := ⟨"1", .active, by decide⟩

private def second : Image := ⟨"2", .queued, by decide⟩

private def third : Image := ⟨"3", .active, by decide⟩

/-- Three images are created one after the other, and the second one never becomes active. -/
private def answer (s : Glance) : (c : Call) → Except Exit (Answer c) × Glance
  | .showName => match s with
    | [i] => (.ok i.id, s)
    | _ => (.error .failed, s)
  | .showStatus imageId => match s.find? fun i => i.id = imageId with
    | some i => (.ok i.status, s)
    | none => (.error .failed, s)
  | .create _ =>
    if s = [] then (.ok "1", [first])
    else if s = [first] then (.ok "2", [first, second])
    else if s = [first, second] then (.ok "3", [first, second, third])
    else (.error .failed, s)
  | .delete _ => (.error .failed, s)
  | .host _ => (.ok (), s)

private theorem step_answer (s : Glance) (c : Call) : Step s c (answer s c).1 (answer s c).2 := by
  have hp := Progress.refl s
  cases c with
  | showName =>
    rcases s with _ | ⟨i, _ | ⟨j, s⟩⟩
    · exact .failed hp
    · exact .showName hp rfl
    · exact .failed hp
  | showStatus imageId =>
    rcases hf : s.find? fun i => i.id = imageId with _ | i
    · simpa [answer, hf] using Step.failed hp
    · have hid : i.id = imageId := by simpa using List.find?_some hf
      subst hid
      simpa [answer, hf] using Step.showStatus hp (List.mem_of_find?_eq_some hf)
  | create arguments =>
    unfold answer
    dsimp only
    split_ifs with h₁ h₂ h₃
    · subst h₁
      exact .create (i := first) hp (by decide) (.inl rfl)
    · subst h₂
      exact .create (i := second) hp (by decide) (.inl rfl)
    · subst h₃
      exact .create (i := third) hp (by decide) (.inl rfl)
    · exact .failed hp
  | delete imageId => exact .failed hp
  | host command => exact .host hp

private theorem exec_answer (s : Glance) : Exec Step (uploadImage omarchy) s
    ((uploadImage omarchy).play answer s).1 ((uploadImage omarchy).play answer s).2 :=
  exec_play step_answer _ s

/-- Glance takes one image only. -/
private def answerOnce (s : Glance) : (c : Call) → Except Exit (Answer c) × Glance
  | .create _ => if s = [] then (.ok "1", [first]) else (.error .failed, s)
  | c => answer s c

private theorem granted_answerOnce (s : Glance) (c : Call) (hs : s = [] ∨ s = [first]) :
    GrantedStep (.upload omarchy) s c (answerOnce s c).1 (answerOnce s c).2 ∧
      ((answerOnce s c).2 = [] ∨ (answerOnce s c).2 = [first]) := by
  have hp := Progress.refl s
  have hnot (q : Rebuild) : Run.upload omarchy ≠ .rebuild q := fun h => nomatch h
  cases c with
  | showName =>
    rcases hs with rfl | rfl
    · exact ⟨⟨.failed hp, rfl⟩, .inl rfl⟩
    · exact ⟨⟨.showName hp rfl, fun q hq => absurd hq (hnot q)⟩, .inr rfl⟩
  | showStatus imageId =>
    have hstate : (answerOnce s (.showStatus imageId)).2 = s := by
      unfold answerOnce answer
      dsimp only
      split <;> rfl
    have hstep : Step s (.showStatus imageId) (answerOnce s (.showStatus imageId)).1
        (answerOnce s (.showStatus imageId)).2 := step_answer s (.showStatus imageId)
    exact ⟨⟨hstep, trivial⟩, hs.imp hstate.trans hstate.trans⟩
  | create arguments =>
    rcases hs with rfl | rfl
    · exact ⟨⟨.create (i := first) hp (by decide) (.inl rfl), fun q hq => absurd hq (hnot q)⟩,
        .inr rfl⟩
    · exact ⟨⟨.failed hp, trivial⟩, .inr rfl⟩
  | delete imageId => exact ⟨⟨.failed hp, hp⟩, hs⟩
  | host command => exact ⟨⟨.host hp, trivial⟩, hs⟩

/-- After a first upload there is an image, and there is one as long as all that is granted. -/
theorem first_safe :
    Active [first] ∧ ∀ (r : Run) (s' : Glance),
      Exec (GrantedStep r) r.script [first] (.value ()) s' →
        ∃ i : Image, s' = [i] ∧ i.status = .active :=
  have hr : Exec (GrantedStep (.upload omarchy)) (uploadImage omarchy) [] (.value ()) [first] :=
    exec_play_of_invariant granted_answerOnce (uploadImage omarchy) (.inl rfl)
  have hsafe := replacement_safe (.succeeded (r := .upload omarchy) .start hr)
  ⟨hsafe.1 rfl, hsafe.2⟩

/-- The second run gives up on its image, so that the third finds two and replaces none. -/
theorem replacement_not_safe :
    ¬∀ (start s : Glance) (uploaded : Bool), Passes (fun _ => Step) start uploaded s →
      (uploaded = true → Active s) ∧ ∀ (r : Run) (s' : Glance),
        Exec Step r.script s (.value ()) s' → ∃ i : Image, s' = [i] ∧ i.status = .active := by
  intro h
  have h₁ : Exec Step (uploadImage omarchy) [] (.value ()) [first] := exec_answer []
  have h₂ : Exec Step (uploadImage omarchy) [first]
      (.raised (.message "ERROR: Uploaded image 2 did not become active")) [first, second] :=
    exec_answer [first]
  have h₃ : Exec Step (uploadImage omarchy) [first, second] (.value ()) [first, second, third] :=
    exec_answer [first, second]
  have hpasses : Passes (fun _ => Step) [] true [first, second] :=
    .failed (r := .upload omarchy) (.succeeded (r := .upload omarchy) .start h₁) h₂
  obtain ⟨i, hi, -⟩ := (h [] [first, second] true hpasses).2 (.upload omarchy) _ h₃
  have hlength : [first, second, third].length = 1 := congrArg List.length hi
  exact absurd hlength (by decide)

end Example

end Yggdrasil.Images
