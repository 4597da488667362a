import Yggdrasil.DiskCleanup.Indices

/-! What each of the tasks for the log indices does to the variables, one task after the other. -/

namespace Yggdrasil.DiskCleanup

open Effect Program Python

/-! ### Reading the indices -/

section Preparation

variable {sel : Playbook.TagSelection} {env : Env} {world : World} {host : String} {s : Cluster}

/-- A successful task without a loop whose conditions are switches. -/
theorem triple_switched (happlies : Applies sel env) {I J : Vars → Prop} {a : Action}
    (ha : a.tags = ["cluster", "opensearch"] ∧ a.loop = none ∧ ∀ cond ∈ a.when, cond ∈ switches)
    (hI : ∀ v, I v → v.Healthy)
    (hok : ∀ log, a.succeeds (a.event world ⟨env, log, host, none⟩).result = true)
    (hpost : ∀ log, I (vars env log host) →
      J ((vars env log host).after (a.event world ⟨env, log, host, none⟩))) :
    Triple False (fun log => I (vars env log host))
      (Playbook.runTask sel [host] (a.task env world)) (fun _ log => J (vars env log host))
      fun _ _ => False := by
  refine triple_task (ha.1 ▸ happlies.opensearch) ((triple_perform_vars ha.2.1 (fun log h cond hc =>
    eval_switches happlies (hI _ h) cond (ha.2.2 cond hc)) hok hpost).consequence (fun _ => id)
      (fun ok log h => ⟨fun _ => h.2, fun hfalse => ?_⟩) fun _ _ h => h)
  rw [h.1] at hfalse
  cases hfalse

theorem succeeds_of_ok {a : Action} {r : Result} (h : r.ok) : a.succeeds r = true := by
  simp [Action.succeeds, h.1, h.2]

theorem triple_checkHealth (happlies : Applies sel env) (hserves : Serves world host s) :
    Triple False (fun log => (vars env log host).cutoffs = [] ∧ (vars env log host).epochs = [] ∧
        (vars env log host).deleted = [] ∧ (vars env log host).closed = [])
      (Playbook.runTask sel [host] (checkHealth.task env world))
      (fun _ log => (vars env log host).Begun) fun _ _ => False := by
  refine triple_task happlies.opensearch ((triple_perform_vars
    (I := fun v => v.cutoffs = [] ∧ v.epochs = [] ∧ v.deleted = [] ∧ v.closed = [])
    (J := Vars.Begun) rfl (fun log _ cond hcond => ?_) (fun log => ?_)
      fun log hI => ?_).consequence (fun _ => id) (fun ok log h => ⟨fun _ => h.2, fun hfalse => ?_⟩)
        fun _ _ h => h)
  · rw [List.mem_singleton.1 hcond]
    exact happlies.cleanup
  · exact succeeds_of_ok (hserves.health log none).1
  · obtain ⟨h₁, h₂, h₃, h₄⟩ := Vars.after_of_item (v := vars env log host)
      (e := checkHealth.event world ⟨env, log, host, none⟩) rfl
    refine ⟨?_, h₁.trans hI.1, h₂.trans hI.2.1, h₃.trans hI.2.2.1, h₄.trans hI.2.2.2⟩
    have hstatus := (hserves.health log none).2
    simp [Vars.Healthy, Vars.after, Event.returned, Action.event, checkHealth,
      Module.result] at hstatus ⊢
    exact hstatus
  · rw [h.1] at hfalse
    cases hfalse

/-- What the tasks have read of the indices so far. -/
def Vars.Listed (s : Cluster) (v : Vars) : Prop :=
  v.indexList.map Result.content = some (Cluster.listing (s.indices.map Index.name))

def Vars.Selected (s : Cluster) (v : Vars) : Prop := textsOf v.indices = s.dated

def Vars.OpenListed (s : Cluster) (v : Vars) : Prop :=
  v.openIndexList.map Result.content =
    some (Cluster.listing ((s.indices.filter Index.isOpen).map Index.name))

def Vars.OpenSelected (s : Cluster) (v : Vars) : Prop :=
  textsOf v.openIndices = ((s.indices.filter Index.isOpen).map Index.name).filter isDatedIndex

theorem linesFrom_listing {names : List String}
    (h : ∀ name ∈ names, ∀ c ∈ name.toList, isSpace c = false) :
    splitlines (Cluster.listing names) = names := by
  have hlines : linesFrom [] (names.flatMap fun name => name.toList ++ ['\n']) =
      names.map String.toList := by
    induction names with
    | nil => rfl
    | cons name names ih =>
      have hends : ∀ c ∈ name.toList, isLineEnd c = false := fun c hc =>
        isLineEnd_of_not_isSpace (h name List.mem_cons_self c hc)
      rw [List.flatMap_cons, List.append_assoc, List.singleton_append, linesFrom_append hends,
        List.nil_append, ih fun name' hname => h name' (List.mem_cons_of_mem name hname)]
      rfl
  rw [splitlines, Cluster.listing, String.toList_ofList, hlines, List.map_map]
  simp [Function.comp_def]

/-- The names with the form of a date are found in the listing. -/
theorem datedNames_listing (names : List String)
    (h : ∀ name ∈ names, ∀ c ∈ name.toList, isSpace c = false) :
    textsOf (some (datedNames (Cluster.listing names))) = names.filter isDatedIndex := by
  have hstrip : names.map strip = names :=
    (List.map_congr_left fun name hname => strip_eq_self (h name hname)).trans (List.map_id names)
  rw [datedNames, linesFrom_listing h, hstrip]
  simp [textsOf, Value.toStr, Function.comp_def]

theorem triple_listIndices (happlies : Applies sel env) (hserves : Serves world host s) :
    Triple False (fun log => (vars env log host).Begun)
      (Playbook.runTask sel [host] (listIndices.task env world))
      (fun _ log => (vars env log host).Begun ∧ (vars env log host).Listed s)
      fun _ _ => False := by
  refine triple_switched (J := fun v => v.Begun ∧ v.Listed s) happlies
    ⟨rfl, rfl, by decide⟩ (fun _ h => h.healthy)
    (fun log => succeeds_of_ok (hserves.list log none).1)
    fun log h => ⟨h.after rfl (show listIndices.register ≠ _ by decide), ?_⟩
  exact congrArg some (hserves.list log none).2

theorem triple_selectIndices (happlies : Applies sel env) :
    Triple False (fun log => (vars env log host).Begun ∧ (vars env log host).Listed s)
      (Playbook.runTask sel [host] (selectIndices.task env world))
      (fun _ log => (vars env log host).Begun ∧ (vars env log host).Selected s)
      fun _ _ => False := by
  refine triple_switched (I := fun v => v.Begun ∧ v.Listed s)
    (J := fun v => v.Begun ∧ v.Selected s) happlies ⟨rfl, rfl, by decide⟩
    (fun _ h => h.1.healthy) (fun _ => rfl)
    fun log h => ⟨h.1.after rfl (show selectIndices.register ≠ _ by decide), ?_⟩
  have hcontent : ((Context.result ⟨env, log, host, none⟩ .opensearchIndexList).map
      Result.content).getD "" = Cluster.listing (s.indices.map Index.name) :=
    congrArg (Option.getD · "") h.2
  have hlisting := datedNames_listing (s.indices.map Index.name) fun name hname => by
    obtain ⟨i, -, rfl⟩ := List.mem_map.1 hname
    exact i.plain
  rw [← hcontent] at hlisting
  exact hlisting

theorem triple_listOpenIndices (happlies : Applies sel env) (hserves : Serves world host s) :
    Triple False (fun log => (vars env log host).Begun ∧ (vars env log host).Selected s)
      (Playbook.runTask sel [host] (listOpenIndices.task env world))
      (fun _ log => (vars env log host).Begun ∧ (vars env log host).Selected s ∧
        (vars env log host).OpenListed s) fun _ _ => False := by
  refine triple_switched (I := fun v => v.Begun ∧ v.Selected s)
    (J := fun v => v.Begun ∧ v.Selected s ∧ v.OpenListed s) happlies ⟨rfl, rfl, by decide⟩
    (fun _ h => h.1.healthy) (fun log => succeeds_of_ok (hserves.listOpen log none).1)
    fun log h => ⟨h.1.after rfl (show listOpenIndices.register ≠ _ by decide), h.2, ?_⟩
  exact congrArg some (hserves.listOpen log none).2

theorem triple_selectOpenIndices (happlies : Applies sel env) :
    Triple False (fun log => (vars env log host).Begun ∧ (vars env log host).Selected s ∧
        (vars env log host).OpenListed s)
      (Playbook.runTask sel [host] (selectOpenIndices.task env world))
      (fun _ log => (vars env log host).Begun ∧ (vars env log host).Selected s ∧
        (vars env log host).OpenSelected s) fun _ _ => False := by
  refine triple_switched (I := fun v => v.Begun ∧ v.Selected s ∧ v.OpenListed s)
    (J := fun v => v.Begun ∧ v.Selected s ∧ v.OpenSelected s) happlies ⟨rfl, rfl, by decide⟩
    (fun _ h => h.1.healthy) (fun _ => rfl)
    fun log h => ⟨h.1.after rfl (show selectOpenIndices.register ≠ _ by decide), h.2.1, ?_⟩
  have hcontent : ((Context.result ⟨env, log, host, none⟩ .opensearchOpenIndexList).map
      Result.content).getD "" =
        Cluster.listing ((s.indices.filter Index.isOpen).map Index.name) :=
    congrArg (Option.getD · "") h.2.2
  have hlisting := datedNames_listing ((s.indices.filter Index.isOpen).map Index.name)
    fun name hname => by
      obtain ⟨i, -, rfl⟩ := List.mem_map.1 hname
      exact i.plain
  rw [← hcontent] at hlisting
  exact hlisting

end Preparation

/-! ### The cutoffs and the dates -/

section Dates

variable {sel : Playbook.TagSelection} {env : Env} {world : World} {host : String} {s : Cluster}

/-- The indices are read, and no request is made. -/
structure Vars.Ready (s : Cluster) (v : Vars) : Prop where
  healthy : v.Healthy
  selected : v.Selected s
  openSelected : v.OpenSelected s
  epochs : v.epochs = []
  deleted : v.deleted = []
  closed : v.closed = []

/-- Both cutoffs are saved. -/
def Vars.Cut (s : Cluster) (v : Vars) : Prop :=
  toInt (v.softCutoff.getD .none) = s.softCutoff ∧ toInt (v.hardCutoff.getD .none) = s.hardCutoff

def softItem : Item := ⟨"soft", none, ""⟩

def hardItem : Item := ⟨"hard", none, ""⟩

/-- What the task for the cutoffs registers for one of the two. -/
def Cluster.cutoffItem (s : Cluster) (i : Item) : Item :=
  ⟨i.label, some 0, toString (if i.label = "soft" then s.softCutoff else s.hardCutoff)⟩

/-- An event that is no request leaves the requests. -/
theorem Vars.after_of_task {v : Vars} {e : Event} (hd : e.task ≠ deleteIndices.name)
    (hc : e.task ≠ closeIndices.name) :
    (v.after e).deleted = v.deleted ∧ (v.after e).closed = v.closed := by
  simp [Vars.after, Event.request, hd, hc]

theorem toInt_toString (t : ℤ) : toInt (.str (toString t)) = t := by
  rw [toInt, intOf, intOfText_toString]

theorem triple_calculateCutoffs (happlies : Applies sel env) (hserves : Serves world host s) :
    Triple False (fun log => (vars env log host).Begun ∧ (vars env log host).Selected s ∧
        (vars env log host).OpenSelected s)
      (Playbook.runTask sel [host] (calculateCutoffs.task env world))
      (fun _ log => (vars env log host).Ready s ∧
        (vars env log host).cutoffs = [softItem, hardItem].map s.cutoffItem) fun _ _ => False := by
  refine triple_task happlies.opensearch ((triple_perform_loop (l := .retention)
    (m := [softItem, hardItem]) (I := fun pre ok log => ok = true ∧
      (vars env log host).Ready s ∧ (vars env log host).cutoffs = pre.map s.cutoffItem) rfl
    (fun _ _ => rfl)
    (fun log h => ⟨rfl, ⟨h.1.healthy, h.2.1, h.2.2, h.1.epochs, h.1.deleted, h.1.closed⟩,
      h.1.cutoffs⟩) ?_ ?_).consequence (fun _ => id)
      (fun ok log h => ⟨fun _ => h.2, fun hfalse => ?_⟩) fun _ _ h => h)
  · rintro pre item post ok log hsplit ⟨rfl, hready, hcutoffs⟩ -
    have hprints : (world log host calculateCutoffs.name (some item)).prints
        (some (if item.label = "soft" then s.softCutoff else s.hardCutoff)) := by
      have hmem : item ∈ [softItem, hardItem] := by rw [hsplit]; simp
      rcases List.mem_pair.1 hmem with rfl | rfl
      · exact hserves.soft log _ rfl
      · exact hserves.hard log _ rfl
    have hhost : (calculateCutoffs.event world ⟨env, log, host, some item⟩).host = host := rfl
    obtain ⟨hd, hc⟩ := Vars.after_of_task (v := vars env log host)
      (e := calculateCutoffs.event world ⟨env, log, host, some item⟩)
      (show calculateCutoffs.name ≠ _ by decide) (show calculateCutoffs.name ≠ _ by decide)
    refine ⟨?_, ?_, ?_⟩
    · rw [Bool.and_true]
      exact succeeds_of_ok hprints.1
    · rw [vars_append hhost]
      exact ⟨hready.healthy.after (show calculateCutoffs.register ≠ _ by decide), hready.selected,
        hready.openSelected, (List.append_nil _).trans hready.epochs, hd.trans hready.deleted,
        hc.trans hready.closed⟩
    · rw [vars_append hhost, List.map_append, ← hcutoffs]
      refine congrArg ((vars env log host).cutoffs ++ ·) ?_
      change [(⟨item.label, (world log host calculateCutoffs.name (some item)).rc,
        (world log host calculateCutoffs.name (some item)).stdout⟩ : Item)] = _
      rw [hprints.2.1, hprints.2.2]
      rfl
  · rintro pre item post ok log - ⟨-, hready, -⟩ hskip
    rw [List.all_eq_true.2 fun cond hcond => eval_switches happlies hready.healthy cond
      ((show ∀ cond ∈ calculateCutoffs.when, cond ∈ switches by decide) cond hcond)] at hskip
    cases hskip
  · rw [h.1] at hfalse
    cases hfalse

theorem toInt_cutoff {log : List Event}
    (h : (vars env log host).cutoffs = [softItem, hardItem].map s.cutoffItem) (name : String)
    (t : ℤ) (hfind : (([softItem, hardItem].map s.cutoffItem).find? fun i => i.label = name).map
      Item.stdout = some (toString t)) : toInt (Context.cutoff ⟨env, log, host, none⟩ name) = t := by
  have hcutoffs : Context.results ⟨env, log, host, none⟩ .opensearchCutoffs =
    [softItem, hardItem].map s.cutoffItem := h
  have hint (i : ℤ) : toInt (.int i) = i := rfl
  rw [Context.cutoff, hcutoffs, hfind, hint, Option.getD_some, toInt_toString]

theorem triple_saveCutoffs (happlies : Applies sel env) :
    Triple False (fun log => (vars env log host).Ready s ∧
        (vars env log host).cutoffs = [softItem, hardItem].map s.cutoffItem)
      (Playbook.runTask sel [host] (saveCutoffs.task env world))
      (fun _ log => (vars env log host).Ready s ∧ (vars env log host).Cut s) fun _ _ => False := by
  refine triple_switched
    (I := fun v => v.Ready s ∧ v.cutoffs = [softItem, hardItem].map s.cutoffItem)
    (J := fun v => v.Ready s ∧ v.Cut s) happlies ⟨rfl, rfl, by decide⟩ (fun _ h => h.1.healthy)
    (fun _ => rfl) fun log h => ⟨?_, ?_, ?_⟩
  · obtain ⟨-, h₂, h₃, h₄⟩ := Vars.after_of_item (v := vars env log host)
      (e := saveCutoffs.event world ⟨env, log, host, none⟩) rfl
    exact ⟨h.1.healthy.after (show saveCutoffs.register ≠ _ by decide), h.1.selected,
      h.1.openSelected, h₂.trans h.1.epochs, h₃.trans h.1.deleted, h₄.trans h.1.closed⟩
  · exact toInt_cutoff h.2 "soft" s.softCutoff (by simp [softItem, Cluster.cutoffItem])
  · exact toInt_cutoff h.2 "hard" s.hardCutoff (by simp [softItem, hardItem, Cluster.cutoffItem])

/-- What the task for the dates registers for a name. -/
def Cluster.epochItem (s : Cluster) (name : String) : Item :=
  match s.date (dateArgument name) with
  | some t => ⟨name, some 0, toString t⟩
  | none => ⟨name, some 1, ""⟩

/-- All that the decisions depend on is known. -/
structure Vars.Dated (s : Cluster) (v : Vars) : Prop where
  healthy : v.Healthy
  openSelected : v.OpenSelected s
  cut : v.Cut s
  epochs : v.epochs = s.dated.map s.epochItem

/-- The names with the form of a date are dates. -/
def Cluster.Possible (s : Cluster) : Prop := ∀ name ∈ s.dated, (s.date (dateArgument name)).isSome

instance (s : Cluster) : Decidable s.Possible :=
  inferInstanceAs (Decidable (∀ name ∈ s.dated, (s.date (dateArgument name)).isSome))

/-- The task ends the playbook if one of the names has an impossible date. -/
theorem triple_calculateEpochs (happlies : Applies sel env) (hserves : Serves world host s) :
    Triple False (fun log => (vars env log host).Ready s ∧ (vars env log host).Cut s)
      (Playbook.runTask sel [host] (calculateEpochs.task env world))
      (fun _ log => s.Possible ∧ (vars env log host).Dated s ∧ (vars env log host).deleted = [] ∧
        (vars env log host).closed = [])
      fun _ log => ¬s.Possible ∧ (vars env log host).deleted = [] ∧
        (vars env log host).closed = [] := by
  let item (name : String) : Item := ⟨name, none, ""⟩
  refine triple_task happlies.opensearch ((triple_perform_loop (l := .indices)
    (m := s.dated.map item) (I := fun pre ok log =>
      (ok = true ↔ ∀ i ∈ pre, (s.date (dateArgument i.label)).isSome) ∧
      ((vars env log host).Healthy ∧ (vars env log host).OpenSelected s ∧
        (vars env log host).Cut s) ∧ (vars env log host).epochs = pre.map (s.epochItem ·.label) ∧
      (vars env log host).deleted = [] ∧ (vars env log host).closed = []) rfl (fun log h => ?_)
    (fun log h => ⟨by simp, ⟨h.1.healthy, h.1.openSelected, h.2⟩, h.1.epochs, h.1.deleted,
      h.1.closed⟩) ?_ ?_).consequence (fun _ => id)
      (fun ok log h => ⟨fun htrue => ?_, fun hfalse => ?_⟩) fun _ _ h => h)
  · exact congrArg (List.map item) h.1.selected
  · rintro pre i post ok log - ⟨hok, ⟨hhealthy, hopen, hcut⟩, hepochs, hdel, hclo⟩ -
    have hprints := hserves.epochs log i
    have hhost : (calculateEpochs.event world ⟨env, log, host, some i⟩).host = host := rfl
    obtain ⟨hd, hc⟩ := Vars.after_of_task (v := vars env log host)
      (e := calculateEpochs.event world ⟨env, log, host, some i⟩)
      (show calculateEpochs.name ≠ _ by decide) (show calculateEpochs.name ≠ _ by decide)
    have hkeep : ((vars env log host).after
        (calculateEpochs.event world ⟨env, log, host, some i⟩)).Healthy :=
      hhealthy.after (show calculateEpochs.register ≠ _ by decide)
    have hitem : [(⟨i.label, (world log host calculateEpochs.name (some i)).rc,
        (world log host calculateEpochs.name (some i)).stdout⟩ : Item)] = [s.epochItem i.label] ∧
        calculateEpochs.succeeds (world log host calculateEpochs.name (some i)) =
          (s.date (dateArgument i.label)).isSome := by
      unfold Cluster.epochItem
      rcases hdate : s.date (dateArgument i.label) with _ | t
      · rw [hdate] at hprints
        obtain ⟨-, hfailed, hrc, hout⟩ := hprints
        refine ⟨by rw [hrc, hout], ?_⟩
        rw [Action.succeeds, hfailed]
        exact Bool.and_false _
      · rw [hdate] at hprints
        obtain ⟨hprintsOk, hrc, hout⟩ := hprints
        exact ⟨by rw [hrc, hout], succeeds_of_ok hprintsOk⟩
    rw [vars_append hhost]
    refine ⟨?_, ⟨hkeep, hopen, hcut⟩, ?_, hd.trans hdel, hc.trans hclo⟩
    · change (calculateEpochs.succeeds (world log host calculateEpochs.name (some i)) && ok) = true ↔
        _
      rw [hitem.2, Bool.and_eq_true, hok]
      simp only [List.mem_append, List.mem_singleton]
      constructor
      · rintro ⟨hi, hpre⟩ j (hj | rfl)
        exacts [hpre j hj, hi]
      · exact fun h => ⟨h i (.inr rfl), fun j hj => h j (.inl hj)⟩
    · rw [List.map_append, ← hepochs]
      exact congrArg ((vars env log host).epochs ++ ·) hitem.1
  · rintro pre i post ok log - ⟨-, ⟨hhealthy, -⟩, -⟩ hskip
    rw [List.all_eq_true.2 fun cond hcond => eval_switches happlies hhealthy cond
      ((show ∀ cond ∈ calculateEpochs.when, cond ∈ switches by decide) cond hcond)] at hskip
    cases hskip
  · obtain ⟨hok, ⟨hhealthy, hopen, hcut⟩, hepochs, hdel, hclo⟩ := h
    refine ⟨fun name hname => hok.1 htrue (item name) (List.mem_map_of_mem hname),
      ⟨hhealthy, hopen, hcut, ?_⟩, hdel, hclo⟩
    rw [hepochs, List.map_map]
    rfl
  · obtain ⟨hok, -, -, hdel, hclo⟩ := h
    refine ⟨fun hpossible => ?_, hdel, hclo⟩
    rw [hok.2 fun i hi => ?_] at hfalse
    · cases hfalse
    · obtain ⟨name, hname, rfl⟩ := List.mem_map.1 hi
      exact hpossible name hname

end Dates

/-! ### The requests -/

section Requests

variable {sel : Playbook.TagSelection} {env : Env} {world : World} {host : String} {s : Cluster}

/-- The task deletes the index of this result. -/
def Cluster.deletes (s : Cluster) (i : Item) : Bool :=
  i.rc = some 0 ∧ toInt (.str i.stdout) < s.hardCutoff

/-- The task closes the index of this result. -/
def Cluster.closes (s : Cluster) (i : Item) : Bool :=
  i.rc = some 0 ∧ ¬toInt (.str i.stdout) < s.hardCutoff ∧ toInt (.str i.stdout) < s.softCutoff ∧
    i.label ∈ ((s.indices.filter Index.isOpen).map Index.name).filter isDatedIndex

theorem eval_deletes (happlies : Applies sel env) {log : List Event} {i : Item}
    (h : (vars env log host).Dated s) :
    deleteIndices.when.all (Cond.eval ⟨env, log, host, some i⟩) = s.deletes i := by
  have hswitches := eval_switches happlies (i := some i) h.healthy
  have hcut : toInt ((factOf log host .opensearchHardCutoff).getD .none) = s.hardCutoff := h.cut.2
  have hwhen : deleteIndices.when = switches ++ [.itemOk, .itemBefore .opensearchHardCutoff] := rfl
  rw [hwhen, List.all_append, List.all_eq_true.2 hswitches, Bool.true_and, Cluster.deletes]
  simp [Cond.eval, Context.itemBefore, Context.fact, hcut]

theorem eval_closes (happlies : Applies sel env) {log : List Event} {i : Item}
    (h : (vars env log host).Dated s) :
    closeIndices.when.all (Cond.eval ⟨env, log, host, some i⟩) = s.closes i := by
  have hswitches := eval_switches happlies (i := some i) h.healthy
  have hsoft : toInt ((factOf log host .opensearchSoftCutoff).getD .none) = s.softCutoff := h.cut.1
  have hhard : toInt ((factOf log host .opensearchHardCutoff).getD .none) = s.hardCutoff := h.cut.2
  have hopen : textsOf (factOf log host .opensearchOpenIndices) =
    ((s.indices.filter Index.isOpen).map Index.name).filter isDatedIndex := h.openSelected
  have hwhen : closeIndices.when = switches ++ [.itemOk, .itemNotBefore .opensearchHardCutoff,
    .itemBefore .opensearchSoftCutoff, .itemOpen] := rfl
  rw [hwhen, List.all_append, List.all_eq_true.2 hswitches, Bool.true_and, Cluster.closes]
  rw [Bool.eq_iff_iff]
  simp [Cond.eval, Context.itemBefore, Context.fact, hsoft, hhard, hopen]

theorem triple_deleteIndices (happlies : Applies sel env) (hserves : Serves world host s) :
    Triple False (fun log => (vars env log host).Dated s ∧ (vars env log host).deleted = [] ∧
        (vars env log host).closed = [])
      (Playbook.runTask sel [host] (deleteIndices.task env world))
      (fun _ log => (vars env log host).Dated s ∧ (vars env log host).deleted =
        ((s.dated.map s.epochItem).filter s.deletes).map Item.label ∧
          (vars env log host).closed = []) fun _ _ => False := by
  refine triple_task happlies.opensearch ((triple_perform_loop
    (l := .results .opensearchIndexEpochs) (m := s.dated.map s.epochItem) (I := fun pre ok log => ok = true ∧
      (vars env log host).Dated s ∧ (vars env log host).deleted =
        (pre.filter s.deletes).map Item.label ∧ (vars env log host).closed = []) rfl
    (fun log h => h.1.epochs) (fun log h => ⟨rfl, h⟩) ?_ ?_).consequence (fun _ => id)
      (fun ok log h => ⟨fun _ => h.2, fun hfalse => ?_⟩) fun _ _ h => h)
  · rintro pre i post ok log - ⟨rfl, hdated, hdel, hclo⟩ hwhen
    rw [eval_deletes happlies hdated] at hwhen
    have hhost : (deleteIndices.event world ⟨env, log, host, some i⟩).host = host := rfl
    rw [vars_append hhost]
    refine ⟨?_, ⟨hdated.healthy.after (show deleteIndices.register ≠ _ by decide),
      hdated.openSelected, hdated.cut, (List.append_nil _).trans hdated.epochs⟩, ?_, ?_⟩
    · rw [Bool.and_true]
      exact succeeds_of_ok (hserves.requests deleteIndices (by simp) log _)
    · rw [List.filter_append, List.map_append, ← hdel, List.filter_cons_of_pos hwhen]
      rfl
    · have hname : deleteIndices.name ≠ closeIndices.name := by decide
      change (vars env log host).closed ++
        (if deleteIndices.name = closeIndices.name then _ else _) = []
      rw [if_neg hname, hclo]
      rfl
  · rintro pre i post ok log - ⟨rfl, hdated, hdel, hclo⟩ hskip
    rw [eval_deletes happlies hdated] at hskip
    refine ⟨rfl, hdated, ?_, hclo⟩
    rw [List.filter_append, List.filter_cons_of_neg (by simp [hskip]), List.filter_nil,
      List.append_nil, hdel]
  · rw [h.1] at hfalse
    cases hfalse

theorem triple_closeIndices (happlies : Applies sel env) (hserves : Serves world host s)
    {names : List String} :
    Triple False (fun log => (vars env log host).Dated s ∧ (vars env log host).deleted = names ∧
        (vars env log host).closed = [])
      (Playbook.runTask sel [host] (closeIndices.task env world))
      (fun _ log => (vars env log host).Healthy ∧ (vars env log host).deleted = names ∧
        (vars env log host).closed =
          ((s.dated.map s.epochItem).filter s.closes).map Item.label) fun _ _ => False := by
  refine triple_task happlies.opensearch ((triple_perform_loop
    (l := .results .opensearchIndexEpochs) (m := s.dated.map s.epochItem) (I := fun pre ok log => ok = true ∧
      (vars env log host).Dated s ∧ (vars env log host).deleted = names ∧
        (vars env log host).closed = (pre.filter s.closes).map Item.label) rfl
    (fun log h => h.1.epochs) (fun log h => ⟨rfl, h⟩) ?_ ?_).consequence (fun _ => id)
      (fun ok log h => ⟨fun _ => ⟨h.2.1.healthy, h.2.2⟩, fun hfalse => ?_⟩) fun _ _ h => h)
  · rintro pre i post ok log - ⟨rfl, hdated, hdel, hclo⟩ hwhen
    rw [eval_closes happlies hdated] at hwhen
    have hhost : (closeIndices.event world ⟨env, log, host, some i⟩).host = host := rfl
    rw [vars_append hhost]
    refine ⟨?_, ⟨hdated.healthy.after (show closeIndices.register ≠ _ by decide),
      hdated.openSelected, hdated.cut, (List.append_nil _).trans hdated.epochs⟩, ?_, ?_⟩
    · rw [Bool.and_true]
      exact succeeds_of_ok (hserves.requests closeIndices (by simp) log _)
    · have hname : closeIndices.name ≠ deleteIndices.name := by decide
      change (vars env log host).deleted ++
        (if closeIndices.name = deleteIndices.name then _ else _) = _
      rw [if_neg hname, List.append_nil, hdel]
    · rw [List.filter_append, List.map_append, ← hclo, List.filter_cons_of_pos hwhen]
      rfl
  · rintro pre i post ok log - ⟨rfl, hdated, hdel, hclo⟩ hskip
    rw [eval_closes happlies hdated] at hskip
    refine ⟨rfl, hdated, hdel, ?_⟩
    rw [List.filter_append, List.filter_cons_of_neg (by simp [hskip]), List.filter_nil,
      List.append_nil, hclo]
  · rw [h.1] at hfalse
    cases hfalse

end Requests

end Yggdrasil.DiskCleanup
