import Yggdrasil.DiskCleanup.Runs

/-! The log indices in OpenSearch: what is due by their names and two cutoffs, how a cluster
answers the tasks, and the variables through which one task tells the next. -/

namespace Yggdrasil.DiskCleanup

open Effect Program Python

/-! ### The indices -/

/-- An index `flog-…`; OpenSearch allows no blanks in a name. -/
structure Index where
  name : String
  isOpen : Bool
  plain : ∀ c ∈ name.toList, isSpace c = false

/-- The indices of a cluster, the two cutoffs, and `date -u -d TEXT +%s`. -/
structure Cluster where
  indices : List Index
  nodup : (indices.map Index.name).Nodup
  date : String → Option ℤ
  softCutoff : ℤ
  hardCutoff : ℤ

/-- `NAME | regex_replace('^flog-', '') | replace('.', '-')`, with the time of day. -/
def dateArgument (name : String) : String :=
  let rest := if "flog-".toList.isPrefixOf name.toList then name.toList.drop 5 else name.toList
  String.ofList (rest.map fun c => if c = '.' then '-' else c) ++ " 00:00:00"

namespace Cluster

variable (s : Cluster)

/-- The names that have the form of a date. -/
def dated : List String := (s.indices.map Index.name).filter isDatedIndex

/-- The date of a name, if it is one. -/
def epoch (name : String) : Option ℤ :=
  if isDatedIndex name then s.date (dateArgument name) else none

/-- The indices whose date is before the hard cutoff. -/
def expired : List String :=
  (s.indices.map Index.name).filter fun name => (s.epoch name).any (· < s.hardCutoff)

/-- The open indices whose date is before the soft cutoff, but not before the hard one. -/
def stale : List String :=
  ((s.indices.filter Index.isOpen).map Index.name).filter fun name =>
    (s.epoch name).any fun t => s.hardCutoff ≤ t ∧ t < s.softCutoff

/-- `_cat/indices/flog-*?format=tsv&h=index`, a name to a line. -/
def listing (names : List String) : String :=
  String.ofList (names.flatMap fun name => name.toList ++ ['\n'])

end Cluster

/-! ### The tasks -/

def listIndices : Action := indexTasks.get ⟨0, by decide⟩

def selectIndices : Action := indexTasks.get ⟨1, by decide⟩

def listOpenIndices : Action := indexTasks.get ⟨2, by decide⟩

def selectOpenIndices : Action := indexTasks.get ⟨3, by decide⟩

def calculateCutoffs : Action := indexTasks.get ⟨4, by decide⟩

def saveCutoffs : Action := indexTasks.get ⟨5, by decide⟩

def calculateEpochs : Action := indexTasks.get ⟨6, by decide⟩

def deleteIndices : Action := indexTasks.get ⟨7, by decide⟩

def closeIndices : Action := indexTasks.get ⟨8, by decide⟩

def flushIndices : Action := indexTasks.get ⟨9, by decide⟩

def reportScope : Action := indexTasks.get ⟨10, by decide⟩

theorem indexTasks_eq : indexTasks = [listIndices, selectIndices, listOpenIndices,
    selectOpenIndices, calculateCutoffs, saveCutoffs, calculateEpochs, deleteIndices,
      closeIndices, flushIndices, reportScope] := rfl

/-- The names of the indices for which a task has sent its request. -/
def requested (a : Action) (log : List Event) : List String :=
  log.filterMap fun e => if e.task = a.name then e.item.map Item.label else none

/-- The indices that are deleted, and those that are closed. -/
def deleted (log : List Event) : List String := requested deleteIndices log

def closed (log : List Event) : List String := requested closeIndices log

/-! ### A cluster in service -/

def Result.ok (r : Result) : Prop := r.unreachable = false ∧ r.failed = false

/-- What `command` returns for a run of `date` that prints a number, or fails. -/
def Result.prints (r : Result) : Option ℤ → Prop
  | some t => r.ok ∧ r.rc = some 0 ∧ r.stdout = toString t
  | none => r.unreachable = false ∧ r.failed = true ∧ r.rc = some 1 ∧ r.stdout = ""

/-- The host answers as such a cluster does, and no request fails. -/
structure Serves (world : World) (host : String) (s : Cluster) : Prop where
  health : ∀ log item, (world log host checkHealth.name item).ok ∧
    (world log host checkHealth.name item).status = 200
  list : ∀ log item, (world log host listIndices.name item).ok ∧
    (world log host listIndices.name item).content = Cluster.listing (s.indices.map Index.name)
  listOpen : ∀ log item, (world log host listOpenIndices.name item).ok ∧
    (world log host listOpenIndices.name item).content =
      Cluster.listing ((s.indices.filter Index.isOpen).map Index.name)
  soft : ∀ log item, item.label = "soft" →
    (world log host calculateCutoffs.name (some item)).prints (some s.softCutoff)
  hard : ∀ log item, item.label = "hard" →
    (world log host calculateCutoffs.name (some item)).prints (some s.hardCutoff)
  epochs : ∀ log item, (world log host calculateEpochs.name (some item)).prints
    (s.date (dateArgument item.label))
  requests : ∀ a ∈ [clearBlocks, deleteIndices, closeIndices, flushIndices], ∀ log item,
    (world log host a.name item).ok

/-! ### The helper for a single host -/

inductive Request where
  | delete (index : String)
  | close (index : String)
  deriving DecidableEq

/-- `^flog-([0-9]{4}\.[0-9]{2}\.[0-9]{2})$`, and what its group holds. -/
def rematch : List Char → Option (List Char)
  | ['f', 'l', 'o', 'g', '-', a, b, c, d, '.', e, f, '.', g, h] =>
    if [a, b, c, d, e, f, g, h].all Char.isDigit then some [a, b, c, d, '.', e, f, '.', g, h]
    else none
  | _ => none

/-- The lines that `read -r` returns; what follows the last newline is not one. -/
def readLines (line : List Char) : List Char → List (List Char)
  | [] => []
  | c :: cs => if c = '\n' then line :: readLines [] cs else readLines (line ++ [c]) cs

/-- The loop of `free_disk_space.sh`, which takes an empty `index_epoch` for a reason to go on. -/
def helperLoop (date : String → Option ℤ) (softCutoff hardCutoff : ℤ) :
    List (List Char) → List Request
  | [] => []
  | index :: lines =>
    match rematch index with
    | none => helperLoop date softCutoff hardCutoff lines
    | some text =>
      match date (String.ofList (text.map fun c => if c = '.' then '-' else c) ++ " 00:00:00") with
      | none => helperLoop date softCutoff hardCutoff lines
      | some epoch =>
        if epoch < hardCutoff then
          .delete (String.ofList index) :: helperLoop date softCutoff hardCutoff lines
        else if epoch < softCutoff then
          .close (String.ofList index) :: helperLoop date softCutoff hardCutoff lines
        else helperLoop date softCutoff hardCutoff lines

/-- The indices that the helper deletes. -/
def helperDeleted (s : Cluster) : List String :=
  (helperLoop s.date s.softCutoff s.hardCutoff
    (readLines [] (Cluster.listing (s.indices.map Index.name)).toList)).filterMap fun r =>
      match r with
      | .delete index => some index
      | .close _ => none

/-! ### The variables of the tasks -/

section Variables

variable {env : Env} {host : String}

/-- The variables on a host that the tasks read, and the requests so far. -/
structure Vars where
  health : Option Result
  indexList : Option Result
  openIndexList : Option Result
  indices : Option Value
  openIndices : Option Value
  softCutoff : Option Value
  hardCutoff : Option Value
  cutoffs : List Item
  epochs : List Item
  deleted : List String
  closed : List String

def vars (env : Env) (log : List Event) (host : String) : Vars :=
  let c : Context := ⟨env, log, host, none⟩
  ⟨c.result .opensearchHealth, c.result .opensearchIndexList, c.result .opensearchOpenIndexList,
    c.fact .opensearchIndices, c.fact .opensearchOpenIndices, c.fact .opensearchSoftCutoff,
    c.fact .opensearchHardCutoff, c.results .opensearchCutoffs, c.results .opensearchIndexEpochs,
    deleted log, closed log⟩

/-- What a module leaves in the variable that its task registers. -/
def Event.returned (e : Event) (r : Register) (old : Option Result) : Option Result :=
  if e.register = some r then some e.result else old

def Event.looped (e : Event) (r : Register) : List Item :=
  if e.register = some r then
    (e.item.map fun i => (⟨i.label, e.result.rc, e.result.stdout⟩ : Item)).toList
  else []

def Event.fact (e : Event) (f : Fact) : Option Value :=
  e.facts.reverse.findSome? fun p => if p.1 = f then some p.2 else none

def Event.request (e : Event) (a : Action) : List String :=
  if e.task = a.name then (e.item.map Item.label).toList else []

def Vars.after (v : Vars) (e : Event) : Vars :=
  ⟨e.returned .opensearchHealth v.health, e.returned .opensearchIndexList v.indexList,
    e.returned .opensearchOpenIndexList v.openIndexList,
    (e.fact .opensearchIndices).or v.indices, (e.fact .opensearchOpenIndices).or v.openIndices,
    (e.fact .opensearchSoftCutoff).or v.softCutoff, (e.fact .opensearchHardCutoff).or v.hardCutoff,
    v.cutoffs ++ e.looped .opensearchCutoffs, v.epochs ++ e.looped .opensearchIndexEpochs,
    v.deleted ++ e.request deleteIndices, v.closed ++ e.request closeIndices⟩

theorem result_append {log : List Event} {e : Event} {item : Option Item} (h : e.host = host)
    (r : Register) : Context.result ⟨env, log ++ [e], host, item⟩ r =
      e.returned r (Context.result ⟨env, log, host, item⟩ r) := by
  by_cases hr : e.register = some r <;>
    simp [Context.result, Context.runs, Event.returned, List.filter_append, h, hr]

theorem results_append {log : List Event} {e : Event} {item : Option Item} (h : e.host = host)
    (r : Register) : Context.results ⟨env, log ++ [e], host, item⟩ r =
      Context.results ⟨env, log, host, item⟩ r ++ e.looped r := by
  by_cases hr : e.register = some r
  · cases hi : e.item <;>
      simp [Context.results, Context.runs, Event.looped, List.filter_append, h, hr, hi]
  · simp [Context.results, Context.runs, Event.looped, List.filter_append, hr]

theorem factOf_append {log : List Event} {e : Event} (h : e.host = host) (f : Fact) :
    factOf (log ++ [e]) host f = (e.fact f).or (factOf log host f) := by
  simp [factOf, Event.fact, List.filter_append, h, List.findSome?_append]

theorem requested_append (a : Action) (log : List Event) (e : Event) :
    requested a (log ++ [e]) = requested a log ++ e.request a := by
  by_cases ht : e.task = a.name
  · cases hi : e.item <;> simp [requested, Event.request, List.filterMap_append, ht, hi]
  · simp [requested, Event.request, List.filterMap_append, ht]

theorem vars_append {log : List Event} {e : Event} (h : e.host = host) :
    vars env (log ++ [e]) host = (vars env log host).after e := by
  simp only [vars, Vars.after, Context.fact, deleted, closed, result_append h, results_append h,
    factOf_append h, requested_append]

end Variables

/-! ### One task after the other -/

section Tasks

variable {sel : Playbook.TagSelection} {env : Env} {world : World} {host : String} {s : Cluster}

/-- The tasks are selected, and their switches are on. -/
structure Applies (sel : Playbook.TagSelection) (env : Env) : Prop where
  cluster : sel.runs ["cluster"]
  opensearch : sel.runs ["cluster", "opensearch"]
  apply : toBool (env.setting .apply)
  cleanup : toBool (env.setting .opensearchCleanup)

def Vars.Healthy (v : Vars) : Prop := v.health.any fun r => r.status = 200

/-- The conditions of the tasks that do not look at an item. -/
def switches : List Cond :=
  [.holds .apply, .holds .opensearchCleanup, .statusOk .opensearchHealth]

theorem eval_switches (happlies : Applies sel env) {log : List Event} {i : Option Item}
    (h : (vars env log host).Healthy) : ∀ cond ∈ switches, cond.eval ⟨env, log, host, i⟩ := by
  intro cond hcond
  simp only [switches, List.mem_cons, List.not_mem_nil, or_false] at hcond
  rcases hcond with rfl | rfl | rfl
  · exact happlies.apply
  · exact happlies.cleanup
  · exact h

theorem triple_perform_vars {I : Vars → Prop} {J : Vars → Prop} {a : Action} (hloop : a.loop = none)
    (hwhen : ∀ log, I (vars env log host) → ∀ cond ∈ a.when, cond.eval ⟨env, log, host, none⟩)
    (hok : ∀ log, a.succeeds (a.event world ⟨env, log, host, none⟩).result = true)
    (hpost : ∀ log, I (vars env log host) →
      J ((vars env log host).after (a.event world ⟨env, log, host, none⟩))) :
    Triple False (fun log => I (vars env log host)) (a.perform env world host)
      (fun ok log => ok = true ∧ J (vars env log host)) fun _ _ => False := by
  refine triple_perform hloop (fun log hI _ => ⟨hok log, ?_⟩) fun log hI hskip => ?_
  · have hhost : (a.event world ⟨env, log, host, none⟩).host = host := rfl
    rw [vars_append hhost]
    exact hpost log hI
  · rw [List.all_eq_true.2 (hwhen log hI)] at hskip
    cases hskip

/-- A task that is not run leaves the variables. -/
theorem triple_perform_skip {I : Vars → Prop} {a : Action} (hloop : a.loop = none) {c : Cond}
    (hmem : c ∈ a.when)
    (h : ∀ log, I (vars env log host) → c.eval ⟨env, log, host, none⟩ = false) :
    Triple False (fun log => I (vars env log host)) (a.perform env world host)
      (fun ok log => ok = true ∧ I (vars env log host)) fun _ _ => False := by
  refine triple_perform hloop (fun log hI hwhen => ?_) fun log hI _ => ⟨rfl, hI⟩
  have := hwhen c hmem
  rw [h log hI] at this
  cases this

/-- A task with a loop, whose invariant knows the items that are done. -/
theorem triple_perform_loop {I : List Item → Bool → List Event → Prop} {a : Action} {l : Loop}
    {m : List Item} {Pre : List Event → Prop} (hloop : a.loop = some l)
    (hitems : ∀ log, Pre log → l.items ⟨env, log, host, none⟩ = m)
    (hstart : ∀ log, Pre log → I [] true log)
    (hrun : ∀ pre item post ok log, m = pre ++ item :: post → I pre ok log →
      a.when.all (Cond.eval ⟨env, log, host, some item⟩) = true →
      I (pre ++ [item]) (a.succeeds (a.event world ⟨env, log, host, some item⟩).result && ok)
        (log ++ [a.event world ⟨env, log, host, some item⟩]))
    (hskip : ∀ pre item post ok log, m = pre ++ item :: post → I pre ok log →
      a.when.all (Cond.eval ⟨env, log, host, some item⟩) = false → I (pre ++ [item]) ok log) :
    Triple False Pre (a.perform env world host) (fun ok => I m ok) fun _ _ => False := by
  refine triple_bind (M := fun log t => Pre t ∧ t = log) ⟨fun t ht => by simpa using ht⟩
    fun log₀ => triple_intro fun log hlog => ?_
  obtain ⟨hpre, rfl⟩ := hlog
  have hlist : a.items ⟨env, log, host, none⟩ = m.map some := by
    simp only [Action.items, hloop, hitems log hpre]
  rw [hlist, List.foldlM_map]
  refine (triple_foldlM_done (I := I) ?_ true).consequence
    (fun t ht => ht ▸ hstart log hpre) (fun _ _ => id) fun _ _ h => h
  intro pre item post ok hsplit
  refine triple_bind (M := fun ok' t => I (pre ++ [item]) (ok' && ok) t)
    (triple_runItem (fun t ht hwhen => ?_) fun t ht hskip' => ?_) fun ok' => triple_pure fun _ => id
  · exact hrun pre item post ok t hsplit ht (List.all_eq_true.2 hwhen)
  · exact hskip pre item post ok t hsplit ht hskip'

theorem triple_task {I J K : List Event → Prop} {a : Action}
    (hsel : sel.runs a.tags) (h : Triple False I (a.perform env world host)
      (fun ok log => (ok = true → J log) ∧ (ok = false → K log)) fun _ _ => False) :
    Triple False I (Playbook.runTask sel [host] (a.task env world)) (fun _ => J) fun _ => K :=
  Playbook.triple_runTask_single hsel h

/-- The cluster answers, and nothing is decided yet. -/
structure Vars.Begun (v : Vars) : Prop where
  healthy : v.Healthy
  cutoffs : v.cutoffs = []
  epochs : v.epochs = []
  deleted : v.deleted = []
  closed : v.closed = []

/-- An event without an item is no request and has no part in a loop. -/
theorem Vars.after_of_item {v : Vars} {e : Event} (h : e.item = none) :
    (v.after e).cutoffs = v.cutoffs ∧ (v.after e).epochs = v.epochs ∧
      (v.after e).deleted = v.deleted ∧ (v.after e).closed = v.closed := by
  simp [Vars.after, Event.looped, Event.request, h]

theorem Vars.Healthy.after {v : Vars} {e : Event} (h : v.Healthy)
    (he : e.register ≠ some .opensearchHealth) : (v.after e).Healthy := by
  rw [Vars.Healthy, Vars.after, Event.returned, if_neg he]
  exact h

theorem Vars.Begun.after {v : Vars} {e : Event} (h : v.Begun) (hitem : e.item = none)
    (he : e.register ≠ some .opensearchHealth) : (v.after e).Begun := by
  obtain ⟨h₁, h₂, h₃, h₄⟩ := Vars.after_of_item (v := v) hitem
  exact ⟨h.healthy.after he, h₁.trans h.cutoffs, h₂.trans h.epochs, h₃.trans h.deleted,
    h₄.trans h.closed⟩

end Tasks

end Yggdrasil.DiskCleanup
