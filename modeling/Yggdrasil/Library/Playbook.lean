import Yggdrasil.Library.Effect

/-! Playbooks: plays whose tasks run on their hosts in lockstep, as far as the tags that are
selected allow, and end the playbook when one fails. A task is what it does on a host; its
conditions and its loop are its own matter. -/

namespace Yggdrasil.Playbook

open Effect Program

/-- `--tags`, which is `all` when it is not given, and `--skip-tags`. -/
structure TagSelection where
  only : List String
  skip : List String

/-- The tags a task counts as having. -/
def effectiveTags (tags : List String) : List String := if tags.isEmpty then ["untagged"] else tags

def TagSelection.selects (only tags : List String) : Bool :=
  only.isEmpty || tags.contains "always" || (only.contains "all" && !tags.contains "never") ||
    tags.any only.contains ||
    (only.contains "tagged" && tags != ["untagged"] && !tags.contains "never")

def TagSelection.skips (skip tags : List String) : Bool :=
  if skip.contains "all" then !tags.contains "always" || skip.contains "always"
  else tags.any skip.contains || (skip.contains "tagged" && tags != ["untagged"])

/-- `evaluate_tags`: whether a task with these tags runs. -/
def TagSelection.runs (sel : TagSelection) (tags : List String) : Bool :=
  selects sel.only (effectiveTags tags) && !skips sel.skip (effectiveTags tags)

variable {H E : Type}

/-- What a task does on a host, and whether it succeeds there. -/
structure Task (H E : Type) where
  tags : List String
  runOnce : Bool
  perform : H → Program E Unit Bool

/-- A task or a block; the parts of a block have the tags and the conditions of the block. -/
inductive Entry (H E : Type) where
  | task (t : Task H E)
  | block (body always : List (Task H E))

/-- A part of a play, which may include a file on the hosts where its condition holds. -/
inductive Part (H E : Type) where
  | entry (e : Entry H E)
  | includeTasks (tags : List String) (runOnce : Bool) (holds : List E → H → Bool)
      (file : List (Entry H E))

/-- A play with `any_errors_fatal`, on all hosts at once or with `serial: 1`. -/
structure Play (H E : Type) where
  hosts : List H
  serial : Bool
  parts : List (Part H E)

/-- The tags of a task with those that an include applies to it. -/
def applyTags (applied tags : List String) : List String :=
  tags ++ applied.filter fun t => !tags.contains t

variable (sel : TagSelection)

def onHosts (runOnce : Bool) (hosts : List H) : List H := if runOnce then hosts.take 1 else hosts

def runTask (hosts : List H) (t : Task H E) : Program E Unit Unit :=
  if sel.runs t.tags then do
    let ok ← (onHosts t.runOnce hosts).foldlM (fun ok host => do return (← t.perform host) && ok) true
    if ok then pure () else throw ()
  else pure ()

def runTasks (hosts : List H) (ts : List (Task H E)) : Program E Unit Unit :=
  ts.foldlM (fun _ t => runTask sel hosts t) ()

def runEntry (hosts : List H) : Entry H E → Program E Unit Unit
  | .task t => runTask sel hosts t
  | .block body always => do
    let r ← attempt (runTasks sel hosts body)
    runTasks sel hosts always
    match r.1 with
    | .ok _ => pure ()
    | .error x => throw x

def runFile (hosts : List H) (file : List (Entry H E)) : Program E Unit Unit :=
  file.foldlM (fun _ e => runEntry sel hosts e) ()

theorem runFile_append (hosts : List H) (l l' : List (Entry H E)) :
    runFile sel hosts (l ++ l') = runFile sel hosts l >>= fun _ => runFile sel hosts l' :=
  List.foldlM_append

theorem runFile_cons (hosts : List H) (e : Entry H E) (l : List (Entry H E)) :
    runFile sel hosts (e :: l) = runEntry sel hosts e >>= fun _ => runFile sel hosts l :=
  List.foldlM_cons

def runPart (hosts : List H) : Part H E → Program E Unit Unit
  | .entry e => runEntry sel hosts e
  | .includeTasks tags runOnce holds file =>
    if sel.runs tags then do
      let log ← history
      runFile sel ((onHosts runOnce hosts).filter (holds log)) file
    else pure ()

def runParts (parts : List (Part H E)) (hosts : List H) : Program E Unit Unit :=
  parts.foldlM (fun _ p => runPart sel hosts p) ()

def Play.batches (p : Play H E) : List (List H) := if p.serial then p.hosts.map ([·]) else [p.hosts]

def runPlay (p : Play H E) : Program E Unit Unit :=
  p.batches.foldlM (fun _ hosts => runParts sel p.parts hosts) ()

def runPlays (plays : List (Play H E)) : Program E Unit Unit :=
  plays.foldlM (fun _ p => runPlay sel p) ()

theorem runParts_cons (part : Part H E) (parts : List (Part H E)) (hosts : List H) :
    runParts sel (part :: parts) hosts =
      runPart sel hosts part >>= fun _ => runParts sel parts hosts := List.foldlM_cons

theorem runPlay_eq {p : Play H E} (h : p.serial = false) :
    runPlay sel p = runParts sel p.parts p.hosts := by
  simp [runPlay, Play.batches, h]

theorem runPlays_cons (p : Play H E) (plays : List (Play H E)) :
    runPlays sel (p :: plays) = runPlay sel p >>= fun _ => runPlays sel plays := List.foldlM_cons

/-- An include that holds on its only host is its file. -/
theorem runPart_include {tags : List String} {runOnce : Bool} {holds : List E → H → Bool}
    {file : List (Entry H E)} {host : H} (hsel : sel.runs tags) (hholds : ∀ log, holds log host) :
    runPart sel [host] (.includeTasks tags runOnce holds file) = runFile sel [host] file := by
  refine ext_run fun log => ?_
  have hhosts : (onHosts runOnce [host]).filter (holds log) = [host] := by
    unfold onHosts
    split_ifs <;> simp [hholds log]
  rw [runPart, if_pos hsel, run_bind_value (run_history log), hhosts]
  simp

/-- An include that runs once is its file on the first host. -/
theorem runPart_include_once {tags : List String} {holds : List E → H → Bool}
    {file : List (Entry H E)} {host : H} {hosts : List H} (hsel : sel.runs tags)
    (hholds : ∀ log, holds log host) :
    runPart sel (host :: hosts) (.includeTasks tags true holds file) = runFile sel [host] file := by
  refine ext_run fun log => ?_
  have hhosts : (onHosts true (host :: hosts)).filter (holds log) = [host] := by
    simp [onHosts, hholds log]
  rw [runPart, if_pos hsel, run_bind_value (run_history log), hhosts]
  simp

theorem runParts_singleton (part : Part H E) (hosts : List H) :
    runParts sel [part] hosts = runPart sel hosts part := by
  rw [runParts_cons]
  exact bind_pure_unit

theorem runPlays_singleton (p : Play H E) : runPlays sel [p] = runPlay sel p := by
  rw [runPlays_cons]
  exact bind_pure_unit

theorem runPlays_append (l l' : List (Play H E)) :
    runPlays sel (l ++ l') = runPlays sel l >>= fun _ => runPlays sel l' := List.foldlM_append

/-! ### Which tasks can run -/

def Entry.tasks : Entry H E → List (Task H E)
  | task t => [t]
  | block body always => body ++ always

/-- The tasks of a part whose own tags are selected, and those of the include around them. -/
def Part.selected : Part H E → List (Task H E)
  | entry e => e.tasks.filter fun t => sel.runs t.tags
  | includeTasks tags _ _ file =>
    if sel.runs tags then (file.flatMap Entry.tasks).filter fun t => sel.runs t.tags else []

def Play.selected (p : Play H E) : List (Task H E) := p.parts.flatMap (Part.selected sel)

theorem mem_of_mem_onHosts {runOnce : Bool} {hosts : List H} {host : H}
    (h : host ∈ onHosts runOnce hosts) : host ∈ hosts := by
  unfold onHosts at h
  split_ifs at h
  · exact List.mem_of_mem_take h
  · exact h

theorem mem_of_mem_batches {p : Play H E} {hosts : List H} (h : hosts ∈ p.batches) :
    ∀ host ∈ hosts, host ∈ p.hosts := by
  intro host hhost
  unfold Play.batches at h
  split_ifs at h
  · obtain ⟨host', hhost', rfl⟩ := List.mem_map.1 h
    rwa [List.mem_singleton.1 hhost]
  · rwa [List.mem_singleton.1 h] at hhost

/-! ### Emitted events -/

section Emits

variable {P : E → Prop} {sel} {hosts : List H}

theorem emits_runTask {t : Task H E}
    (h : sel.runs t.tags → ∀ host ∈ hosts, Emits P (t.perform host)) :
    Emits P (runTask sel hosts t) := by
  unfold runTask
  refine emits_ite (fun hsel => emits_bind ?_ fun ok => ?_) fun _ => emits_pure _
  · refine emits_foldlM_of_mem (fun ok host hhost => ?_) true
    exact emits_bind (h hsel host (mem_of_mem_onHosts hhost)) fun _ => emits_pure _
  · exact emits_ite (fun _ => emits_pure _) fun _ => emits_throw _

theorem emits_runTasks {ts : List (Task H E)}
    (h : ∀ t ∈ ts, sel.runs t.tags → ∀ host ∈ hosts, Emits P (t.perform host)) :
    Emits P (runTasks sel hosts ts) :=
  emits_foldlM_of_mem (fun _ t ht => emits_runTask (h t ht)) ()

theorem emits_attempt {m : Program E Unit Unit} (h : Emits P m) : Emits P (attempt m) := by
  intro t e he
  have hmt := h t
  simp only [attempt] at he
  rcases hr : m.run t with ⟨_ | _ | _, s⟩ <;> rw [hr] at he hmt <;> exact hmt e he

theorem emits_runEntry {e : Entry H E}
    (h : ∀ t ∈ e.tasks, sel.runs t.tags → ∀ host ∈ hosts, Emits P (t.perform host)) :
    Emits P (runEntry sel hosts e) := by
  cases e with
  | task t => exact emits_runTask (h t (List.mem_singleton_self t))
  | block body always =>
    refine emits_bind (emits_attempt (emits_runTasks fun t ht => h t (List.mem_append_left _ ht)))
      fun r => emits_bind (emits_runTasks fun t ht => h t (List.mem_append_right _ ht)) fun _ => ?_
    rcases r with ⟨_ | _, _⟩
    · exact emits_throw _
    · exact emits_pure _

theorem emits_runFile {file : List (Entry H E)}
    (h : ∀ e ∈ file, ∀ t ∈ e.tasks, sel.runs t.tags → ∀ host ∈ hosts, Emits P (t.perform host)) :
    Emits P (runFile sel hosts file) :=
  emits_foldlM_of_mem (fun _ e he => emits_runEntry (h e he)) ()

theorem emits_runPart {p : Part H E}
    (h : ∀ t ∈ p.selected sel, ∀ host ∈ hosts, Emits P (t.perform host)) :
    Emits P (runPart sel hosts p) := by
  cases p with
  | entry e =>
    exact emits_runEntry fun t ht hsel => h t (List.mem_filter.2 ⟨ht, hsel⟩)
  | includeTasks tags runOnce holds file =>
    refine emits_ite (fun htags => emits_bind emits_history fun log => emits_runFile ?_)
      fun _ => emits_pure _
    intro e he t ht hsel host hhost
    have hmem : t ∈ (Part.includeTasks tags runOnce holds file).selected sel := by
      rw [Part.selected, if_pos htags]
      exact List.mem_filter.2 ⟨List.mem_flatMap.2 ⟨e, he, ht⟩, hsel⟩
    exact h t hmem host (mem_of_mem_onHosts (List.mem_filter.1 hhost).1)

theorem emits_runPlay {p : Play H E}
    (h : ∀ t ∈ p.selected sel, ∀ host ∈ p.hosts, Emits P (t.perform host)) :
    Emits P (runPlay sel p) := by
  refine emits_foldlM_of_mem (fun _ hosts hhosts => emits_foldlM_of_mem (fun _ part hpart => ?_) ()) ()
  refine emits_runPart fun t ht host hhost => ?_
  exact h t (List.mem_flatMap.2 ⟨part, hpart, ht⟩) host (mem_of_mem_batches hhosts host hhost)

theorem emits_runPlays {plays : List (Play H E)}
    (h : ∀ p ∈ plays, ∀ t ∈ p.selected sel, ∀ host ∈ p.hosts, Emits P (t.perform host)) :
    Emits P (runPlays sel plays) :=
  emits_foldlM_of_mem (fun _ p hp => emits_runPlay (h p hp)) ()

end Emits

/-! ### Correctness -/

section Triples

variable {sel} {hosts : List H} {I : List E → Prop}

/-- A task ends and keeps an invariant, and it fails only if `Fail`. -/
def Keeps (Fail : Prop) (I : List E → Prop) (t : Task H E) (host : H) : Prop :=
  Triple False I (t.perform host) (fun ok log => I log ∧ (ok = false → Fail)) fun _ _ => False

variable {Fail : Prop}

/-- The run ends with the invariant, and in a failure only if `Fail`. -/
abbrev Kept (Fail : Prop) (I : List E → Prop) (m : Program E Unit Unit) : Prop :=
  Triple False I m (fun _ => I) fun _ log => I log ∧ Fail

/-- What is kept without a failure. -/
theorem Kept.strict {m : Program E Unit Unit} (h : Kept False I m) :
    Triple False I m (fun _ => I) fun _ _ => False :=
  h.consequence (fun _ => id) (fun _ _ => id) fun _ _ h => h.2

theorem kept_foldlM {A : Type} {f : A → Program E Unit Unit} {l : List A}
    (h : ∀ a ∈ l, Kept Fail I (f a)) : Kept Fail I (l.foldlM (fun _ a => f a) ()) :=
  triple_foldlM (I := fun _ => I) (fun _ a ha => h a ha) ()

theorem kept_runTask {t : Task H E} (h : sel.runs t.tags → ∀ host ∈ hosts, Keeps Fail I t host) :
    Kept Fail I (runTask sel hosts t) := by
  refine triple_ite (fun hsel => ?_) fun _ => triple_pure fun _ hI => hI
  refine triple_bind (M := fun ok log => I log ∧ (ok = false → Fail)) ?_ fun ok => ?_
  · refine (triple_foldlM (I := fun ok log => I log ∧ (ok = false → Fail)) ?_ true).consequence
      (fun log hI => ⟨hI, fun h => nomatch h⟩) (fun _ _ h => h) fun _ _ h => h
    intro ok host hhost
    refine triple_intro fun log hlog => ?_
    have hperform := h hsel host (mem_of_mem_onHosts hhost)
    refine triple_bind (hperform.consequence (fun _ he => he ▸ hlog.1) (fun _ _ h => h)
      fun _ _ h => h.elim) fun ok' => triple_pure fun log' h' => ⟨h'.1, fun hfalse => ?_⟩
    cases ok' with
    | true => exact hlog.2 (by simpa using hfalse)
    | false => exact h'.2 rfl
  · refine triple_ite (fun _ => triple_pure fun _ h => h.1) fun hok => triple_throw fun _ h => ?_
    exact ⟨h.1, h.2 (by simpa using hok)⟩

theorem kept_runTasks {ts : List (Task H E)}
    (h : ∀ t ∈ ts, sel.runs t.tags → ∀ host ∈ hosts, Keeps Fail I t host) :
    Kept Fail I (runTasks sel hosts ts) :=
  kept_foldlM fun t ht => kept_runTask (h t ht)

theorem kept_runEntry {e : Entry H E}
    (h : ∀ t ∈ e.tasks, sel.runs t.tags → ∀ host ∈ hosts, Keeps Fail I t host) :
    Kept Fail I (runEntry sel hosts e) := by
  cases e with
  | task t => exact kept_runTask (h t (List.mem_singleton_self t))
  | block body always =>
    have hbody : Kept Fail I (runTasks sel hosts body) :=
      kept_runTasks fun t ht => h t (List.mem_append_left _ ht)
    have halways : Kept Fail I (runTasks sel hosts always) :=
      kept_runTasks fun t ht => h t (List.mem_append_right _ ht)
    refine triple_bind (M := fun r log => I log ∧ (∀ x, r.1 = .error x → Fail)) ?_ fun r => ?_
    · exact triple_attempt hbody (fun _ _ _ hI => ⟨hI, fun _ h => nomatch h⟩)
        fun _ _ _ hI => ⟨hI.1, fun _ _ => hI.2⟩
    · refine triple_intro fun log hlog => ?_
      refine triple_bind (halways.consequence (fun _ he => he ▸ hlog.1) (fun _ _ h => h)
        fun _ _ h => h) fun _ => ?_
      rcases r with ⟨x | _, s⟩
      · exact triple_throw fun _ hI => ⟨hI, hlog.2 x rfl⟩
      · exact triple_pure fun _ hI => hI

theorem kept_runFile {file : List (Entry H E)}
    (h : ∀ e ∈ file, ∀ t ∈ e.tasks, sel.runs t.tags → ∀ host ∈ hosts, Keeps Fail I t host) :
    Kept Fail I (runFile sel hosts file) :=
  kept_foldlM fun e he => kept_runEntry (h e he)

theorem triple_history {P : List E → List E → Prop} (h : ∀ log, I log → P log log) :
    Triple False I (history : Program E Unit (List E)) P fun _ log => I log ∧ Fail :=
  ⟨fun log hI => by simpa using h log hI⟩

theorem kept_include {tags : List String} {runOnce : Bool} {holds : List E → H → Bool}
    {file : List (Entry H E)}
    (h : ∀ log, sel.runs tags →
      Kept Fail I (runFile sel ((onHosts runOnce hosts).filter (holds log)) file)) :
    Kept Fail I (runPart sel hosts (.includeTasks tags runOnce holds file)) := by
  refine triple_ite (fun htags => ?_) fun _ => triple_pure fun _ hI => hI
  exact triple_bind (M := fun _ => I) (triple_history fun _ hI => hI) fun log => h log htags

theorem kept_runPart {p : Part H E} (h : ∀ t ∈ p.selected sel, ∀ host ∈ hosts, Keeps Fail I t host) :
    Kept Fail I (runPart sel hosts p) := by
  cases p with
  | entry e =>
    exact kept_runEntry fun t ht hsel => h t (List.mem_filter.2 ⟨ht, hsel⟩)
  | includeTasks tags runOnce holds file =>
    refine kept_include fun log htags => kept_runFile fun e he t ht hsel host hhost => ?_
    have hmem : t ∈ (Part.includeTasks tags runOnce holds file).selected sel := by
      rw [Part.selected, if_pos htags]
      exact List.mem_filter.2 ⟨List.mem_flatMap.2 ⟨e, he, ht⟩, hsel⟩
    exact h t hmem host (mem_of_mem_onHosts (List.mem_filter.1 hhost).1)

theorem kept_runParts {parts : List (Part H E)}
    (h : ∀ p ∈ parts, ∀ t ∈ p.selected sel, ∀ host ∈ hosts, Keeps Fail I t host) :
    Kept Fail I (runParts sel parts hosts) :=
  kept_foldlM fun p hp => kept_runPart (h p hp)

theorem kept_runPlay {p : Play H E}
    (h : ∀ t ∈ p.selected sel, ∀ host ∈ p.hosts, Keeps Fail I t host) :
    Kept Fail I (runPlay sel p) := by
  refine kept_foldlM fun hosts hhosts => kept_runParts fun part hpart t ht host hhost => ?_
  exact h t (List.mem_flatMap.2 ⟨part, hpart, ht⟩) host (mem_of_mem_batches hhosts host hhost)

theorem kept_runPlays {plays : List (Play H E)}
    (h : ∀ p ∈ plays, ∀ t ∈ p.selected sel, ∀ host ∈ p.hosts, Keeps Fail I t host) :
    Kept Fail I (runPlays sel plays) :=
  kept_foldlM fun p hp => kept_runPlay (h p hp)

/-- After a task that was selected, each of its hosts has what its success there says. -/
theorem triple_runTask_all {t : Task H E} {Q : H → List E → Prop}
    (hQ : ∀ host log s, Q host log → Q host (log ++ s)) (hsel : sel.runs t.tags)
    (h : ∀ host ∈ hosts, Triple False I (t.perform host)
      (fun ok log => I log ∧ (ok = true → Q host log)) fun _ => I) :
    Triple False I (runTask sel hosts t)
      (fun _ log => I log ∧ ∀ host ∈ onHosts t.runOnce hosts, Q host log) fun _ => I := by
  let J (done : List H) (ok : Bool) (log : List E) : Prop := ok = true → ∀ host ∈ done, Q host log
  have hloop : Triple False (fun log => I log ∧ J [] true log)
      ((onHosts t.runOnce hosts).foldlM (fun ok host => do return (← t.perform host) && ok) true)
      (fun ok log => I log ∧ J (onHosts t.runOnce hosts) ok log) fun _ => I := by
    refine triple_foldlM_done (I := fun done ok log => I log ∧ J done ok log) ?_ true
    intro pre host post ok hhosts
    have hon : host ∈ onHosts t.runOnce hosts := by simp [hhosts]
    have hperform := (h host (mem_of_mem_onHosts hon)).frame (I := J pre ok)
      fun log s hJ hok host' hpre => hQ host' log s (hJ hok host' hpre)
    refine triple_bind (hperform.consequence (fun _ => id) (fun _ _ => id) fun _ _ h => h.1)
      fun ok' => triple_pure fun log hlog => ⟨hlog.1.1, fun hok host' hmem' => ?_⟩
    rw [Bool.and_eq_true] at hok
    rcases List.mem_append.1 hmem' with hpre | hhost
    · exact hlog.2 hok.2 host' hpre
    · rw [List.mem_singleton.1 hhost]
      exact hlog.1.2 hok.1
  unfold runTask
  rw [if_pos hsel]
  refine triple_bind (hloop.consequence (fun _ hI => ⟨hI, fun _ _ h => nomatch h⟩) (fun _ _ => id)
    fun _ _ => id) fun ok => triple_ite (fun hok => ?_) fun _ => triple_throw fun _ h => h.1
  exact triple_pure fun log hlog => ⟨hlog.1, hlog.2 hok⟩

/-- A task on one host, by whether it succeeds there. -/
theorem triple_runTask_single {t : Task H E} {host : H} {J K : List E → Prop}
    (hsel : sel.runs t.tags) (h : Triple False I (t.perform host)
      (fun ok log => (ok = true → J log) ∧ (ok = false → K log)) fun _ _ => False) :
    Triple False I (runTask sel [host] t) (fun _ => J) fun _ => K := by
  have hhosts : onHosts t.runOnce [host] = [host] := by
    unfold onHosts
    split_ifs <;> rfl
  unfold runTask
  rw [if_pos hsel, hhosts]
  refine triple_bind (M := fun ok log => (ok = true → J log) ∧ (ok = false → K log)) ?_ fun ok =>
    triple_ite (fun hok => triple_pure fun _ hlog => hlog.1 hok) fun hok =>
      triple_throw fun _ hlog => hlog.2 (by simpa using hok)
  rw [List.foldlM_cons]
  refine triple_bind (M := fun ok log => (ok = true → J log) ∧ (ok = false → K log)) ?_ fun ok =>
    triple_pure fun _ hlog => hlog
  refine triple_bind (h.consequence (fun _ => id) (fun _ _ => id) fun _ _ h => h.elim) fun ok =>
    triple_pure fun _ hlog => ?_
  rwa [Bool.and_true]

end Triples

/-! ### Events that must come -/

section Reaches

variable {sel} {hosts : List H} {I : List E → Prop} {P : E → Prop}

theorem reaches_foldlM {A : Type} {f : A → Program E Unit Unit} {pre post : List A} {a : A}
    {J : List E → Prop}
    (hpre : Triple False I (pre.foldlM (fun _ a => f a) ()) (fun _ => J) fun _ _ => False)
    (h : Reaches J P (f a)) : Reaches I P ((pre ++ a :: post).foldlM (fun _ a => f a) ()) := by
  rw [List.foldlM_append]
  refine reaches_bind hpre fun _ => ?_
  rw [List.foldlM_cons]
  exact reaches_bind_left h

theorem reaches_runTask {t : Task H E} {host : H} (hsel : sel.runs t.tags)
    (h : Reaches I P (t.perform host)) : Reaches I P (runTask sel [host] t) := by
  unfold runTask
  rw [if_pos hsel]
  refine reaches_bind_left ?_
  have hhosts : onHosts t.runOnce [host] = [host] := by
    unfold onHosts
    split_ifs <;> rfl
  rw [hhosts, List.foldlM_cons]
  exact reaches_bind_left (reaches_bind_left h)

theorem reaches_runPlay {p : Play H E} {part : Part H E} {host : H} (hhosts : p.hosts = [host])
    (hparts : p.parts = [part]) (h : Reaches I P (runPart sel [host] part)) :
    Reaches I P (runPlay sel p) := by
  have hbatches : p.batches = [[host]] := by
    unfold Play.batches
    split_ifs <;> simp [hhosts]
  rw [runPlay, hbatches, hparts, List.foldlM_cons]
  refine reaches_bind_left ?_
  rw [runParts, List.foldlM_cons]
  exact reaches_bind_left h

end Reaches

end Yggdrasil.Playbook
