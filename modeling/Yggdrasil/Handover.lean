import Yggdrasil.Inventory.Output
import Yggdrasil.Python.Encoding

/-! The delete command over the inventory command, as processes: the report crosses as the text
that the one prints and the other reads. A deletion follows an inventory whose errors the flags
permit, and deletes by the plan of the very report that was printed. -/

namespace Yggdrasil.Handover

open Effect Effect.Program Python Python.Json

/-! ### The text of a report -/

section Text

/-- `print(json.dumps(report, indent=2, sort_keys=True))`. -/
def reportText (report : Value) : Option (List Char) :=
  (ofValue report).map fun j => Json.dumps ⟨some 2, 0, 1⟩ j ++ ['\n']

variable {eval : String → String}

theorem dumpsItems_toValues {items : List Value} {js : List Json}
    (h : ∀ v ∈ items, ∀ j, ofValue v = some j → Inventory.dumps v = some (toValue eval j))
    (hj : ofValues items = some js) : Inventory.dumpsItems items = some (toValues eval js) := by
  induction items generalizing js with
  | nil =>
    obtain rfl := Option.some.inj hj
    rfl
  | cons v vs ih =>
    simp only [ofValues, Option.bind_eq_bind, Option.bind_eq_some_iff, Option.pure_def,
      Option.some.injEq] at hj
    obtain ⟨j, hv, js, hvs, rfl⟩ := hj
    have hrest := ih (fun v hv => h v (List.mem_cons_of_mem _ hv)) hvs
    simp [Inventory.dumpsItems, h v List.mem_cons_self j hv, hrest, toValues]

theorem dumpsEntries_toEntries {items : List (String × Value)} {es : List (String × Json)}
    (h : ∀ m ∈ items, ∀ j, ofValue m.2 = some j → Inventory.dumps m.2 = some (toValue eval j))
    (hj : ofEntries (items.map fun p => (.str p.1, p.2)) = some es) :
    Inventory.dumpsEntries (items.map fun p => (.str p.1, p.2)) = some (toEntries eval es) := by
  induction items generalizing es with
  | nil =>
    obtain rfl := Option.some.inj hj
    rfl
  | cons m ms ih =>
    obtain ⟨k, v⟩ := m
    simp only [List.map_cons, ofEntries, Option.bind_eq_bind, Option.bind_eq_some_iff,
      Option.pure_def, Option.some.injEq] at hj
    obtain ⟨j, hv, js, hvs, rfl⟩ := hj
    have hrest := ih (fun m hm => h m (List.mem_cons_of_mem _ hm)) hvs
    simp [Inventory.dumpsEntries, h (k, v) List.mem_cons_self j hv, hrest, toEntries, Key.text]

theorem toEntries_insertionSort (es : List (String × Json)) :
    toEntries eval (es.insertionSort nameLe) =
      (toEntries eval es).insertionSort Inventory.keyLe := by
  rw [toEntries_eq, toEntries_eq]
  exact List.map_insertionSort _ _ _ _ fun _ _ _ _ => Iff.rfl

/-- What is printed is the value of the tree that is written. -/
theorem dumps_toValue {v : Value} (h : Genuine eval v) :
    ∀ j, ofValue v = some j → Inventory.dumps v = some (toValue eval j) := by
  induction h with
  | none => exact fun j hj => Option.some.inj hj ▸ rfl
  | bool b => exact fun j hj => Option.some.inj hj ▸ rfl
  | int i =>
    rintro j hj
    rw [← Option.some.inj hj, toValue, numberValue_toString]
    rfl
  | float hr =>
    rintro j hj
    rw [← Option.some.inj hj, toValue, numberValue_floatLiteral hr]
    rfl
  | str s => exact fun j hj => Option.some.inj hj ▸ rfl
  | list _ ih =>
    rintro j hj
    obtain ⟨js, hjs, rfl⟩ := Option.map_eq_some_iff.1 hj
    rw [toValue]
    exact congrArg (Option.map Value.list) (dumpsItems_toValues ih hjs)
  | record _ _ ih =>
    rintro j hj
    obtain ⟨es, hes, rfl⟩ := Option.map_eq_some_iff.1 hj
    rw [toValue, toEntries_insertionSort, Inventory.dumps, dumpsEntries_toEntries ih hes]
    rfl

theorem dumpsEntries_eq_self {es : List (Key × Value)}
    (h : ∀ e ∈ es, (∃ s, e.1 = .str s) ∧ Inventory.dumps e.2 = some e.2) :
    Inventory.dumpsEntries es = some es := by
  induction es with
  | nil => rfl
  | cons e es ih =>
    obtain ⟨k, v⟩ := e
    obtain ⟨⟨s, hs⟩, hv⟩ := h (k, v) List.mem_cons_self
    obtain rfl : k = .str s := hs
    simp [Inventory.dumpsEntries, hv, ih fun e he => h e (List.mem_cons_of_mem _ he), Key.text]

theorem insertionSort_keyLe (es : List (Key × Value)) :
    (es.insertionSort Inventory.keyLe).insertionSort Inventory.keyLe =
      es.insertionSort Inventory.keyLe := by
  have : Std.Total Inventory.keyLe := ⟨fun a b => le_total a.1.text b.1.text⟩
  have : IsTrans _ Inventory.keyLe := ⟨fun a b c => le_trans (a := a.1.text)⟩
  exact (List.pairwise_insertionSort Inventory.keyLe es).insertionSort_eq

mutual

/-- What is printed is printed as it is. -/
theorem dumps_dumps : ∀ (v p : Value), Inventory.dumps v = some p → Inventory.dumps p = some p
  | .none, p, h => by cases h; rfl
  | .bool b, p, h => by cases h; rfl
  | .int i, p, h => by cases h; rfl
  | .float r, p, h => by cases h; rfl
  | .str s, p, h => by cases h; rfl
  | .seq kind items, p, h => by
    have hitems : ∃ js, Inventory.dumpsItems items = some js ∧ Value.list js = p := by
      cases kind with
      | set => cases h
      | list => exact Option.map_eq_some_iff.1 h
      | tuple => exact Option.map_eq_some_iff.1 h
    obtain ⟨js, hjs, rfl⟩ := hitems
    exact congrArg (Option.map Value.list) (dumpsItems_dumps items js hjs)
  | .dict items, p, h => by
    obtain ⟨es, hes, rfl⟩ := Option.map_eq_some_iff.1 h
    have hsorted : Inventory.dumpsEntries (es.insertionSort Inventory.keyLe) =
        some (es.insertionSort Inventory.keyLe) := dumpsEntries_eq_self fun e he =>
      dumpsEntries_dumps items es hes e ((List.perm_insertionSort _ es).mem_iff.1 he)
    rw [Inventory.dumps, hsorted, Option.map_some, insertionSort_keyLe]
  | .object .., p, h => by cases h

theorem dumpsItems_dumps : ∀ (items js : List Value), Inventory.dumpsItems items = some js →
    Inventory.dumpsItems js = some js
  | [], js, h => by cases h; rfl
  | v :: vs, js, h => by
    simp only [Inventory.dumpsItems, Option.bind_eq_bind, Option.bind_eq_some_iff,
      Option.pure_def, Option.some.injEq] at h
    obtain ⟨j, hj, js, hjs, rfl⟩ := h
    simp [Inventory.dumpsItems, dumps_dumps v j hj, dumpsItems_dumps vs js hjs]

theorem dumpsEntries_dumps : ∀ (items es : List (Key × Value)),
    Inventory.dumpsEntries items = some es →
      ∀ e ∈ es, (∃ s, e.1 = .str s) ∧ Inventory.dumps e.2 = some e.2
  | [], es, h => by cases h; simp
  | (k, v) :: items, es, h => by
    simp only [Inventory.dumpsEntries, Option.bind_eq_bind, Option.bind_eq_some_iff,
      Option.pure_def, Option.some.injEq] at h
    obtain ⟨j, hj, es, hes, rfl⟩ := h
    exact List.forall_mem_cons.2 ⟨⟨⟨_, rfl⟩, dumps_dumps v j hj⟩, dumpsEntries_dumps items es hes⟩

end

/-- What is printed has a text, and reading it gives the same again. -/
theorem readValue_reportText {v printed : Value} (hprinted : Inventory.dumps v = some printed)
    (h : Genuine eval printed) :
    ∃ text, reportText printed = some text ∧ readValue eval text = some printed := by
  obtain ⟨j, hj⟩ := h.exists_encodes
  have hnewline : ∀ c ∈ ['\n'], isBlank c := by simp [isBlank]
  have hsame : toValue eval j = printed := by
    have hdumps := dumps_toValue h j hj.tree
    rw [dumps_dumps v printed hprinted] at hdumps
    exact (Option.some.inj hdumps).symm
  refine ⟨Json.dumps ⟨some 2, 0, 1⟩ j ++ ['\n'], ?_, ?_⟩
  · rw [reportText, hj.tree]
    rfl
  · rw [hj.read _ hnewline, hsame]

end Text

/-! ### The inventory command as a process -/

section Process

/-- What a run writes to its standard output if it prints no table. -/
def stdout (s : List Inventory.Event) : List Char :=
  s.flatMap fun e => match e with
    | .json v => (reportText v).getD []
    | _ => []

theorem stdout_eq {s : List Inventory.Event} (h : ∀ e ∈ s, e.isPrinted = false) (v : Value) :
    stdout (s ++ [.json v]) = (reportText v).getD [] := by
  have hs : stdout s = [] := by
    refine List.flatMap_eq_nil_iff.2 fun e he => ?_
    have hnot := h e he
    cases e <;> first | rfl | cases hnot
  unfold stdout at hs ⊢
  rw [List.flatMap_append, hs]
  simp

/-- The exit status; an exception that is left over ends a process with status 1. -/
inductive Exits : Outcome Inventory.Exc ℕ → ℤ → Prop
  | value (n : ℕ) : Exits (.value n) n
  | raised (x : Inventory.Exc) : Exits (.raised x) 1

/-- The argument parser of the inventory command, on the words that the delete command passes: it
refuses them or takes them as they are meant. -/
structure ArgParser (w : Deletion.World) where
  parse : List String → Option Inventory.Args
  project_eq : ∀ o project args, parse (Deletion.inventoryArgv w o project) = some args →
    args.project = project
  json_eq : ∀ o project args, parse (Deletion.inventoryArgv w o project) = some args →
    args.json = true
  strict_eq : ∀ o project args, parse (Deletion.inventoryArgv w o project) = some args →
    args.strict = o.strict
  hideErrors_eq : ∀ o project args, parse (Deletion.inventoryArgv w o project) = some args →
    args.hideErrors = false

/-- The inventories of a world are runs of the inventory command: with refused arguments one ends
with status 2, else with the status and the output of its run. What the cloud answers may depend
on the time. -/
structure Spawns (eval : String → String) (w : Deletion.World) (parser : ArgParser w)
    (sdk : List Deletion.Event → Inventory.Sdk) : Prop where
  parsed : ∀ t argv c v, w.inventory t argv = .completed c v → v = readValue eval c.stdout.toList
  run : ∀ t argv c v, w.inventory t argv = .completed c v →
    parser.parse argv = none ∧ c.returncode = 2 ∨
      ∃ args o s, parser.parse argv = some args ∧ (Inventory.main (sdk t) args).run [] = (o, s) ∧
        Exits o c.returncode ∧ (args.json = true → c.stdout.toList = stdout s)

end Process

/-! ### Deletions of a live inventory -/

section Live

open Deletion (Untouched Permitted)

variable {w : Deletion.World} {fuel : ℕ} {o : Deletion.Options} {source : Deletion.Source}

/-- The handler of exceptions only prints. -/
theorem untouched_main (h : Untouched ((Deletion.body w fuel o source).run []).2) :
    Untouched ((Deletion.main w fuel o source).run []).2 := by
  unfold Deletion.main
  simp only [handle]
  rcases hr : (Deletion.body w fuel o source).run [] with ⟨n | x | _, s⟩ <;> rw [hr] at h
  · exact h
  · intro e he
    exact (List.mem_append.1 he).elim (h e) ((Deletion.prints_exitUsage x).quiet _ e)
  · exact h

/-- A run that deletes has read a report and checked its plan. -/
theorem exists_plan (h : ¬Untouched ((Deletion.main w fuel o source).run []).2) :
    o.yes = true ∧ ∃ report s operations,
      (Deletion.sourceReport w o source).run [] = (.value report, s) ∧
        Deletion.blockingErrors report o = [] ∧
          Deletion.planDeletions report = .ok (operations, []) := by
  have hyes : o.yes = true := by
    by_contra hno
    exact h (Deletion.main_untouched w fuel o source (.inl (Bool.eq_false_iff.2 hno)))
  refine ⟨hyes, ?_⟩
  by_contra hnone
  refine h (untouched_main ?_)
  have hread := Deletion.quiet_sourceReport (w := w) o source []
  unfold Deletion.body
  rw [run_bind]
  rcases hr : (Deletion.sourceReport w o source).run [] with ⟨report | x | _, s⟩ <;> rw [hr] at hread
  · intro e he
    refine (List.mem_append.1 he).elim (hread e) fun he => ?_
    have hplan := (Deletion.prints_checkedPlan o report).quiet ([] ++ s)
    unfold Deletion.deleteReport at he
    rw [run_bind] at he
    rcases hc : (Deletion.checkedPlan o report).run ([] ++ s) with ⟨operations | x | _, s'⟩ <;>
      rw [hc] at hplan he
    · obtain ⟨hb, hp⟩ := Deletion.checkedPlan_eq_value hc
      exact absurd ⟨report, s, operations, hr, hb, hp⟩ hnone
    · exact hplan e he
    · exact hplan e he
  · exact hread
  · exact hread

/-- The report of a live inventory is the answer of the inventory command. -/
theorem sourceReport_project {project : String} {report : Mapping} {s : List Deletion.Event}
    (h : (Deletion.sourceReport w o (.project project)).run [] = (.value report, s)) :
    ∃ c, w.inventory [] (Deletion.inventoryArgv w o project) = .completed c (some (.dict report)) ∧
      c.returncode = 0 := by
  unfold Deletion.sourceReport at h
  dsimp only at h
  split_ifs at h
  · simp at h
  unfold Deletion.runInventory at h
  dsimp only at h
  rw [run_bind_value (Deletion.run_ask _ _ _)] at h
  simp only [Prod.mk.injEq] at h
  obtain ⟨hanswer, -⟩ := run_ofExcept_eq_value.1 (Prod.ext h.1 rfl)
  unfold Deletion.Inventory.report at hanswer
  split at hanswer
  · rename_i c parsed heq
    split_ifs at hanswer with hcode
    split at hanswer
    · cases hanswer
    · obtain rfl := Except.ok.inj hanswer
      exact ⟨c, heq, not_not.1 hcode⟩
    · cases hanswer
  · cases hanswer
  · cases hanswer

/-- The category under which the delete command counts an error. -/
def category (issue : Inventory.ReportIssue) : String :=
  if issue.issue.category = "" then "inventory" else issue.issue.category

/-- Every error of a printed report is one for the delete command, under its category. -/
theorem exists_detail {r : Inventory.Report} {report : Mapping}
    (h : Inventory.dumps (.record (r.fields false)) = some (.dict report))
    {issue : Inventory.ReportIssue} (hi : issue ∈ r.errors) :
    ∃ d ∈ Deletion.reportErrorDetails report, d.1 = category issue := by
  have hnd : ((r.fields false).map Prod.fst).Nodup := by simp [Inventory.Report.fields]
  obtain ⟨entries, heq, hget⟩ := Inventory.get?_dumps_record hnd h
  obtain rfl := Value.dict.inj heq
  obtain ⟨j, hj, herrors⟩ := hget "errors" (.list (r.errors.map Inventory.ReportIssue.toValue))
    (by simp [Inventory.Report.fields])
  simp only [Inventory.dumps, Option.map_eq_some_iff] at hj
  obtain ⟨issues, hissues, rfl⟩ := hj
  obtain ⟨j, hmem, hdumps⟩ := Inventory.mem_dumpsItems hissues (List.mem_map_of_mem hi)
  have htruthy : j.truthy = true := Inventory.truthy_of_dumps_record hdumps (by simp)
  obtain ⟨fields, rfl, hfield⟩ := Inventory.get?_dumps_record (by simp) hdumps
  obtain ⟨c, hc, hcategory⟩ := hfield "category" (.str issue.issue.category) (by simp)
  obtain rfl : .str issue.issue.category = c := Option.some.inj hc
  refine ⟨Deletion.errorDetail (.dict fields), ?_, ?_⟩
  · unfold Deletion.reportErrorDetails
    rw [herrors, Option.getD_some]
    exact List.mem_map_of_mem (List.mem_filter.2 ⟨hmem, htruthy⟩)
  · unfold Deletion.errorDetail category
    simp only [Mapping.get, hcategory, Option.getD_some, Value.orElse, Value.truthy]
    by_cases hempty : issue.issue.category = ""
    · simp [hempty, Value.toStr]
    · simp [hempty, Value.toStr]

variable {eval : String → String} {parser : ArgParser w}
  {sdk : List Deletion.Event → Inventory.Sdk}

/-- What a deletion of a project's resources rests on: an inventory that ran to its end, the
report that it printed, and the plan of this report. -/
structure Basis (sdk : Inventory.Sdk) (o : Deletion.Options) (project : String) where
  args : Inventory.Args
  events : List Inventory.Event
  collected : Inventory.Report
  report : Mapping
  operations : List Deletion.Operation
  project_eq : args.project = project
  run : (Inventory.main sdk args).run [] = (.value 0, events ++ [.json (.dict report)])
  printed : Inventory.dumps (.record (collected.fields false)) = some (.dict report)
  plan : Deletion.planDeletions report = .ok (operations, [])
  permitted : ∀ issue ∈ collected.errors, Permitted o (category issue, issue.issue.error)
  complete : o.strict = true → ¬Inventory.FailedRun sdk args events

end Live

/-! ### A live deletion -/

section Witness

/-- The compute service has one server, and nothing fails. -/
def liveSdk : Inventory.Sdk :=
  { silentSdk with endpoints := fun _ _ => .ok [silentEndpoint "compute"] }

def liveArgs : Inventory.Args := ⟨"demo", true, "public", none, "openstack", true, false, false⟩

def liveEvents : List Inventory.Event :=
  [.listing ⟨silentConnection, "compute", "server",
      some ⟨"server", "/servers", true, ["project_id"], []⟩, [], [("project_id", .str "p1")]⟩
    (.objects [.record [("id", .str "s1")]])]

def liveReport : Value := .record
  [("endpoints", .list [endpointRecord "compute"]),
   ("errors", .list []),
   ("project", .record [("id", .str "p1"), ("name", .str "demo")]),
   ("providers", .record [("compute", providerRecord "compute")]),
   ("resources", .record [("compute", .record [("server", .list [.record [("id", .str "s1")]])])])]

theorem run_liveArgs : (Inventory.main liveSdk liveArgs).run [] =
    (.value 0, liveEvents ++ [.json liveReport]) := by
  rfl

/-- The words that the delete command passes. -/
def liveArgv : List String :=
  ["/usr/bin/python3", "list-project-resources.py", "--project", "demo", "--format", "json",
    "--strict", "--openstack-bin", "openstack"]

def liveOutput : List Char := stdout (liveEvents ++ [.json liveReport])

/-- Every command succeeds, and the inventory command prints the report. -/
def worldWith (parsed : Option Value) : Deletion.World :=
  { Deletion.obliging .notJson fun _ => .osError "" with
    inventory := fun _ argv =>
      if argv = liveArgv then
        .completed ⟨0, String.ofList liveOutput, ""⟩ parsed
      else .osError "" }

def liveWorld : Deletion.World := worldWith (readValue id liveOutput)

theorem genuine_strings (items : List (String × String)) (hnd : (items.map Prod.fst).Nodup) :
    Genuine id (.record (items.map fun p => (p.1, .str p.2))) := by
  refine .record (by simpa [List.map_map, Function.comp_def] using hnd) fun m hm => ?_
  obtain ⟨p, -, rfl⟩ := List.mem_map.1 hm
  exact .str _

theorem genuine_singleton {k : String} {v : Value} (h : Genuine id v) :
    Genuine id (.record [(k, v)]) :=
  .record (by simp) (by simpa using h)

theorem genuine_liveReport : Genuine id liveReport := by
  have hendpoint : Genuine id (endpointRecord "compute") := by
    refine .record (by decide) ?_
    simp only [List.forall_mem_cons]
    exact ⟨.bool true, .str _, .str _, .str _, .str _, .str _, .str _, .str _, by simp⟩
  have hprovider : Genuine id (providerRecord "compute") :=
    genuine_strings [("interface", "public"), ("provider", "openstacksdk"),
      ("raw_service_type", "compute"), ("region", "region"), ("service_name", "compute"),
      ("url", "https://compute")] (by decide)
  have hserver : Genuine id (.list [.record [("id", .str "s1")]]) :=
    .list (by simpa using genuine_singleton (.str "s1"))
  refine .record (by decide) ?_
  simp only [List.forall_mem_cons]
  exact ⟨.list (by simpa using hendpoint), .list (by simp),
    genuine_strings [("id", "p1"), ("name", "demo")] (by decide),
    genuine_singleton hprovider, genuine_singleton (genuine_singleton hserver), by simp⟩

theorem liveWorld_eq : liveWorld = worldWith (some liveReport) := by
  have hdumps : Inventory.dumps liveReport = some liveReport := by rfl
  obtain ⟨text, htext, hread⟩ := readValue_reportText hdumps genuine_liveReport
  have hquiet : ∀ e ∈ liveEvents, e.isPrinted = false := by
    simp [liveEvents, Inventory.Event.isPrinted]
  rw [liveWorld, liveOutput, stdout_eq hquiet, htext, Option.getD_some, hread]

/-- The words decide what they are parsed to. -/
theorem strict_of_liveArgv {o : Deletion.Options} {project : String}
    (h : Deletion.inventoryArgv liveWorld o project = liveArgv) :
    project = "demo" ∧ o.strict = true := by
  unfold Deletion.inventoryArgv liveArgv at h
  simp only [List.cons_append, List.nil_append, List.cons.injEq] at h
  obtain ⟨-, -, -, hproject, -, -, hrest⟩ := h
  refine ⟨hproject, ?_⟩
  by_contra hnot
  rw [if_neg hnot] at hrest
  simp at hrest

def liveParser : ArgParser liveWorld where
  parse argv := if argv = liveArgv then some liveArgs else none
  project_eq o project args h := by
    obtain ⟨hargv, h⟩ := Option.ite_none_right_eq_some.1 h
    obtain rfl := Option.some.inj h
    exact (strict_of_liveArgv hargv).1.symm
  json_eq o project args h := by
    obtain ⟨-, h⟩ := Option.ite_none_right_eq_some.1 h
    obtain rfl := Option.some.inj h
    rfl
  strict_eq o project args h := by
    obtain ⟨hargv, h⟩ := Option.ite_none_right_eq_some.1 h
    obtain rfl := Option.some.inj h
    exact (strict_of_liveArgv hargv).2.symm
  hideErrors_eq o project args h := by
    obtain ⟨-, h⟩ := Option.ite_none_right_eq_some.1 h
    obtain rfl := Option.some.inj h
    rfl

theorem spawns_liveWorld : Spawns id liveWorld liveParser fun _ => liveSdk := by
  have hinventory {t : List Deletion.Event} {argv : List String} {c : Deletion.Completed}
      {v : Option Value} (h : liveWorld.inventory t argv = .completed c v) :
      argv = liveArgv ∧ c = ⟨0, String.ofList liveOutput, ""⟩ ∧ v = readValue id liveOutput := by
    unfold liveWorld worldWith at h
    dsimp only at h
    split_ifs at h with hargv
    injection h with hc hv
    exact ⟨hargv, hc.symm, hv.symm⟩
  constructor
  · intro t argv c v h
    obtain ⟨-, hc, hv⟩ := hinventory h
    rw [hc, hv, String.toList_ofList]
  · intro t argv c v h
    obtain ⟨hargv, hc, -⟩ := hinventory h
    rw [hargv, hc]
    have hparse : liveParser.parse liveArgv = some liveArgs := by
      change (if liveArgv = liveArgv then some liveArgs else none) = some liveArgs
      rw [if_pos rfl]
    exact .inr ⟨liveArgs, _, _, hparse, run_liveArgs, .value 0, fun _ => String.toList_ofList⟩

theorem deletes_liveReport : ((Deletion.main (worldWith (some liveReport)) 1 Deletion.expiryOptions
    (.project "demo")).run []).2.any Deletion.Event.isDeletion = true := by
  rfl

theorem not_untouched_liveWorld : ¬Deletion.Untouched ((Deletion.main liveWorld 1
    Deletion.expiryOptions (.project "demo")).run []).2 := by
  intro huntouched
  rw [liveWorld_eq] at huntouched
  obtain ⟨e, he, hdeletion⟩ := List.any_eq_true.1 deletes_liveReport
  rw [huntouched e he] at hdeletion
  cases hdeletion

end Witness

end Yggdrasil.Handover
