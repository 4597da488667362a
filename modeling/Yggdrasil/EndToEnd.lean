import Yggdrasil.Deletion.Safety
import Yggdrasil.Inventory.Failures

/-! The two resource commands after each other: the JSON report that the inventory command
prints is the file that the delete command reads. An error in the report crosses over with it
and blocks the deletion; with hidden errors nothing crosses over. -/

namespace Yggdrasil

open Effect Effect.Program Python

/-! ### Printed reports -/

namespace Inventory

theorem keys_dumpsEntries {items entries : List (Key × Value)}
    (h : dumpsEntries items = some entries) :
    entries.map Prod.fst = items.map fun p => Key.str p.1.text := by
  induction items generalizing entries with
  | nil =>
    simp only [dumpsEntries, Option.some.injEq] at h
    rw [← h]
    rfl
  | cons p items ih =>
    obtain ⟨k, v⟩ := p
    simp only [dumpsEntries, Option.bind_eq_bind, Option.pure_def, Option.bind_eq_some_iff,
      Option.some.injEq] at h
    obtain ⟨j, -, js, hjs, rfl⟩ := h
    rw [List.map_cons, List.map_cons, ih hjs]

theorem mem_dumpsEntries {items entries : List (Key × Value)}
    (h : dumpsEntries items = some entries) {k : Key} {v : Value} (hm : (k, v) ∈ items) :
    ∃ j, dumps v = some j ∧ (Key.str k.text, j) ∈ entries := by
  induction items generalizing entries with
  | nil => simp at hm
  | cons p items ih =>
    obtain ⟨k', v'⟩ := p
    simp only [dumpsEntries, Option.bind_eq_bind, Option.pure_def, Option.bind_eq_some_iff,
      Option.some.injEq] at h
    obtain ⟨j, hj, js, hjs, rfl⟩ := h
    rcases List.mem_cons.1 hm with he | hm
    · obtain ⟨rfl, rfl⟩ := Prod.mk.inj he
      exact ⟨j, hj, List.mem_cons_self⟩
    · obtain ⟨j', hj', hmem⟩ := ih hjs hm
      exact ⟨j', hj', List.mem_cons_of_mem _ hmem⟩

theorem mem_dumpsItems {items js : List Value} (h : dumpsItems items = some js) {v : Value}
    (hm : v ∈ items) : ∃ j ∈ js, dumps v = some j := by
  induction items generalizing js with
  | nil => simp at hm
  | cons v' items ih =>
    simp only [dumpsItems, Option.bind_eq_bind, Option.pure_def, Option.bind_eq_some_iff,
      Option.some.injEq] at h
    obtain ⟨j, hj, js, hjs, rfl⟩ := h
    rcases List.mem_cons.1 hm with rfl | hm
    · exact ⟨j, List.mem_cons_self, hj⟩
    · obtain ⟨j', hmem, hj'⟩ := ih hjs hm
      exact ⟨j', List.mem_cons_of_mem _ hmem, hj'⟩

/-- A printed record has its fields, each printed. -/
theorem get?_dumps_record {fields : List (String × Value)} {printed : Value}
    (hnd : (fields.map Prod.fst).Nodup) (h : dumps (.record fields) = some printed) :
    ∃ entries, printed = .dict entries ∧ ∀ name v, (name, v) ∈ fields →
      ∃ j, dumps v = some j ∧ Dict.get? entries (.str name) = some j := by
  simp only [dumps, Option.map_eq_some_iff] at h
  obtain ⟨entries, he, rfl⟩ := h
  refine ⟨_, rfl, fun name v hm => ?_⟩
  obtain ⟨j, hj, hmem⟩ := mem_dumpsEntries he (List.mem_map_of_mem hm)
  refine ⟨j, hj, Dict.get?_of_mem ?_ ?_⟩
  · rw [((List.perm_insertionSort keyLe entries).map Prod.fst).nodup_iff, keys_dumpsEntries he,
      List.map_map]
    have hkeys : (fields.map fun p => Key.str p.1) = (fields.map Prod.fst).map Key.str := by
      rw [List.map_map]
      rfl
    exact hkeys ▸ hnd.map fun a b => Key.str.inj
  · rw [List.mem_insertionSort]
    exact hmem

theorem truthy_of_dumps_record {fields : List (String × Value)} {printed : Value}
    (h : dumps (.record fields) = some printed) (hne : fields ≠ []) : printed.truthy = true := by
  simp only [dumps, Option.map_eq_some_iff] at h
  obtain ⟨entries, he, rfl⟩ := h
  have hlength : (entries.insertionSort keyLe).length = fields.length := by
    rw [List.length_insertionSort, ← List.length_map (f := Prod.fst), keys_dumpsEntries he,
      List.length_map, List.length_map]
  rw [Value.truthy]
  cases hs : entries.insertionSort keyLe with
  | nil =>
    rw [hs] at hlength
    exact absurd (List.length_eq_zero_iff.1 hlength.symm) hne
  | cons p entries => rfl

/-! ### Runs that print a report -/

/-- A service client or a request of the run failed. -/
def FailedRun (sdk : Sdk) (args : Args) (s : List Event) : Prop :=
  (∃ connection endpoints project, sdk.connect args = .ok connection ∧
    sdk.endpoints connection args = .ok endpoints ∧
    sdk.resolveProject connection args.project = .ok project ∧
    ∃ e ∈ endpoints, isIgnoredEndpoint e = false ∧ NoClient sdk connection project e) ∨
  ∃ e ∈ s, e.Failed

variable {sdk : Sdk} {args : Args}

theorem printReport_eq_value {r : Report} {t s : List Event}
    (h : (printReport args r).run t = (.value (), s)) :
    (args.json = true ∧ ∃ printed, dumps (.record (r.fields args.hideErrors)) = some printed ∧
      s = [.json printed]) ∨
    (args.json = false ∧ s = [.table (.record (r.fields args.hideErrors))]) := by
  unfold printReport at h
  dsimp only at h
  split_ifs at h with hjson
  · left
    cases hd : dumps (.record (r.fields args.hideErrors)) with
    | none =>
      rw [hd] at h
      simp at h
    | some printed =>
      rw [hd] at h
      simp only [run_emit, Prod.mk.injEq, true_and] at h
      exact ⟨hjson, printed, rfl, h.symm⟩
  · right
    simp only [run_emit, Prod.mk.injEq, true_and] at h
    exact ⟨by simpa using hjson, h.symm⟩

/-- Exit status 0 with a printed JSON report: the report is that of the inventory, and it has no
errors in strict mode. A failure of the run leaves an error in it. -/
theorem main_eq_zero {s : List Event} {printed : Value}
    (h : (main sdk args).run [] = (.value 0, s ++ [.json printed])) :
    ∃ r : Report, args.json = true ∧ dumps (.record (r.fields args.hideErrors)) = some printed ∧
      (args.strict = true → r.errors = []) ∧ (FailedRun sdk args s → r.errors ≠ []) := by
  rcases run_handle_eq_value.1 h with h | ⟨x, _, _, _, hx, _⟩
  · obtain ⟨connection, _, s₁, hconnect, h₁, hs⟩ := run_bind_eq_value.1 h
    obtain ⟨endpoints, _, s₂, hendpoints, h₂, rfl⟩ := run_bind_eq_value.1 h₁
    obtain ⟨project, _, s₃, hproject, h₃, rfl⟩ := run_bind_eq_value.1 h₂
    obtain ⟨hconnection, rfl⟩ := run_ofExcept_eq_value.1 hconnect
    obtain ⟨hselected, rfl⟩ := run_ofExcept_eq_value.1 hendpoints
    obtain ⟨hresolved, rfl⟩ := run_ofExcept_eq_value.1 hproject
    obtain ⟨r, s₄, s₅, hinventory, h₄, rfl⟩ := run_bind_eq_value.1 h₃
    obtain ⟨_, s₆, s₇, hprint, h₅, rfl⟩ := run_bind_eq_value.1 h₄
    simp only [run_pure, Prod.mk.injEq, Outcome.value.injEq] at h₅
    obtain ⟨hexit, rfl⟩ := h₅
    have hsincere := (triple_inventory_sincere endpoints).value rfl hinventory
    simp only [List.nil_append, List.append_nil] at hs hsincere
    have hstrict : args.strict = true → r.errors = [] := by
      intro hstrict
      by_contra hne
      rw [if_pos ⟨hstrict, hne⟩] at hexit
      simp at hexit
    rcases printReport_eq_value hprint with ⟨hjson, printed', hdumps, rfl⟩ | ⟨-, rfl⟩
    · obtain ⟨rfl, hlast⟩ := List.append_inj' hs rfl
      obtain rfl : printed = printed' := by simpa using hlast
      refine ⟨r, hjson, hdumps, hstrict, fun hfailed hnil => ?_⟩
      obtain ⟨hclients, hclean⟩ := hsincere hnil
      rcases hfailed with ⟨c, es, p, hc, hes, hp, e, he, hi, hnone⟩ | ⟨e, he, hf⟩
      · obtain rfl := Except.ok.inj (hc.symm.trans hconnection)
        obtain rfl := Except.ok.inj (hes.symm.trans hselected)
        obtain rfl := Except.ok.inj (hp.symm.trans hresolved)
        exact hclients e he hi hnone
      · exact (hclean e he).1 hf
    · have hlast := (List.append_inj' hs rfl).2
      simp at hlast
  · exfalso
    split_ifs at hx
    · simp at hx
    · obtain ⟨_, _, _, _, hreturn, _⟩ := run_bind_eq_value.1 hx
      simp at hreturn

end Inventory

/-! ### A report crosses over -/

/-- A report that is printed with an error has an error for the delete command. -/
theorem errors_cross {r : Inventory.Report} {printed : Value}
    (h : Inventory.dumps (.record (r.fields false)) = some printed) (hne : r.errors ≠ []) :
    ∃ report, printed = .dict report ∧ Deletion.reportErrorDetails report ≠ [] := by
  have hnd : ((r.fields false).map Prod.fst).Nodup := by
    simp [Inventory.Report.fields]
  obtain ⟨report, rfl, hget⟩ := Inventory.get?_dumps_record hnd h
  obtain ⟨j, hj, herrors⟩ := hget "errors" (.list (r.errors.map Inventory.ReportIssue.toValue))
    (by simp [Inventory.Report.fields])
  simp only [Inventory.dumps, Option.map_eq_some_iff] at hj
  obtain ⟨issues, hissues, rfl⟩ := hj
  refine ⟨report, rfl, ?_⟩
  obtain ⟨issue, errors, he⟩ := List.exists_cons_of_ne_nil hne
  obtain ⟨j, hmem, hdumps⟩ := Inventory.mem_dumpsItems hissues
    (List.mem_map_of_mem (he ▸ List.mem_cons_self : issue ∈ r.errors))
  have htruthy : j.truthy = true := Inventory.truthy_of_dumps_record hdumps (by simp)
  unfold Deletion.reportErrorDetails
  rw [herrors, Option.getD_some]
  exact List.ne_nil_of_mem (List.mem_map_of_mem (List.mem_filter.2 ⟨hmem, htruthy⟩))

/-- After a run with a failure that prints a JSON report and exits with status 0, the delete
command deletes nothing from this report unless an allow flag is given. -/
def Refuses (args : Inventory.Args) : Prop :=
  ∀ (sdk : Inventory.Sdk) (s : List Inventory.Event) (printed : Value),
    (Inventory.main sdk args).run [] = (.value 0, s ++ [.json printed]) →
    Inventory.FailedRun sdk args s →
    ∀ (w : Deletion.World) (fuel : ℕ) (o : Deletion.Options) (path : String),
      o.yes = true → o.allowInventoryErrors = false → o.allowServiceApiErrors = false →
      (∀ t, w.read t path = .json printed) →
      Deletion.Untouched ((Deletion.main w fuel o (.report path)).run []).2

theorem untouched_of_errors {w : Deletion.World} {fuel : ℕ} {o : Deletion.Options} {path : String}
    {report : Mapping} (ha : o.allowInventoryErrors = false) (hs : o.allowServiceApiErrors = false)
    (hread : ∀ t, w.read t path = .json (.dict report))
    (h : Deletion.reportErrorDetails report ≠ []) :
    Deletion.Untouched ((Deletion.main w fuel o (.report path)).run []).2 := by
  obtain ⟨d, hd⟩ := List.exists_mem_of_ne_nil _ h
  have hblocked : Deletion.Blocked o report := by
    refine .inl ⟨d, hd, ?_⟩
    simp [Deletion.Permitted, ha, hs]
  have hsource : (Deletion.sourceReport w o (.report path)).run [] =
      (.value report, [.read path (.json (.dict report))]) := by
    simp only [Deletion.sourceReport, Deletion.loadReport]
    rw [run_bind_value (Deletion.run_ask _ _ _), hread]
    rfl
  exact Deletion.main_untouched w fuel o (.report path) (.inr ⟨report, _, hsource, hblocked⟩)

/-! ### A service that fails silently -/

def silentConnection : Inventory.Connection := ⟨"session", "p1"⟩

def silentEndpoint (service : String) : Inventory.Endpoint :=
  ⟨service, "region", service, service, service, "public", "https://" ++ service, true⟩

def silentRegistry : Inventory.Registry :=
  ⟨[("server", ⟨"server", "/servers", true, ["project_id"], []⟩)], by simp⟩

def portRegistry : Inventory.Registry :=
  ⟨[("port", ⟨"port", "/ports", true, ["project_id"], []⟩)], by simp⟩

/-- The compute service has one server, the network service fails. -/
def silentSdk : Inventory.Sdk where
  answer _ r :=
    if r.service = "compute" then .objects [.record [("id", .str "s1")]] else .failed [] "HTTP 500"
  resolveProvider e connection := .ok (.builtin ⟨connection, e.serviceType, "Proxy", true,
    if e.serviceType = "compute" then silentRegistry else portRegistry⟩)
  connectAsProject connection _ := .ok connection
  connect _ := .ok silentConnection
  endpoints _ _ := .ok [silentEndpoint "compute", silentEndpoint "network"]
  resolveProject _ _ := .ok ⟨"p1", "demo", .record [("id", .str "p1")]⟩

def silentEvents : List Inventory.Event :=
  [.listing ⟨silentConnection, "compute", "server",
      some ⟨"server", "/servers", true, ["project_id"], []⟩, [], [("project_id", .str "p1")]⟩
    (.objects [.record [("id", .str "s1")]]),
   .listing ⟨silentConnection, "network", "port",
      some ⟨"port", "/ports", true, ["project_id"], []⟩, [], [("project_id", .str "p1")]⟩
    (.failed [] "HTTP 500"),
   .issue ⟨"port", "service_api", "listing SDK resource 'port' failed: HTTP 500"⟩]

def endpointRecord (service : String) : Value := .record
  [("enabled", .bool true), ("endpoint_id", .str service), ("interface", .str "public"),
   ("raw_service_type", .str service), ("region", .str "region"), ("service_name", .str service),
   ("service_type", .str service), ("url", .str ("https://" ++ service))]

def providerRecord (service : String) : Value := .record
  [("interface", .str "public"), ("provider", .str "openstacksdk"),
   ("raw_service_type", .str service), ("region", .str "region"), ("service_name", .str service),
   ("url", .str ("https://" ++ service))]

/-- The printed report shows the server and no ports. -/
def silentReport : Value := .record
  [("endpoints", .list [endpointRecord "compute", endpointRecord "network"]),
   ("project", .record [("id", .str "p1"), ("name", .str "demo")]),
   ("providers", .record
    [("compute", providerRecord "compute"), ("network", providerRecord "network")]),
   ("resources", .record
    [("compute", .record [("server", .list [.record [("id", .str "s1")]])]),
     ("network", .record [("port", .list [])])])]

def silentArgs : Inventory.Args := ⟨"demo", true, "public", none, "openstack", false, true, false⟩

theorem run_silentArgs : (Inventory.body silentSdk silentArgs).run [] =
    (.value 0, silentEvents ++ [.json silentReport]) := by
  rfl

theorem run_silentSdk {args : Inventory.Args} (hj : args.json = true)
    (hh : args.hideErrors = true) (hs : args.strict = false) :
    (Inventory.main silentSdk args).run [] =
      (.value 0, silentEvents ++ [.json silentReport]) := by
  have hbody : Inventory.body silentSdk args = Inventory.body silentSdk silentArgs := by
    obtain ⟨project, json, interface, region, openstackBin, strict, hideErrors, debug⟩ := args
    subst hj hh hs
    rfl
  unfold Inventory.main
  rw [run_handle_eq_value, hbody]
  exact .inl run_silentArgs

theorem failedRun_silentSdk (args : Inventory.Args) :
    Inventory.FailedRun silentSdk args silentEvents := by
  right
  refine ⟨_, List.mem_cons_of_mem _ List.mem_cons_self, _, rfl, by decide, ?_⟩
  rintro ⟨-, -, hinvalid⟩
  exact absurd hinvalid (by decide)

theorem deletes_silentReport :
    ((Deletion.main (Deletion.obliging (.json silentReport) fun _ => .osError "") 1
      Deletion.expiryOptions (.report "report.json")).run []).2.any Deletion.Event.isDeletion =
        true := by
  rfl

/-- With hidden errors the server is deleted, although the ports could not be listed. -/
theorem not_refuses {args : Inventory.Args} (hj : args.json = true) (hh : args.hideErrors = true)
    (hs : args.strict = false) : ¬Refuses args := by
  intro h
  have huntouched := h silentSdk silentEvents silentReport (run_silentSdk hj hh hs)
    (failedRun_silentSdk args) (Deletion.obliging (.json silentReport) fun _ => .osError "") 1
    Deletion.expiryOptions "report.json" rfl rfl rfl fun _ => rfl
  obtain ⟨e, he, hdeletion⟩ := List.any_eq_true.1 deletes_silentReport
  rw [huntouched e he] at hdeletion
  cases hdeletion

/-- A failed inventory blocks the deletion from its report exactly if the report keeps its
errors, or the run is strict, which ends without a report. -/
theorem refuses_iff (args : Inventory.Args) :
    Refuses args ↔ args.strict = true ∨ args.hideErrors = false ∨ args.json = false := by
  constructor
  · intro h
    by_contra hnot
    rw [not_or, not_or, Bool.not_eq_true, Bool.not_eq_false, Bool.not_eq_false] at hnot
    exact not_refuses hnot.2.2 hnot.2.1 hnot.1 h
  · intro h sdk s printed hrun hfailed w fuel o path _ ha hs hread
    obtain ⟨r, hjson, hdumps, hstrict, herrors⟩ := Inventory.main_eq_zero hrun
    have hne := herrors hfailed
    have hhide : args.hideErrors = false := by
      rcases h with h | h | h
      · exact absurd (hstrict h) hne
      · exact h
      · rw [hjson] at h
        cases h
    rw [hhide] at hdumps
    obtain ⟨report, rfl, hdetails⟩ := errors_cross hdumps hne
    exact untouched_of_errors ha hs hread hdetails

/-- A run with `--hide-errors` and `--format json`. -/
theorem silentArgs_not_refused : ¬Refuses silentArgs := not_refuses rfl rfl rfl

end Yggdrasil
