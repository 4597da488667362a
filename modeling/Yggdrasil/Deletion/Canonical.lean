import Yggdrasil.Deletion.Coverage

/-! The deletion plan depends only on what the report contains: which objects stand under
which canonical service and type. The order of services, types and objects, the spelling
of the names and repetitions leave no trace, since the plan and its issues are sorted
sets. -/

namespace Yggdrasil.Deletion

open Python

/-! ### The content of a report -/

/-- `item` stands in a list under some spelling of the service and the type. -/
def Lists (resources : Mapping) (service resource : String) (item : Value) : Prop :=
  ∃ rawService serviceResources rawResource items,
    (rawService, .dict serviceResources) ∈ resources ∧
    (rawResource, .seq .list items) ∈ serviceResources ∧ item ∈ items ∧
    canonicalService rawService = service ∧ canonicalResource rawResource = resource

/-- Something that is neither empty nor a list stands in the place of a list. -/
def HasOther (resources : Mapping) (service resource : String) : Prop :=
  ∃ rawService serviceResources rawResource objects,
    (rawService, .dict serviceResources) ∈ resources ∧ (rawResource, objects) ∈ serviceResources ∧
    objects.truthy = true ∧ (∀ items, objects ≠ .seq .list items) ∧
    canonicalService rawService = service ∧ canonicalResource rawResource = resource

/-- The same objects under the same canonical names, in any order, spelling and number. -/
structure SameContent (a b : Mapping) : Prop where
  lists : ∀ service resource item, Lists a service resource item ↔ Lists b service resource item
  other : ∀ service resource, HasOther a service resource ↔ HasOther b service resource

/-- Every service entry is an object. -/
def ServicesAreObjects (resources : Mapping) : Prop := ∀ p ∈ resources, ∃ m, p.2 = .dict m

/-- Entries with one service, type and identifier come from equal records. -/
def KeysDetermine (report : Mapping) : Prop :=
  ∀ x ∈ entries report, ∀ y ∈ entries report, x.key = y.key → x = y

/-- What the reading of a report yields, in terms of its content. -/
def Yields (resources : Mapping) (x : Except Issue Resource) : Prop :=
  ∃ service resource,
    (exempt service resource = false ∧ ∃ item, Lists resources service resource item ∧
      x = if supported service resource then itemEntry service resource item
        else .error (.unsupported service resource)) ∨
    (HasOther resources service resource ∧ x = .error (.notList service resource))

theorem SameContent.yields {a b : Mapping} (h : SameContent a b) (x : Except Issue Resource) :
    Yields a x ↔ Yields b x := by
  unfold Yields
  simp only [h.lists, h.other]

/-- A list adds an entry or an issue for each of its items. -/
theorem mem_collectionEntries_list {service resource : String} {items : List Value}
    {x : Except Issue Resource} :
    x ∈ collectionEntries service resource (.seq .list items) ↔
      exempt service resource = false ∧ ∃ item ∈ items,
        x = if supported service resource then itemEntry service resource item
          else .error (.unsupported service resource) := by
  cases items with
  | nil => simp [collectionEntries, Value.truthy]
  | cons item items =>
    have ht : (Value.seq .list (item :: items)).truthy = true := rfl
    simp only [collectionEntries, ht]
    by_cases hex : exempt service resource
    · simp [hex]
    · by_cases hsup : supported service resource
      · simp [hex, hsup, eq_comm]
      · simp [hex, hsup]

/-- Anything else adds one issue, unless it is empty. -/
theorem mem_collectionEntries_other {service resource : String} {objects : Value}
    (h : ∀ items, objects ≠ .seq .list items) {x : Except Issue Resource} :
    x ∈ collectionEntries service resource objects ↔
      objects.truthy = true ∧ x = .error (.notList service resource) := by
  unfold collectionEntries
  by_cases ht : objects.truthy
  · split
    · simp_all
    · split
      · exact absurd rfl (h _)
      · simp [ht]
  · simp [ht]

/-- The entries and issues of a report are those its content yields. -/
theorem mem_reportEntries_iff {resources : Mapping} (hd : ServicesAreObjects resources)
    (x : Except Issue Resource) : x ∈ reportEntries resources ↔ Yields resources x := by
  constructor
  · intro h
    obtain ⟨⟨rawService, v⟩, hp, hx⟩ := List.mem_flatMap.1 h
    obtain ⟨serviceResources, hv⟩ := hd _ hp
    dsimp only at hv
    subst hv
    obtain ⟨⟨rawResource, objects⟩, hq, hx⟩ := List.mem_flatMap.1 hx
    refine ⟨canonicalService rawService, canonicalResource rawResource, ?_⟩
    by_cases hl : ∃ items, objects = .seq .list items
    · obtain ⟨items, rfl⟩ := hl
      obtain ⟨hex, item, hi, hx⟩ := mem_collectionEntries_list.1 hx
      exact .inl ⟨hex, item, ⟨_, _, _, _, hp, hq, hi, rfl, rfl⟩, hx⟩
    · have hl : ∀ items, objects ≠ .seq .list items := fun items he => hl ⟨items, he⟩
      obtain ⟨ht, hx⟩ := (mem_collectionEntries_other hl).1 hx
      exact .inr ⟨⟨_, _, _, _, hp, hq, ht, hl, rfl, rfl⟩, hx⟩
  · rintro ⟨service, resource, ⟨hex, item, hlists, hx⟩ | ⟨hother, hx⟩⟩
    · obtain ⟨rawService, serviceResources, rawResource, items, hs, hk, hi, rfl, rfl⟩ := hlists
      refine List.mem_flatMap.2 ⟨_, hs, List.mem_flatMap.2 ⟨_, hk, ?_⟩⟩
      exact mem_collectionEntries_list.2 ⟨hex, item, hi, hx⟩
    · obtain ⟨rawService, serviceResources, rawResource, objects, hs, hk, ht, hl, rfl, rfl⟩ := hother
      refine List.mem_flatMap.2 ⟨_, hs, List.mem_flatMap.2 ⟨_, hk, ?_⟩⟩
      exact (mem_collectionEntries_other hl).2 ⟨ht, hx⟩

/-! ### The plan as a set -/

/-- The plan of a report with the given content: the operations of its entries and the
texts of its issues, each once, in their order. -/
structure IsPlan (entry : Resource → Prop) (issue : String → Prop)
    (operations : List Operation) (texts : List String) : Prop where
  mem_operations : ∀ op, op ∈ operations ↔ ∃ r, entry r ∧ operationOf r = some op
  sorted : operations.Pairwise Operation.le
  nodup : (operations.map fun op => op.resource.key).Nodup
  mem_texts : ∀ text, text ∈ texts ↔ issue text
  texts_sorted : texts.Pairwise (· ≤ ·)
  texts_nodup : texts.Nodup

theorem operationOf_some {r : Resource} {op : Operation} (h : operationOf r = some op) :
    op.resource = r ∧ op.phase = (Dict.get? resourcePhases (r.service, r.resource)).getD 0 := by
  unfold operationOf at h
  split at h
  · rw [Option.some.injEq] at h
    rw [← h]
    exact ⟨rfl, rfl⟩
  · simp at h

instance : Std.Total Operation.le := ⟨fun _ _ => le_total _ _⟩

instance : IsTrans Operation Operation.le := ⟨fun _ _ _ => le_trans⟩

/-- Operations that stand level in the order have one key. -/
theorem Operation.le_antisymm_key {a b : Operation} (hab : a.le b) (hba : b.le a) :
    a.resource.key = b.resource.key := by
  have h := congrArg (fun p => (ofLex p).2) (le_antisymm hab hba)
  simp only [ofLex_toLex] at h
  have hs := congrArg (fun p => (ofLex p).1) h
  have hk := congrArg (fun p => (ofLex (ofLex p).2).1) h
  have hi := congrArg (fun p => (ofLex (ofLex p).2).2) h
  simp only [ofLex_toLex] at hs hk hi
  simp only [Resource.key, hs, hk, hi]

theorem Operation.phase_le {a b : Operation} (h : a.le b) : a.phase ≤ b.phase := by
  rcases (Prod.Lex.toLex_le_toLex).1 h with h | ⟨h, _⟩
  · exact h.le
  · exact h.le

/-- Each operation has the key of its entry. -/
theorem keys_sublist (resources : List Resource) :
    ((resources.filterMap operationOf).map fun op => op.resource.key).Sublist
      (resources.map Resource.key) := by
  induction resources with
  | nil => exact List.Sublist.slnil
  | cons r resources ih =>
    rw [List.filterMap_cons, List.map_cons]
    cases h : operationOf r with
    | none => exact ih.cons _
    | some op =>
      dsimp only
      rw [List.map_cons, (operationOf_some h).1]
      exact ih.cons_cons _

/-- The content determines the plan. -/
theorem IsPlan.unique {entry : Resource → Prop} {issue : String → Prop}
    {ops ops' : List Operation} {texts texts' : List String} (h : IsPlan entry issue ops texts)
    (h' : IsPlan entry issue ops' texts') : ops = ops' ∧ texts = texts' := by
  constructor
  · have hperm : ops.Perm ops' := by
      refine (List.perm_ext_iff_of_nodup (List.Nodup.of_map _ h.nodup)
        (List.Nodup.of_map _ h'.nodup)).2 fun op => ?_
      rw [h.mem_operations, h'.mem_operations]
    refine hperm.eq_of_pairwise (fun a b ha hb hab hba => ?_) h.sorted h'.sorted
    have hb' := hperm.mem_iff.2 hb
    exact List.inj_on_of_nodup_map h.nodup ha hb' (Operation.le_antisymm_key hab hba)
  · have hperm : texts.Perm texts' := by
      refine (List.perm_ext_iff_of_nodup h.texts_nodup h'.texts_nodup).2 fun text => ?_
      rw [h.mem_texts, h'.mem_texts]
    exact hperm.eq_of_pairwise (fun _ _ _ _ => le_antisymm) h.texts_sorted h'.texts_sorted

/-- The entries the content yields. -/
def Entry (resources : Mapping) (r : Resource) : Prop := Yields resources (.ok r)

/-- The texts of the issues the content yields, while reading or for an entry. -/
def IssueText (resources : Mapping) (text : String) : Prop :=
  ∃ i : Issue, i.text = text ∧
    (Yields resources (.error i) ∨ ∃ r, Entry resources r ∧ commandFor r = .error i)

theorem SameContent.entry {a b : Mapping} (h : SameContent a b) : Entry a = Entry b :=
  funext fun _ => propext (h.yields _)

theorem SameContent.issueText {a b : Mapping} (h : SameContent a b) : IssueText a = IssueText b := by
  funext text
  unfold IssueText
  simp only [h.yields, h.entry]

theorem mem_entries_iff {report resources : Mapping} (hr : report.get "resources" = .dict resources)
    (hd : ServicesAreObjects resources) (r : Resource) :
    r ∈ entries report ↔ Entry resources r := by
  rw [Entry, ← mem_reportEntries_iff hd, entries, hr, List.mem_filterMap]
  constructor
  · rintro ⟨x, hx, hxr⟩
    cases x with
    | error i => simp [entryOf] at hxr
    | ok e =>
      simp only [entryOf, Option.some.injEq] at hxr
      rwa [← hxr]
  · exact fun h => ⟨_, h, rfl⟩

theorem issueOf_eq_some {α : Type} {x : Except Issue α} {i : Issue} :
    issueOf x = some i ↔ x = .error i := by
  cases x <;> simp [issueOf]

theorem mem_planIssues_iff {report resources : Mapping}
    (hr : report.get "resources" = .dict resources) (hd : ServicesAreObjects resources)
    (hk : KeysDetermine report) (i : Issue) :
    i ∈ planIssues (Dict.firsts Resource.key (entries report))
        ((reportEntries resources).filterMap issueOf) ↔
      Yields resources (.error i) ∨ ∃ r, Entry resources r ∧ commandFor r = .error i := by
  unfold planIssues
  rw [List.mem_append, List.mem_filterMap, List.mem_filterMap]
  simp only [issueOf_eq_some, Dict.mem_firsts_of_inj Resource.key hk, mem_entries_iff hr hd]
  rw [← mem_reportEntries_iff hd]
  refine or_congr_left ⟨?_, fun h => ⟨_, h, rfl⟩⟩
  rintro ⟨x, hx, rfl⟩
  exact hx

/-- A report whose keys determine their records has the plan of its content. -/
theorem planDeletions_isPlan {report resources : Mapping}
    (hr : report.get "resources" = .dict resources) (hd : ServicesAreObjects resources)
    (hk : KeysDetermine report) :
    ∃ operations texts, planDeletions report = .ok (operations, texts) ∧
      IsPlan (Entry resources) (IssueText resources) operations texts := by
  have hre : resourceEntries report = .ok (Dict.firsts Resource.key (entries report),
      (reportEntries resources).filterMap issueOf) := by simp [resourceEntries, entries, hr]
  obtain ⟨-, -, hplan⟩ := planDeletions_spec hre
  have hentry := mem_entries_iff hr hd
  have hfirst : ∀ r, r ∈ Dict.firsts Resource.key (entries report) ↔ Entry resources r := fun r =>
    (Dict.mem_firsts_of_inj Resource.key hk).trans (hentry r)
  refine ⟨_, _, hplan, ?_, ?_, ?_, ?_, ?_, ?_⟩
  · intro op
    rw [List.mem_insertionSort, List.mem_filterMap]
    simp only [hfirst]
  · exact List.pairwise_insertionSort _ _
  · refine (((List.perm_insertionSort _ _).map _).nodup_iff).2 ?_
    exact (Dict.nodup_firsts Resource.key _).sublist (keys_sublist _)
  · intro text
    rw [List.mem_insertionSort, List.mem_dedup, List.mem_map]
    simp only [mem_planIssues_iff hr hd hk]
    exact exists_congr fun i => and_comm
  · exact List.pairwise_insertionSort _ _
  · exact ((List.perm_insertionSort _ _).nodup_iff).2 (List.nodup_dedup _)

/-- The phase of an operation of the plan is the table's entry for its type. -/
theorem IsPlan.phase_eq {resources : Mapping} {operations : List Operation} {texts : List String}
    {issue : String → Prop} (h : IsPlan (Entry resources) issue operations texts)
    (hw : ∀ r, Entry resources r → r.WellFormed) {op : Operation} (hop : op ∈ operations) :
    Dict.get? resourcePhases (op.resource.service, op.resource.resource) = some op.phase := by
  obtain ⟨r, hr, ho⟩ := (h.mem_operations op).1 hop
  obtain ⟨hres, hphase⟩ := operationOf_some ho
  obtain ⟨phase, hp⟩ := Option.isSome_iff_exists.1 (hw r hr).supported
  rw [hphase, hres, hp]
  rfl

section Example

private def server (identifier : String) : Value := .record [("id", .str identifier)]

/-- Two servers, one listed twice, before a zone. -/
def projectResources : Mapping :=
  [(.str "nova", .record [("servers", .list [server "s1", server "s2", server "s1"])]),
   (.str "dns", .record [("zone", .list [server "z"])])]

/-- The same zone and servers, the servers under two spellings of their service. -/
def splitResources : Mapping :=
  [(.str "designate", .record [("zones", .list [server "z"])]),
   (.str "compute", .record [("server", .list [server "s2"])]),
   (.str "Nova", .record [("servers", .list [server "s1"])])]

private theorem canonical_example :
    canonicalService (.str "nova") = "compute" ∧ canonicalService (.str "Nova") = "compute" ∧
      canonicalService (.str "compute") = "compute" ∧ canonicalService (.str "dns") = "dns" ∧
      canonicalService (.str "designate") = "dns" ∧ canonicalResource (.str "servers") = "server" ∧
      canonicalResource (.str "server") = "server" ∧ canonicalResource (.str "zone") = "zone" ∧
      canonicalResource (.str "zones") = "zone" := by decide +kernel

private theorem sameContent_example : SameContent projectResources splitResources := by
  obtain ⟨h1, h2, h3, h4, h5, h6, h7, h8, h9⟩ := canonical_example
  constructor
  · intro service resource item
    simp only [Lists, projectResources, splitResources, List.mem_cons, or_and_right, exists_or]
    simp [h1, h2, h3, h4, h5, h6, h7, h8, h9]
    tauto
  · intro service resource
    simp only [HasOther, projectResources, splitResources, List.mem_cons, or_and_right, exists_or]
    simp

private theorem keysDetermine_example :
    KeysDetermine [(.str "resources", .dict projectResources)] ∧
      KeysDetermine [(.str "resources", .dict splitResources)] := by
  have ha : entries [(.str "resources", .dict projectResources)] =
      [⟨"compute", "server", "s1", [(.str "id", .str "s1")]⟩,
       ⟨"compute", "server", "s2", [(.str "id", .str "s2")]⟩,
       ⟨"compute", "server", "s1", [(.str "id", .str "s1")]⟩,
       ⟨"dns", "zone", "z", [(.str "id", .str "z")]⟩] := by rfl
  have hb : entries [(.str "resources", .dict splitResources)] =
      [⟨"dns", "zone", "z", [(.str "id", .str "z")]⟩,
       ⟨"compute", "server", "s2", [(.str "id", .str "s2")]⟩,
       ⟨"compute", "server", "s1", [(.str "id", .str "s1")]⟩] := by rfl
  unfold KeysDetermine
  rw [ha, hb]
  simp [Resource.key]

end Example

end Yggdrasil.Deletion
