import Yggdrasil.Deletion.Plan

/-! Completeness of the deletion plan. Every listed object that is not exempt must be
addressed by an operation or be the subject of an issue. The planner keeps one entry
for each (service, type, identifier) and strips the texts it reads, so the plan is
complete exactly when every entry shares its full address with a kept entry whose
address survives the stripping. -/

namespace Yggdrasil.Deletion

open Python

/-! ### The specification -/

/-- `item` stands in a non-empty list under the service and type, in any accepted
spelling, and the type is not exempt. -/
def Listed (report : Mapping) (service resource : String) (item : Value) : Prop :=
  ∃ resources rawService serviceResources rawResource items,
    report.get "resources" = .dict resources ∧ (rawService, .dict serviceResources) ∈ resources ∧
    (rawResource, .seq .list items) ∈ serviceResources ∧ item ∈ items ∧
    canonicalService rawService = service ∧ canonicalResource rawResource = resource ∧
    exempt service resource = false

/-- The full address of an object, as the report stores it: container and name of a Swift
object, zone and identifier of a DNS child, the identifier of anything else. -/
def fullAddress (service resource : String) (raw : Mapping) : List String :=
  let name := rawText ((identifierValue raw service resource).getD .none)
  if service = "object-store" ∧ resource = "object" then
    [rawText (containerValue raw), rawText (objectNameValue raw)]
  else if service = "dns" ∧ (resource = "recordset" ∨ resource = "zone_share") then
    [rawText (zoneValue raw), name]
  else [name]

/-- The operation is of the type and its command ends with the full address. -/
def Operation.Addresses (op : Operation) (service resource : String) (raw : Mapping) : Prop :=
  op.resource.service = service ∧ op.resource.resource = resource ∧
    fullAddress service resource raw <:+ op.argv

/-- The issue is about the item, or about an entry for the same object. -/
def Issue.Concerns (service resource : String) (item : Value) : Issue → Prop
  | .serviceNotObject _ => False
  | .notList _ _ => False
  | .unsupported s k => s = service ∧ k = resource
  | .notObject s k => s = service ∧ k = resource ∧ ∀ raw, item ≠ .dict raw
  | .noIdentifier s k raw => s = service ∧ k = resource ∧ item = .dict raw
  | .objectAddress raw => service = "object-store" ∧ resource = "object" ∧
    ∃ raw', item = .dict raw' ∧ fullAddress service resource raw = fullAddress service resource raw'
  | .recordsetZone raw => service = "dns" ∧ resource = "recordset" ∧
    ∃ raw', item = .dict raw' ∧ fullAddress service resource raw = fullAddress service resource raw'
  | .zoneShareZone raw => service = "dns" ∧ resource = "zone_share" ∧
    ∃ raw', item = .dict raw' ∧ fullAddress service resource raw = fullAddress service resource raw'

/-- The plan of the report addresses the item or reports an issue for it. -/
def Accounted (report : Mapping) (service resource : String) (item : Value) : Prop :=
  ∃ resources issues operations texts,
    resourceEntries report = .ok (resources, issues) ∧
    planDeletions report = .ok (operations, texts) ∧
    ((∃ raw, item = .dict raw ∧ ∃ op ∈ operations, op.Addresses service resource raw) ∨
      ∃ i ∈ planIssues resources issues, i.Concerns service resource item ∧ i.text ∈ texts)

/-! ### Entries of a report -/

/-- The deletable entries of a report, before the first of each key is kept. -/
def entries (report : Mapping) : List Resource :=
  match report.get "resources" with
  | .dict resources => (reportEntries resources).filterMap entryOf
  | _ => []

def Resource.address (r : Resource) : List String := fullAddress r.service r.resource r.raw

/-- The address as the delete command writes it. -/
def Resource.target (r : Resource) : List String := r.address.map strip

/-- Every entry has its full address in common with the first entry of some key, and that
address is written unchanged, unless a part of it is blank and there is no command. -/
def AddressesKept (report : Mapping) : Prop :=
  ∀ e ∈ entries report, ∃ g, Dict.IsFirst Resource.key (entries report) g ∧
    g.service = e.service ∧ g.resource = e.resource ∧
    (if "" ∈ g.target then g.address else g.target) = e.address

/-- What an entry carries: a supported type that is not exempt and a non-blank identifier. -/
structure Resource.WellFormed (r : Resource) : Prop where
  supported : supported r.service r.resource = true
  notExempt : exempt r.service r.resource = false
  identifier_eq : r.identifier = Deletion.identifier r.raw r.service r.resource
  identifier_ne : r.identifier ≠ ""

theorem itemEntry_ok {service resource : String} {item : Value} {r : Resource}
    (h : itemEntry service resource item = .ok r) :
    item = .dict r.raw ∧ r.service = service ∧ r.resource = resource ∧
      r.identifier = identifier r.raw service resource ∧ r.identifier ≠ "" := by
  cases item with
  | dict raw =>
    simp only [itemEntry] at h
    split_ifs at h with hid
    simp only [Except.ok.injEq] at h
    subst h
    exact ⟨rfl, rfl, rfl, rfl, hid⟩
  | _ => simp [itemEntry] at h

theorem itemEntry_error {service resource : String} {item : Value} {i : Issue}
    (h : itemEntry service resource item = .error i) :
    (∃ raw, item = .dict raw ∧ i = .noIdentifier service resource raw ∧
      identifier raw service resource = "") ∨
    ((∀ raw, item ≠ .dict raw) ∧ i = .notObject service resource) := by
  cases item with
  | dict raw =>
    simp only [itemEntry] at h
    split_ifs at h with hid
    exact .inl ⟨raw, rfl, (Except.error.inj h).symm, hid⟩
  | _ => exact .inr ⟨by simp, (Except.error.inj h).symm⟩

/-- What one collection contributes comes from one of its items, or is an issue about the
collection. -/
theorem mem_collectionEntries {service resource : String} {objects : Value}
    {x : Except Issue Resource} (h : x ∈ collectionEntries service resource objects) :
    (∃ items, objects = .seq .list items ∧ exempt service resource = false ∧
      ((supported service resource = false ∧ x = .error (.unsupported service resource)) ∨
        (supported service resource = true ∧ ∃ item ∈ items, x = itemEntry service resource item))) ∨
    x = .error (.notList service resource) := by
  unfold collectionEntries at h
  split at h
  · simp at h
  · split at h
    · rename_i _ items _
      split_ifs at h with hex hsup
      · simp at h
      · rw [List.mem_singleton] at h
        exact .inl ⟨items, rfl, by simpa using hex, .inl ⟨by simpa using hsup, h⟩⟩
      · obtain ⟨item, hitem, rfl⟩ := List.mem_map.1 h
        exact .inl ⟨items, rfl, by simpa using hex, .inr ⟨by simpa using hsup, item, hitem, rfl⟩⟩
    · rw [List.mem_singleton] at h
      exact .inr h

theorem mem_reportEntries {resources : Mapping} {x : Except Issue Resource}
    (h : x ∈ reportEntries resources) :
    (∃ rawService serviceResources rawResource objects,
      (rawService, .dict serviceResources) ∈ resources ∧ (rawResource, objects) ∈ serviceResources ∧
      x ∈ collectionEntries (canonicalService rawService) (canonicalResource rawResource) objects) ∨
    ∃ rawService, x = .error (.serviceNotObject rawService) := by
  obtain ⟨⟨rawService, v⟩, hp, hx⟩ := List.mem_flatMap.1 h
  cases v with
  | dict serviceResources =>
    obtain ⟨⟨rawResource, objects⟩, hq, hx⟩ := List.mem_flatMap.1 hx
    exact .inl ⟨rawService, serviceResources, rawResource, objects, hp, hq, hx⟩
  | _ => exact .inr ⟨rawService.text, List.mem_singleton.1 hx⟩

/-- A listed item of a supported type is read as an entry or an issue; any other listed
item makes its type an issue. -/
theorem Listed.mem_reportEntries {report : Mapping} {service resource : String} {item : Value}
    (h : Listed report service resource item) :
    ∃ resources, report.get "resources" = .dict resources ∧
      (if supported service resource then itemEntry service resource item
        else .error (.unsupported service resource)) ∈ reportEntries resources := by
  obtain ⟨resources, rawService, serviceResources, rawResource, items, hr, hs, hk, hi, rfl, rfl,
    hex⟩ := h
  refine ⟨resources, hr, List.mem_flatMap.2 ⟨_, hs, List.mem_flatMap.2 ⟨_, hk, ?_⟩⟩⟩
  have ht : (Value.seq .list items).truthy = true := by
    cases items with
    | nil => simp at hi
    | cons a l => rfl
  simp only [collectionEntries, ht, hex]
  by_cases hsup : supported (canonicalService rawService) (canonicalResource rawResource)
  · simpa [hsup] using List.mem_map.2 ⟨item, hi, rfl⟩
  · simp [hsup]

/-- The entries of a report are its listed objects of a supported type with an identifier. -/
theorem mem_entries {report : Mapping} {r : Resource} (h : r ∈ entries report) :
    Listed report r.service r.resource (.dict r.raw) ∧ r.WellFormed := by
  unfold entries at h
  split at h
  · rename_i resources hres
    obtain ⟨x, hx, hxr⟩ := List.mem_filterMap.1 h
    cases x with
    | error i => simp [entryOf] at hxr
    | ok r' =>
      simp only [entryOf, Option.some.injEq] at hxr
      subst hxr
      rcases mem_reportEntries hx with ⟨rs, sr, rk, objects, hs, hk, hc⟩ | ⟨_, hx⟩
      · rcases mem_collectionEntries hc with ⟨items, rfl, hex, ⟨_, hx⟩ | ⟨hsup, item, hi, hx⟩⟩ | hx
        · simp at hx
        · obtain ⟨rfl, hse, hre, hid, hne⟩ := itemEntry_ok hx.symm
          rw [hse, hre]
          refine ⟨⟨resources, rs, sr, rk, items, hres, hs, hk, hi, rfl, rfl, hex⟩, ?_⟩
          exact ⟨by rw [hse, hre]; exact hsup, by rw [hse, hre]; exact hex,
            by rw [hse, hre]; exact hid, hne⟩
        · simp at hx
      · simp at hx
  · simp at h

/-- What an issue found while reading the report asserts; the issues about an address are
only found later. -/
def Issue.HoldsReading : Issue → Prop
  | .unsupported service resource => supported service resource = false
  | .noIdentifier service resource raw => identifier raw service resource = ""
  | .serviceNotObject _ | .notList _ _ | .notObject _ _ => True
  | .objectAddress _ | .recordsetZone _ | .zoneShareZone _ => False

theorem entryIssue_holds {resources : Mapping} {i : Issue}
    (h : i ∈ (reportEntries resources).filterMap issueOf) : i.HoldsReading := by
  obtain ⟨x, hx, hxi⟩ := List.mem_filterMap.1 h
  cases x with
  | ok r => simp [issueOf] at hxi
  | error j =>
    simp only [issueOf, Option.some.injEq] at hxi
    subst hxi
    rcases mem_reportEntries hx with ⟨rs, sr, rk, objects, _, _, hc⟩ | ⟨_, hx⟩
    · rcases mem_collectionEntries hc with ⟨items, _, _, ⟨hsup, hx⟩ | ⟨_, item, _, hx⟩⟩ | hx
      · rw [Except.error.inj hx]; exact hsup
      · rcases itemEntry_error hx.symm with ⟨raw, _, rfl, hid⟩ | ⟨_, rfl⟩
        · exact hid
        · trivial
      · rw [Except.error.inj hx]; trivial
    · rw [Except.error.inj hx]; trivial

/-! ### The command of an entry -/

/-- Every deletable type is a DNS child, a Swift object, or has command words of its own. -/
theorem supported_cases {service resource : String} (h : supported service resource = true) :
    (service = "dns" ∧ resource = "recordset") ∨ (service = "dns" ∧ resource = "zone_share") ∨
      (service = "object-store" ∧ resource = "object") ∨
      ∃ words, Dict.get? commands (service, resource) = some words := by
  have table : ∀ p ∈ resourcePhases, (p.1.1 = "dns" ∧ p.1.2 = "recordset") ∨
      (p.1.1 = "dns" ∧ p.1.2 = "zone_share") ∨ (p.1.1 = "object-store" ∧ p.1.2 = "object") ∨
      (Dict.get? commands p.1).isSome := by decide +kernel
  obtain ⟨phase, hphase⟩ := Option.isSome_iff_exists.1 h
  simpa only [Option.isSome_iff_exists] using table _ (Dict.mem_of_get? hphase)

/-- The types with command words of their own are not addressed in two parts. -/
theorem commands_plain {service resource : String} {words : List String}
    (h : Dict.get? commands (service, resource) = some words) :
    ¬(service = "dns" ∧ (resource = "recordset" ∨ resource = "zone_share")) ∧
      ¬(service = "object-store" ∧ resource = "object") := by
  have table : ∀ p ∈ commands, ¬(p.1.1 = "dns" ∧ (p.1.2 = "recordset" ∨ p.1.2 = "zone_share")) ∧
      ¬(p.1.1 = "object-store" ∧ p.1.2 = "object") := by decide +kernel
  exact table _ (Dict.mem_of_get? h)

/-- The words of a delete command before the address. -/
def commandWords (service resource : String) : List String :=
  if service = "dns" ∧ resource = "recordset" then ["recordset", "delete"]
  else if service = "dns" ∧ resource = "zone_share" then ["zone", "share", "delete"]
  else if service = "object-store" ∧ resource = "object" then ["object", "delete"]
  else (Dict.get? commands (service, resource)).getD []

theorem blank_mem_pair {a b : String} : "" ∈ [a, b] ↔ a = "" ∨ b = "" := by
  rw [List.mem_cons, List.mem_singleton, eq_comm, @eq_comm _ "" b]

/-- The issue of an entry without a command. -/
def Resource.addressIssue (r : Resource) : Issue :=
  if r.resource = "recordset" then .recordsetZone r.raw
  else if r.resource = "zone_share" then .zoneShareZone r.raw
  else .objectAddress r.raw

namespace Resource.WellFormed

variable {r : Resource} (h : r.WellFormed)
include h

theorem identifier_strip :
    r.identifier = strip (rawText ((identifierValue r.raw r.service r.resource).getD .none)) := by
  have hid := h.identifier_eq
  cases hv : identifierValue r.raw r.service r.resource with
  | none => exact absurd (by simp [hid, Deletion.identifier, hv]) h.identifier_ne
  | some v => simp [hid, Deletion.identifier, hv, scalarText]

theorem target_dns (hs : r.service = "dns")
    (hk : r.resource = "recordset" ∨ r.resource = "zone_share") :
    r.target = [scalarText (zoneValue r.raw), r.identifier] := by
  have hobj : ¬(r.service = "object-store" ∧ r.resource = "object") := by simp [hs]
  rw [h.identifier_strip]
  simp only [Resource.target, Resource.address, fullAddress, if_neg hobj, if_pos (And.intro hs hk)]
  rfl

omit h in
theorem target_object (hs : r.service = "object-store") (hk : r.resource = "object") :
    r.target = [scalarText (containerValue r.raw), scalarText (objectNameValue r.raw)] := by
  simp only [Resource.target, Resource.address, fullAddress, if_pos (And.intro hs hk)]
  rfl

theorem target_plain {words : List String}
    (hw : Dict.get? commands (r.service, r.resource) = some words) : r.target = [r.identifier] := by
  obtain ⟨hdns, hobj⟩ := commands_plain hw
  rw [h.identifier_strip]
  simp only [Resource.target, Resource.address, fullAddress, if_neg hdns, if_neg hobj]
  rfl

/-- An entry with a blank part in its address has no command. -/
theorem commandFor_of_blank (hb : "" ∈ r.target) : commandFor r = .error r.addressIssue := by
  have hne := h.identifier_ne
  rcases supported_cases h.supported with ⟨hs, hk⟩ | ⟨hs, hk⟩ | ⟨hs, hk⟩ | ⟨words, hw⟩
  · rw [h.target_dns hs (.inl hk), blank_mem_pair, or_iff_left hne] at hb
    rw [commandFor, if_pos ⟨hs, hk⟩, addressIssue, if_pos hk]
    exact if_pos hb
  · rw [h.target_dns hs (.inr hk), blank_mem_pair, or_iff_left hne] at hb
    rw [commandFor, if_neg (by simp [hk]), if_pos ⟨hs, hk⟩, addressIssue, if_neg (by simp [hk]),
      if_pos hk]
    exact if_pos hb
  · rw [target_object hs hk, blank_mem_pair] at hb
    rw [commandFor, if_neg (by simp [hs]), if_neg (by simp [hs]), if_pos ⟨hs, hk⟩, addressIssue,
      if_neg (by simp [hk]), if_neg (by simp [hk])]
    exact if_pos hb
  · rw [h.target_plain hw] at hb
    exact absurd (List.mem_singleton.1 hb).symm hne

/-- Any other entry has one: the words of its type and the stripped address. -/
theorem commandFor_eq (hb : "" ∉ r.target) :
    commandFor r = .ok (commandWords r.service r.resource ++ r.target) := by
  unfold commandWords
  rcases supported_cases h.supported with ⟨hs, hk⟩ | ⟨hs, hk⟩ | ⟨hs, hk⟩ | ⟨words, hw⟩
  · rw [h.target_dns hs (.inl hk)] at hb ⊢
    rw [blank_mem_pair, not_or] at hb
    rw [commandFor, if_pos ⟨hs, hk⟩, if_pos ⟨hs, hk⟩]
    exact if_neg hb.1
  · rw [h.target_dns hs (.inr hk)] at hb ⊢
    rw [blank_mem_pair, not_or] at hb
    have hrecord : ¬(r.service = "dns" ∧ r.resource = "recordset") := by simp [hk]
    rw [commandFor, if_neg hrecord, if_pos ⟨hs, hk⟩, if_neg hrecord, if_pos ⟨hs, hk⟩]
    exact if_neg hb.1
  · rw [target_object hs hk] at hb ⊢
    rw [blank_mem_pair] at hb
    have hdns : ∀ kind, ¬(r.service = "dns" ∧ r.resource = kind) := by simp [hs]
    rw [commandFor, if_neg (hdns _), if_neg (hdns _), if_pos ⟨hs, hk⟩, if_neg (hdns _),
      if_neg (hdns _), if_pos ⟨hs, hk⟩]
    exact if_neg hb
  · obtain ⟨hdns, hobj⟩ := commands_plain hw
    rw [h.target_plain hw, commandFor, if_neg (fun e => hdns ⟨e.1, .inl e.2⟩),
      if_neg (fun e => hdns ⟨e.1, .inr e.2⟩), if_neg hobj, if_neg (fun e => hdns ⟨e.1, .inl e.2⟩),
      if_neg (fun e => hdns ⟨e.1, .inr e.2⟩), if_neg hobj, hw]
    rfl

theorem commandFor_of_target (hb : "" ∉ r.target) :
    ∃ words, commandFor r = .ok (words ++ r.target) := ⟨_, h.commandFor_eq hb⟩

/-- The issue of an entry without a command concerns the objects with its address. -/
theorem concerns_addressIssue (hb : "" ∈ r.target) (service resource : String) (raw : Mapping) :
    r.addressIssue.Concerns service resource (.dict raw) ↔
      r.service = service ∧ r.resource = resource ∧ r.address = fullAddress service resource raw := by
  have hdict : ∀ raw₀, (∃ raw', Value.dict raw = .dict raw' ∧
      fullAddress service resource raw₀ = fullAddress service resource raw') ↔
      fullAddress service resource raw₀ = fullAddress service resource raw := by
    intro raw₀
    constructor
    · rintro ⟨raw', he, h⟩
      rw [Value.dict.inj he, h]
    · exact fun h => ⟨raw, rfl, h⟩
  rcases supported_cases h.supported with ⟨hs, hk⟩ | ⟨hs, hk⟩ | ⟨hs, hk⟩ | ⟨words, hw⟩
  · rw [addressIssue, if_pos hk]
    simp only [Issue.Concerns, hdict, hs, hk, eq_comm (a := service), eq_comm (a := resource)]
    constructor <;> rintro ⟨rfl, rfl, ha⟩ <;> refine ⟨rfl, rfl, ?_⟩ <;>
      simpa [Resource.address, hs, hk] using ha
  · rw [addressIssue, if_neg (by simp [hk]), if_pos hk]
    simp only [Issue.Concerns, hdict, hs, hk, eq_comm (a := service), eq_comm (a := resource)]
    constructor <;> rintro ⟨rfl, rfl, ha⟩ <;> refine ⟨rfl, rfl, ?_⟩ <;>
      simpa [Resource.address, hs, hk] using ha
  · rw [addressIssue, if_neg (by simp [hk]), if_neg (by simp [hk])]
    simp only [Issue.Concerns, hdict, hs, hk, eq_comm (a := service), eq_comm (a := resource)]
    constructor <;> rintro ⟨rfl, rfl, ha⟩ <;> refine ⟨rfl, rfl, ?_⟩ <;>
      simpa [Resource.address, hs, hk] using ha
  · rw [h.target_plain hw] at hb
    exact absurd (List.mem_singleton.1 hb).symm h.identifier_ne

end Resource.WellFormed

/-! ### The plan of a report -/

/-- The plan is built from the kept entries and the issues of the reading. -/
theorem planDeletions_spec {report : Mapping} {resources : List Resource} {issues : List Issue}
    (h : resourceEntries report = .ok (resources, issues)) :
    resources = Dict.firsts Resource.key (entries report) ∧
      (∃ m, report.get "resources" = .dict m ∧ issues = (reportEntries m).filterMap issueOf) ∧
      planDeletions report = .ok ((resources.filterMap operationOf).insertionSort Operation.le,
        (((planIssues resources issues).map Issue.text).dedup).insertionSort (· ≤ ·)) := by
  refine ⟨?_, ?_, by simp only [planDeletions, h]⟩ <;> unfold resourceEntries at h <;> split at h
  · rename_i m hm
    simp only [Except.ok.injEq, Prod.mk.injEq] at h
    simp [entries, hm, ← h.1]
  · simp at h
  · rename_i m hm
    simp only [Except.ok.injEq, Prod.mk.injEq] at h
    exact ⟨m, hm, h.2.symm⟩
  · simp at h

/-- The operations are those of the kept entries whose address has no blank part. -/
theorem mem_operations {report : Mapping} {op : Operation} :
    op ∈ ((Dict.firsts Resource.key (entries report)).filterMap operationOf).insertionSort
        Operation.le ↔
      ∃ g, Dict.IsFirst Resource.key (entries report) g ∧ "" ∉ g.target ∧ op.resource = g ∧
        operationOf g = some op := by
  simp only [List.mem_insertionSort, List.mem_filterMap, Dict.mem_firsts]
  refine exists_congr fun g => and_congr_right fun hg => ?_
  have hwf := (mem_entries hg.mem).2
  unfold operationOf
  by_cases hb : "" ∈ g.target
  · simp [hwf.commandFor_of_blank hb, hb]
  · obtain ⟨words, hwords⟩ := hwf.commandFor_of_target hb
    simp only [hwords, Option.some.injEq, hb, not_false_eq_true, true_and]
    exact ⟨fun h => ⟨h ▸ rfl, h⟩, And.right⟩

/-- The command of an operation ends with the address its resource is written with. -/
theorem suffix_argv {g : Resource} {op : Operation} (hg : g.WellFormed) (hb : "" ∉ g.target)
    (h : operationOf g = some op) : g.target <:+ op.argv := by
  obtain ⟨words, hwords⟩ := hg.commandFor_of_target hb
  simp only [operationOf, hwords, Option.some.injEq] at h
  rw [← h]
  exact List.suffix_append _ _

theorem exists_operation {g : Resource} (hg : g.WellFormed) (hb : "" ∉ g.target) :
    ∃ op, operationOf g = some op ∧ op.resource = g := by
  obtain ⟨words, hwords⟩ := hg.commandFor_of_target hb
  simp only [operationOf, hwords]
  exact ⟨_, rfl, rfl⟩

theorem length_address_eq {a b : Resource} (hs : a.service = b.service)
    (hk : a.resource = b.resource) : a.address.length = b.address.length := by
  simp only [Resource.address, fullAddress, hs, hk]
  split_ifs <;> rfl

theorem text_mem {resources : List Resource} {issues : List Issue} {i : Issue}
    (h : i ∈ planIssues resources issues) :
    i.text ∈ (((planIssues resources issues).map Issue.text).dedup).insertionSort (· ≤ ·) := by
  rw [List.mem_insertionSort, List.mem_dedup]
  exact List.mem_map_of_mem h

/-- If every listed object is accounted for, the addresses are kept. -/
theorem addressesKept_of_accounted {report : Mapping}
    (h : ∀ service resource item, Listed report service resource item →
      Accounted report service resource item) : AddressesKept report := by
  intro e he
  obtain ⟨hl, hwf⟩ := mem_entries he
  obtain ⟨resources, issues, operations, texts, hre, hplan, hacc⟩ := h _ _ _ hl
  obtain ⟨rfl, ⟨m, hm, rfl⟩, hspec⟩ := planDeletions_spec hre
  simp only [hplan, Except.ok.injEq, Prod.mk.injEq] at hspec
  obtain ⟨rfl, rfl⟩ := hspec
  rcases hacc with ⟨raw, hraw, op, hop, hos, hok, haddr⟩ | ⟨i, hi, hconc, _⟩
  · -- the operation of a kept entry ends with the address
    obtain rfl := Value.dict.inj hraw
    obtain ⟨g, hg, hb, rfl, hgop⟩ := mem_operations.1 hop
    refine ⟨_, hg, hos, hok, ?_⟩
    rw [if_neg hb]
    have hlen : op.resource.target.length = e.address.length := by
      rw [Resource.target, List.length_map, length_address_eq hos hok]
    exact (List.suffix_of_suffix_length_le (suffix_argv (mem_entries hg.mem).2 hb hgop) haddr
      hlen.le).eq_of_length hlen
  · rcases List.mem_append.1 hi with hi | hi
    · -- an issue found while reading does not concern an entry
      have hh := entryIssue_holds hi
      cases i <;> simp only [Issue.HoldsReading, Issue.Concerns] at hh hconc
      · rw [hconc.1, hconc.2, hwf.supported] at hh
        simp at hh
      · exact absurd rfl (hconc.2.2 _)
      · obtain ⟨rfl, rfl, hd⟩ := hconc
        rw [← Value.dict.inj hd, ← hwf.identifier_eq] at hh
        exact absurd hh hwf.identifier_ne
    · obtain ⟨g, hg, hgi⟩ := List.mem_filterMap.1 hi
      have hgf := (Dict.mem_firsts _).1 hg
      have hgwf := (mem_entries hgf.mem).2
      by_cases hb : "" ∈ g.target
      · simp only [hgwf.commandFor_of_blank hb, issueOf, Option.some.injEq] at hgi
        subst hgi
        obtain ⟨hs, hk, ha⟩ := (hgwf.concerns_addressIssue hb _ _ _).1 hconc
        exact ⟨g, hgf, hs, hk, by rw [if_pos hb]; exact ha⟩
      · obtain ⟨words, hwords⟩ := hgwf.commandFor_of_target hb
        simp [hwords, issueOf] at hgi

/-- If the addresses are kept, every listed object is accounted for. -/
theorem accounted_of_addressesKept {report : Mapping} (h : AddressesKept report)
    {service resource : String} {item : Value} (hl : Listed report service resource item) :
    Accounted report service resource item := by
  obtain ⟨m, hm, hmem⟩ := hl.mem_reportEntries
  have hre : resourceEntries report = .ok (Dict.firsts Resource.key (entries report),
      (reportEntries m).filterMap issueOf) := by simp [resourceEntries, entries, hm]
  obtain ⟨-, -, hplan⟩ := planDeletions_spec hre
  refine ⟨_, _, _, _, hre, hplan, ?_⟩
  have found : ∀ i, .error i ∈ reportEntries m →
      i ∈ planIssues (Dict.firsts Resource.key (entries report))
        ((reportEntries m).filterMap issueOf) := fun i hi =>
    List.mem_append_left _ (List.mem_filterMap.2 ⟨.error i, hi, rfl⟩)
  by_cases hsup : supported service resource = true
  swap
  · rw [if_neg hsup] at hmem
    exact .inr ⟨_, found _ hmem, ⟨rfl, rfl⟩, text_mem (found _ hmem)⟩
  rw [if_pos hsup] at hmem
  cases hitem : itemEntry service resource item with
  | error i =>
    rw [hitem] at hmem
    refine .inr ⟨i, found i hmem, ?_, text_mem (found i hmem)⟩
    rcases itemEntry_error hitem with ⟨raw, rfl, rfl, _⟩ | ⟨hne, rfl⟩
    · exact ⟨rfl, rfl, rfl⟩
    · exact ⟨rfl, rfl, hne⟩
  | ok e =>
    rw [hitem] at hmem
    have he : e ∈ entries report := by
      simp only [entries, hm]
      exact List.mem_filterMap.2 ⟨_, hmem, rfl⟩
    obtain ⟨rfl, rfl, rfl, _, _⟩ := itemEntry_ok hitem
    obtain ⟨g, hg, hs, hk, ha⟩ := h e he
    have hgwf := (mem_entries hg.mem).2
    by_cases hb : "" ∈ g.target
    · rw [if_pos hb] at ha
      have hi : g.addressIssue ∈ planIssues (Dict.firsts Resource.key (entries report))
          ((reportEntries m).filterMap issueOf) :=
        List.mem_append_right _ (List.mem_filterMap.2
          ⟨g, (Dict.mem_firsts _).2 hg, by rw [hgwf.commandFor_of_blank hb]; rfl⟩)
      exact .inr ⟨_, hi, (hgwf.concerns_addressIssue hb _ _ _).2 ⟨hs, hk, ha⟩, text_mem hi⟩
    · rw [if_neg hb] at ha
      obtain ⟨op, hop, hopg⟩ := exists_operation hgwf hb
      refine .inl ⟨e.raw, rfl, op, mem_operations.2 ⟨g, hg, hb, hopg, hop⟩, by rw [hopg, hs],
        by rw [hopg, hk], ?_⟩
      have hsuffix := suffix_argv hgwf hb hop
      rwa [ha] at hsuffix

/-- The plan is complete exactly when the addresses are kept. -/
theorem plan_complete_iff (report : Mapping) :
    (∀ service resource item, Listed report service resource item →
      Accounted report service resource item) ↔ AddressesKept report :=
  ⟨addressesKept_of_accounted, fun h _ _ _ hl => accounted_of_addressesKept h hl⟩

/-- Two Swift objects of one name in two containers. -/
def twoContainers : Mapping :=
  [(.str "resources", .record [("object-store", .record [("object", .list
    [.record [("name", .str "file.txt"), ("container", .str "uploads")],
     .record [("name", .str "file.txt"), ("container", .str "backups")]])])])]

/-- The object of the second container is neither addressed nor reported. -/
theorem twoContainers_incomplete :
    ¬∀ service resource item, Listed twoContainers service resource item →
      Accounted twoContainers service resource item := by
  intro h
  have hkept : Dict.firsts Resource.key (entries twoContainers) =
      [⟨"object-store", "object", "file.txt",
        [(.str "name", .str "file.txt"), (.str "container", .str "uploads")]⟩] := by rfl
  have hmem : (⟨"object-store", "object", "file.txt",
      [(.str "name", .str "file.txt"), (.str "container", .str "backups")]⟩ : Resource) ∈
        entries twoContainers := .tail _ (.head _)
  obtain ⟨g, hg, -, -, ha⟩ := addressesKept_of_accounted h _ hmem
  rw [← Dict.mem_firsts, hkept, List.mem_singleton] at hg
  subst hg
  exact absurd ha (by decide +kernel)

end Yggdrasil.Deletion
