import Yggdrasil.Inventory.Selection

/-! The discovery of the endpoints. They come from the Keystone catalog of the SDK or, as a
fallback, from the JSON rows of the command line; the two decoders tolerate other key casings
and skip incomplete records each in its own way. Rendered in both shapes, one cloud is decoded
to the same endpoints. -/

namespace Yggdrasil.Inventory

open Python

/-- `str.casefold`, of which only the effect on ASCII texts matters here. -/
structure CaseFolding where
  fold : String → String
  ascii : ∀ s : String, (∀ c ∈ s.toList, c.toNat < 128) → fold s = casefold s

variable (f : CaseFolding)

/-! ### Fields -/

/-- The record under its folded keys, of which the last one counts. -/
def lowered (record : Mapping) : List (String × Value) :=
  record.foldl (fun d p => Dict.set d (f.fold p.1.text) p.2) []

def field (record : Mapping) : List String → Value
  | [] => .none
  | name :: names =>
    match Dict.get? record (.str name) with
    | some v => v
    | none =>
      match Dict.get? (lowered f record) (f.fold name) with
      | some v => if v.isNone then field record names else v
      | none => field record names

def boolean (value : Value) (default : Bool) : Bool :=
  match value with
  | .none => default
  | .bool b => b
  | v => !(["0", "false", "no", "disabled"].contains (f.fold (strip (text v))))

/-- `known` is the lookup of the service types library, without a result also where the
library is missing. -/
def canonicalServiceType (known : String → Option String) (value : Value) : String :=
  let value := strip (text value)
  if value = "" then value
  else match known value with
    | some canonical => if canonical = "" then f.fold value else canonical
    | none => f.fold value

variable (known : String → Option String)

/-! ### Rows of the command line -/

def discoveryError (message : String) : Exc := .inventory .endpointDiscovery message

def endpointFromRecord (record : Mapping) : Option Endpoint :=
  let rawType := field f record ["Service Type", "service_type", "type"]
  let url := field f record ["URL", "url", "publicURL", "public_url"]
  if rawType.truthy = false ∨ url.truthy = false then none
  else some {
    endpointId := text (field f record ["ID", "id"])
    region := text (field f record ["Region", "region"])
    serviceName := text (field f record ["Service Name", "service_name", "name"])
    rawServiceType := text rawType
    serviceType := canonicalServiceType f known rawType
    interface := normalizeInterface f.fold (text (field f record ["Interface", "interface"]))
    url := text url
    enabled := boolean f (field f record ["Enabled", "enabled"]) true }

def rowEndpoint : Value → Option Endpoint
  | .dict record => endpointFromRecord f known record
  | _ => none

/-- `loads` is `json.loads`: the value of a text, or the text of its `JSONDecodeError`. -/
def parseEndpointListJson (loads : String → Except String Value) (payload : String) :
    Except Exc (List Endpoint) :=
  match loads payload with
  | .error e => .error (discoveryError ("openstack endpoint list returned invalid JSON: " ++ e))
  | .ok (.seq .list rows) =>
    let endpoints := (rows.filterMap (rowEndpoint f known)).filter (·.enabled)
    if endpoints = [] then
      .error (discoveryError "openstack endpoint list returned no enabled endpoints")
    else .ok endpoints
  | .ok _ => .error (discoveryError "openstack endpoint list JSON was not an array")

/-! ### The catalog -/

/-- An entry of a version 2 catalog names its interface in its key. -/
def legacyItem (p : Key × Value) : Option Value :=
  let name := f.fold p.1.text
  if endsWith name "url" || ["public", "internal", "admin"].contains name then
    some (.record [("interface", .str p.1.text), ("url", p.2)])
  else none

/-- The entries that the loop over `service_endpoints or []` meets. -/
def serviceItems (service : Mapping) : Except Exc (List Value) :=
  match (Dict.get? service (.str "endpoints")).getD (.list []) with
  | .dict items => .ok (items.filterMap (legacyItem f))
  | .seq _ items => .ok items
  | .str _ => .ok []
  | v => if v.truthy then .error (.other "TypeError") else .ok []

def itemInterface (item : Mapping) : String :=
  let interface := normalizeInterface f.fold (text (field f item ["interface", "Interface"]))
  if interface = "" then
    (["public", "internal", "admin"].find? fun candidate =>
      (field f item [candidate, candidate ++ "URL", candidate ++ "_url"]).truthy).getD ""
  else interface

def itemUrl (item : Mapping) (interface : String) : Value :=
  (field f item ["url", "URL"]).orElse (field f item [interface ++ "URL", interface ++ "_url"])

def catalogEndpoint (service : Mapping) (rawType : Value) : Value → Option Endpoint
  | .dict item =>
    let interface := itemInterface f item
    let url := itemUrl f item interface
    let id := text (field f item ["id", "ID"])
    if url.truthy = false then none
    else some {
      endpointId := if id = "" then text (field f service ["id", "service_id"]) else id
      region := text (field f item ["region", "Region"])
      serviceName := text (field f service ["name", "service_name"])
      rawServiceType := text rawType
      serviceType := canonicalServiceType f known rawType
      interface := interface
      url := text url
      enabled := boolean f (field f item ["enabled", "Enabled"]) true }
  | _ => none

def serviceEndpoints : Value → Except Exc (List Endpoint)
  | .dict service =>
    let rawType := field f service ["type", "service_type"]
    if rawType.truthy = false then .ok []
    else (serviceItems f service).map fun items =>
      items.filterMap (catalogEndpoint f known service rawType)
  | _ => .ok []

def catalogEndpoints (catalog : List Value) : Except Exc (List Endpoint) := do
  let found ← catalog.mapM (serviceEndpoints f known)
  let endpoints := found.flatten.filter (·.enabled)
  if endpoints = [] then
    .error (discoveryError "the Keystone service catalog has no enabled endpoints")
  else .ok endpoints

/-! ### One cloud in two shapes -/

@[ext]
structure CloudService where
  id : String
  name : Option String
  type : String
  type_ne : type ≠ ""

instance : DecidableEq CloudService := fun s s' =>
  decidable_of_iff (s.id = s'.id ∧ s.name = s'.name ∧ s.type = s'.type) CloudService.ext_iff.symm

structure CloudEndpoint where
  service : CloudService
  id : String
  region : Option String
  interface : String
  url : String
  id_ne : id ≠ ""
  url_ne : url ≠ ""

/-- A JSON text or `null`. -/
def optional : Option String → Value
  | some s => .str s
  | none => .none

def CloudEndpoint.item (e : CloudEndpoint) : Mapping :=
  [(.str "id", .str e.id), (.str "interface", .str e.interface), (.str "region_id", optional e.region),
   (.str "url", .str e.url), (.str "region", optional e.region)]

def CloudService.record (s : CloudService) (endpoints : List CloudEndpoint) : Mapping :=
  [(.str "endpoints", .list (endpoints.map fun e => .dict e.item)), (.str "type", .str s.type),
   (.str "id", .str s.id), (.str "name", optional s.name)]

/-- The catalog of Keystone version 3: the endpoints under their services. -/
def catalogOf (endpoints : List CloudEndpoint) : List Value :=
  (Dict.buckets CloudEndpoint.service endpoints).map fun p => .dict (p.1.record p.2)

def CloudEndpoint.row (e : CloudEndpoint) : Mapping :=
  [(.str "ID", .str e.id), (.str "Region", optional e.region),
   (.str "Service Name", optional e.service.name), (.str "Service Type", .str e.service.type),
   (.str "Enabled", .bool true), (.str "Interface", .str e.interface), (.str "URL", .str e.url)]

/-- What `openstack endpoint list -f json` prints, as `json.loads` reads it. -/
def rowsOf (endpoints : List CloudEndpoint) : Value := .list (endpoints.map fun e => .dict e.row)

/-- What both decoders make of an endpoint. -/
def CloudEndpoint.decoded (e : CloudEndpoint) : Endpoint where
  endpointId := e.id
  region := e.region.getD ""
  serviceName := e.service.name.getD ""
  rawServiceType := e.service.type
  serviceType := canonicalServiceType f known (.str e.service.type)
  interface := normalizeInterface f.fold e.interface
  url := e.url
  enabled := true

section Agreement

variable {f known}

theorem text_optional (o : Option String) : text (optional o) = o.getD "" := by
  cases o <;> rfl

/-- A field under its first name. -/
theorem field_of_get? {record : Mapping} {name : String} {v : Value} (names : List String)
    (h : Dict.get? record (.str name) = some v) : field f record (name :: names) = v := by
  rw [field, h]

theorem mem_lowered {record : Mapping} {entry : String × Value} (h : entry ∈ lowered f record) :
    ∃ p ∈ record, f.fold p.1.text = entry.1 ∧ p.2 = entry.2 := by
  have hupdate : lowered f record =
      Dict.update [] (record.map fun p => (f.fold p.1.text, p.2)) := by
    rw [lowered, Dict.update, List.foldl_map]
  rw [hupdate] at h
  rcases Dict.mem_update h with h | h
  · cases h
  · obtain ⟨p, hp, rfl⟩ := List.mem_map.1 h
    exact ⟨p, hp, rfl, rfl⟩

/-- A field that no key stands for, in any casing. -/
theorem field_eq_none {record : Mapping} {names : List String}
    (hascii : ∀ p ∈ record, ∀ c ∈ p.1.text.toList, c.toNat < 128)
    (hnames : ∀ name ∈ names, (∀ c ∈ name.toList, c.toNat < 128) ∧
      ∀ p ∈ record, casefold p.1.text ≠ casefold name) :
    field f record names = .none := by
  induction names with
  | nil => rfl
  | cons name names ih =>
    obtain ⟨hname, hother⟩ := hnames name List.mem_cons_self
    have hexact : Dict.get? record (.str name) = none := by
      cases hget : Dict.get? record (.str name) with
      | none => rfl
      | some v =>
        have hne := hother _ (Dict.mem_of_get? hget)
        simp only [Key.text, ne_eq, not_true_eq_false] at hne
    have hfolded : Dict.get? (lowered f record) (f.fold name) = none := by
      cases hget : Dict.get? (lowered f record) (f.fold name) with
      | none => rfl
      | some v =>
        obtain ⟨p, hp, hkey, -⟩ := mem_lowered (Dict.mem_of_get? hget)
        rw [f.ascii _ (hascii p hp), f.ascii _ hname] at hkey
        exact absurd hkey (hother p hp)
    rw [field, hexact, hfolded]
    exact ih fun name' hname' => hnames name' (List.mem_cons_of_mem _ hname')

theorem endpointFromRecord_row (e : CloudEndpoint) :
    endpointFromRecord f known e.row = some (e.decoded f known) := by
  have hurl : (Value.str e.url).truthy = true := by simp [Value.truthy, e.url_ne]
  have htype : (Value.str e.service.type).truthy = true := by
    simp [Value.truthy, e.service.type_ne]
  unfold endpointFromRecord
  rw [field_of_get? _ (rfl : Dict.get? e.row (.str "Service Type") = some (.str e.service.type)),
    field_of_get? _ (rfl : Dict.get? e.row (.str "URL") = some (.str e.url)),
    field_of_get? _ (rfl : Dict.get? e.row (.str "ID") = some (.str e.id)),
    field_of_get? _ (rfl : Dict.get? e.row (.str "Region") = some (optional e.region)),
    field_of_get? _ (rfl : Dict.get? e.row (.str "Service Name") = some (optional e.service.name)),
    field_of_get? _ (rfl : Dict.get? e.row (.str "Interface") = some (.str e.interface)),
    field_of_get? _ (rfl : Dict.get? e.row (.str "Enabled") = some (.bool true))]
  simp only [hurl, htype, text_optional]
  rfl

def isAscii (s : String) : Bool := s.toList.all fun c => c.toNat < 128

theorem isAscii_iff {s : String} : isAscii s = true ↔ ∀ c ∈ s.toList, c.toNat < 128 := by
  simp [isAscii]

/-- The keys of a catalog item, in any casing. -/
def itemKeys : List String := ["id", "interface", "region_id", "url", "region"]

theorem field_item_eq_none {e : CloudEndpoint} {names : List String}
    (hnames : ∀ name ∈ names, isAscii name = true ∧ casefold name ∉ itemKeys) :
    field f e.item names = .none := by
  have hkeys : ∀ p ∈ e.item, p.1.text ∈ itemKeys := by
    intro p hp
    simp only [CloudEndpoint.item, List.mem_cons, List.not_mem_nil, or_false] at hp
    rcases hp with rfl | rfl | rfl | rfl | rfl <;> simp [itemKeys, Key.text]
  have hplain : ∀ key ∈ itemKeys, isAscii key = true ∧ casefold key = key := by
    decide +kernel
  refine field_eq_none (fun p hp => isAscii_iff.1 (hplain _ (hkeys p hp)).1) fun name hname => ?_
  refine ⟨isAscii_iff.1 (hnames name hname).1, fun p hp heq => (hnames name hname).2 ?_⟩
  rw [← heq, (hplain _ (hkeys p hp)).2]
  exact hkeys p hp

theorem itemInterface_item (e : CloudEndpoint) :
    itemInterface f e.item = normalizeInterface f.fold e.interface := by
  have hcandidates : ∀ candidate ∈ ["public", "internal", "admin"],
      (field f e.item [candidate, candidate ++ "URL", candidate ++ "_url"]).truthy = false := by
    have hother : ∀ candidate ∈ ["public", "internal", "admin"],
        ∀ name ∈ [candidate, candidate ++ "URL", candidate ++ "_url"],
          isAscii name = true ∧ casefold name ∉ itemKeys := by decide +kernel
    intro candidate hcandidate
    rw [field_item_eq_none (hother candidate hcandidate)]
    rfl
  have hnone : ["public", "internal", "admin"].find? (fun candidate =>
      (field f e.item [candidate, candidate ++ "URL", candidate ++ "_url"]).truthy) = none := by
    refine List.find?_eq_none.2 fun candidate hcandidate => ?_
    rw [hcandidates candidate hcandidate]
    exact Bool.false_ne_true
  unfold itemInterface
  rw [field_of_get? _ (rfl : Dict.get? e.item (.str "interface") = some (.str e.interface))]
  dsimp only
  rw [hnone]
  split_ifs with hblank
  · exact hblank.symm
  · rfl

theorem catalogEndpoint_item (e : CloudEndpoint) (endpoints : List CloudEndpoint) :
    catalogEndpoint f known (e.service.record endpoints) (.str e.service.type) (.dict e.item) =
      some (e.decoded f known) := by
  have hurl : ∀ interface, itemUrl f e.item interface = .str e.url := by
    intro interface
    rw [itemUrl, field_of_get? _ (rfl : Dict.get? e.item (.str "url") = some (.str e.url))]
    simp [Value.orElse, Value.truthy, e.url_ne]
  have htruthy : (Value.str e.url).truthy = true := by simp [Value.truthy, e.url_ne]
  have henabled : field f e.item ["enabled", "Enabled"] = .none :=
    field_item_eq_none (by decide +kernel)
  unfold catalogEndpoint
  simp only [hurl, htruthy, henabled, itemInterface_item]
  rw [field_of_get? _ (rfl : Dict.get? e.item (.str "id") = some (.str e.id)),
    field_of_get? _ (rfl : Dict.get? e.item (.str "region") = some (optional e.region)),
    field_of_get? _ (rfl : Dict.get? (e.service.record endpoints) (.str "name") =
      some (optional e.service.name))]
  have hid : text (.str e.id) = e.id := rfl
  simp only [hid, e.id_ne, text_optional, if_false]
  rfl

theorem serviceEndpoints_record (s : CloudService) {endpoints : List CloudEndpoint}
    (h : ∀ e ∈ endpoints, e.service = s) :
    serviceEndpoints f known (.dict (s.record endpoints)) =
      .ok (endpoints.map fun e => e.decoded f known) := by
  have htype : (Value.str s.type).truthy = true := by simp [Value.truthy, s.type_ne]
  have hitems : serviceItems f (s.record endpoints) = .ok (endpoints.map fun e => .dict e.item) := rfl
  have hall : (endpoints.map fun e => Value.dict e.item).filterMap
      (catalogEndpoint f known (s.record endpoints) (.str s.type)) =
        endpoints.map fun e => e.decoded f known := by
    rw [List.filterMap_map, ← List.filterMap_eq_map]
    refine List.filterMap_congr fun e he => ?_
    obtain rfl := h e he
    exact catalogEndpoint_item e endpoints
  unfold serviceEndpoints
  dsimp only
  rw [field_of_get? _ (rfl : Dict.get? (s.record endpoints) (.str "type") = some (.str s.type)),
    if_neg (by rw [htype]; exact Bool.noConfusion), hitems, ← hall]
  rfl

/-- The catalog is decoded service by service. -/
theorem catalogEndpoints_catalogOf {endpoints : List CloudEndpoint} (h : endpoints ≠ []) :
    ∃ found, catalogEndpoints f known (catalogOf endpoints) = .ok found ∧
      found.Perm (endpoints.map fun e => e.decoded f known) := by
  have hgroup : ∀ p ∈ Dict.buckets CloudEndpoint.service endpoints,
      serviceEndpoints f known (.dict (p.1.record p.2)) =
        .ok (p.2.map fun e => e.decoded f known) := by
    rintro ⟨s, group⟩ hp
    obtain ⟨-, rfl⟩ := Dict.mem_buckets.1 hp
    exact serviceEndpoints_record s fun e he => of_decide_eq_true (List.mem_filter.1 he).2
  have hfound : (catalogOf endpoints).mapM (serviceEndpoints f known) =
      .ok ((Dict.buckets CloudEndpoint.service endpoints).map fun p =>
        p.2.map fun e => e.decoded f known) := by
    rw [catalogOf, List.mapM_map]
    exact mapM_eq_ok_map hgroup
  have hperm : ((Dict.buckets CloudEndpoint.service endpoints).map fun p =>
      p.2.map fun e => e.decoded f known).flatten.Perm
        (endpoints.map fun e => e.decoded f known) := by
    rw [← List.flatMap_def, ← List.map_flatMap]
    exact (Dict.flatMap_buckets_perm endpoints).map _
  have henabled : ((Dict.buckets CloudEndpoint.service endpoints).map fun p =>
      p.2.map fun e => e.decoded f known).flatten.filter (·.enabled) =
        ((Dict.buckets CloudEndpoint.service endpoints).map fun p =>
          p.2.map fun e => e.decoded f known).flatten := by
    refine List.filter_eq_self.2 fun e he => ?_
    obtain ⟨e', -, rfl⟩ := List.mem_map.1 (hperm.mem_iff.1 he)
    rfl
  refine ⟨_, ?_, hperm⟩
  unfold catalogEndpoints
  rw [hfound]
  change (if _ = [] then _ else _) = _
  rw [henabled, if_neg]
  intro hnil
  have hlength := hperm.length_eq
  rw [hnil, List.length_map] at hlength
  exact h (List.length_eq_zero_iff.1 hlength.symm)

/-- The rows are decoded one by one. -/
theorem parseEndpointListJson_rowsOf {loads : String → Except String Value} {payload : String}
    {endpoints : List CloudEndpoint} (hpayload : loads payload = .ok (rowsOf endpoints))
    (h : endpoints ≠ []) :
    parseEndpointListJson f known loads payload = .ok (endpoints.map fun e => e.decoded f known) := by
  have hrows : (endpoints.map fun e => Value.dict e.row).filterMap (rowEndpoint f known) =
      endpoints.map fun e => e.decoded f known := by
    rw [List.filterMap_map, ← List.filterMap_eq_map]
    exact List.filterMap_congr fun e _ => endpointFromRecord_row e
  have henabled : (endpoints.map fun e => e.decoded f known).filter (·.enabled) =
      endpoints.map fun e => e.decoded f known := by
    refine List.filter_eq_self.2 fun e he => ?_
    obtain ⟨e', -, rfl⟩ := List.mem_map.1 he
    rfl
  unfold parseEndpointListJson
  rw [hpayload, rowsOf]
  dsimp only
  rw [hrows, henabled, if_neg (by simpa using h)]

end Agreement

/-- For every cloud, and every text that `json.loads` reads as its rows: the catalog and the
rows are decoded to the same endpoints up to their order, or both are refused. -/
theorem decoders_agree (loads : String → Except String Value) (payload : String)
    (endpoints : List CloudEndpoint) (hpayload : loads payload = .ok (rowsOf endpoints)) :
    (∃ found listed, catalogEndpoints f known (catalogOf endpoints) = .ok found ∧
      parseEndpointListJson f known loads payload = .ok listed ∧ found.Perm listed) ∨
    ∃ message message', catalogEndpoints f known (catalogOf endpoints) = .error (discoveryError message) ∧
      parseEndpointListJson f known loads payload = .error (discoveryError message') := by
  by_cases h : endpoints = []
  · subst h
    refine .inr ⟨_, "openstack endpoint list returned no enabled endpoints", rfl, ?_⟩
    unfold parseEndpointListJson
    rw [hpayload]
    rfl
  · obtain ⟨found, hfound, hperm⟩ := catalogEndpoints_catalogOf h
    exact .inl ⟨found, _, hfound, parseEndpointListJson_rowsOf hpayload h, hperm⟩


/-! ### A cloud -/

def nova : CloudService := ⟨"s1", some "nova", "compute", by decide⟩

def glance : CloudService := ⟨"s2", none, "image", by decide⟩

/-- Two endpoints of one service around one of another. -/
def smallCloud : List CloudEndpoint :=
  [⟨nova, "e1", some "RegionOne", "publicURL", "http://nova", by decide, by decide⟩,
    ⟨glance, "e2", none, "internal", "http://glance", by decide, by decide⟩,
    ⟨nova, "e3", some "RegionOne", "Admin", "http://nova/admin", by decide, by decide⟩]

def smallRows : String :=
  "[\x7b\"ID\": \"e1\", \"Region\": \"RegionOne\", \"Service Name\": \"nova\", " ++
  "\"Service Type\": \"compute\", \"Enabled\": true, \"Interface\": \"publicURL\", " ++
  "\"URL\": \"http://nova\"\x7d, " ++
  "\x7b\"ID\": \"e2\", \"Region\": null, \"Service Name\": null, " ++
  "\"Service Type\": \"image\", \"Enabled\": true, \"Interface\": \"internal\", " ++
  "\"URL\": \"http://glance\"\x7d, " ++
  "\x7b\"ID\": \"e3\", \"Region\": \"RegionOne\", \"Service Name\": \"nova\", " ++
  "\"Service Type\": \"compute\", \"Enabled\": true, \"Interface\": \"Admin\", " ++
  "\"URL\": \"http://nova/admin\"\x7d]"

/-- `json.loads` at that text. -/
def loadsRows (payload : String) : Except String Value :=
  if payload = smallRows then .ok (rowsOf smallCloud) else .error "Expecting value"

theorem decoders_agree_smallCloud :
    let f : CaseFolding := ⟨casefold, fun _ _ => rfl⟩
    (∃ found listed, catalogEndpoints f some (catalogOf smallCloud) = .ok found ∧
      parseEndpointListJson f some loadsRows smallRows = .ok listed ∧ found.Perm listed) ∨
    ∃ message message', catalogEndpoints f some (catalogOf smallCloud) =
        .error (discoveryError message) ∧
      parseEndpointListJson f some loadsRows smallRows = .error (discoveryError message') :=
  decoders_agree _ _ loadsRows smallRows smallCloud (if_pos rfl)

end Yggdrasil.Inventory
