import Yggdrasil.Inventory.Report

/-! What holds of every collected object. A provider keeps an object for one of a few
reasons: it is the project record, it was listed and its owner was checked, it was listed
for parents that were kept before, or it is a container of the object store. A property
that each of these reasons establishes holds of everything a provider collects. -/

namespace Yggdrasil.Inventory

open Combination Effect Effect.Program Python

/-- A property of the objects of a type, which may refer to the history. -/
abbrev Claim := List Event → String → Value → Prop

/-- The value is what a parent is named by under this parameter. -/
def Identifies (parent : Value) (kv : String × Value) : Prop :=
  kv.2 = resourceAttr parent kv.1 ∨ kv.2 = parentArgument parent kv.1

/-- Every parameter names an object with the property. -/
def FromParents (Q : String → Value → Prop) (path : List (String × Value)) : Prop :=
  ∀ kv ∈ path, ∃ name parent, Q name parent ∧ Identifies parent kv

/-- The containers that are listed for their objects only, with no check of their owner. -/
def Request.Unchecked (r : Request) : Prop :=
  r.service = "object-store" ∧ r.resource = "container" ∧ r.path = [] ∧
    ∃ c, r.resourceClass = some c ∧ ¬(hasProjectField c = true ∧ resourcePlaceholders c = [])

/-- The reasons to keep an object that a request of the kind `K` lists establish the
property. -/
structure Evidence (K : Request → Prop) (Q : Claim) (service : String) (project : Project) :
    Prop where
  mono : ∀ t s name o, Q t name o → Q (t ++ s) name o
  record : ∀ t, service = "identity" → Q t "project" project.raw
  checked : ∀ t r items o, .listing r (.objects items) ∈ t → K r → FromParents (Q t) r.path →
    o ∈ items → belongsToProject o project.projectId = true → Q t r.resource o
  child : ∀ t r answer o, .listing r answer ∈ t → K r →
    r.resourceClass = none ∨
      service = "object-store" ∧ r.resource = "object" ∧ answer = .objects answer.items →
    r.path ≠ [] → FromParents (Q t) r.path → o ∈ answer.items → Q t r.resource o
  container : ∀ t r items o, .listing r (.objects items) ∈ t → K r → r.Unchecked → o ∈ items →
    Q t r.resource o
  contained : ∀ t r o container entry, K r → r.resourceClass = none → service = "object-store" →
    Q t r.resource o → containedEntry container o = some entry → Q t r.resource (.dict entry)

/-- The report entry of an object. -/
def EntryOf (o : Value) (entry : Mapping) : Prop :=
  resourceToDict o = some entry ∨ ∃ container, containedEntry container o = some entry

/-- Every entry is one of an object of the type that has the property. -/
def Backed (Q : Claim) (t : List Event) (name : String) (entries : List Mapping) : Prop :=
  ∀ entry ∈ entries, ∃ o, Q t name o ∧ EntryOf o entry

/-- Every kept object has the property, every entry is one of an object that has it, and the
types of `names` are listed. -/
structure Sound (Q : Claim) (names : List String) (t : List Event) (c : Collected) : Prop where
  objects : ∀ name objects, (name, objects) ∈ c.objects → ∀ o ∈ objects, Q t name o
  result : ∀ name entries, (name, entries) ∈ c.result → Backed Q t name entries
  keys : ∀ name ∈ names, (Dict.get? c.objects name).isSome

/-- The step from `c` to `c'` lists a type: it replaces the objects of the type, which have
the property, and their entries. The entries of no objects may be left out. -/
def Stores (Q : Claim) (t : List Event) (name : String) (c c' : Collected) : Prop :=
  ∃ objects entries, (∀ o ∈ objects, Q t name o) ∧ objects.mapM resourceToDict = some entries ∧
    c'.objects = Dict.set c.objects name objects ∧
    (c'.result = Dict.set c.result name entries ∨ objects = [] ∧ c'.result = c.result)

variable {K : Request → Prop} {Q : Claim} {service : String} {project : Project}
  {names : List String} {t : List Event} {c c' : Collected} {name : String} {objects : List Value}
  {entries : List Mapping}

theorem Evidence.backed_append (h : Evidence K Q service project) (hb : Backed Q t name entries)
    (s : List Event) : Backed Q (t ++ s) name entries := by
  intro entry he
  obtain ⟨o, ho, heo⟩ := hb entry he
  exact ⟨o, h.mono t s name o ho, heo⟩

theorem Evidence.sound_append (h : Evidence K Q service project) (hc : Sound Q names t c)
    (s : List Event) : Sound Q names (t ++ s) c where
  objects name objects hm o ho := h.mono t s name o (hc.objects name objects hm o ho)
  result name entries hm := h.backed_append (hc.result name entries hm) s
  keys := hc.keys

theorem sound_empty : Sound Q [] t ⟨[], []⟩ :=
  ⟨fun _ _ h => by simp at h, fun _ _ h => by simp at h, fun _ h => by simp at h⟩

theorem Sound.mono {P : Claim} (hc : Sound Q names t c) (hP : ∀ name o, Q t name o → P t name o) :
    Sound P names t c where
  objects name objects hm o ho := hP name o (hc.objects name objects hm o ho)
  result name entries hm entry he := by
    obtain ⟨o, ho, heo⟩ := hc.result name entries hm entry he
    exact ⟨o, hP name o ho, heo⟩
  keys := hc.keys

theorem Sound.fewer {names' : List String} (hc : Sound Q names t c)
    (h : ∀ name ∈ names', name ∈ names) : Sound Q names' t c where
  objects := hc.objects
  result := hc.result
  keys name hn := hc.keys name (h name hn)

theorem entries_of_serialize (h : objects.mapM resourceToDict = some entries)
    (ho : ∀ o ∈ objects, Q t name o) : Backed Q t name entries := by
  intro entry he
  obtain ⟨o, hm, hd⟩ := mem_of_mapM h he
  exact ⟨o, ho o hm, .inl hd⟩

theorem Sound.setObjects (hc : Sound Q names t c) (ho : ∀ o ∈ objects, Q t name o) :
    Sound Q (names ++ [name]) t ⟨Dict.set c.objects name objects, c.result⟩ where
  objects name' objects' hm o hmem := by
    rcases Dict.mem_set hm with h | h
    · obtain ⟨rfl, rfl⟩ := Prod.mk.inj h
      exact ho o hmem
    · exact hc.objects name' objects' h o hmem
  result := hc.result
  keys name' hn := by
    rcases List.mem_append.1 hn with hn | hn
    · exact Dict.isSome_get?_set _ (.inr (hc.keys name' hn))
    · exact Dict.isSome_get?_set _ (.inl (List.mem_singleton.1 hn))

theorem Sound.setResult (hc : Sound Q names t c) (he : Backed Q t name entries) :
    Sound Q names t ⟨c.objects, Dict.set c.result name entries⟩ where
  objects := hc.objects
  result name' entries' hm entry hmem := by
    rcases Dict.mem_set hm with h | h
    · obtain ⟨rfl, rfl⟩ := Prod.mk.inj h
      exact he entry hmem
    · exact hc.result name' entries' h entry hmem
  keys := hc.keys

theorem Sound.stores (hc : Sound Q names t c) (hs : Stores Q t name c c') :
    Sound Q (names ++ [name]) t c' := by
  obtain ⟨objects, entries, ho, he, hobjects, hresult⟩ := hs
  obtain ⟨objects', result'⟩ := c'
  simp only at hobjects hresult
  subst hobjects
  rcases hresult with rfl | ⟨_, rfl⟩
  · exact (hc.setResult (entries_of_serialize he ho)).setObjects ho
  · exact hc.setObjects ho

theorem Sound.get (hc : Sound Q names t c) :
    ∀ o ∈ (Dict.get? c.objects name).getD [], Q t name o := by
  intro o ho
  cases hg : Dict.get? c.objects name with
  | none => simp [hg] at ho
  | some objects =>
    simp only [hg, Option.getD_some] at ho
    exact hc.objects name objects (Dict.mem_of_get? hg) o ho

/-! ### Entries of plain records -/

/-- A mapping of strings to strings. -/
def stringRecord (fields : List (String × String)) : Mapping :=
  fields.map fun p => (.str p.1, .str p.2)

/-- The entries of a record of strings, with or without a container. -/
def IsEntry (fields : List (String × String)) (m : Mapping) : Prop :=
  m = stringRecord fields ∨ ∃ container, m = stringRecord fields ++ [(.str "container", container)]

theorem stringKeys_of_nodup {m : Mapping} (hm : ∀ p ∈ m, p.1 = .str p.1.text)
    (h : (m.map Prod.fst).Nodup) : stringKeys m = m := by
  have hmap : m.map (fun p => (Key.str p.1.text, p.2)) = m := by
    refine (List.map_congr_left fun p hp => ?_).trans (List.map_id m)
    rw [← hm p hp]
    rfl
  calc stringKeys m = Dict.update [] (m.map fun p => (Key.str p.1.text, p.2)) := by
        rw [stringKeys, Dict.update, List.foldl_map]
    _ = m := by rw [hmap]; exact Dict.update_of_nodup (by simpa using h)

theorem jsonableEntries_stringRecord (fields : List (String × String)) (rest : Mapping) :
    jsonableEntries (stringRecord fields ++ rest) =
      (jsonableEntries rest).map (stringRecord fields ++ ·) := by
  induction fields with
  | nil => simp [stringRecord]
  | cons p fields ih =>
    rw [stringRecord, List.map_cons, List.cons_append, jsonableEntries, ← stringRecord, ih]
    cases jsonableEntries rest <;> simp [jsonable]

variable {fields : List (String × String)}

theorem keys_stringRecord (h : (fields.map Prod.fst ++ ["container"]).Nodup) (container : Value) :
    ((stringRecord fields ++ [(Key.str "container", container)]).map Prod.fst).Nodup := by
  have hinj : Function.Injective Key.str := fun a b => Key.str.inj
  have hmap := (List.nodup_map_iff hinj).2 h
  simpa [stringRecord, List.map_map, Function.comp_def] using hmap

theorem isEntry_resourceToDict (h : (fields.map Prod.fst ++ ["container"]).Nodup) {m entry : Mapping}
    (hm : IsEntry fields m) (he : resourceToDict (.dict m) = some entry) : IsEntry fields entry := by
  have hstr : ∀ container, ∀ p ∈ stringRecord fields ++ [(Key.str "container", container)],
      p.1 = .str p.1.text := by
    intro container p hp
    rcases List.mem_append.1 hp with hp | hp
    · obtain ⟨q, _, rfl⟩ := List.mem_map.1 hp
      rfl
    · rw [List.mem_singleton.1 hp]
      rfl
  rw [resourceToDict] at he
  rcases hm with rfl | ⟨container, rfl⟩
  · have hnodup : ((stringRecord fields).map Prod.fst).Nodup :=
      (keys_stringRecord h .none).sublist ((List.sublist_append_left _ _).map Prod.fst)
    have hentries := jsonableEntries_stringRecord fields []
    rw [List.append_nil] at hentries
    rw [hentries] at he
    simp only [jsonableEntries, Option.map_some, List.append_nil, Option.some.injEq] at he
    rw [stringKeys_of_nodup (fun p hp => hstr .none p (List.mem_append_left _ hp)) hnodup] at he
    exact .inl he.symm
  · rw [jsonableEntries_stringRecord] at he
    cases hc : jsonable container with
    | none => simp [jsonableEntries, hc] at he
    | some j =>
      simp only [jsonableEntries, hc, Option.pure_def, Option.bind_eq_bind, Option.bind_some,
        Option.map_some, Option.some.injEq] at he
      rw [stringKeys_of_nodup (hstr j) (keys_stringRecord h j)] at he
      exact .inr ⟨j, he.symm⟩

theorem isEntry_entryOf (h : (fields.map Prod.fst ++ ["container"]).Nodup) {m entry : Mapping}
    (hm : IsEntry fields m) (he : EntryOf (.dict m) entry) : IsEntry fields entry := by
  rcases he with he | ⟨container, he⟩
  · exact isEntry_resourceToDict h hm he
  · simp only [containedEntry, Option.map_eq_some_iff] at he
    obtain ⟨entry', he', rfl⟩ := he
    rw [Dict.setdefault]
    split_ifs with hc
    · exact isEntry_resourceToDict h hm he'
    · rcases isEntry_resourceToDict h hm he' with rfl | ⟨c, rfl⟩
      · exact .inr ⟨container, rfl⟩
      · exact absurd (Dict.get?_isSome_of_mem (List.mem_append_right _ (List.mem_singleton_self _))) hc

/-! ### Rules for the steps of a provider -/

variable {cloud : Cloud} {α : Type} {Pre : List Event → Prop} {Post : α → List Event → Prop}
  {Err : Exc → List Event → Prop}

theorem triple_send {request : Request} {Post : Answer → List Event → Prop}
    (h : ∀ t, Pre t → Post (cloud t request) (t ++ [.listing request (cloud t request)])) :
    Triple True Pre (send cloud request) Post Err := by
  refine ⟨fun t ht => ?_⟩
  rw [run_send]
  exact h t ht

theorem triple_ofOption {o : Option α} (h : ∀ a t, o = some a → Pre t → Post a t) :
    Triple True Pre (ofOption o) Post (fun _ _ => True) := by
  cases o with
  | none => exact triple_throw fun _ _ => trivial
  | some a => exact triple_pure fun t ht => h a t rfl ht

/-- The objects were returned by the request, or there are none. -/
def Listed (t : List Event) (r : Request) (objects : List Value) : Prop :=
  objects = [] ∨ .listing r (.objects objects) ∈ t

/-- A tolerated listing returns what the listing returns, or nothing. -/
theorem triple_tolerate {strict : Bool} {resource : String} {listing : Prog (List Value)}
    {Post : List Value → List Event → Prop}
    (h : Triple True Pre listing Post (fun _ t => ∀ s, Post [] (t ++ s))) :
    Triple True Pre (tolerate strict resource listing) Post (fun _ _ => True) := by
  refine triple_handle (h.consequence (fun _ => id) (fun _ _ => id) fun _ _ => id) fun x => ?_
  cases x with
  | other message => exact triple_throw fun _ _ => trivial
  | inventory kind message =>
    refine triple_ite (fun _ => triple_pure fun t ht => by simpa using ht []) fun _ => ?_
    refine triple_bind (M := fun _ t => Post [] t) (triple_emit fun t ht => ht _) fun _ => ?_
    exact triple_ite (fun _ => triple_throw fun _ _ => trivial) fun _ => triple_pure fun _ => id

theorem triple_store (hQ : ∀ t, Pre t → ∀ o ∈ objects, Q t name o) :
    Triple True Pre
      (do let entries ← serialize objects
          return ⟨Dict.set c.objects name objects, Dict.set c.result name entries⟩)
      (fun c' t => Pre t ∧ Stores Q t name c c') (fun _ _ => True) := by
  refine triple_bind (M := fun entries t => Pre t ∧ objects.mapM resourceToDict = some entries)
    (triple_ofOption fun entries t he ht => ⟨ht, he⟩) fun entries => triple_pure fun t ⟨ht, he⟩ => ?_
  exact ⟨ht, objects, entries, hQ t ht, he, rfl, .inl rfl⟩

theorem mem_filterRelatedResources {parents : List (String × List Value)} {o : Value}
    (h : o ∈ filterRelatedResources service name objects parents) : o ∈ objects := by
  unfold filterRelatedResources at h
  split_ifs at h
  · exact (List.mem_filter.1 h).1
  · exact h

theorem triple_filterRelated :
    Triple True (fun t => Sound Q names t c) (filterRelated service c)
      (fun c' t => Sound Q names t c') (fun _ _ => True) := by
  -- the objects of a pass are those of the start, so the invariant keeps what holds of them
  refine (triple_foldlM (I := fun c' t => Sound Q names t c' ∧ Sound Q names t c)
    (fun c' entry hentry => ?_) c).consequence (fun t hc => ⟨hc, hc⟩) (fun _ _ h => h.1)
    fun _ _ => id
  have hkept : ∀ t, Sound Q names t c →
      ∀ o ∈ filterRelatedResources service entry.1 entry.2 c'.objects, Q t entry.1 o :=
    fun t hc o ho => hc.objects entry.1 entry.2 hentry o (mem_filterRelatedResources ho)
  unfold filterType
  refine triple_ite (fun _ => ?_) fun _ => triple_pure fun t hc =>
    ⟨(hc.1.setObjects (hkept t hc.2)).fewer (by simp +contextual), hc.2⟩
  exact (triple_store fun t hc => hkept t hc.2).consequence (fun _ => id)
    (fun c'' t h => ⟨(h.1.1.stores h.2).fewer (by simp +contextual), h.1.2⟩) fun _ _ => id

end Yggdrasil.Inventory
