import Yggdrasil.Capsule.Zun
import Yggdrasil.Library.Buckets
import Yggdrasil.Library.Tree

/-! The template of a capsule: its validation and the copy that a node is created from. Both
read the optional parts `metadata` and `labels`, the validator with a null value taken for an
absent one, the copy with only an absent one replaced. A template that is accepted is usable
exactly if these parts are mappings where they are present. -/

namespace Yggdrasil.Capsule

open Python

structure Node where
  id : Option Value
  clusterId : Option Value
  name : Value
  physicalId : Value

/-- The profile, by its stored template. -/
structure Profile where
  template : Value

/-! ### Validation -/

def isCapsuleKind : Value → Bool
  | .str s => s == "capsule"
  | _ => false

/-- A container that names its image. -/
def hasImage : Value → Bool
  | .dict container => (Mapping.get container "image").truthy
  | _ => false

def validContainers : Value → Bool
  | .seq .list containers => containers.all hasImage
  | _ => false

/-- `do_validate`, with the message of `InvalidSpec`. -/
def doValidate (template : Value) : Except String Unit :=
  match template with
  | .dict items =>
    if !isCapsuleKind (Mapping.get items "kind") then .error "template.kind must be 'capsule'"
    else match (Mapping.get items "spec").orElse (.dict []) with
    | .dict spec =>
      let containers := (Mapping.get spec "containers").orElse (.list [])
      if !containers.truthy then .error "template.spec.containers must not be empty"
      else if !validContainers containers then .error "every capsule container needs an image"
      else match (Mapping.get items "metadata").orElse (.dict []) with
      | .dict metadata =>
        match (Mapping.get metadata "labels").orElse (.dict []) with
        | .dict _ => .ok ()
        | _ => .error "template.metadata.labels must be a mapping"
      | _ => .error "template.metadata must be a mapping"
    | _ => .error "template.spec must be a mapping"
  | _ => .error "template.kind must be 'capsule'"

/-! ### The template of a node -/

def attributeError {α : Type} (v : Value) (name : String) : Except Failure α :=
  .error (.ofText ("'" ++ typeName v ++ "' object has no attribute '" ++ name ++ "'"))

/-- `value.setdefault(key, {})`: the mapping, and what is under the key. -/
def setdefault (value : Value) (key : String) : Except Failure (Mapping × Value) :=
  match value with
  | .dict items => .ok (items, (Dict.get? items (.str key)).getD (.dict []))
  | v => attributeError v "setdefault"

def isText (s : String) : Value → Bool
  | .str s' => s' == s
  | _ => false

/-- `value.update(entries)` of texts; a set takes the keys. -/
def updateTexts (value : Value) (entries : List (String × String)) : Except Failure Value :=
  match value with
  | .dict items => .ok (.dict (Dict.update items (entries.map fun e => (.str e.1, .str e.2))))
  | .seq .set items => .ok (.seq .set (items ++ ((entries.map Prod.fst).filter fun s =>
      !items.any (isText s)).map .str))
  | v => attributeError v "update"

def Node.clusterText (obj : Node) : String :=
  ((obj.clusterId.getD (.str "")).orElse (.str "")).toStr

def Node.idText (obj : Node) : String := ((obj.id.getD (.str "")).orElse (.str "")).toStr

def clusterKey : String := "yggdrasil_senlin_cluster_id"

def nodeKey : String := "yggdrasil_senlin_node_id"

/-- The class `[a-z0-9]`. -/
def isLowerAlnum (c : Char) : Bool := c.isLower || c.isDigit

/-- The substitution of a hyphen for a character outside `[a-z0-9-]`. -/
def labelChar (c : Char) : Char := if isLowerAlnum c || c == '-' then c else '-'

def capsuleName (name : String) : List Char :=
  stripList (· == '-') ((lower name).toList.map labelChar)

def withName (metadata : Mapping) (name : List Char) : Mapping :=
  if name.isEmpty then metadata
  else Dict.set metadata (.str "name") (.str (String.ofList (name.take 63)))

/-- `_make_template` on the deep copy of the stored template, in which the parts are then
assigned back. -/
def fillTemplate (template : Value) (obj : Node) : Except Failure Value := do
  let (items, metadata) ← setdefault template "metadata"
  let (metadata, labels) ← setdefault metadata "labels"
  let labels ← updateTexts labels [(clusterKey, obj.clusterText), (nodeKey, obj.idText)]
  let metadata := withName (Dict.set metadata (.str "labels") labels) (capsuleName obj.name.toStr)
  return .dict (Dict.set items (.str "metadata") (.dict metadata))

/-- The template of a node, and the profile after the call. -/
def makeTemplate (p : Profile) (obj : Node) : Except Failure Value × Profile :=
  (fillTemplate p.template obj, p)

/-! ### Places in a template -/

/-- The value at a path of keys. -/
def valueAt : Value → List Key → Option Value
  | v, [] => some v
  | .dict items, k :: path => (Dict.get? items k).bind fun v => valueAt v path
  | _, _ :: _ => none

def labelPath (key : String) : List Key := [.str "metadata", .str "labels", .str key]

def namePath : List Key := [.str "metadata", .str "name"]

@[simp] theorem valueAt_nil (v : Value) : valueAt v [] = some v := by
  cases v <;> rfl

theorem valueAt_cons (items : Mapping) (k : Key) (path : List Key) :
    valueAt (.dict items) (k :: path) = (Dict.get? items k).bind fun v => valueAt v path := rfl

theorem valueAt_set_self (items : Mapping) (k : Key) (v : Value) (path : List Key) :
    valueAt (.dict (Dict.set items k v)) (k :: path) = valueAt v path := by
  rw [valueAt_cons, Dict.get?_set_self, Option.bind_some]

/-- An assignment is not seen on a path through another key. -/
theorem valueAt_set_of_ne {k k' : Key} (h : k' ≠ k) (items : Mapping) (v : Value)
    (path : List Key) :
    valueAt (.dict (Dict.set items k v)) (k' :: path) = valueAt (.dict items) (k' :: path) := by
  rw [valueAt_cons, valueAt_cons, Dict.get?_set_of_ne h]

/-- Below a key, an absent mapping is an empty one. -/
theorem valueAt_of_getD {items part : Mapping} {k : Key}
    (h : (Dict.get? items k).getD (.dict []) = .dict part) (k' : Key) (path : List Key) :
    valueAt (.dict items) (k :: k' :: path) = valueAt (.dict part) (k' :: path) := by
  rw [valueAt_cons]
  cases hk : Dict.get? items k with
  | none =>
    rw [hk] at h
    cases h
    rfl
  | some v =>
    rw [hk, Option.getD_some] at h
    rw [h, Option.bind_some]

/-- The template of a node is made of the stored one, which stays: it has the identity labels
of the node, and what is at the places apart from these and from the name. -/
def Usable (p : Profile) (obj : Node) : Prop :=
  ∃ result, makeTemplate p obj = (.ok result, p) ∧
    valueAt result (labelPath clusterKey) = some (.str obj.clusterText) ∧
    valueAt result (labelPath nodeKey) = some (.str obj.idText) ∧
    ∀ path, Tree.Apart namePath path → Tree.Apart (labelPath clusterKey) path →
      Tree.Apart (labelPath nodeKey) path → valueAt result path = valueAt p.template path

/-- A mapping, where it is present. -/
def MappingIfPresent (v : Value) (path : List Key) : Prop :=
  ∀ part, valueAt v path = some part → ∃ items, part = .dict items

def MappingParts (template : Value) : Prop :=
  MappingIfPresent template [.str "metadata"] ∧
    MappingIfPresent template [.str "metadata", .str "labels"]

/-! ### What an accepted template gives -/

section Fill

variable {items metadata labels : Mapping} {obj : Node}

/-- The labels with the identity of the node. -/
abbrev identified (labels : Mapping) (obj : Node) : Mapping :=
  Dict.set (Dict.set labels (.str clusterKey) (.str obj.clusterText)) (.str nodeKey) (.str obj.idText)

abbrev filled (items metadata labels : Mapping) (obj : Node) : Value :=
  .dict (Dict.set items (.str "metadata") (.dict (withName
    (Dict.set metadata (.str "labels") (.dict (identified labels obj))) (capsuleName obj.name.toStr))))

theorem exists_dict_of_doValidate {template : Value} (h : doValidate template = .ok ()) :
    ∃ items, template = .dict items := by
  cases template with
  | dict items => exact ⟨items, rfl⟩
  | _ => cases h

theorem setdefault_eq_ok {v : Value} {key : String} {r : Mapping × Value}
    (h : setdefault v key = .ok r) :
    v = .dict r.1 ∧ (Dict.get? r.1 (.str key)).getD (.dict []) = r.2 := by
  cases v with
  | dict items =>
    cases h
    exact ⟨rfl, rfl⟩
  | _ => cases h

theorem fillTemplate_filled
    (hmetadata : (Dict.get? items (.str "metadata")).getD (.dict []) = .dict metadata)
    (hlabels : (Dict.get? metadata (.str "labels")).getD (.dict []) = .dict labels) :
    fillTemplate (.dict items) obj = .ok (filled items metadata labels obj) := by
  simp only [fillTemplate, setdefault, bind, Except.bind, hmetadata, hlabels, updateTexts]
  rfl

/-- A name is written at its own place. -/
theorem valueAt_withName {k : Key} (hk : k ≠ .str "name") (name : List Char) (path : List Key) :
    valueAt (.dict (withName metadata name)) (k :: path) = valueAt (.dict metadata) (k :: path) := by
  unfold withName
  split_ifs
  · rfl
  · exact valueAt_set_of_ne hk _ _ _

/-- The copy fails, or its labels are no mapping, unless both parts are mappings. -/
theorem exists_mappings_of_fillTemplate {result v : Value} {key : String}
    (h : fillTemplate (.dict items) obj = .ok result)
    (hlabel : valueAt result (labelPath key) = some v) :
    ∃ metadata labels, (Dict.get? items (.str "metadata")).getD (.dict []) = .dict metadata ∧
      (Dict.get? metadata (.str "labels")).getD (.dict []) = .dict labels := by
  obtain ⟨⟨items', part⟩, hitems, h⟩ := bind_eq_ok.1 h
  obtain ⟨⟨metadata, value⟩, hmetadata, h⟩ := bind_eq_ok.1 h
  obtain ⟨updated, hupdate, h⟩ := bind_eq_ok.1 h
  obtain ⟨hitems, hpart⟩ := setdefault_eq_ok hitems
  obtain ⟨hmetadata, hvalue⟩ := setdefault_eq_ok hmetadata
  cases hitems
  refine ⟨metadata, ?_⟩
  cases value with
  | dict labels => exact ⟨labels, hpart.trans hmetadata, hvalue⟩
  | seq kind texts =>
    cases kind with
    | set =>
      -- a set takes the labels, without their values
      cases hupdate
      cases h
      rw [labelPath, valueAt_set_self, valueAt_withName (by decide), valueAt_set_self] at hlabel
      cases hlabel
    | _ => cases hupdate
  | _ => cases hupdate

theorem valueAt_filled_label (key : String) (path : List Key) :
    valueAt (filled items metadata labels obj) (.str "metadata" :: .str "labels" :: .str key :: path) =
      valueAt (.dict (identified labels obj)) (.str key :: path) := by
  rw [valueAt_set_self, valueAt_withName (by decide), valueAt_set_self]

/-- What is at a place apart from those written comes from the stored template. -/
theorem valueAt_filled_apart
    (hmetadata : (Dict.get? items (.str "metadata")).getD (.dict []) = .dict metadata)
    (hlabels : (Dict.get? metadata (.str "labels")).getD (.dict []) = .dict labels)
    {path : List Key} (hname : Tree.Apart namePath path)
    (hcluster : Tree.Apart (labelPath clusterKey) path)
    (hnode : Tree.Apart (labelPath nodeKey) path) :
    valueAt (filled items metadata labels obj) path = valueAt (.dict items) path := by
  cases path with
  | nil => exact absurd List.nil_prefix hname.2
  | cons k path =>
    by_cases hk : k = .str "metadata"
    · subst hk
      have hname := hname.of_append
      cases path with
      | nil => exact absurd List.nil_prefix hname.2
      | cons k path =>
        rw [valueAt_set_self, valueAt_of_getD hmetadata]
        have hname : k ≠ .str "name" := by
          rintro rfl
          exact hname.1 (List.prefix_append _ _)
        rw [valueAt_withName hname]
        by_cases hk : k = .str "labels"
        · subst hk
          have hcluster := hcluster.of_append.of_append
          have hnode := hnode.of_append.of_append
          cases path with
          | nil => exact absurd List.nil_prefix hnode.2
          | cons k path =>
            rw [valueAt_set_self, valueAt_of_getD hlabels]
            rw [valueAt_set_of_ne, valueAt_set_of_ne]
            · rintro rfl
              exact hcluster.1 (List.prefix_append _ _)
            · rintro rfl
              exact hnode.1 (List.prefix_append _ _)
        · exact valueAt_set_of_ne hk _ _ _
    · exact valueAt_set_of_ne hk _ _ _

/-- A part is a mapping or absent exactly if it is one once an absent one is empty. -/
theorem mappingIfPresent_iff {k : Key} :
    MappingIfPresent (.dict items) [k] ↔ ∃ part, (Dict.get? items k).getD (.dict []) = .dict part := by
  unfold MappingIfPresent
  rw [valueAt_cons]
  cases Dict.get? items k with
  | none => simp
  | some v => simp

end Fill

/-- Over every accepted template and node: the template of the node is made as promised exactly
if `metadata` and its `labels` are mappings where they are present. -/
theorem usable_iff {p : Profile} (h : doValidate p.template = .ok ()) (obj : Node) :
    Usable p obj ↔ MappingParts p.template := by
  obtain ⟨items, htemplate⟩ := exists_dict_of_doValidate h
  unfold Usable MappingParts
  simp only [makeTemplate, Prod.mk.injEq, and_true]
  rw [htemplate, mappingIfPresent_iff]
  constructor
  · rintro ⟨result, hresult, hlabel, -, -⟩
    obtain ⟨metadata, labels, hmetadata, hlabels⟩ :=
      exists_mappings_of_fillTemplate hresult hlabel
    refine ⟨⟨metadata, hmetadata⟩, fun part hpart => ?_⟩
    rw [valueAt_of_getD hmetadata] at hpart
    exact mappingIfPresent_iff.2 ⟨labels, hlabels⟩ part hpart
  · rintro ⟨⟨metadata, hmetadata⟩, hpart⟩
    obtain ⟨labels, hlabels⟩ := mappingIfPresent_iff.1 fun part h => hpart part (by
      rwa [valueAt_of_getD hmetadata])
    refine ⟨_, fillTemplate_filled hmetadata hlabels, ?_, ?_, fun path => ?_⟩
    · rw [labelPath, valueAt_filled_label, valueAt_set_of_ne (by decide), valueAt_set_self,
        valueAt_nil]
    · rw [labelPath, valueAt_filled_label, valueAt_set_self, valueAt_nil]
    · exact valueAt_filled_apart hmetadata hlabels

/-- A template of one container, with the given metadata. -/
def smallTemplate (metadata : List (String × Value)) : Value :=
  .record ([("kind", .str "capsule"), ("spec", .record [("containers", .list [.record
    [("image", .str "nginx")]])])] ++ metadata)

def smallNode (name : String) : Node :=
  ⟨some (.str "n-1"), some (.str "c-1"), .str name, .none⟩

theorem usable_absent : Usable ⟨smallTemplate []⟩ (smallNode "web-1") ↔
    MappingParts (smallTemplate []) :=
  usable_iff (p := ⟨smallTemplate []⟩) (by rfl) (smallNode "web-1")

/-- A null `metadata` is accepted, and the copy then fails on it. -/
theorem not_usable_null : ¬∀ (p : Profile) (obj : Node), doValidate p.template = .ok () →
    Usable p obj := by
  intro h
  obtain ⟨result, hresult, -⟩ := h ⟨smallTemplate [("metadata", .none)]⟩ (smallNode "web-1") (by rfl)
  cases congrArg Prod.fst hresult

end Yggdrasil.Capsule
