import Mathlib.Data.List.Sort
import Mathlib.Data.String.Basic
import Yggdrasil.Library.Combination
import Yggdrasil.Python.Value

/-! The tasks that render the Kolla overrides of the inventory. They validate the custom configs,
remove the files that a manifest lists and the inventory no longer has, render the files of the
inventory, and write their paths to the manifest. A run that fails or is interrupted has performed
the first of its actions. -/

namespace Yggdrasil.Kolla

open Python

/-! ### Validation -/

/-- `[A-Za-z0-9_.-]`. -/
def isNameChar (c : Char) : Bool := c.isAlphanum || c == '_' || c == '.' || c == '-'

/-- `[A-Za-z0-9_.-]+`. -/
def isName (cs : List Char) : Bool := !cs.isEmpty && cs.all isNameChar

/-- What comes before a `$`, which also matches in front of a final newline. -/
def beforeEnd (s : String) : List Char :=
  if s.toList.getLast? = some '\n' then s.toList.dropLast else s.toList

/-- `^[A-Za-z0-9_.-]+$`. -/
def matchesName (s : String) : Bool := isName (beforeEnd s)

/-- `^[A-Za-z0-9_.-]+(/[A-Za-z0-9_.-]+)*$`. -/
def matchesServicePath (s : String) : Bool := ((beforeEnd s).splitOn '/').all isName

/-- The pattern of a manifest line: `config`, a service path, a host and a file. -/
def matchesManifestPath (s : String) : Bool :=
  match (beforeEnd s).splitOn '/' with
  | [] => false
  | first :: rest => first == "config".toList && 3 ≤ rest.length && rest.all isName

structure Inventory where
  deploymentNodes : List String
  kollaGlobals : Value
  kollaCustomConfigs : Value

/-- A host of a service with its file names and their contents. -/
structure Host where
  name : String
  files : List (String × String)
  deriving DecidableEq

structure Service where
  key : String
  hosts : List Host
  deriving DecidableEq

def validateService : Key × Value → Option (String × Mapping)
  | (.str key, .dict hosts) => if matchesServicePath key then some (key, hosts) else none
  | _ => none

def validateHost (deploymentNodes : List String) : Key × Value → Option (String × Mapping)
  | (.str name, .dict files) =>
    if matchesName name && deploymentNodes.contains name then some (name, files) else none
  | _ => none

def validateFile : Key × Value → Option (String × String)
  | (.str name, .str content) => if matchesName name then some (name, content) else none
  | _ => none

def validateHostFiles (host : String × Mapping) : Option Host := do
  let files ← host.2.mapM validateFile
  return ⟨host.1, files⟩

def validateServiceHosts (deploymentNodes : List String) (service : String × Mapping) :
    Option Service := do
  let hosts ← service.2.mapM (validateHost deploymentNodes)
  let hosts ← hosts.mapM validateHostFiles
  return ⟨service.1, hosts⟩

/-- The global overrides and the custom configs, if the assertions about them hold. -/
def validate (i : Inventory) : Option (Mapping × List Service) :=
  match i.kollaGlobals, i.kollaCustomConfigs with
  | .dict globals, .dict configs => do
    let services ← configs.mapM validateService
    let services ← services.mapM (validateServiceHosts i.deploymentNodes)
    return (globals, services)
  | _, _ => none

/-! ### Paths -/

def hostPath (s : Service) (h : Host) : String := "config/" ++ s.key ++ "/" ++ h.name

def filePath (s : Service) (h : Host) (file : String) : String := hostPath s h ++ "/" ++ file

/-- `yggdrasil_custom_config_paths`. -/
def customConfigPaths (services : List Service) : List String :=
  services.flatMap fun s => s.hosts.flatMap fun h => h.files.map fun f => filePath s h f.1

def manifestName : String := ".yggdrasil-custom-configs"

def globalsName : String := "globals.d/99-yggdrasil-ansible.yml"

/-- An older manifest has a backslash and an `n` in place of a newline. -/
def replaceEscaped : List Char → List Char
  | '\\' :: 'n' :: cs => '\n' :: replaceEscaped cs
  | c :: cs => c :: replaceEscaped cs
  | [] => []

/-- `yggdrasil_previous_custom_config_paths`. -/
def previousPaths : Option String → List String
  | some content => splitlines (String.ofList (replaceEscaped content.toList))
  | none => []

/-- The filters `sort`, which ignores case, and `join`. -/
def manifestContent (paths : List String) : String :=
  "\n".intercalate (paths.insertionSort fun a b => lower a ≤ lower b)

/-! ### Actions -/

/-- What the tasks do to the files, with the paths relative to the Kolla directory. -/
inductive Action where
  | globalsDirectory
  | removeGlobals
  | renderGlobals (content : String)
  | remove (path : String)
  | directory (path : String)
  | render (path content : String)
  | writeManifest (content : String)
  deriving DecidableEq

def Action.path : Action → String
  | .globalsDirectory => "globals.d"
  | .removeGlobals => globalsName
  | .renderGlobals _ => globalsName
  | .remove path => path
  | .directory path => path
  | .render path _ => path
  | .writeManifest _ => manifestName

variable (toNiceYaml : Mapping → String)

def globalActions (globals : Mapping) : List Action :=
  .globalsDirectory ::
    if globals.isEmpty then [.removeGlobals] else [.renderGlobals (toNiceYaml globals)]

/-- The filter `difference`. -/
def stalePaths (previous current : List String) : List String :=
  (Dict.firsts id previous).filter fun path => !current.contains path

def serviceActions (s : Service) : List Action :=
  (s.hosts.map fun h => .directory (hostPath s h)) ++
    s.hosts.flatMap fun h => h.files.map fun f => .render (filePath s h f.1) f.2

/-- The actions on the custom configs, and the manifest at their end. -/
def customActions (services : List Service) (previous : List String) : List Action :=
  (stalePaths previous (customConfigPaths services)).map .remove ++
    services.flatMap serviceActions ++
    [.writeManifest (manifestContent (customConfigPaths services))]

/-- The actions of a run. A line of the manifest that does not match ends it before the custom
configs. -/
def actions (globals : Mapping) (services : List Service) (previous : List String) : List Action :=
  globalActions toNiceYaml globals ++
    if previous.all matchesManifestPath then customActions services previous else []

/-! ### What a run works on -/

variable {toNiceYaml : Mapping → String} {i : Inventory} {globals : Mapping} {services : List Service}
  {previous : List String}

/-- A service with the names that the assertions demand. -/
structure Service.Valid (deploymentNodes : List String) (s : Service) : Prop where
  key : matchesServicePath s.key = true
  host : ∀ h ∈ s.hosts, matchesName h.name = true ∧ h.name ∈ deploymentNodes
  file : ∀ h ∈ s.hosts, ∀ f ∈ h.files, matchesName f.1 = true

theorem validateHostFiles_spec {entry : String × Mapping} {h : Host}
    (he : validateHostFiles entry = some h) :
    h.name = entry.1 ∧ ∀ f ∈ h.files, matchesName f.1 = true := by
  unfold validateHostFiles at he
  simp only [Option.bind_eq_bind, Option.pure_def, Option.bind_eq_some_iff, Option.some.injEq] at he
  obtain ⟨files, hfiles, rfl⟩ := he
  refine ⟨rfl, fun f hf => ?_⟩
  obtain ⟨item, -, hitem⟩ := Combination.mem_of_mapM hfiles hf
  unfold validateFile at hitem
  split at hitem
  · split_ifs at hitem with hname
    rw [← Option.some.inj hitem]
    exact hname
  · cases hitem

theorem validateServiceHosts_spec {nodes : List String} {entry : String × Mapping} {s : Service}
    (hkey : matchesServicePath entry.1 = true) (hs : validateServiceHosts nodes entry = some s) :
    s.Valid nodes := by
  unfold validateServiceHosts at hs
  simp only [Option.bind_eq_bind, Option.pure_def, Option.bind_eq_some_iff, Option.some.injEq] at hs
  obtain ⟨entries, hentries, hosts, hhosts, rfl⟩ := hs
  refine ⟨hkey, fun h hh => ?_, fun h hh => ?_⟩
  · obtain ⟨entry', hm, he⟩ := Combination.mem_of_mapM hhosts hh
    obtain ⟨item, -, hitem⟩ := Combination.mem_of_mapM hentries hm
    rw [(validateHostFiles_spec he).1]
    unfold validateHost at hitem
    split at hitem
    · split_ifs at hitem with hname
      rw [← Option.some.inj hitem]
      simpa using hname
    · cases hitem
  · obtain ⟨entry', -, he⟩ := Combination.mem_of_mapM hhosts hh
    exact (validateHostFiles_spec he).2

theorem validate_valid (h : validate i = some (globals, services)) :
    ∀ s ∈ services, s.Valid i.deploymentNodes := by
  unfold validate at h
  split at h
  · simp only [Option.bind_eq_bind, Option.pure_def, Option.bind_eq_some_iff, Option.some.injEq,
      Prod.mk.injEq] at h
    obtain ⟨entries, hentries, services', hservices, -, rfl⟩ := h
    intro s hs
    obtain ⟨entry, hm, he⟩ := Combination.mem_of_mapM hservices hs
    obtain ⟨item, -, hitem⟩ := Combination.mem_of_mapM hentries hm
    apply validateServiceHosts_spec _ he
    unfold validateService at hitem
    split at hitem
    · split_ifs at hitem with hkey
      rw [← Option.some.inj hitem]
      exact hkey
    · cases hitem
  · cases h

theorem mem_customConfigPaths {path : String} : path ∈ customConfigPaths services ↔
    ∃ s ∈ services, ∃ h ∈ s.hosts, ∃ f ∈ h.files, filePath s h f.1 = path := by
  simp [customConfigPaths, List.mem_flatMap]

theorem mem_stalePaths {current : List String} {path : String} :
    path ∈ stalePaths previous current ↔ path ∈ previous ∧ path ∉ current := by
  have hfirst : path ∈ Dict.firsts id previous ↔ path ∈ previous :=
    Dict.mem_firsts_of_inj id fun _ _ _ _ => id
  simp [stalePaths, hfirst]

theorem mem_serviceActions {s : Service} {a : Action} : a ∈ serviceActions s ↔
    (∃ h ∈ s.hosts, .directory (hostPath s h) = a) ∨
      ∃ h ∈ s.hosts, ∃ f ∈ h.files, .render (filePath s h f.1) f.2 = a := by
  simp [serviceActions, List.mem_flatMap]

end Yggdrasil.Kolla
