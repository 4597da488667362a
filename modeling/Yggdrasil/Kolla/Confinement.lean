import Yggdrasil.Kolla.Overrides

/-! Where the custom configs are written and removed. The patterns of the validation allow the
components `.` and `..`; the paths stay inside the directory for custom configs exactly when none
of the names has such a component. -/

namespace Yggdrasil.Kolla

open Python

/-- The parts of a path between its slashes. -/
def components (path : String) : List String := (path.toList.splitOn '/').map String.ofList

/-- The directory that a component leads to. -/
def descend (dir : List String) (c : String) : List String :=
  if c = "" ∨ c = "." then dir else if c = ".." then dir.dropLast else dir ++ [c]

/-- The file that a path names, by the components below the root. -/
def resolve (base : List String) (path : String) : List String :=
  (components path).foldl descend base

def Special (c : String) : Prop := c = "." ∨ c = ".."

/-- The path leads below the directory for custom configs. -/
def Inside (base : List String) (path : String) : Prop :=
  ∃ rest, rest ≠ [] ∧ resolve base path = base ++ "config" :: rest

structure Confined (base : List String) (path : String) : Prop where
  inside : Inside base path
  plain : ∀ c ∈ components path, ¬Special c

/-- The global overrides and the manifest, whose paths do not depend on the custom configs. -/
def Action.Fixed : Action → Prop
  | .remove _ | .directory _ | .render .. => False
  | _ => True

/-- No name of a rendered or a removed file has a special component. -/
structure Plain (services : List Service) (previous : List String) : Prop where
  service : ∀ s ∈ services, ∀ h ∈ s.hosts, (∀ c ∈ components s.key, ¬Special c) ∧
    ¬Special h.name ∧ ∀ f ∈ h.files, ¬Special f.1
  previous : ∀ path ∈ previous, path ∉ customConfigPaths services →
    ∀ c ∈ components path, ¬Special c

variable {base : List String}

/-! ### Components -/

theorem components_append (a b : String) :
    components (a ++ "/" ++ b) = components a ++ components b := by
  have hl : (a ++ "/" ++ b).toList = a.toList ++ '/' :: b.toList := by
    simp [String.toList_append]
  rw [components, hl, List.splitOn_append_cons_self, List.map_append]
  rfl

theorem components_of_notMem {s : String} (h : '/' ∉ s.toList) : components s = [s] := by
  rw [components, List.splitOn_eq_singleton h]
  simp

theorem mem_beforeEnd {s : String} {c : Char} (h : c ∈ s.toList) : c ∈ beforeEnd s ∨ c = '\n' := by
  unfold beforeEnd
  split_ifs with hlast
  · rw [← List.dropLast_append_getLast? _ hlast] at h
    simpa using h
  · exact .inl h

theorem beforeEnd_of_notMem {s : String} (h : '\n' ∉ s.toList) : beforeEnd s = s.toList := by
  unfold beforeEnd
  rw [if_neg]
  exact fun he => h (List.mem_of_getLast? he)

/-- A name has no slash, and it is not empty. -/
theorem components_of_matchesName {s : String} (h : matchesName s = true) :
    components s = [s] ∧ s ≠ "" := by
  obtain ⟨hne, hall⟩ := Bool.and_eq_true_iff.1 h
  constructor
  · apply components_of_notMem
    intro hm
    rcases mem_beforeEnd hm with hm | he
    · exact absurd (List.all_eq_true.1 hall _ hm) (by decide)
    · exact absurd he (by decide)
  · rintro rfl
    simp [beforeEnd] at hne

theorem components_hostPath {s : Service} {h : Host} (hname : matchesName h.name = true) :
    components (hostPath s h) = "config" :: (components s.key ++ [h.name]) := by
  have hpath : hostPath s h = "config" ++ "/" ++ (s.key ++ "/" ++ h.name) := by
    simp [hostPath, String.append_assoc]
  rw [hpath, components_append, components_append, (components_of_matchesName hname).1]
  rfl

theorem components_filePath {s : Service} {h : Host} {file : String}
    (hname : matchesName h.name = true) (hfile : matchesName file = true) :
    components (filePath s h file) = "config" :: (components s.key ++ [h.name] ++ [file]) := by
  rw [filePath, components_append, components_hostPath hname, (components_of_matchesName hfile).1]
  rfl

/-! ### Resolution -/

/-- Components that are not special lead downwards. -/
theorem foldl_descend {dir cs : List String} (h : ∀ c ∈ cs, ¬Special c) :
    cs.foldl descend dir = dir ++ cs.filter (· ≠ "") := by
  induction cs generalizing dir with
  | nil => simp
  | cons c cs ih =>
    have hc := h c List.mem_cons_self
    rw [List.foldl_cons, ih fun c' hc' => h c' (List.mem_cons_of_mem _ hc')]
    unfold Special at hc
    push Not at hc
    by_cases hempty : c = ""
    · simp [descend, hempty]
    · simp [descend, hempty, hc.1, hc.2]

/-- A path under `config`, with a name in it, is confined exactly if it is plain. -/
theorem confined_iff_plain {path : String} {cs : List String} (hpath : components path = "config" :: cs)
    (hname : ∃ c ∈ cs, c ≠ "") : Confined base path ↔ ∀ c ∈ cs, ¬Special c := by
  constructor
  · intro hc c hm
    apply hc.plain c
    rw [hpath]
    exact List.mem_cons_of_mem _ hm
  intro hplain
  have hall : ∀ c ∈ components path, ¬Special c := by
    rw [hpath]
    intro c hc
    rcases List.mem_cons.1 hc with rfl | hc
    · simp [Special]
    · exact hplain c hc
  refine ⟨⟨cs.filter (· ≠ ""), ?_, ?_⟩, hall⟩
  · obtain ⟨c, hc, hne⟩ := hname
    have hm : c ∈ cs.filter (· ≠ "") := by simpa using ⟨hc, hne⟩
    exact List.ne_nil_of_mem hm
  · rw [resolve, foldl_descend hall, hpath]
    simp


/-- The characters of a line do not end it. -/
theorem not_isLineEnd_of_mem {line cs : List Char} (h : ∀ c ∈ line, isLineEnd c = false) :
    ∀ l ∈ linesFrom line cs, ∀ c ∈ l, isLineEnd c = false := by
  fun_induction linesFrom line cs with
  | case1 line hempty => simp
  | case2 line hne => simpa using h
  | case3 line cs ih =>
    intro l hl
    rcases List.mem_cons.1 hl with rfl | hl
    · exact h
    · exact ih (by simp) l hl
  | case4 line c cs hcrlf hend ih =>
    intro l hl
    rcases List.mem_cons.1 hl with rfl | hl
    · exact h
    · exact ih (by simp) l hl
  | case5 line c cs hcrlf hend ih =>
    apply ih
    intro c' hc'
    rcases List.mem_append.1 hc' with hc' | hc'
    · exact h c' hc'
    · rw [List.mem_singleton.1 hc']
      simpa using hend

theorem notMem_previousPaths {manifest : Option String} {path : String}
    (h : path ∈ previousPaths manifest) : '\n' ∉ path.toList := by
  cases manifest with
  | none => simp [previousPaths] at h
  | some content =>
    obtain ⟨l, hl, rfl⟩ := List.mem_map.1 h
    intro hm
    rw [String.toList_ofList] at hm
    exact absurd (not_isLineEnd_of_mem (by simp) l hl _ hm) (by decide)

/-- A line of the manifest that matches leads through `config` and three further names. -/
theorem components_of_matchesManifestPath {path : String} (hline : '\n' ∉ path.toList)
    (h : matchesManifestPath path = true) :
    ∃ cs, components path = "config" :: cs ∧ cs ≠ [] ∧ ∀ c ∈ cs, c ≠ "" := by
  unfold matchesManifestPath at h
  rw [beforeEnd_of_notMem hline] at h
  split at h
  · cases h
  · rename_i first rest hsplit
    simp only [Bool.and_eq_true, beq_iff_eq, decide_eq_true_eq, List.all_eq_true] at h
    obtain ⟨⟨hfirst, hlength⟩, hnames⟩ := h
    refine ⟨rest.map String.ofList, ?_, ?_, ?_⟩
    · rw [components, hsplit, List.map_cons, hfirst, String.ofList_toList]
    · rintro hnil
      rw [List.map_eq_nil_iff.1 hnil] at hlength
      simp at hlength
    · intro c hc
      obtain ⟨cs, hcs, rfl⟩ := List.mem_map.1 hc
      have hname := hnames cs hcs
      intro he
      rw [String.ofList_eq_empty_iff.1 he] at hname
      cases hname

/-! ### The actions of a run -/

variable {toNiceYaml : Mapping → String} {i : Inventory} {globals : Mapping} {services : List Service}
  {previous : List String} {nodes : List String} {s : Service} {h : Host}

/-- The fixed actions, and those on the custom configs. -/
theorem forall_actions {P : Action → Prop} (hm : previous.all matchesManifestPath = true)
    (hfixed : ∀ a : Action, a.Fixed → P a) :
    (∀ a ∈ actions toNiceYaml globals services previous, P a) ↔
      (∀ path ∈ stalePaths previous (customConfigPaths services), P (.remove path)) ∧
        ∀ s ∈ services, ∀ a ∈ serviceActions s, P a := by
  have hglobal : ∀ a ∈ globalActions toNiceYaml globals, P a := by
    intro a ha
    apply hfixed
    unfold globalActions at ha
    split_ifs at ha
    all_goals
      simp only [List.mem_cons, List.not_mem_nil, or_false] at ha
      rcases ha with rfl | rfl <;> trivial
  have hmanifest : P (.writeManifest (manifestContent (customConfigPaths services))) :=
    hfixed _ trivial
  rw [actions, if_pos hm]
  simp only [customActions, List.forall_mem_append, List.forall_mem_map, List.forall_mem_singleton,
    List.forall_mem_flatMap]
  exact ⟨fun hall => hall.2.1, fun hall => ⟨hglobal, hall, hmanifest⟩⟩

theorem confined_hostPath (hs : s.Valid nodes) (hh : h ∈ s.hosts) :
    Confined base (hostPath s h) ↔ (∀ c ∈ components s.key, ¬Special c) ∧ ¬Special h.name := by
  have hname := (hs.host h hh).1
  have hword : ∃ c ∈ components s.key ++ [h.name], c ≠ "" :=
    ⟨h.name, by simp, (components_of_matchesName hname).2⟩
  rw [confined_iff_plain (components_hostPath hname) hword, List.forall_mem_append]
  simp

theorem confined_filePath {f : String × String} (hs : s.Valid nodes) (hh : h ∈ s.hosts)
    (hf : f ∈ h.files) : Confined base (filePath s h f.1) ↔
      ((∀ c ∈ components s.key, ¬Special c) ∧ ¬Special h.name) ∧ ¬Special f.1 := by
  have hname := (hs.host h hh).1
  have hword : ∃ c ∈ components s.key ++ [h.name] ++ [f.1], c ≠ "" :=
    ⟨h.name, by simp, (components_of_matchesName hname).2⟩
  rw [confined_iff_plain (components_filePath hname (hs.file h hh f hf)) hword,
    List.forall_mem_append, List.forall_mem_append]
  simp

theorem confined_serviceActions (hs : s.Valid nodes) :
    (∀ a ∈ serviceActions s, a.Fixed ∨ Confined base a.path) ↔
      ∀ h ∈ s.hosts, (∀ c ∈ components s.key, ¬Special c) ∧ ¬Special h.name ∧
        ∀ f ∈ h.files, ¬Special f.1 := by
  constructor
  · intro hall h hh
    have hhost := (hall _ (mem_serviceActions.2 (.inl ⟨h, hh, rfl⟩))).resolve_left id
    obtain ⟨hkey, hname⟩ := (confined_hostPath hs hh).1 hhost
    refine ⟨hkey, hname, fun f hf => ?_⟩
    have hfile := (hall _ (mem_serviceActions.2 (.inr ⟨h, hh, f, hf, rfl⟩))).resolve_left id
    exact ((confined_filePath hs hh hf).1 hfile).2
  · intro hplain a ha
    right
    rcases mem_serviceActions.1 ha with ⟨h, hh, rfl⟩ | ⟨h, hh, f, hf, rfl⟩
    · obtain ⟨hkey, hname, -⟩ := hplain h hh
      exact (confined_hostPath hs hh).2 ⟨hkey, hname⟩
    · obtain ⟨hkey, hname, hfiles⟩ := hplain h hh
      exact (confined_filePath hs hh hf).2 ⟨⟨hkey, hname⟩, hfiles f hf⟩

theorem confined_manifestPath {manifest : Option String} {path : String}
    (hpath : path ∈ previousPaths manifest) (hm : matchesManifestPath path = true) :
    Confined base path ↔ ∀ c ∈ components path, ¬Special c := by
  obtain ⟨cs, hcs, hne, hnames⟩ := components_of_matchesManifestPath (notMem_previousPaths hpath) hm
  obtain ⟨c, hc⟩ := List.exists_mem_of_ne_nil cs hne
  rw [confined_iff_plain hcs ⟨c, hc, hnames c hc⟩, hcs, List.forall_mem_cons]
  simp [Special]

/-- Every path that is written or removed for the custom configs is confined exactly if no name of
the inventory and of the removed files has a special component. -/
theorem confined_iff (base : List String) (toNiceYaml : Mapping → String) (i : Inventory)
    (globals : Mapping) (services : List Service) (hi : validate i = some (globals, services))
    (manifest : Option String) (hm : (previousPaths manifest).all matchesManifestPath = true) :
    (∀ a ∈ actions toNiceYaml globals services (previousPaths manifest),
        a.Fixed ∨ Confined base a.path) ↔ Plain services (previousPaths manifest) := by
  have hvalid := validate_valid hi
  rw [forall_actions hm fun a ha => .inl ha]
  constructor
  · rintro ⟨hstale, hservices⟩
    refine ⟨fun s hs => (confined_serviceActions (hvalid s hs)).1 (hservices s hs), ?_⟩
    intro path hpath hcurrent
    exact ((hstale path (mem_stalePaths.2 ⟨hpath, hcurrent⟩)).resolve_left id).plain
  · intro hplain
    refine ⟨fun path hstale => ?_, fun s hs => ?_⟩
    · obtain ⟨hpath, hcurrent⟩ := mem_stalePaths.1 hstale
      right
      apply (confined_manifestPath hpath (List.all_eq_true.1 hm path hpath)).2
      exact hplain.previous path hpath hcurrent
    · exact (confined_serviceActions (hvalid s hs)).2 (hplain.service s hs)

/-- An inventory with one file for one host. -/
def oneFile (service host file content : String) : Inventory where
  deploymentNodes := [host]
  kollaGlobals := .dict []
  kollaCustomConfigs :=
    .dict [(.str service, .dict [(.str host, .dict [(.str file, .str content)])])]

theorem nova_confined_iff :
    (∀ a ∈ actions (fun _ => "") [] [⟨"nova", [⟨"hyper01", [("nova.conf", "[DEFAULT]")]⟩]⟩]
        (previousPaths (some "config/nova/hyper02/nova.conf")),
      a.Fixed ∨ Confined ["kolla"] a.path) ↔
    Plain [⟨"nova", [⟨"hyper01", [("nova.conf", "[DEFAULT]")]⟩]⟩]
      (previousPaths (some "config/nova/hyper02/nova.conf")) :=
  confined_iff ["kolla"] (fun _ => "") (oneFile "nova" "hyper01" "nova.conf" "[DEFAULT]") []
    [⟨"nova", [⟨"hyper01", [("nova.conf", "[DEFAULT]")]⟩]⟩] rfl
    (some "config/nova/hyper02/nova.conf") (by decide)

theorem parent_not_confined :
    ¬∀ (base : List String) (toNiceYaml : Mapping → String) (i : Inventory) (globals : Mapping)
      (services : List Service) (manifest : Option String),
      validate i = some (globals, services) →
      (previousPaths manifest).all matchesManifestPath = true →
      ∀ a ∈ actions toNiceYaml globals services (previousPaths manifest),
        a.Fixed ∨ Confined base a.path := by
  intro h
  have hdirectory := h ["kolla"] (fun _ => "") (oneFile "../.." "hyper01" "nova.conf" "") [] _ none rfl
    rfl (.directory "config/../../hyper01") (by decide)
  exact (hdirectory.resolve_left id).plain ".." (by decide) (.inr rfl)

end Yggdrasil.Kolla
