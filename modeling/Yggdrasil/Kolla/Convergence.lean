import Mathlib.Data.List.Induction
import Yggdrasil.Kolla.Confinement

/-! The custom configs over a sequence of runs, each of which may stop after any of its actions.
The manifest is the only memory of what was rendered: a run that stops after it has rendered a
file and before it has written the manifest leaves a file that no later run removes. -/

namespace Yggdrasil.Kolla

open Python

/-- The files with their contents, and every file that was ever rendered for the custom configs. -/
structure State where
  files : List (List String × String)
  rendered : List (List String)

def State.write (s : State) (path : List String) (content : String) : State :=
  { s with files := Dict.set s.files path content }

/-- A path is removed with everything below it. -/
def State.remove (s : State) (path : List String) : State :=
  { s with files := s.files.filter fun f => !path.isPrefixOf f.1 }

variable (base : List String) (toNiceYaml : Mapping → String)

def perform (s : State) : Action → State
  | .globalsDirectory | .directory _ => s
  | .removeGlobals => s.remove (resolve base globalsName)
  | .renderGlobals content => s.write (resolve base globalsName) content
  | .remove path => s.remove (resolve base path)
  | .render path content =>
    { s.write (resolve base path) content with rendered := resolve base path :: s.rendered }
  | .writeManifest content => s.write (resolve base manifestName) content

def manifest (s : State) : Option String := Dict.get? s.files (resolve base manifestName)

/-- A run of the tasks, and the number of actions after which it stops. -/
structure Run where
  inventory : Inventory
  stop : ℕ

/-- The actions that a run would perform, if its inventory is valid. -/
def runActions (s : State) (r : Run) : Option (List Action) :=
  (validate r.inventory).map fun v =>
    actions toNiceYaml v.1 v.2 (previousPaths (manifest base s))

def run (s : State) (r : Run) : State :=
  (((runActions base toNiceYaml s r).getD []).take r.stop).foldl (perform base) s

/-- The run performs all actions: the manifest is readable, and nothing stops it. -/
structure Completes (s : State) (r : Run) (services : List Service) : Prop where
  valid : ∃ globals, validate r.inventory = some (globals, services)
  readable : (previousPaths (manifest base s)).all matchesManifestPath = true
  finished : ∀ acts, runActions base toNiceYaml s r = some acts → acts.length ≤ r.stop

/-- Of the files that were ever rendered, those of the inventory are there. -/
def Converged (s : State) (services : List Service) : Prop :=
  ∀ file, file ∈ s.rendered ∧ file ∈ s.files.map Prod.fst ↔
    ∃ path ∈ customConfigPaths services, resolve base path = file

/-- The files of the inventory lie inside the directory for custom configs and their names have no
newline; and a run that stops early renders only files that the manifest lists. -/
structure Tracks (s : State) (r : Run) : Prop where
  paths : ∀ globals services, validate r.inventory = some (globals, services) →
    ∀ path ∈ customConfigPaths services, Inside base path ∧ '\n' ∉ path.toList
  listed : ∀ acts, runActions base toNiceYaml s r = some acts → acts.length ≤ r.stop ∨
    ∀ path content, .render path content ∈ acts.take r.stop →
      path ∈ previousPaths (manifest base s)

/-- Every run of a sequence does. -/
def AllTrack (s : State) : List Run → Prop
  | [] => True
  | r :: runs => Tracks base toNiceYaml s r ∧ AllTrack (run base toNiceYaml s r) runs

variable {base toNiceYaml} {globals : Mapping} {services : List Service}

/-! ### The manifest -/

theorem replaceEscaped_of_notMem {cs : List Char} (h : '\\' ∉ cs) : replaceEscaped cs = cs := by
  fun_induction replaceEscaped cs with
  | case1 cs ih => simp at h
  | case2 c cs hne ih => rw [ih fun hm => h (List.mem_cons_of_mem _ hm)]
  | case3 => rfl

theorem linesFrom_last {line l : List Char} (h : ∀ c ∈ l, isLineEnd c = false) (hne : line ++ l ≠ []) :
    linesFrom line l = [line ++ l] := by
  induction l generalizing line with
  | nil =>
    rw [List.append_nil] at hne ⊢
    simp [linesFrom, hne]
  | cons c l ih =>
    have hc := h c List.mem_cons_self
    have hcr : c ≠ '\r' := by
      rintro rfl
      exact absurd hc (by decide)
    rw [linesFrom]
    · rw [if_neg (by simp [hc]), ih (fun c' hc' => h c' (List.mem_cons_of_mem _ hc')) (by simp)]
      simp
    · exact fun _ he => absurd he hcr

/-- The lines of a text are those that it was joined from. -/
theorem linesFrom_intercalate {ls : List (List Char)}
    (h : ∀ l ∈ ls, l ≠ [] ∧ ∀ c ∈ l, isLineEnd c = false) :
    linesFrom [] (['\n'].intercalate ls) = ls := by
  induction ls with
  | nil => rfl
  | cons l ls ih =>
    obtain ⟨hne, hl⟩ := h l List.mem_cons_self
    cases ls with
    | nil =>
      rw [List.intercalate_singleton, linesFrom_last hl (by simpa using hne)]
      rfl
    | cons l' ls =>
      rw [List.intercalate_cons_cons, List.append_assoc, List.singleton_append, linesFrom_append hl,
        ih fun l hm => h l (List.mem_cons_of_mem _ hm)]
      rfl

theorem mem_intercalate {ls : List (List Char)} {c : Char} (h : c ∈ ['\n'].intercalate ls) :
    c = '\n' ∨ ∃ l ∈ ls, c ∈ l := by
  induction ls with
  | nil => simp at h
  | cons l ls ih =>
    cases ls with
    | nil => exact .inr ⟨l, by simp, by simpa using h⟩
    | cons l' ls =>
      rw [List.intercalate_cons_cons, List.mem_append, List.mem_append] at h
      rcases h with (h | h) | h
      · exact .inr ⟨l, by simp, h⟩
      · exact .inl (List.mem_singleton.1 h)
      · rcases ih h with he | ⟨l'', hl, hc⟩
        · exact .inl he
        · exact .inr ⟨l'', List.mem_cons_of_mem _ hl, hc⟩

/-- The characters of a path whose names match. -/
theorem mem_of_splitOn {l : List Char} {P : Char → Prop}
    (h : ∀ piece ∈ l.splitOn '/', ∀ c ∈ piece, P c) {c : Char} (hc : c ∈ l) : c = '/' ∨ P c := by
  induction l with
  | nil => simp at hc
  | cons d l ih =>
    rw [List.splitOn_cons_eq_if_modifyHead] at h
    split_ifs at h with hd
    · rcases List.mem_cons.1 hc with rfl | hc
      · exact .inl (beq_iff_eq.1 hd)
      · exact ih (fun piece hp => h piece (List.mem_cons_of_mem _ hp)) hc
    · obtain ⟨first, rest, hsplit⟩ := List.exists_cons_of_ne_nil (List.splitOn_ne_nil '/' l)
      rw [hsplit, List.modifyHead_cons] at h
      rcases List.mem_cons.1 hc with rfl | hc
      · exact .inr (h _ List.mem_cons_self c List.mem_cons_self)
      · apply ih _ hc
        rw [hsplit]
        intro piece hp
        rcases List.mem_cons.1 hp with rfl | hp
        · exact fun c' hc' => h _ List.mem_cons_self c' (List.mem_cons_of_mem _ hc')
        · exact h piece (List.mem_cons_of_mem _ hp)

theorem isNameChar_plain {c : Char} (h : isNameChar c = true) : isLineEnd c = false ∧ c ≠ '\\' := by
  simp only [isNameChar, Bool.or_eq_true, beq_iff_eq, isAlphanum_iff, isUpper_iff_toNat,
    isLower_iff_toNat, Char.isDigit_iff_toNat] at h
  have hn : 45 ≤ c.toNat ∧ c.toNat ≤ 122 ∧ c.toNat ≠ 92 := by
    rcases h with ((h | rfl) | rfl) | rfl
    · simp at h
      omega
    all_goals decide
  refine ⟨?_, ?_⟩
  · simp [isLineEnd]
    omega
  · rintro rfl
    simp at hn

theorem chars_of_matchesManifestPath {path : String} (hline : '\n' ∉ path.toList)
    (h : matchesManifestPath path = true) :
    path.toList ≠ [] ∧ ∀ c ∈ path.toList, isLineEnd c = false ∧ c ≠ '\\' := by
  unfold matchesManifestPath at h
  rw [beforeEnd_of_notMem hline] at h
  split at h
  · cases h
  · rename_i first rest hsplit
    simp only [Bool.and_eq_true, beq_iff_eq, decide_eq_true_eq, List.all_eq_true] at h
    obtain ⟨⟨hfirst, hlength⟩, hnames⟩ := h
    constructor
    · intro hnil
      rw [hnil] at hsplit
      simp at hsplit
      rw [hsplit.2] at hlength
      simp at hlength
    · have hpieces : ∀ piece ∈ path.toList.splitOn '/', ∀ c ∈ piece, isNameChar c = true := by
        rw [hsplit]
        intro piece hp c hc
        rcases List.mem_cons.1 hp with rfl | hp
        · rw [hfirst] at hc
          exact List.all_eq_true.1 (by decide : "config".toList.all isNameChar = true) c hc
        · exact List.all_eq_true.1 (Bool.and_eq_true_iff.1 (hnames piece hp)).2 c hc
      intro c hc
      rcases mem_of_splitOn hpieces hc with rfl | hname
      · decide
      · exact isNameChar_plain hname

/-- The manifest is read as the sorted list of the paths that it was written from. -/
theorem previousPaths_manifestContent {paths : List String}
    (h : ∀ path ∈ paths, '\n' ∉ path.toList ∧ matchesManifestPath path = true) :
    previousPaths (some (manifestContent paths)) =
      paths.insertionSort fun a b => lower a ≤ lower b := by
  have hchars : ∀ path ∈ paths.insertionSort (fun a b => lower a ≤ lower b),
      path.toList ≠ [] ∧ ∀ c ∈ path.toList, isLineEnd c = false ∧ c ≠ '\\' := by
    intro path hpath
    obtain ⟨hline, hmatch⟩ := h path ((List.mem_insertionSort _).1 hpath)
    exact chars_of_matchesManifestPath hline hmatch
  unfold previousPaths manifestContent splitlines
  generalize paths.insertionSort (fun a b => lower a ≤ lower b) = sorted at hchars
  have hbackslash : '\\' ∉ ("\n".intercalate sorted).toList := by
    intro hm
    rw [String.toList_intercalate] at hm
    rcases mem_intercalate hm with he | ⟨l, hl, hc⟩
    · exact absurd he (by decide)
    · obtain ⟨path, hpath, rfl⟩ := List.mem_map.1 hl
      exact ((hchars path hpath).2 _ hc).2 rfl
  have hlines : linesFrom [] ("\n".intercalate sorted).toList = sorted.map String.toList := by
    rw [String.toList_intercalate]
    apply linesFrom_intercalate
    intro l hl
    obtain ⟨path, hpath, rfl⟩ := List.mem_map.1 hl
    exact ⟨(hchars path hpath).1, fun c hc => ((hchars path hpath).2 c hc).1⟩
  dsimp only
  rw [replaceEscaped_of_notMem hbackslash, String.toList_ofList, hlines, List.map_map]
  simp [Function.comp_def]

/-- A validated file has a path that the pattern of the manifest matches. -/
theorem matches_filePath {nodes : List String} {s : Service} {h : Host} {f : String × String}
    (hs : s.Valid nodes) (hh : h ∈ s.hosts) (hf : f ∈ h.files)
    (hline : '\n' ∉ (filePath s h f.1).toList) : matchesManifestPath (filePath s h f.1) = true := by
  have hname := (hs.host h hh).1
  have hfile := hs.file h hh f hf
  have hsplit : (filePath s h f.1).toList.splitOn '/' =
      "config".toList :: (s.key.toList.splitOn '/' ++ [h.name.toList] ++ [f.1.toList]) := by
    have hc := congrArg (List.map String.toList) (components_filePath (s := s) hname hfile)
    simpa [components, Function.comp_def] using hc
  have hparts : ∀ part ∈ [s.key, h.name, f.1], '\n' ∉ part.toList := by
    intro part hpart hm
    apply hline
    simp only [List.mem_cons, List.not_mem_nil, or_false] at hpart
    rcases hpart with rfl | rfl | rfl <;> simp [filePath, hostPath, hm]
  have hkey : ∀ piece ∈ s.key.toList.splitOn '/', isName piece = true := by
    have hk := hs.key
    rw [matchesServicePath, beforeEnd_of_notMem (hparts _ (by simp))] at hk
    exact List.all_eq_true.1 hk
  rw [matchesName, beforeEnd_of_notMem (hparts _ (by simp))] at hname hfile
  have hlength : 1 ≤ (s.key.toList.splitOn '/').length :=
    List.length_pos_iff.2 (List.splitOn_ne_nil '/' _)
  unfold matchesManifestPath
  rw [beforeEnd_of_notMem hline, hsplit]
  simp only [beq_self_eq_true, List.length_append, List.length_singleton, Bool.true_and,
    Bool.and_eq_true, decide_eq_true_eq, List.all_eq_true, List.mem_append, List.mem_singleton]
  refine ⟨by omega, ?_⟩
  rintro piece ((hp | rfl) | rfl)
  · exact hkey piece hp
  · exact hname
  · exact hfile

/-! ### Actions on the files -/

/-- A file below the directory for custom configs. -/
def Below (base file : List String) : Prop := ∃ rest, rest ≠ [] ∧ file = base ++ "config" :: rest

/-- The action renders the file. -/
def Action.Renders (base : List String) (file : List String) (a : Action) : Prop :=
  ∃ path content, a = .render path content ∧ resolve base path = file

/-- The actions before the manifest is written, on files inside the directory. -/
def Action.Quiet (base : List String) : Action → Prop
  | .remove path | .render path _ => Inside base path
  | .writeManifest _ => False
  | _ => True

theorem resolve_manifestName : resolve base manifestName = base ++ [".yggdrasil-custom-configs"] := by
  have hc : components manifestName = [".yggdrasil-custom-configs"] := rfl
  rw [resolve, hc]
  rfl

theorem resolve_globalsName :
    resolve base globalsName = base ++ ["globals.d", "99-yggdrasil-ansible.yml"] := by
  have hc : components globalsName = ["globals.d", "99-yggdrasil-ansible.yml"] := rfl
  rw [resolve, hc]
  simp [descend]

theorem Below.ne {file other : List String} {name : String} {rest : List String}
    (h : Below base file) (ho : other = base ++ name :: rest) (hname : name ≠ "config") :
    ¬file <+: other := by
  obtain ⟨below, -, rfl⟩ := h
  rintro ⟨suffix, hs⟩
  rw [ho, List.append_assoc] at hs
  have hcons := List.append_cancel_left hs
  exact hname (List.cons.inj hcons).1.symm

theorem Below.ne_manifest {file : List String} (h : Below base file) :
    ¬file <+: resolve base manifestName := h.ne resolve_manifestName (by decide)

theorem not_isPrefixOf {path file : List String} :
    (!path.isPrefixOf file) = true ↔ ¬path <+: file := by
  rw [Bool.not_eq_true', ← Bool.not_eq_true, List.isPrefixOf_iff_prefix]

theorem mem_keys_remove {s : State} {path file : List String} :
    file ∈ (s.remove path).files.map Prod.fst ↔ file ∈ s.files.map Prod.fst ∧ ¬path <+: file := by
  simp only [State.remove, List.mem_map, List.mem_filter]
  constructor
  · rintro ⟨f, ⟨hm, hp⟩, rfl⟩
    exact ⟨⟨f, hm, rfl⟩, not_isPrefixOf.1 hp⟩
  · rintro ⟨⟨f, hm, rfl⟩, hp⟩
    exact ⟨f, ⟨hm, not_isPrefixOf.2 hp⟩, rfl⟩

theorem manifest_remove {s : State} {path : List String} (h : ¬path <+: resolve base manifestName) :
    manifest base (s.remove path) = manifest base s :=
  Dict.get?_filter (q := fun k => !path.isPrefixOf k) (not_isPrefixOf.2 h) s.files

theorem manifest_write {s : State} {path : List String} {content : String}
    (h : resolve base manifestName ≠ path) : manifest base (s.write path content) = manifest base s :=
  Dict.get?_set_of_ne h _ _

variable {s : State} {a : Action}

/-- Before it is written, the manifest is left alone. -/
theorem manifest_perform (ha : a.Quiet base) : manifest base (perform base s a) = manifest base s := by
  have hglobals : ¬resolve base globalsName <+: resolve base manifestName := by
    rw [resolve_globalsName, resolve_manifestName]
    rintro ⟨suffix, hs⟩
    rw [List.append_assoc] at hs
    have hcons := List.append_cancel_left hs
    exact absurd (List.cons.inj hcons).1 (by decide)
  cases a with
  | globalsDirectory => rfl
  | removeGlobals => exact manifest_remove hglobals
  | renderGlobals content => exact manifest_write fun he => hglobals (he ▸ List.prefix_rfl)
  | remove path => exact manifest_remove (Below.ne_manifest ha)
  | directory path => rfl
  | render path content =>
    exact manifest_write fun he => Below.ne_manifest ha (he ▸ List.prefix_rfl)
  | writeManifest content => exact ha.elim

theorem mem_rendered_perform {file : List String} :
    file ∈ (perform base s a).rendered ↔ a.Renders base file ∨ file ∈ s.rendered := by
  cases a with
  | render path content =>
    simp [perform, Action.Renders, eq_comm]
  | _ => simp [perform, Action.Renders, State.remove, State.write]

/-- A file of the directory comes only from being rendered. -/
theorem mem_files_perform {file : List String} (hfile : Below base file)
    (h : file ∈ (perform base s a).files.map Prod.fst) :
    a.Renders base file ∨ file ∈ s.files.map Prod.fst := by
  cases a with
  | globalsDirectory => exact .inr h
  | removeGlobals => exact .inr (mem_keys_remove.1 h).1
  | renderGlobals content =>
    rcases Dict.mem_keys_set.1 h with he | h
    · exact absurd (he ▸ List.prefix_rfl) (hfile.ne resolve_globalsName (by decide))
    · exact .inr h
  | remove path => exact .inr (mem_keys_remove.1 h).1
  | directory path => exact .inr h
  | render path content =>
    rcases Dict.mem_keys_set.1 h with he | h
    · exact .inl ⟨path, content, rfl, he.symm⟩
    · exact .inr h
  | writeManifest content =>
    rcases Dict.mem_keys_set.1 h with he | h
    · exact absurd (he ▸ List.prefix_rfl) hfile.ne_manifest
    · exact .inr h

/-! ### Sequences of actions -/

variable {acts : List Action}

theorem manifest_foldl (h : ∀ a ∈ acts, a.Quiet base) :
    manifest base (acts.foldl (perform base) s) = manifest base s := by
  induction acts generalizing s with
  | nil => rfl
  | cons a acts ih =>
    rw [List.foldl_cons, ih fun a' ha' => h a' (List.mem_cons_of_mem _ ha'),
      manifest_perform (h a List.mem_cons_self)]

theorem mem_rendered_foldl {file : List String} :
    file ∈ (acts.foldl (perform base) s).rendered ↔
      (∃ a ∈ acts, a.Renders base file) ∨ file ∈ s.rendered := by
  induction acts generalizing s with
  | nil => simp
  | cons a acts ih =>
    rw [List.foldl_cons, ih, mem_rendered_perform]
    simp only [List.mem_cons, exists_eq_or_imp]
    rw [or_left_comm, or_assoc]

theorem mem_files_foldl {file : List String} (hfile : Below base file)
    (h : file ∈ (acts.foldl (perform base) s).files.map Prod.fst) :
    (∃ a ∈ acts, a.Renders base file) ∨ file ∈ s.files.map Prod.fst := by
  induction acts generalizing s with
  | nil => exact .inr h
  | cons a acts ih =>
    rw [List.foldl_cons] at h
    rcases ih h with ⟨a', ha', hr⟩ | h
    · exact .inl ⟨a', List.mem_cons_of_mem _ ha', hr⟩
    · exact (mem_files_perform hfile h).imp_left fun hr => ⟨a, List.mem_cons_self, hr⟩

/-- What is removed is gone, if it is not rendered. -/
theorem removed_foldl {paths : List String} {path : String} (hpath : path ∈ paths) :
    resolve base path ∉ ((paths.map Action.remove).foldl (perform base) s).files.map Prod.fst := by
  induction paths generalizing s with
  | nil => simp at hpath
  | cons first paths ih =>
    rw [List.map_cons, List.foldl_cons]
    by_cases hm : path ∈ paths
    · exact ih hm
    · have he : path = first := by simpa [hm] using hpath
      -- the later removals bring nothing back
      have hgone : resolve base path ∉ (perform base s (.remove first)).files.map Prod.fst := by
        intro h
        exact (mem_keys_remove.1 h).2 (he ▸ List.prefix_rfl)
      clear ih hpath hm he
      generalize perform base s (.remove first) = s' at hgone
      induction paths generalizing s' with
      | nil => exact hgone
      | cons next paths ih =>
        apply ih
        exact fun h => hgone (mem_keys_remove.1 h).1

/-- Rendering removes nothing. -/
theorem rendered_foldl {file : List String}
    (h : ∀ a ∈ acts, (∃ path, a = .directory path) ∨ ∃ path content, a = .render path content)
    (hfile : (∃ a ∈ acts, a.Renders base file) ∨ file ∈ s.files.map Prod.fst) :
    file ∈ (acts.foldl (perform base) s).files.map Prod.fst := by
  induction acts generalizing s with
  | nil => simpa using hfile
  | cons a acts ih =>
    rw [List.foldl_cons]
    apply ih fun a' ha' => h a' (List.mem_cons_of_mem _ ha')
    simp only [List.mem_cons, exists_eq_or_imp] at hfile
    have hkeep : file ∈ s.files.map Prod.fst → file ∈ (perform base s a).files.map Prod.fst := by
      intro hm
      rcases h a List.mem_cons_self with ⟨path, rfl⟩ | ⟨path, content, rfl⟩
      · exact hm
      · exact Dict.mem_keys_set.2 (.inr hm)
    rcases hfile with (⟨path, content, rfl, he⟩ | hr) | hm
    · exact .inr (Dict.mem_keys_set.2 (.inl he.symm))
    · exact .inl hr
    · exact .inr (hkeep hm)

/-! ### Runs -/

/-- What a run finds: a readable manifest that lists every file that was rendered and is there. -/
structure Kept (base : List String) (s : State) : Prop where
  below : ∀ file ∈ s.rendered, Below base file
  readable : ∀ path ∈ previousPaths (manifest base s),
    matchesManifestPath path = true ∧ Inside base path
  listed : ∀ file ∈ s.rendered, file ∈ s.files.map Prod.fst →
    ∃ path ∈ previousPaths (manifest base s), resolve base path = file

variable {r : Run} {previous : List String}

theorem renders_customActions {file : List String} :
    (∃ a ∈ services.flatMap serviceActions, a.Renders base file) ↔
      ∃ path ∈ customConfigPaths services, resolve base path = file := by
  simp only [List.mem_flatMap, mem_serviceActions, mem_customConfigPaths, Action.Renders]
  constructor
  · rintro ⟨a, ⟨s, hs, ⟨h, hh, rfl⟩ | ⟨h, hh, f, hf, rfl⟩⟩, path, content, he, hfile⟩
    · cases he
    · cases he
      exact ⟨_, ⟨s, hs, h, hh, f, hf, rfl⟩, hfile⟩
  · rintro ⟨path, ⟨s, hs, h, hh, f, hf, rfl⟩, hfile⟩
    exact ⟨_, ⟨s, hs, .inr ⟨h, hh, f, hf, rfl⟩⟩, _, _, rfl, hfile⟩

theorem quiet_globalActions : ∀ a ∈ globalActions toNiceYaml globals, a.Quiet base := by
  intro a ha
  unfold globalActions at ha
  split_ifs at ha
  all_goals
    simp only [List.mem_cons, List.not_mem_nil, or_false] at ha
    rcases ha with rfl | rfl <;> trivial

theorem not_renders_globalActions {file : List String} :
    ¬∃ a ∈ globalActions toNiceYaml globals, a.Renders base file := by
  rintro ⟨a, ha, path, content, rfl, -⟩
  unfold globalActions at ha
  split_ifs at ha <;> simp at ha

theorem serviceActions_cases {s : Service} (ha : a ∈ serviceActions s) :
    (∃ path, a = .directory path) ∨ ∃ path content, a = .render path content := by
  rcases mem_serviceActions.1 ha with ⟨h, -, rfl⟩ | ⟨h, -, f, -, rfl⟩
  · exact .inl ⟨_, rfl⟩
  · exact .inr ⟨_, _, rfl⟩

/-- Everything before the manifest is quiet. -/
theorem quiet_actions (toNiceYaml : Mapping → String) (globals : Mapping)
    (hprevious : ∀ path ∈ previous, Inside base path)
    (hcurrent : ∀ path ∈ customConfigPaths services, Inside base path) :
    ∀ a ∈ globalActions toNiceYaml globals ++
      ((stalePaths previous (customConfigPaths services)).map .remove ++
        services.flatMap serviceActions), a.Quiet base := by
  intro a ha
  simp only [List.mem_append, List.mem_map, List.mem_flatMap] at ha
  rcases ha with ha | ⟨path, hpath, rfl⟩ | ⟨s, hs, ha⟩
  · exact quiet_globalActions a ha
  · exact hprevious path (mem_stalePaths.1 hpath).1
  · rcases mem_serviceActions.1 ha with ⟨h, -, rfl⟩ | ⟨h, hh, f, hf, rfl⟩
    · trivial
    · exact hcurrent _ (mem_customConfigPaths.2 ⟨s, hs, h, hh, f, hf, rfl⟩)

/-- All the actions: the rendered files that are there are those of the inventory. -/
theorem converged_foldl (hkept : Kept base s)
    (hprevious : previous = previousPaths (manifest base s)) :
    Converged base ((globalActions toNiceYaml globals ++ customActions services previous).foldl
      (perform base) s) services := by
  intro file
  unfold customActions
  rw [List.foldl_append, List.foldl_append, List.foldl_append, List.foldl_cons, List.foldl_nil]
  generalize hs₁ : (globalActions toNiceYaml globals).foldl (perform base) s = s₁
  generalize hs₂ : ((stalePaths previous (customConfigPaths services)).map Action.remove).foldl
    (perform base) s₁ = s₂
  generalize hs₃ : (services.flatMap serviceActions).foldl (perform base) s₂ = s₃
  have hservice : ∀ a ∈ services.flatMap serviceActions,
      (∃ path, a = .directory path) ∨ ∃ path content, a = .render path content := by
    intro a ha
    obtain ⟨service, -, ha⟩ := List.mem_flatMap.1 ha
    exact serviceActions_cases ha
  constructor
  · rintro ⟨hrendered, hthere⟩
    by_cases hr : ∃ a ∈ services.flatMap serviceActions, a.Renders base file
    · exact renders_customActions.1 hr
    -- it was rendered before, and it has not been removed
    have hold : file ∈ s.rendered := by
      rw [mem_rendered_perform, ← hs₃, mem_rendered_foldl, ← hs₂, mem_rendered_foldl, ← hs₁,
        mem_rendered_foldl] at hrendered
      rcases hrendered with ⟨_, _, he, -⟩ | h | ⟨a, ha, _, _, rfl, -⟩ | h | h
      · cases he
      · exact absurd h hr
      · simp at ha
      · exact absurd h not_renders_globalActions
      · exact h
    have hbelow := hkept.below file hold
    have hthere₂ : file ∈ s₂.files.map Prod.fst := by
      have h₃ := (mem_files_perform hbelow hthere).resolve_left (by simp [Action.Renders])
      rw [← hs₃] at h₃
      exact (mem_files_foldl hbelow h₃).resolve_left hr
    have hthere₀ : file ∈ s.files.map Prod.fst := by
      rw [← hs₂] at hthere₂
      have h₁ := (mem_files_foldl hbelow hthere₂).resolve_left (by simp [Action.Renders])
      rw [← hs₁] at h₁
      exact (mem_files_foldl hbelow h₁).resolve_left not_renders_globalActions
    obtain ⟨path, hpath, rfl⟩ := hkept.listed file hold hthere₀
    by_cases hcur : path ∈ customConfigPaths services
    · exact ⟨path, hcur, rfl⟩
    · have hstale := mem_stalePaths.2 ⟨hprevious ▸ hpath, hcur⟩
      rw [← hs₂] at hthere₂
      exact absurd hthere₂ (removed_foldl hstale)
  · intro hpath
    have hr := renders_customActions.2 hpath
    constructor
    · rw [mem_rendered_perform, ← hs₃, mem_rendered_foldl]
      exact .inr (.inl hr)
    · apply Dict.mem_keys_set.2
      rw [← hs₃]
      exact .inr (rendered_foldl hservice (.inl hr))

theorem manifest_customActions :
    manifest base ((globalActions toNiceYaml globals ++ customActions services previous).foldl
      (perform base) s) = some (manifestContent (customConfigPaths services)) := by
  unfold customActions
  rw [List.foldl_append, List.foldl_append, List.foldl_cons, List.foldl_nil]
  exact Dict.get?_set_self _ _ _

/-- A complete run keeps what the next run needs. -/
theorem kept_complete {nodes : List String} (hkept : Kept base s)
    (hvalid : ∀ service ∈ services, service.Valid nodes)
    (hcurrent : ∀ path ∈ customConfigPaths services, Inside base path ∧ '\n' ∉ path.toList)
    (hprevious : previous = previousPaths (manifest base s)) :
    Kept base ((globalActions toNiceYaml globals ++ customActions services previous).foldl
      (perform base) s) := by
  have hmatch : ∀ path ∈ customConfigPaths services,
      '\n' ∉ path.toList ∧ matchesManifestPath path = true := by
    intro path hpath
    obtain ⟨service, hs, h, hh, f, hf, rfl⟩ := mem_customConfigPaths.1 hpath
    have hline := (hcurrent _ hpath).2
    exact ⟨hline, matches_filePath (hvalid service hs) hh hf hline⟩
  have hquiet := quiet_actions toNiceYaml globals
    (fun path hpath => (hkept.readable path (hprevious ▸ hpath)).2)
    fun path hpath => (hcurrent path hpath).1
  have hconverged : Converged base ((globalActions toNiceYaml globals ++
      customActions services previous).foldl (perform base) s) services :=
    converged_foldl hkept hprevious
  refine ⟨fun file hfile => ?_, fun path hpath => ?_, fun file hfile hthere => ?_⟩
  · rcases mem_rendered_foldl.1 hfile with ⟨a, ha, path, content, rfl, rfl⟩ | hfile
    · apply hquiet (.render path content)
      rw [customActions, ← List.append_assoc, List.mem_append] at ha
      exact ha.resolve_right (by simp)
    · exact hkept.below file hfile
  · rw [manifest_customActions, previousPaths_manifestContent hmatch, List.mem_insertionSort] at hpath
    exact ⟨(hmatch path hpath).2, (hcurrent path hpath).1⟩
  · rw [manifest_customActions, previousPaths_manifestContent hmatch]
    obtain ⟨path, hpath, he⟩ := (hconverged file).1 ⟨hfile, hthere⟩
    exact ⟨path, (List.mem_insertionSort _).2 hpath, he⟩

/-- A run that stops early keeps it if it renders only listed files. -/
theorem kept_stopped {stop : ℕ} (hkept : Kept base s)
    (hcurrent : ∀ path ∈ customConfigPaths services, Inside base path)
    (hprevious : previous = previousPaths (manifest base s))
    (hstop : stop < (globalActions toNiceYaml globals ++ customActions services previous).length)
    (hlisted : ∀ path content, .render path content ∈
      (globalActions toNiceYaml globals ++ customActions services previous).take stop →
        path ∈ previous) :
    Kept base (((globalActions toNiceYaml globals ++ customActions services previous).take
      stop).foldl (perform base) s) := by
  have hquiet : ∀ a ∈ (globalActions toNiceYaml globals ++ customActions services previous).take stop,
      a.Quiet base := by
    intro a ha
    apply quiet_actions toNiceYaml globals
      (fun path hpath => (hkept.readable path (hprevious ▸ hpath)).2) hcurrent a
    -- the manifest is the last action
    rw [customActions, ← List.append_assoc] at ha hstop
    rw [List.length_append, List.length_singleton] at hstop
    rw [List.take_append_of_le_length (by omega)] at ha
    exact List.mem_of_mem_take ha
  generalize (globalActions toNiceYaml globals ++ customActions services previous).take stop = acts
    at hquiet hlisted
  have hrenders : ∀ file, (∃ a ∈ acts, a.Renders base file) →
      ∃ path ∈ previousPaths (manifest base s), resolve base path = file := by
    rintro file ⟨a, ha, path, content, rfl, hfile⟩
    exact ⟨path, hprevious ▸ hlisted path content ha, hfile⟩
  refine ⟨fun file hfile => ?_, ?_, fun file hfile hthere => ?_⟩
  · rcases mem_rendered_foldl.1 hfile with hr | hfile
    · obtain ⟨path, hpath, rfl⟩ := hrenders file hr
      exact (hkept.readable path hpath).2
    · exact hkept.below file hfile
  · rw [manifest_foldl hquiet]
    exact hkept.readable
  · rw [manifest_foldl hquiet]
    rcases mem_rendered_foldl.1 hfile with hr | hfile
    · exact hrenders file hr
    · rcases mem_files_foldl (hkept.below file hfile) hthere with hr | hthere
      · exact hrenders file hr
      · exact hkept.listed file hfile hthere

theorem actions_of_kept (hkept : Kept base s) :
    actions toNiceYaml globals services (previousPaths (manifest base s)) =
      globalActions toNiceYaml globals ++
        customActions services (previousPaths (manifest base s)) := by
  rw [actions, if_pos]
  exact List.all_eq_true.2 fun path hpath => (hkept.readable path hpath).1

theorem kept_run (hkept : Kept base s) (ht : Tracks base toNiceYaml s r) :
    Kept base (run base toNiceYaml s r) := by
  unfold run runActions
  cases hv : validate r.inventory with
  | none => simpa using hkept
  | some v =>
    obtain ⟨globals, services⟩ := v
    have hcurrent := ht.paths globals services hv
    have hlisted := ht.listed _ (by rw [runActions, hv]; rfl)
    dsimp only at hlisted
    simp only [Option.map_some, Option.getD_some]
    rw [actions_of_kept hkept] at hlisted ⊢
    by_cases hstop : (globalActions toNiceYaml globals ++
        customActions services (previousPaths (manifest base s))).length ≤ r.stop
    · rw [List.take_of_length_le hstop]
      exact kept_complete hkept (validate_valid hv) hcurrent rfl
    · exact kept_stopped hkept (fun path hpath => (hcurrent path hpath).1) rfl (by omega)
        (hlisted.resolve_left hstop)

theorem kept_runs {runs : List Run} (hkept : Kept base s) (ht : AllTrack base toNiceYaml s runs) :
    Kept base (runs.foldl (run base toNiceYaml) s) := by
  induction runs generalizing s with
  | nil => exact hkept
  | cons r runs ih => exact ih (kept_run hkept ht.1) ht.2

theorem kept_start : Kept base ⟨[], []⟩ where
  below := by simp
  readable := by simp [manifest, previousPaths]
  listed := by simp

/-- After any sequence of runs that keep to the condition the manifest is readable, and once a
further run has performed all its actions the rendered files that are there are those of its
inventory. -/
theorem runs_converge (base : List String) (toNiceYaml : Mapping → String) (runs : List Run)
    (ht : AllTrack base toNiceYaml ⟨[], []⟩ runs) :
    (previousPaths (manifest base (runs.foldl (run base toNiceYaml) ⟨[], []⟩))).all
        matchesManifestPath = true ∧
      ∀ r services, Completes base toNiceYaml (runs.foldl (run base toNiceYaml) ⟨[], []⟩) r services →
        Converged base (run base toNiceYaml (runs.foldl (run base toNiceYaml) ⟨[], []⟩) r)
          services := by
  have hkept : Kept base (runs.foldl (run base toNiceYaml) ⟨[], []⟩) := kept_runs kept_start ht
  generalize runs.foldl (run base toNiceYaml) ⟨[], []⟩ = s at hkept
  refine ⟨List.all_eq_true.2 fun path hpath => (hkept.readable path hpath).1, ?_⟩
  intro r services hc
  obtain ⟨globals, hv⟩ := hc.valid
  have hacts : runActions base toNiceYaml s r =
      some (actions toNiceYaml globals services (previousPaths (manifest base s))) := by
    rw [runActions, hv]
    rfl
  unfold run
  rw [hacts, Option.getD_some, List.take_of_length_le (hc.finished _ hacts), actions_of_kept hkept]
  exact converged_foldl hkept rfl

/-- An inventory without custom configs. -/
def noFiles : Inventory := ⟨[], .dict [], .dict []⟩

theorem nova_converges :
    Converged ["kolla"] ([⟨oneFile "nova" "hyper01" "nova.conf" "", 5⟩, ⟨noFiles, 4⟩].foldl
      (run ["kolla"] fun _ => "") ⟨[], []⟩) [] := by
  apply (runs_converge ["kolla"] (fun _ => "") [⟨oneFile "nova" "hyper01" "nova.conf" "", 5⟩]
    ⟨⟨?_, ?_⟩, trivial⟩).2 ⟨noFiles, 4⟩ []
  · exact ⟨⟨[], rfl⟩, by decide, fun acts h => by cases h; decide⟩
  · rintro globals services h path hpath
    cases h
    have he : path = "config/nova/hyper01/nova.conf" := List.mem_singleton.1 hpath
    rw [he]
    exact ⟨⟨["nova", "hyper01", "nova.conf"], by decide, by decide⟩, by decide⟩
  · rintro acts h
    cases h
    left
    decide

theorem stopped_not_converged :
    ¬∀ (base : List String) (toNiceYaml : Mapping → String) (runs : List Run) (r : Run)
      (services : List Service),
      Completes base toNiceYaml (runs.foldl (run base toNiceYaml) ⟨[], []⟩) r services →
      Converged base (run base toNiceYaml (runs.foldl (run base toNiceYaml) ⟨[], []⟩) r)
        services := by
  intro h
  -- the first run stops between its file and its manifest
  have hconverged := h ["kolla"] (fun _ => "") [⟨oneFile "nova" "hyper01" "nova.conf" "", 4⟩]
    ⟨noFiles, 4⟩ [] ⟨⟨[], rfl⟩, by decide, fun acts h => by cases h; decide⟩
  obtain ⟨path, hpath, -⟩ := (hconverged ["kolla", "config", "nova", "hyper01", "nova.conf"]).1
    ⟨by decide, by decide⟩
  simp [customConfigPaths] at hpath

end Yggdrasil.Kolla
