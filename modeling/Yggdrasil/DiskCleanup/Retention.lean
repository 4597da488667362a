import Mathlib.Data.List.Nodup
import Yggdrasil.DiskCleanup.Calm
import Yggdrasil.DiskCleanup.Cutoffs

/-! The retention of the log indices in a whole run. One name whose date is impossible ends the
playbook before any index is deleted or closed, where the helper for a single host goes on with
the next name. -/

namespace Yggdrasil.DiskCleanup

open Effect Program Python

/-! ### The whole file -/

section File

variable {sel : Playbook.TagSelection} {env : Env} {world : World} {host : String} {s : Cluster}

theorem epochItem_spec (name : String) : (s.epochItem name).label = name ∧
    (s.deletes (s.epochItem name) = (s.date (dateArgument name)).any (· < s.hardCutoff)) ∧
    ((s.epochItem name).rc = some 0 ∧ ¬toInt (.str (s.epochItem name).stdout) < s.hardCutoff ∧
        toInt (.str (s.epochItem name).stdout) < s.softCutoff ↔
      (s.date (dateArgument name)).any fun t => s.hardCutoff ≤ t ∧ t < s.softCutoff) := by
  unfold Cluster.deletes Cluster.epochItem
  rcases s.date (dateArgument name) with _ | t
  · simp
  · dsimp only
    rw [toInt_toString]
    simp

theorem deletes_eq_expired :
    ((s.dated.map s.epochItem).filter s.deletes).map Item.label = s.expired := by
  rw [List.filter_map, List.map_map, Cluster.dated, List.filter_filter, Cluster.expired]
  have hlabel : Item.label ∘ s.epochItem = id := funext fun name => (epochItem_spec name).1
  rw [hlabel, List.map_id]
  refine List.filter_congr fun name _ => ?_
  rw [Function.comp_apply, (epochItem_spec name).2.1, Cluster.epoch]
  split_ifs with hdated <;> simp [hdated]

/-- No two indices have a name, so an index is open if one of its name is. -/
theorem mem_open_iff {i : Index} (hi : i ∈ s.indices) :
    i.name ∈ (s.indices.filter Index.isOpen).map Index.name ↔ i.isOpen = true := by
  constructor
  · intro h
    obtain ⟨j, hj, hname⟩ := List.mem_map.1 h
    obtain ⟨hj, hopen⟩ := List.mem_filter.1 hj
    rwa [← List.inj_on_of_nodup_map s.nodup hj hi hname]
  · exact fun h => List.mem_map_of_mem (List.mem_filter.2 ⟨hi, h⟩)

theorem closes_eq_stale :
    ((s.dated.map s.epochItem).filter s.closes).map Item.label = s.stale := by
  rw [List.filter_map, List.map_map, Cluster.dated, List.filter_filter, Cluster.stale]
  have hlabel : Item.label ∘ s.epochItem = id := funext fun name => (epochItem_spec name).1
  rw [hlabel, List.map_id, List.filter_map, List.filter_map, List.filter_filter]
  refine congrArg (List.map Index.name) (List.filter_congr fun i hi => ?_)
  have hspec := (epochItem_spec (s := s) i.name).2.2
  have hopen := mem_open_iff hi
  rw [Bool.eq_iff_iff]
  simp only [Function.comp_apply, Bool.and_eq_true, Cluster.closes, decide_eq_true_eq,
    List.mem_filter, (epochItem_spec i.name).1, Cluster.epoch, hopen]
  by_cases hdated : isDatedIndex i.name = true
  · simp only [hdated, if_true, and_true, ← hspec]
    tauto
  · simp [hdated]

/-- What the file comes to: all requests that are due, or none. -/
def Outcome (s : Cluster) (log : List Event) : Prop :=
  (s.Possible ∧ deleted log = s.expired ∧ closed log = s.stale) ∨
    (¬s.Possible ∧ deleted log = [] ∧ closed log = [])

theorem triple_clusterTasks (happlies : Applies sel env) (hserves : Serves world host s) :
    Triple False (fun log => (vars env log host).cutoffs = [] ∧ (vars env log host).epochs = [] ∧
        (vars env log host).deleted = [] ∧ (vars env log host).closed = [])
      (Playbook.runFile sel [host] (clusterTasks.map (Entry.entry env world ["cluster"])))
      (fun _ => Outcome s) fun _ => Outcome s := by
  have hfile : clusterTasks.map (Entry.entry env world ["cluster"]) =
      ([checkHealth, reportUnavailable, clearBlocks, listIndices, selectIndices, listOpenIndices,
        selectOpenIndices, calculateCutoffs, saveCutoffs, calculateEpochs, deleteIndices,
        closeIndices, flushIndices, reportScope].map fun a => .task (a.task env world)) := rfl
  rw [hfile]
  simp only [List.map_cons, List.map_nil, Playbook.runFile_cons]
  have hnone {m : Program Event Unit Unit} {I : List Event → Prop} {J : Unit → List Event → Prop}
      (h : Triple False I m J fun _ _ => False) : Triple False I m J fun _ => Outcome s :=
    h.consequence (fun _ => id) (fun _ _ => id) fun _ _ h => h.elim
  refine triple_bind (hnone (triple_checkHealth happlies hserves)) fun _ => ?_
  refine triple_bind (M := fun _ log => (vars env log host).Begun) ?_ fun _ => ?_
  · refine hnone (triple_task happlies.opensearch ((triple_perform_skip (I := Vars.Begun) rfl
      (c := .statusNotOk .opensearchHealth) (by decide) fun log h => ?_).consequence
        (fun _ => id) (fun ok log h => ⟨fun _ => h.2, fun hfalse => ?_⟩) fun _ _ h => h))
    · have hhealthy : ((vars env log host).health.any fun r => r.status = 200) = true := h.healthy
      exact congrArg (! ·) hhealthy
    · rw [h.1] at hfalse
      cases hfalse
  refine triple_bind (M := fun _ log => (vars env log host).Begun) ?_ fun _ => ?_
  · exact hnone (triple_switched happlies ⟨rfl, rfl, by decide⟩ (fun _ h => h.healthy)
      (fun log => succeeds_of_ok (hserves.requests clearBlocks (by simp) log none))
      fun log h => h.after rfl (show clearBlocks.register ≠ _ by decide))
  refine triple_bind (hnone (triple_listIndices happlies hserves)) fun _ => ?_
  refine triple_bind (hnone (triple_selectIndices happlies)) fun _ => ?_
  refine triple_bind (hnone (triple_listOpenIndices happlies hserves)) fun _ => ?_
  refine triple_bind (hnone (triple_selectOpenIndices happlies)) fun _ => ?_
  refine triple_bind (hnone (triple_calculateCutoffs happlies hserves)) fun _ => ?_
  refine triple_bind (hnone (triple_saveCutoffs happlies)) fun _ => ?_
  refine triple_bind ((triple_calculateEpochs happlies hserves).consequence (fun _ => id)
    (fun _ _ => id) fun _ _ => .inr) fun _ => triple_intro fun log hlog => ?_
  obtain ⟨hpossible, hdated, hdel, hclo⟩ := hlog
  refine triple_bind (hnone ((triple_deleteIndices happlies hserves).consequence
    (fun _ he => he ▸ ⟨hdated, hdel, hclo⟩) (fun _ _ => id) fun _ _ => id)) fun _ => ?_
  refine triple_bind (hnone (triple_closeIndices happlies hserves)) fun _ => ?_
  have hlast (a : Action) (ha : a = flushIndices ∨ a = reportScope) : Triple False
      (fun log => (vars env log host).Healthy ∧ (vars env log host).deleted =
        ((s.dated.map s.epochItem).filter s.deletes).map Item.label ∧ (vars env log host).closed =
          ((s.dated.map s.epochItem).filter s.closes).map Item.label)
      (Playbook.runTask sel [host] (a.task env world))
      (fun _ log => (vars env log host).Healthy ∧ (vars env log host).deleted =
        ((s.dated.map s.epochItem).filter s.deletes).map Item.label ∧ (vars env log host).closed =
          ((s.dated.map s.epochItem).filter s.closes).map Item.label) fun _ _ => False := by
    let I (v : Vars) : Prop := v.Healthy ∧ v.deleted =
      ((s.dated.map s.epochItem).filter s.deletes).map Item.label ∧ v.closed =
        ((s.dated.map s.epochItem).filter s.closes).map Item.label
    refine triple_switched (I := I) (J := I) happlies ?_ (fun _ h => h.1) (fun log => ?_)
      fun log h => ?_
    · rcases ha with rfl | rfl <;> exact ⟨rfl, rfl, by decide⟩
    · rcases ha with rfl | rfl
      · exact succeeds_of_ok (hserves.requests flushIndices (by simp) log none)
      · rfl
    · obtain ⟨-, -, h₃, h₄⟩ := Vars.after_of_item (v := vars env log host)
        (e := a.event world ⟨env, log, host, none⟩) rfl
      refine ⟨h.1.after ?_, h₃.trans h.2.1, h₄.trans h.2.2⟩
      rcases ha with rfl | rfl
      · exact show flushIndices.register ≠ _ by decide
      · exact show reportScope.register ≠ _ by decide
  refine triple_bind (hnone (hlast flushIndices (.inl rfl))) fun _ => ?_
  refine triple_bind (hnone (hlast reportScope (.inr rfl))) fun _ =>
    triple_pure fun log h => .inl ?_
  exact ⟨hpossible, h.2.1.trans deletes_eq_expired, h.2.2.trans closes_eq_stale⟩

end File

/-! ### The run -/

section Run

variable {sel : Playbook.TagSelection} {env : Env} {world : World}

/-- The plays before the one for the cluster. -/
def earlierPlays : List Play := [credentialPlay, validationPlay, nodePlay]

theorem early_events : ∀ p ∈ earlierPlays, ∀ part ∈ p.parts, ∀ a ∈ part.actions,
    a.name ≠ deleteIndices.name ∧ a.name ≠ closeIndices.name ∧
      a.register ≠ some .opensearchCutoffs ∧ a.register ≠ some .opensearchIndexEpochs := by
  decide +kernel

theorem fresh_of_early (env : Env) {log : List Event} (host : String)
    (h : ∀ e ∈ log, e.task ≠ deleteIndices.name ∧ e.task ≠ closeIndices.name ∧
      e.register ≠ some .opensearchCutoffs ∧ e.register ≠ some .opensearchIndexEpochs) :
    (vars env log host).cutoffs = [] ∧ (vars env log host).epochs = [] ∧
      (vars env log host).deleted = [] ∧ (vars env log host).closed = [] := by
  have hruns (r : Register) (hr : ∀ e ∈ log, e.register ≠ some r) :
      Context.results ⟨env, log, host, none⟩ r = [] := by
    have hnil : Context.runs ⟨env, log, host, none⟩ r = [] :=
      List.filter_eq_nil_iff.2 fun e he => by simp [hr e he]
    rw [Context.results, hnil]
    rfl
  have hrequested (a : Action) (ha : ∀ e ∈ log, e.task ≠ a.name) : requested a log = [] :=
    List.filterMap_eq_nil_iff.2 fun e he => if_neg (ha e he)
  exact ⟨hruns _ fun e he => (h e he).2.2.1, hruns _ fun e he => (h e he).2.2.2,
    hrequested _ fun e he => (h e he).1, hrequested _ fun e he => (h e he).2.1⟩

/-- A run that comes to the play for the cluster treats the indices as one outcome says. -/
theorem outcome_run {s : Cluster} {host : String} {hosts : List String}
    (hnodes : env.deploymentNodes = host :: hosts) (happlies : Applies sel env)
    (hserves : Serves world host s)
    (hreach : ∃ log, (Playbook.runPlays sel (earlierPlays.map (Play.play env world))).run [] =
      (.value (), log)) : Outcome s ((run env world sel).run []).2 := by
  obtain ⟨log, hlog⟩ := hreach
  have hearly : Emits (fun e => e.task ≠ deleteIndices.name ∧ e.task ≠ closeIndices.name ∧
      e.register ≠ some .opensearchCutoffs ∧ e.register ≠ some .opensearchIndexEpochs)
      (Playbook.runPlays sel (earlierPlays.map (Play.play env world))) := by
    refine Playbook.emits_runPlays fun q hq t ht host _ => ?_
    obtain ⟨p, hp, rfl⟩ := List.mem_map.1 hq
    obtain ⟨a, ⟨part, hpart, ha, -⟩, rfl⟩ := exists_of_selected ht
    exact emits_perform fun _ _ _ => early_events p hp part hpart a ha
  have hfresh := fresh_of_early env host fun e he => hearly [] e (by rw [hlog]; exact he)
  have hsplit : run env world sel =
      Playbook.runPlays sel (earlierPlays.map (Play.play env world)) >>= fun _ =>
        Playbook.runPlays sel [clusterPlay.play env world] :=
    Playbook.runPlays_append sel (earlierPlays.map (Play.play env world)) _
  have hplay : Playbook.runPlays sel [clusterPlay.play env world] =
      Playbook.runFile sel [host] (clusterTasks.map (Entry.entry env world ["cluster"])) := by
    have hhosts : (clusterPlay.play env world).hosts = host :: hosts := hnodes
    rw [Playbook.runPlays_singleton, Playbook.runPlay_eq sel rfl, hhosts]
    exact (Playbook.runParts_singleton sel _ _).trans
      (Playbook.runPart_include_once sel happlies.cluster fun _ => rfl)
  rw [hsplit, run_bind_value hlog, List.nil_append, hplay]
  exact (triple_clusterTasks happlies hserves).ends hfresh

end Run

/-! ### The helper -/

section Helper

variable {s : Cluster}

theorem readLines_append {line l rest : List Char} (h : '\n' ∉ l) :
    readLines line (l ++ '\n' :: rest) = (line ++ l) :: readLines [] rest := by
  induction l generalizing line with
  | nil => simp [readLines]
  | cons c l ih =>
    have hc : c ≠ '\n' := fun he => h (he ▸ List.mem_cons_self)
    rw [List.cons_append, readLines, if_neg hc, ih fun hm => h (List.mem_cons_of_mem c hm)]
    simp

theorem Index.newline_notMem (i : Index) : '\n' ∉ i.name.toList :=
  fun hm => absurd (i.plain _ hm) (by decide)

theorem readLines_listing (indices : List Index) :
    readLines [] (Cluster.listing (indices.map Index.name)).toList =
      indices.map fun i => i.name.toList := by
  rw [Cluster.listing, String.toList_ofList]
  induction indices with
  | nil => rfl
  | cons i indices ih =>
    rw [List.map_cons, List.flatMap_cons, List.append_assoc, List.singleton_append,
      readLines_append i.newline_notMem, ih]
    rfl

/-- The two patterns agree on a name. -/
theorem rematch_eq (i : Index) : rematch i.name.toList =
    if isDatedIndex i.name then some (i.name.toList.drop 5) else none := by
  have hline := i.newline_notMem
  unfold isDatedIndex
  generalize i.name.toList = cs at hline
  split
  · rename_i rest
    cases rest with
    | nil =>
      simp only [rematch, List.drop_succ_cons, List.drop_zero, List.isEmpty_nil, Bool.true_or,
        Bool.and_true]
    | cons c rest =>
      have hc : c ≠ '\n' := fun he => hline (by simp [he])
      simp [rematch, hc]
  · rename_i hshape
    unfold rematch
    split
    · exact absurd rfl (hshape _ _ _ _ _ _ _ _ [])
    · rfl

theorem dateArgument_of_dated {name : String} (h : isDatedIndex name = true) :
    dateArgument name =
      String.ofList ((name.toList.drop 5).map fun c => if c = '.' then '-' else c) ++
        " 00:00:00" := by
  have hprefix : "flog-".toList.isPrefixOf name.toList = true := by
    unfold isDatedIndex at h
    split at h
    · rename_i heq
      rw [heq]
      rfl
    · cases h
  rw [dateArgument, if_pos hprefix]

theorem helperDeleted_eq_expired : helperDeleted s = s.expired := by
  rw [helperDeleted, readLines_listing, Cluster.expired]
  induction s.indices with
  | nil => rfl
  | cons i indices ih =>
    rw [List.map_cons, List.map_cons, helperLoop, rematch_eq]
    by_cases hdated : isDatedIndex i.name = true
    · have hepoch : s.epoch i.name = s.date (dateArgument i.name) := if_pos hdated
      simp only [hdated, if_true, List.filter_cons, hepoch, ← dateArgument_of_dated hdated]
      rcases s.date (dateArgument i.name) with _ | t
      · simpa using ih
      · by_cases hlt : t < s.hardCutoff
        · simpa [hlt, String.ofList_toList] using ih
        · by_cases hsoft : t < s.softCutoff <;> simpa [hlt, hsoft] using ih
    · have hepoch : s.epoch i.name = none := if_neg hdated
      simpa [hdated, List.filter_cons, hepoch] using ih

end Helper

/-! ### What holds of a run -/

/-- The run deletes the indices that have expired, and closes those that are stale; what it
deletes is what the helper deletes. -/
def Treats (sel : Playbook.TagSelection) (env : Env) (world : World) (s : Cluster) : Prop :=
  deleted ((run env world sel).run []).2 = s.expired ∧
    closed ((run env world sel).run []).2 = s.stale ∧
      deleted ((run env world sel).run []).2 = helperDeleted s

/-- A run with both switches on that comes to its last play treats the indices as it should
exactly if no name has an impossible date, or no index is due. -/
theorem treats_iff {sel : Playbook.TagSelection} {env : Env} {world : World} {s : Cluster}
    {host : String} {hosts : List String} (hnodes : env.deploymentNodes = host :: hosts)
    (happlies : Applies sel env) (hserves : Serves world host s)
    (hreach : ∃ log, (Playbook.runPlays sel (earlierPlays.map (Play.play env world))).run [] =
      (.value (), log)) :
    Treats sel env world s ↔ s.Possible ∨ (s.expired = [] ∧ s.stale = []) := by
  rw [Treats, helperDeleted_eq_expired]
  rcases outcome_run hnodes happlies hserves hreach with
    ⟨hpossible, hdel, hclo⟩ | ⟨hnot, hdel, hclo⟩
  · rw [hdel, hclo]
    exact iff_of_true ⟨rfl, rfl, rfl⟩ (.inl hpossible)
  · rw [hdel, hclo]
    constructor
    · exact fun h => .inr ⟨h.1.symm, h.2.1.symm⟩
    · rintro (h | h)
      · exact absurd h hnot
      · exact ⟨h.1.symm, h.2.symm, h.1.symm⟩

/-! ### Two clusters -/

/-- The number of a string of digits. -/
def number (cs : List Char) : ℕ := Nat.ofDigitChars 10 cs 0

def isLeap (year : ℕ) : Bool := year % 4 = 0 ∧ (year % 100 ≠ 0 ∨ year % 400 = 0)

def monthLengths (year : ℕ) : List ℕ :=
  [31, if isLeap year then 29 else 28, 31, 30, 31, 30, 31, 31, 30, 31, 30, 31]

/-- The days from the first day of the year 0 to the first day of a year. -/
def yearStart (year : ℕ) : ℕ := 365 * year + (year + 3) / 4 - (year + 99) / 100 + (year + 399) / 400

/-- `date -u -d 'YYYY-MM-DD 00:00:00' +%s`. -/
def gregorian (text : String) : Option ℤ :=
  match text.toList with
  | [a, b, c, d, '-', e, f, '-', g, h, ' ', '0', '0', ':', '0', '0', ':', '0', '0'] =>
    let year := number [a, b, c, d]
    let month := number [e, f]
    let day := number [g, h]
    let before := (monthLengths year).take (month - 1)
    if 1 ≤ month ∧ month ≤ 12 ∧ 1 ≤ day ∧ day ≤ (monthLengths year).getD (month - 1) 0 then
      some (86400 * ((yearStart year + before.sum + day - 1 : ℕ) - 719528 : ℤ))
    else none
  | _ => none

example : gregorian "2024-03-01 00:00:00" = some 1709251200 := by decide

def answer : Result := ⟨false, false, some 0, "", [], false, false, none, 200, ""⟩

def printed : Option ℤ → Result
  | some t => { answer with stdout := toString t }
  | none => { answer with failed := true, rc := some 1 }

/-- A host that answers as the cluster does. -/
def serving (s : Cluster) : World := fun _ _ task item =>
  if task = listIndices.name then
    { answer with content := Cluster.listing (s.indices.map Index.name) }
  else if task = listOpenIndices.name then
    { answer with content := Cluster.listing ((s.indices.filter Index.isOpen).map Index.name) }
  else if task = calculateCutoffs.name then
    printed (some (if item.map Item.label = some "soft" then s.softCutoff else s.hardCutoff))
  else if task = calculateEpochs.name then
    printed (s.date (dateArgument ((item.map Item.label).getD "")))
  else answer

theorem prints_printed (t : Option ℤ) : (printed t).prints t := by
  cases t <;> simp [Result.prints, printed, answer, Result.ok]

theorem serves_serving (s : Cluster) (host : String) : Serves (serving s) host s where
  health _ _ := ⟨⟨rfl, rfl⟩, rfl⟩
  list _ _ := ⟨⟨rfl, rfl⟩, rfl⟩
  listOpen _ _ := ⟨⟨rfl, rfl⟩, rfl⟩
  soft _ item h := by
    have hanswer : serving s [] host calculateCutoffs.name (some item) =
      printed (some (if some item.label = some "soft" then s.softCutoff else s.hardCutoff)) := rfl
    rw [if_pos (congrArg some h)] at hanswer
    exact (congrArg (Result.prints · _) hanswer).mpr (prints_printed _)
  hard _ item h := by
    have hne : some item.label ≠ some "soft" := by simp [h]
    have hanswer : serving s [] host calculateCutoffs.name (some item) =
      printed (some (if some item.label = some "soft" then s.softCutoff else s.hardCutoff)) := rfl
    rw [if_neg hne] at hanswer
    exact (congrArg (Result.prints · _) hanswer).mpr (prints_printed _)
  epochs _ _ := prints_printed _
  requests a ha _ _ := by
    simp only [List.mem_cons, List.not_mem_nil, or_false] at ha
    rcases ha with rfl | rfl | rfl | rfl <;> exact ⟨rfl, rfl⟩

theorem plain_of_all {name : String} (h : name.toList.all (!isSpace ·) = true) :
    ∀ c ∈ name.toList, isSpace c = false := by
  simpa using h

/-- Cutoffs at the first of March 2024, and an index of the year 2020 beside another one. -/
def twoIndices (other : Index) (h : other.name ≠ "flog-2020.01.01") : Cluster where
  indices := [⟨"flog-2020.01.01", true, plain_of_all (by decide)⟩, other]
  nodup := by simp [h.symm]
  date := gregorian
  softCutoff := 1709251200
  hardCutoff := 1709251200

/-- The other index has the date of the cutoff. -/
def orderly : Cluster := twoIndices ⟨"flog-2024.03.01", true, plain_of_all (by decide)⟩ (by decide)

/-- February has no such day. -/
def impossible : Cluster := twoIndices ⟨"flog-2024.02.31", true, plain_of_all (by decide)⟩ (by decide)

def clusterOnly : Playbook.TagSelection := ⟨["cluster"], []⟩

def applyEnv : Env := oneCleanup (.bool true) (.bool true) .opensearchCleanup

theorem nodes_applyEnv : applyEnv.deploymentNodes = ["node"] := rfl

theorem applies_clusterOnly : Applies clusterOnly applyEnv := ⟨rfl, rfl, rfl, rfl⟩

/-- With this tag the earlier plays have nothing to do. -/
theorem reach_clusterOnly (world : World) : ∃ log,
    (Playbook.runPlays clusterOnly (earlierPlays.map (Play.play applyEnv world))).run [] =
      (.value (), log) := ⟨[], rfl⟩

theorem treats_iff_orderly : Treats clusterOnly applyEnv (serving orderly) orderly :=
  (treats_iff nodes_applyEnv applies_clusterOnly (serves_serving _ _)
    (reach_clusterOnly _)).2 (.inl (by decide))

/-- The index of the year 2020 stays because of the one whose date is impossible. -/
theorem not_treats_impossible : Serves (serving impossible) "node" impossible ∧
    ¬Treats clusterOnly applyEnv (serving impossible) impossible := by
  refine ⟨serves_serving _ _, fun h => ?_⟩
  rcases outcome_run nodes_applyEnv applies_clusterOnly
    (serves_serving impossible _) (reach_clusterOnly _) with ⟨hpossible, -⟩ | ⟨-, hdel, -⟩
  · exact absurd hpossible (by decide)
  · rw [Treats, hdel] at h
    exact absurd h.1 (by decide)

end Yggdrasil.DiskCleanup
