import Yggdrasil.Deletion.Coverage

/-! Report values in the planned commands. Every command is the fixed words of its type
followed by values of the report; no word is the separator `--` and no value is checked or
quoted, so a value can be parsed as an option exactly when its own text begins with a dash. -/

namespace Yggdrasil.Deletion

open Python

/-- A text that an option parser takes for an option. -/
def Dashed (value : String) : Prop := value.toList.head? = some '-'

instance : DecidablePred Dashed := fun value =>
  inferInstanceAs (Decidable (value.toList.head? = some '-'))

/-- The command of the operation has a report value that begins with a dash, and no `--`
before it. -/
def Operation.Injected (op : Operation) : Prop :=
  ∃ words earlier value later, op.argv = words ++ (earlier ++ value :: later) ∧
    op.resource.target = earlier ++ value :: later ∧ Dashed value ∧ "--" ∉ words ++ earlier

theorem separator_notMem_commandWords (service resource : String) :
    "--" ∉ commandWords service resource := by
  have table : ∀ p ∈ commands, "--" ∉ p.2 := by decide +kernel
  unfold commandWords
  split_ifs
  · decide
  · decide
  · decide
  · cases hwords : Dict.get? commands (service, resource) with
    | none => simp
    | some words => exact table _ (Dict.mem_of_get? hwords)

/-- The planned operations are those of the kept entries whose address has no blank part. -/
theorem mem_planned {report : Mapping} {operations : List Operation} {issues : List String}
    (h : planDeletions report = .ok (operations, issues)) {op : Operation} :
    op ∈ operations ↔ ∃ g, Dict.IsFirst Resource.key (entries report) g ∧ "" ∉ g.target ∧
      op.resource = g ∧ operationOf g = some op := by
  cases hread : resourceEntries report with
  | error message => simp [planDeletions, hread] at h
  | ok read =>
    obtain ⟨hresources, -, hplan⟩ := planDeletions_spec hread
    rw [hplan, Except.ok.injEq, Prod.mk.injEq] at h
    rw [← h.1, hresources]
    exact mem_operations

/-- A planned command is the words of the type and the address of the entry. -/
theorem argv_of_planned {report : Mapping} {operations : List Operation} {issues : List String}
    (h : planDeletions report = .ok (operations, issues)) {op : Operation} (hop : op ∈ operations) :
    op.argv = commandWords op.resource.service op.resource.resource ++ op.resource.target := by
  obtain ⟨g, hg, hb, rfl, hoperation⟩ := (mem_planned h).1 hop
  have hcommand := (mem_entries hg.mem).2.commandFor_eq hb
  simp only [operationOf, hcommand, Option.some.injEq] at hoperation
  rw [← hoperation]

/-- The first value with a dash has no separator before it. -/
theorem Operation.injected_iff {op : Operation} {words : List String}
    (hargv : op.argv = words ++ op.resource.target) (hwords : "--" ∉ words) :
    op.Injected ↔ ∃ value ∈ op.resource.target, Dashed value := by
  constructor
  · rintro ⟨_, earlier, value, later, -, htarget, hdash, -⟩
    exact ⟨value, by simp [htarget], hdash⟩
  · rintro ⟨value, hvalue, hdash⟩
    obtain ⟨first, hfirst⟩ := Option.isSome_iff_exists.1
      (List.find?_isSome (p := fun v => decide (Dashed v)) |>.2 ⟨value, hvalue, by simpa using hdash⟩)
    obtain ⟨hdashed, earlier, later, htarget, hearlier⟩ := List.find?_eq_some_iff_append.1 hfirst
    refine ⟨words, earlier, first, later, htarget ▸ hargv, htarget, by simpa using hdashed, ?_⟩
    rw [List.mem_append, not_or]
    refine ⟨hwords, fun hseparator => ?_⟩
    have hplain := hearlier _ hseparator
    simp [Dashed] at hplain

/-- For every report: the commands are fixed words without a separator followed by the report's
own values, so a value can be parsed as an option exactly where it begins with a dash, and the
plan is free of such values exactly if the addresses of the kept entries are. -/
theorem planDeletions_injected (report : Mapping) (operations : List Operation)
    (issues : List String) (h : planDeletions report = .ok (operations, issues)) :
    (∀ op ∈ operations,
      op.argv = commandWords op.resource.service op.resource.resource ++ op.resource.target ∧
        "--" ∉ commandWords op.resource.service op.resource.resource ∧
        (op.Injected ↔ ∃ value ∈ op.resource.target, Dashed value)) ∧
      ((∃ op ∈ operations, op.Injected) ↔
        ∃ g, Dict.IsFirst Resource.key (entries report) g ∧ "" ∉ g.target ∧
          ∃ value ∈ g.target, Dashed value) := by
  have hinjected : ∀ op ∈ operations, op.Injected ↔ ∃ value ∈ op.resource.target, Dashed value :=
    fun op hop => Operation.injected_iff (argv_of_planned h hop)
      (separator_notMem_commandWords _ _)
  refine ⟨fun op hop => ⟨argv_of_planned h hop, separator_notMem_commandWords _ _,
    hinjected op hop⟩, ?_⟩
  constructor
  · rintro ⟨op, hop, hbad⟩
    obtain ⟨g, hg, hb, rfl, -⟩ := (mem_planned h).1 hop
    exact ⟨_, hg, hb, (hinjected op hop).1 hbad⟩
  · rintro ⟨g, hg, hb, hvalue⟩
    obtain ⟨op, hoperation, rfl⟩ := exists_operation (mem_entries hg.mem).2 hb
    have hop := (mem_planned h).2 ⟨_, hg, hb, rfl, hoperation⟩
    exact ⟨op, hop, (hinjected op hop).2 hvalue⟩

/-- A project with one Swift object that is named like an option. -/
def dashedObject : Mapping :=
  [(.str "resources", .record [("object-store", .record [("object", .list
    [.record [("name", .str "--help"), ("container", .str "uploads")]])])])]

private theorem dashedObject_plan : planDeletions dashedObject =
    .ok ([⟨70, ⟨"object-store", "object", "--help", [(.str "name", .str "--help"),
      (.str "container", .str "uploads")]⟩, ["object", "delete", "uploads", "--help"]⟩], []) := by
  rfl

theorem planDeletions_injected_dashedObject :
    (∃ op ∈ [(⟨70, ⟨"object-store", "object", "--help", [(.str "name", .str "--help"),
      (.str "container", .str "uploads")]⟩, ["object", "delete", "uploads", "--help"]⟩ : Operation)],
      op.Injected) ↔
        ∃ g, Dict.IsFirst Resource.key (entries dashedObject) g ∧ "" ∉ g.target ∧
          ∃ value ∈ g.target, Dashed value :=
  (planDeletions_injected dashedObject _ _ dashedObject_plan).2

/-- The object's name reaches the command as an option. -/
theorem dashedObject_injected :
    ¬∀ report operations issues, planDeletions report = .ok (operations, issues) →
      ∀ op ∈ operations, ¬op.Injected := by
  intro h
  refine h dashedObject _ _ dashedObject_plan _ (List.mem_singleton.2 rfl) ?_
  exact ⟨["object", "delete"], ["uploads"], "--help", [], rfl, rfl, by decide, by decide⟩

end Yggdrasil.Deletion
