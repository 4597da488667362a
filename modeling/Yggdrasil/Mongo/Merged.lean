import Yggdrasil.Mongo.NormalForm

/-! The options of a caller laid over the defaults of the guest agent. What the caller's normal
form says stays, the defaults show where it leaves them open, and an obsolete option survives
only in a spelling that normalisation does not see through. -/

namespace Yggdrasil.Mongo

open Python

def dbPathPlace : List Key := [.str "storage", .str "dbPath"]

def cacheSizePlace : List Key :=
  [.str "storage", .str "wiredTiger", .str "engineConfig", .str "cacheSizeGB"]

/-- The path of option names that the keys on the way spell. -/
def spelling (p : List Key) : List Key := p.flatMap location

/-- MongoDB refuses to start with what stands here, however it is spelled. -/
def Obsolete (p : List Key) (v : Config) : Prop :=
  Dropped (spelling p) ∨
    spelling p = [.str "systemLog", .str "destination"] ∧ v = .leaf (.str "stderr")

/-- What the defaults leave in the file, where the options leave them open. -/
structure KeepsDefaults (options result : Entries) (cacheSize : Option ℚ) : Prop where
  dbPath : Tree.Open (.node options) dbPathPlace →
    (Tree.node result).get? dbPathPlace = some (.leaf (.str mongodbDataDir))
  cacheSize : ∀ q, cacheSize = some q → Tree.Open (.node options) cacheSizePlace →
    (Tree.node result).get? cacheSizePlace = some (.leaf (.float q))

/-- The file has every setting of the options, the defaults that they leave open and nothing
obsolete. -/
structure WellMerged (contents : Options) (memory : Memory) (result : Entries) : Prop where
  settings : ∀ options, normalize contents.entries = .ok options → ∀ p v,
    (Tree.node options).get? p = some v →
      ∃ w, (Tree.node result).get? p = some w ∧ w.label = v.label
  defaults : ∀ options cacheSize, normalize contents.entries = .ok options →
    memory.coerce.cacheSize = .ok cacheSize → KeepsDefaults options result cacheSize
  current : ∀ p v, (Tree.node result).get? p = some v → ¬Obsolete p v

theorem configurationContents_ok {contents result : Entries} {memory : Memory} :
    configurationContents contents memory = .ok result ↔
      ∃ cacheSize options, memory.coerce.cacheSize = .ok cacheSize ∧
        normalize contents = .ok options ∧ Tree.merge options (defaults cacheSize) = result := by
  unfold configurationContents
  cases memory.coerce.cacheSize with
  | error e => simp
  | ok cacheSize =>
    cases normalize contents with
    | error e => simp [Except.map]
    | ok options => simp [Except.map]

/-! ### The defaults -/

theorem distinct_defaults (cacheSize : Option ℚ) :
    Tree.Distinct (.node (defaults cacheSize)) := by
  cases cacheSize <;> simp [defaults, Dict.set]

theorem undotted_defaults (cacheSize : Option ℚ) : Undotted (defaults cacheSize) := by
  cases cacheSize <;>
    simp [Undotted, defaults, Dict.set, Tree.allKeys_node, dotted, Tree.AllKeys.leaf]

/-- The defaults reach a place that is removed or tells the log where to go nowhere. -/
theorem get?_defaults (cacheSize : Option ℚ) :
    (Tree.node (defaults cacheSize)).get? [.str "storage", .str "mmapv1"] = none ∧
      (Tree.node (defaults cacheSize)).get? [.str "storage", .str "journal", .str "enabled"] =
        none ∧
      (Tree.node (defaults cacheSize)).get? [.str "systemLog", .str "destination"] = none := by
  cases cacheSize <;> exact ⟨rfl, rfl, rfl⟩

/-! ### Sanitized options -/

theorem get?_storage_sanitize {options : Entries} {k : Key} {p : List Key} {v : Config}
    (h : (Tree.node (sanitize options)).get? (.str "storage" :: k :: p) = some v) :
    ∃ storage, (Tree.node (sanitizedStorage storage)).get? (k :: p) = some v := by
  rw [Tree.get?_node_cons, sanitize, get?_sanitizeSystemLog_of_ne _ (by decide)] at h
  obtain ⟨t, ht, hv⟩ := Option.bind_eq_some_iff.1 h
  cases t with
  | leaf a => cases hv
  | node m =>
    obtain ⟨_, storage, _, rfl⟩ := get?_within_self ht
    exact ⟨storage, hv⟩

theorem get?_mmapv1_sanitize (options : Entries) :
    (Tree.node (sanitize options)).get? [.str "storage", .str "mmapv1"] = none := by
  by_contra hn
  obtain ⟨v, hv⟩ := Option.ne_none_iff_exists'.1 hn
  obtain ⟨storage, hs⟩ := get?_storage_sanitize hv
  rw [Tree.get?_node_cons, sanitizedStorage, sanitizeJournal,
    get?_within_of_ne _ (by decide), get?_pop, if_pos rfl] at hs
  cases hs

theorem get?_journal_sanitize (options : Entries) :
    (Tree.node (sanitize options)).get? [.str "storage", .str "journal", .str "enabled"] =
      none := by
  by_contra hn
  obtain ⟨v, hv⟩ := Option.ne_none_iff_exists'.1 hn
  obtain ⟨storage, hs⟩ := get?_storage_sanitize hv
  rw [Tree.get?_node_cons] at hs
  obtain ⟨t, ht, hs⟩ := Option.bind_eq_some_iff.1 hs
  cases t with
  | leaf a => cases hs
  | node m =>
    obtain ⟨_, journal, _, rfl⟩ := get?_within_self ht
    rw [Tree.get?_node_cons, get?_pop, if_pos rfl] at hs
    cases hs

theorem get?_destination_sanitize (options : Entries) :
    (Tree.node (sanitize options)).get? [.str "systemLog", .str "destination"] ≠
      some (.leaf (.str "stderr")) := by
  intro hv
  rw [Tree.get?_node_cons] at hv
  obtain ⟨t, ht, hv⟩ := Option.bind_eq_some_iff.1 hv
  cases t with
  | leaf a => cases hv
  | node m =>
    have hs := isStderr_sanitizeSystemLog ht
    rw [Tree.get?_node_cons] at hv
    obtain ⟨d, hd, hv⟩ := Option.bind_eq_some_iff.1 hv
    rw [hd, Option.some.inj ((Tree.get?_nil d).symm.trans hv)] at hs
    cases hs

/-! ### The merged options -/

section

variable {options : Entries} {cacheSize : Option ℚ}

/-- What the file has comes from the options or from the defaults. -/
theorem get?_merged {p : List Key} {v : Config} (hd : Tree.Distinct (.node options))
    (hv : (Tree.node (Tree.merge options (defaults cacheSize))).get? p = some v) :
    (∃ w, (Tree.node options).get? p = some w ∧ w.label = v.label) ∨
      (Tree.node (defaults cacheSize)).get? p = some v :=
  Tree.get?_of_get?_overlay (t := some (.node (defaults cacheSize))) hd hv

variable (cacheSize) in
theorem settings_merged {p : List Key} {v : Config} (hd : Tree.Distinct (.node options))
    (hv : (Tree.node options).get? p = some v) :
    ∃ w, (Tree.node (Tree.merge options (defaults cacheSize))).get? p = some w ∧
      w.label = v.label := by
  cases v with
  | leaf a => exact ⟨_, Tree.get?_overlay_leaf hd hv (some (.node (defaults cacheSize))), rfl⟩
  | node m =>
    obtain ⟨m', hm'⟩ := Tree.get?_overlay_node hd hv (some (.node (defaults cacheSize)))
    exact ⟨_, hm', rfl⟩

theorem keepsDefaults_merged (hd : Tree.Distinct (.node options)) :
    KeepsDefaults options (Tree.merge options (defaults cacheSize)) cacheSize where
  dbPath ho := by
    have hget := Tree.get?_overlay_of_open hd ho (some (.node (defaults cacheSize)))
    cases cacheSize <;> exact hget
  cacheSize q hq ho := by
    subst hq
    exact Tree.get?_overlay_of_open hd ho (some (.node (defaults (some q))))

theorem get?_merged_eq_none {p : List Key} (hd : Tree.Distinct (.node options))
    (ho : (Tree.node options).get? p = none)
    (hdef : (Tree.node (defaults cacheSize)).get? p = none) (q : List Key) :
    (Tree.node (Tree.merge options (defaults cacheSize))).get? (p ++ q) = none := by
  rw [Tree.get?_append]
  cases hv : (Tree.node (Tree.merge options (defaults cacheSize))).get? p with
  | none => rfl
  | some v =>
    rcases get?_merged hd hv with ⟨w, hw, _⟩ | hw
    · rw [ho] at hw
      cases hw
    · rw [hdef] at hw
      cases hw

theorem label_eq_some {v : Config} {a : Scalar} (h : v.label = some a) : v = .leaf a := by
  cases v with
  | leaf b => rw [Option.some.inj h]
  | node m => cases h

theorem spelling_of_plain {p : List Key} (hp : ¬Spelled p) : spelling p = p := by
  induction p with
  | nil => rfl
  | cons k p ih =>
    rw [spelled_cons, not_or, Bool.not_eq_true] at hp
    rw [spelling, List.flatMap_cons, location_of_plain hp.1, List.singleton_append]
    exact congrArg (k :: ·) (ih hp.2)

/-- Spelled without dots, nothing obsolete is left. -/
theorem not_obsolete_of_plain {p : List Key} {v : Config} {m : Entries}
    (hd : Tree.Distinct (.node (sanitize m))) (hp : ¬Spelled p)
    (hv : (Tree.node (Tree.merge (sanitize m) (defaults cacheSize))).get? p = some v) :
    ¬Obsolete p v := by
  obtain ⟨hmmapv1, hjournal, hdestination⟩ := get?_defaults cacheSize
  unfold Obsolete Dropped
  rw [spelling_of_plain hp]
  rintro ((⟨q, rfl⟩ | ⟨q, rfl⟩) | ⟨rfl, rfl⟩)
  · rw [get?_merged_eq_none hd (get?_mmapv1_sanitize m) hmmapv1] at hv
    cases hv
  · rw [get?_merged_eq_none hd (get?_journal_sanitize m) hjournal] at hv
    cases hv
  · rcases get?_merged hd hv with ⟨w, hw, hl⟩ | hw
    · rw [label_eq_some hl] at hw
      exact get?_destination_sanitize m hw
    · rw [hdestination] at hw
      cases hw

/-- An obsolete option stays obsolete under a value of the same kind. -/
theorem Obsolete.of_label {p : List Key} {v w : Config} (h : Obsolete p v)
    (hl : w.label = v.label) : Obsolete p w := by
  refine h.imp_right fun ⟨hp, hv⟩ => ⟨hp, label_eq_some ?_⟩
  rw [hl, hv]
  rfl

end

/-- No option that remains under a dotted key, outside of what is removed, is obsolete. -/
def Modern (contents : Options) : Prop :=
  ∀ p v, Residual contents.entries p v → ¬Dropped p → ¬Obsolete p v

/-- The file has what it should exactly when the contents spell no obsolete option in a way
that normalisation does not see through. -/
theorem wellMerged_iff {contents : Options} {memory : Memory} {result : Entries}
    (h : configurationContents contents.entries memory = .ok result) :
    WellMerged contents memory result ↔ Modern contents := by
  obtain ⟨cacheSize, options, hcache, hoptions, rfl⟩ := configurationContents_ok.1 h
  have hd := distinct_normalize hoptions contents.distinct
  constructor
  · intro hw p v hres hrem hobs
    obtain ⟨w, hget, hl⟩ := settings_merged cacheSize hd
      ((get?_normalize hoptions hres.spelled).2 ⟨hres, hrem⟩)
    exact hw.current p w hget (hobs.of_label hl)
  · intro hmodern
    refine ⟨fun options' ho p v hv => ?_, fun options' cacheSize' ho hc => ?_, fun p v hv => ?_⟩
    · cases hoptions.symm.trans ho
      exact settings_merged cacheSize hd hv
    · cases hoptions.symm.trans ho
      cases hcache.symm.trans hc
      exact keepsDefaults_merged hd
    · by_cases hp : Spelled p
      · rcases get?_merged hd hv with ⟨w, hw, hl⟩ | hw
        · obtain ⟨hres, hrem⟩ := (get?_normalize hoptions hp).1 hw
          exact fun hobs => hmodern p w hres hrem (hobs.of_label hl)
        · exact absurd hw
            ((undotted_iff (distinct_defaults cacheSize)).1 (undotted_defaults cacheSize) p v hp)
      · obtain ⟨m, _, rfl⟩ := normalize_ok.1 hoptions
        exact not_obsolete_of_plain hd hp hv

/-- The switch of the journal, under a key that ends in a dot. -/
def journalContents : Options :=
  ⟨[(.str "storage.", .node [(.str "journal.enabled", .leaf (.bool true))])], by simp⟩

/-- The same under a key without a dot. -/
def nestedContents : Options :=
  ⟨[(.str "storage", .node [(.str "journal.enabled", .leaf (.bool true))])], by simp⟩

theorem wellMerged_iff_nested :
    WellMerged nestedContents (.int 0)
        [(.str "storage", .node [(.str "dbPath", .leaf (.str "/data/db"))])] ↔
      Modern nestedContents :=
  wellMerged_iff rfl

theorem not_wellMerged_journal :
    ∃ result, configurationContents journalContents.entries (.int 0) = .ok result ∧
      ¬WellMerged journalContents (.int 0) result := by
  refine ⟨[(.str "storage", .node [(.str "dbPath", .leaf (.str "/data/db")),
    (.str "journal.enabled", .leaf (.bool true))])], rfl, fun h => ?_⟩
  exact h.current [.str "storage", .str "journal.enabled"] (.leaf (.bool true)) rfl
    (.inl (.inr ⟨[], rfl⟩))

end Yggdrasil.Mongo
