import Yggdrasil.Mongo.Normalization

/-! When the normal form exists, has no dotted key and is a fixed point. Removing the obsolete
options takes whole subtrees away, and with them the dotted keys inside. -/

namespace Yggdrasil.Mongo

open Python

/-! ### Removing an option -/

theorem get?_pop (options : Entries) (name : String) (k : Key) :
    Dict.get? (pop options name) k = if k = .str name then none else Dict.get? options k := by
  unfold pop
  split_ifs with h
  · subst h
    exact Dict.get?_eq_none (by simp)
  · exact Dict.get?_filter (q := fun k => k != .str name) (by simpa using h) options

theorem pop_of_get? {options : Entries} {name : String}
    (h : Dict.get? options (.str name) = none) : pop options name = options := by
  refine List.filter_eq_self.2 fun e he => ?_
  have hne : e.1 ≠ .str name := fun hk => by
    have := Dict.get?_isSome_of_mem (k := e.1) (a := e.2) he
    rw [hk, h] at this
    cases this
  simpa using hne

theorem get?_replace (options : Entries) (name : String) (m : Entries) (k : Key) :
    Dict.get? (replace options name m) k =
      if k = .str name then if m = [] then none else some (.node m)
      else Dict.get? options k := by
  unfold replace
  by_cases hm : m = []
  · rw [hm]
    exact get?_pop options name k
  · rw [if_neg (by simpa using hm), if_neg hm]
    split_ifs with hk
    · rw [hk, Dict.get?_set_self]
    · exact Dict.get?_set_of_ne hk options _

theorem get?_within_of_ne (options : Entries) {name : String} {k : Key} (hk : k ≠ .str name)
    (change : Entries → Entries) :
    Dict.get? (within options name change) k = Dict.get? options k := by
  unfold within
  split
  · rw [get?_replace, if_neg hk]
  · rfl

/-- The changed mapping, where there is one left. -/
theorem get?_within_self {options m' : Entries} {name : String} {change : Entries → Entries}
    (h : Dict.get? (within options name change) (.str name) = some (.node m')) :
    m' ≠ [] ∧ ∃ m, Dict.get? options (.str name) = some (.node m) ∧ m' = change m := by
  unfold within at h
  split at h
  · next m hm =>
    rw [get?_replace, if_pos rfl] at h
    split_ifs at h with hnil
    cases h
    exact ⟨hnil, m, hm, rfl⟩
  · next hnode => exact absurd h (hnode m')

theorem within_eq_self {options : Entries} {name : String} {change : Entries → Entries}
    (h : ∀ m, Dict.get? options (.str name) = some (.node m) → m ≠ [] ∧ change m = m) :
    within options name change = options := by
  unfold within
  split
  · next m hm =>
    obtain ⟨hne, hm'⟩ := h m hm
    rw [hm', replace, if_neg (by simpa using hne)]
    exact Dict.set_eq_self hm
  · rfl

theorem pop_pop (m : Entries) (name : String) : pop (pop m name) name = pop m name :=
  pop_of_get? (by rw [get?_pop, if_pos rfl])

theorem within_within (options : Entries) (name : String) {change : Entries → Entries}
    (h : ∀ m, change (change m) = change m) :
    within (within options name change) name change = within options name change := by
  refine within_eq_self fun m' hm' => ?_
  obtain ⟨hne, m, _, rfl⟩ := get?_within_self hm'
  exact ⟨hne, h m⟩

/-! ### Sanitizing twice -/

/-- What `sanitize` leaves of the storage options. -/
def sanitizedStorage (storage : Entries) : Entries := sanitizeJournal (pop storage "mmapv1")

theorem sanitizedStorage_idem (storage : Entries) :
    sanitizedStorage (sanitizedStorage storage) = sanitizedStorage storage := by
  have hpop : pop (sanitizedStorage storage) "mmapv1" = sanitizedStorage storage := by
    refine pop_of_get? ?_
    rw [sanitizedStorage, sanitizeJournal, get?_within_of_ne _ (by decide), get?_pop, if_pos rfl]
  rw [sanitizedStorage, hpop]
  exact within_within _ _ fun journal => pop_pop journal "enabled"

theorem get?_sanitizeSystemLog_of_ne (options : Entries) {k : Key} (hk : k ≠ .str "systemLog") :
    Dict.get? (sanitizeSystemLog options) k = Dict.get? options k := by
  unfold sanitizeSystemLog
  split
  · split_ifs
    · rw [get?_replace, if_neg hk]
    · rfl
  · rfl

theorem sanitizeSystemLog_eq_self {options : Entries}
    (h : ∀ m, Dict.get? options (.str "systemLog") = some (.node m) →
      isStderr (Dict.get? m (.str "destination")) = false) :
    sanitizeSystemLog options = options := by
  unfold sanitizeSystemLog
  split
  · next m hm => rw [if_neg (by simp [h m hm])]
  · rfl

/-- What is left of the log options does not go to `stderr`. -/
theorem isStderr_sanitizeSystemLog {options m : Entries}
    (h : Dict.get? (sanitizeSystemLog options) (.str "systemLog") = some (.node m)) :
    isStderr (Dict.get? m (.str "destination")) = false := by
  unfold sanitizeSystemLog at h
  split at h
  · next systemLog hlog =>
    split_ifs at h with hs
    · rw [get?_replace, if_pos rfl] at h
      split_ifs at h
      cases h
      rw [get?_pop, if_pos rfl]
      rfl
    · rw [hlog] at h
      cases h
      simpa using hs
  · next hnode => exact absurd h (hnode m)

theorem sanitizeStorage_sanitize (options : Entries) :
    sanitizeStorage (sanitize options) = sanitize options := by
  refine within_eq_self fun m' hm' => ?_
  rw [sanitize, get?_sanitizeSystemLog_of_ne _ (by decide)] at hm'
  obtain ⟨hne, m, _, rfl⟩ := get?_within_self hm'
  exact ⟨hne, sanitizedStorage_idem m⟩

theorem sanitize_idem (options : Entries) : sanitize (sanitize options) = sanitize options := by
  rw [sanitize, sanitizeStorage_sanitize]
  exact sanitizeSystemLog_eq_self fun m hm => isStderr_sanitizeSystemLog hm

/-! ### What sanitizing takes away -/

theorem distinct_pop {options : Entries} (h : Tree.Distinct (.node options)) (name : String) :
    Tree.Distinct (.node (pop options name)) := by
  refine .node (h.keys.sublist ?_) fun e he => h.values e (List.mem_of_mem_filter he)
  exact List.Sublist.map _ List.filter_sublist

theorem distinct_replace {options m : Entries} (h : Tree.Distinct (.node options))
    (hm : Tree.Distinct (.node m)) (name : String) :
    Tree.Distinct (.node (replace options name m)) := by
  unfold replace
  split_ifs
  · exact distinct_pop h name
  · exact h.set hm _

theorem distinct_within {options : Entries} (h : Tree.Distinct (.node options)) (name : String)
    {change : Entries → Entries}
    (hc : ∀ m, Tree.Distinct (.node m) → Tree.Distinct (.node (change m))) :
    Tree.Distinct (.node (within options name change)) := by
  unfold within
  split
  · next m hm => exact distinct_replace h (hc m (h.values _ (Dict.mem_of_get? hm))) name
  · exact h

theorem distinct_sanitize {options : Entries} (h : Tree.Distinct (.node options)) :
    Tree.Distinct (.node (sanitize options)) := by
  have hstorage : Tree.Distinct (.node (sanitizeStorage options)) :=
    distinct_within h _ fun m hm =>
      distinct_within (distinct_pop hm _) _ fun j hj => distinct_pop hj _
  unfold sanitize sanitizeSystemLog
  split
  · next m hm =>
    split_ifs
    · exact distinct_replace hstorage
        (distinct_pop (hstorage.values _ (Dict.mem_of_get? hm)) _) _
    · exact hstorage
  · exact hstorage

/-- The place lies in a subtree that is removed. -/
def Dropped (p : List Key) : Prop :=
  [.str "storage", .str "mmapv1"] <+: p ∨
    [.str "storage", .str "journal", .str "enabled"] <+: p

/-- Behind dotted keys `change` takes away what lies below the places in `gone`. -/
def Removes (gone : List (List Key)) (change : Entries → Entries) : Prop :=
  ∀ m q v, Spelled q → ((Tree.node (change m)).get? q = some v ↔
    (Tree.node m).get? q = some v ∧ ∀ r ∈ gone, ¬r <+: q)

theorem removes_pop (name : String) : Removes [[.str name]] fun m => pop m name := by
  intro m q v hq
  cases q with
  | nil => exact absurd hq not_spelled_nil
  | cons k q =>
    simp only [Tree.get?_node_cons, get?_pop, List.mem_singleton, forall_eq,
      List.cons_prefix_cons, List.nil_prefix, and_true]
    split_ifs with hk
    · simp [hk]
    · simp [Ne.symm hk]

/-- Below the name stands the changed mapping; an empty one has nothing behind dotted keys. -/
theorem get?_replace_spelled (options m : Entries) {name : String} {q : List Key}
    (hq : Spelled q) :
    (Tree.node (replace options name m)).get? (.str name :: q) = (Tree.node m).get? q := by
  rw [Tree.get?_node_cons, get?_replace, if_pos rfl]
  split_ifs with hm
  · rw [hm, get?_nil_spelled hq]
    rfl
  · rfl

theorem get?_replace_of_ne (options m : Entries) {name : String} {k : Key} (hk : k ≠ .str name)
    (q : List Key) :
    (Tree.node (replace options name m)).get? (k :: q) = (Tree.node options).get? (k :: q) := by
  rw [Tree.get?_node_cons, get?_replace, if_neg hk, Tree.get?_node_cons]

theorem removes_within {gone : List (List Key)} {change : Entries → Entries}
    (h : Removes gone change) {name : String} (hname : dotted (.str name) = false) :
    Removes (gone.map (.str name :: ·)) fun m => within m name change := by
  intro m q v hq
  have hgone : ∀ k q, (∀ r ∈ gone.map (Key.str name :: ·), ¬r <+: k :: q) ↔
      k = .str name → ∀ r ∈ gone, ¬r <+: q := by
    intro k q
    simp only [List.forall_mem_map, List.cons_prefix_cons, not_and, eq_comm (a := k)]
    exact ⟨fun h he r hr => h r hr he, fun h r hr he => h he r hr⟩
  cases q with
  | nil => exact absurd hq not_spelled_nil
  | cons k q =>
    rw [hgone]
    dsimp only [within]
    by_cases hk : k = .str name
    · subst hk
      have hq := spelled_of_cons hname hq
      split
      · next m' hm =>
        rw [get?_replace_spelled m _ hq, h m' q v hq, Tree.get?_node_cons, hm, Option.bind_some]
        simp
      · next hnode =>
        refine ⟨fun hv => ?_, fun hv => hv.1⟩
        rw [Tree.get?_node_cons] at hv
        obtain ⟨t, ht, hv⟩ := Option.bind_eq_some_iff.1 hv
        cases t with
        | leaf a =>
          rw [get?_leaf_spelled a hq] at hv
          cases hv
        | node m' => exact absurd ht (hnode m')
    · split
      · rw [get?_replace_of_ne m _ hk]
        simp [hk]
      · simp [hk]

theorem Removes.comp {gone gone' : List (List Key)} {change change' : Entries → Entries}
    (h : Removes gone change) (h' : Removes gone' change') :
    Removes (gone ++ gone') fun m => change' (change m) := by
  intro m q v hq
  rw [h' _ q v hq, h m q v hq, List.forall_mem_append, and_assoc]

theorem isStderr_leaf {t : Option Config} (h : isStderr t = true) :
    t = some (.leaf (.str "stderr")) := by
  unfold isStderr at h
  split at h
  · simp only [beq_iff_eq] at h
    rw [h]
  · cases h

theorem removes_sanitizeSystemLog : Removes [] sanitizeSystemLog := by
  intro m q v hq
  simp only [List.not_mem_nil, false_implies, implies_true, and_true]
  cases q with
  | nil => exact absurd hq not_spelled_nil
  | cons k q =>
    unfold sanitizeSystemLog
    split
    · next log hlog =>
      split_ifs with hs
      · by_cases hk : k = .str "systemLog"
        · subst hk
          have hq := spelled_of_cons rfl hq
          rw [get?_replace_spelled m _ hq, Tree.get?_node_cons, hlog, Option.bind_some,
            removes_pop "destination" log q v hq]
          -- the destination is a text, nothing stands below it
          refine ⟨fun hv => hv.1, fun hv => ⟨hv, fun r hr hp => ?_⟩⟩
          rw [List.mem_singleton.1 hr] at hp
          obtain ⟨q', rfl⟩ := hp
          have hq' : Spelled q' := spelled_of_cons rfl hq
          rw [List.singleton_append, Tree.get?_node_cons, isStderr_leaf hs, Option.bind_some,
            get?_leaf_spelled _ hq'] at hv
          cases hv
        · rw [get?_replace_of_ne m _ hk]
      · rfl
    · rfl

/-- Behind dotted keys, sanitizing takes away the removed subtrees and nothing else. -/
theorem get?_sanitize {options : Entries} {p : List Key} {v : Config} (hp : Spelled p) :
    (Tree.node (sanitize options)).get? p = some v ↔
      (Tree.node options).get? p = some v ∧ ¬Dropped p := by
  have hstorage : Removes _ sanitizeStorage :=
    removes_within ((removes_pop "mmapv1").comp (removes_within (removes_pop "enabled") rfl)) rfl
  have hall : Removes _ sanitize := hstorage.comp removes_sanitizeSystemLog
  rw [hall options p v hp]
  simp [Dropped, not_or]

/-! ### The normal form -/

theorem normalize_ok {options result : Entries} : normalize options = .ok result ↔
    ∃ m, normalizeEntries options [] = .ok m ∧ sanitize m = result := by
  unfold normalize
  cases normalizeEntries options [] with
  | error e => simp [Except.map]
  | ok m => simp [Except.map]

theorem normalize_isOk {options : Entries} :
    (∃ result, normalize options = .ok result) ↔ Placed options := by
  rw [← normalizeEntries_isOk []]
  simp only [normalize_ok]
  exact ⟨fun ⟨_, m, hm, _⟩ => ⟨m, hm⟩, fun ⟨m, hm⟩ => ⟨_, m, hm, rfl⟩⟩

theorem distinct_normalize {options result : Entries} (h : normalize options = .ok result)
    (hd : Tree.Distinct (.node options)) : Tree.Distinct (.node result) := by
  obtain ⟨m, hm, rfl⟩ := normalize_ok.1 h
  exact distinct_sanitize (distinct_normalizeEntries hm hd Tree.distinct_nil)

/-- Behind dotted keys the normal form has what remains of the options, but for what is
removed. -/
theorem get?_normalize {options result : Entries} {p : List Key} {v : Config}
    (h : normalize options = .ok result) (hp : Spelled p) :
    (Tree.node result).get? p = some v ↔ Residual options p v ∧ ¬Dropped p := by
  obtain ⟨m, hm, rfl⟩ := normalize_ok.1 h
  rw [get?_sanitize hp, get?_normalizeEntries hm hp, get?_nil_spelled hp]
  simp

def Undotted (options : Entries) : Prop :=
  Tree.AllKeys (fun k => dotted k = false) (.node options)

theorem undotted_iff {options : Entries} (h : Tree.Distinct (.node options)) :
    Undotted options ↔ ∀ p v, Spelled p → (Tree.node options).get? p ≠ some v := by
  rw [Undotted, Tree.allKeys_iff h]
  constructor
  · rintro hall p v ⟨c, hc, hd⟩ hv
    rw [hall p v hv c hc] at hd
    cases hd
  · intro hall p v hv c hc
    by_contra hd
    exact hall p v ⟨c, hc, by simpa using hd⟩ hv

theorem normalize_of_undotted {options result : Entries} (h : normalize options = .ok result)
    (hd : Tree.Distinct (.node options)) (hu : Undotted result) :
    normalize result = .ok result := by
  have hfix : normalizeEntries result [] = .ok ([] ++ result) :=
    normalizeEntries_of_plain (distinct_normalize h hd) hu
  obtain ⟨m, _, rfl⟩ := normalize_ok.1 h
  exact normalize_ok.2 ⟨_, hfix, sanitize_idem m⟩

/-- The options come out without an exception and without a dotted key, and normalising the
outcome once more does not change it. -/
def HasNormalForm (options : Options) : Prop :=
  ∃ result, normalize options.entries = .ok result ∧ Undotted result ∧
    normalize result = .ok result

/-- No key that is reached is made of dots alone, and what remains under dotted keys lies in a
subtree that is removed. -/
def Normalizable (options : Options) : Prop :=
  Placed options.entries ∧ ∀ p v, Residual options.entries p v → Dropped p

theorem hasNormalForm_iff (options : Options) : HasNormalForm options ↔ Normalizable options := by
  constructor
  · rintro ⟨result, hr, hu, _⟩
    refine ⟨normalize_isOk.1 ⟨result, hr⟩, fun p v hres => ?_⟩
    by_contra hn
    exact (undotted_iff (distinct_normalize hr options.distinct)).1 hu p v hres.spelled
      ((get?_normalize hr hres.spelled).2 ⟨hres, hn⟩)
  · rintro ⟨hplaced, hres⟩
    obtain ⟨result, hr⟩ := normalize_isOk.2 hplaced
    have hu : Undotted result := by
      refine (undotted_iff (distinct_normalize hr options.distinct)).2 fun p v hp hv => ?_
      obtain ⟨hrest, hn⟩ := (get?_normalize hr hp).1 hv
      exact hn (hres p v hrest)
    exact ⟨result, hr, hu, normalize_of_undotted hr options.distinct hu⟩

/-- A dotted key inside the value of a dotted key. -/
def tlsOptions : Options :=
  ⟨[(.str "net.tls", .node [(.str "certificate.file", .leaf (.str "server.pem"))])], by simp⟩

/-- A key of dots alone. -/
def dotsOptions : Options := ⟨[(.str "..", .leaf (.bool true))], by simp⟩

theorem not_hasNormalForm_dots : ¬HasNormalForm tlsOptions ∧ ¬HasNormalForm dotsOptions := by
  constructor
  · rintro ⟨result, hr, hu, _⟩
    have hform : normalize tlsOptions.entries = .ok [(.str "net", .node [(.str "tls",
        .node [(.str "certificate.file", .leaf (.str "server.pem"))])])] := rfl
    cases hform.symm.trans hr
    simp [Undotted, Tree.allKeys_node, dotted] at hu
  · rintro ⟨result, hr, _⟩
    have herror : normalize dotsOptions.entries =
        .error (.failed "list index out of range") := rfl
    cases herror.symm.trans hr

end Yggdrasil.Mongo
