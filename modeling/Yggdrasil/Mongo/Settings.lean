import Mathlib.Data.List.Pairwise
import Mathlib.Data.List.Perm.Basic
import Yggdrasil.Mongo.Normalization

/-! The settings that options make, each with the full path that its keys spell, and what
becomes of them. An entry is assigned at its location whole, so that entries whose locations
stand above one another survive in one order only. -/

namespace Yggdrasil.Mongo

open Python Yggdrasil.Tree

/-! ### Settings -/

mutual

/-- The ends of a configuration, with the paths that the keys spell. -/
def settings : Config → List (List Key × Config)
  | .leaf a => [([], .leaf a)]
  | .node options => if options.isEmpty then [([], .node [])] else settingsOf options

def settingsOf : Entries → List (List Key × Config)
  | [] => []
  | (key, value) :: options =>
    (settings value).map (fun s => (location key ++ s.1, s.2)) ++ settingsOf options

end

theorem mem_settingsOf {options : Entries} {p : List Key} {v : Config} :
    (p, v) ∈ settingsOf options ↔
      ∃ e ∈ options, ∃ q, p = location e.1 ++ q ∧ (q, v) ∈ settings e.2 := by
  induction options with
  | nil => simp [settingsOf]
  | cons e options ih =>
    obtain ⟨key, value⟩ := e
    rw [settingsOf, List.mem_append, ih, List.mem_map]
    constructor
    · rintro (⟨⟨q, w⟩, hs, he⟩ | ⟨e, he, hq⟩)
      · cases he
        exact ⟨_, List.mem_cons_self, q, rfl, hs⟩
      · exact ⟨e, List.mem_cons_of_mem _ he, hq⟩
    · rintro ⟨e, he, q, rfl, hs⟩
      rcases List.mem_cons.1 he with rfl | he
      · exact .inl ⟨(q, v), hs, rfl⟩
      · exact .inr ⟨e, he, q, rfl, hs⟩

theorem settingsOf_append (options options' : Entries) :
    settingsOf (options ++ options') = settingsOf options ++ settingsOf options' := by
  induction options with
  | nil => rfl
  | cons e options ih => rw [List.cons_append, settingsOf, settingsOf, ih, List.append_assoc]

theorem mem_settings_node {options : Entries} {p : List Key} {v : Config} :
    (p, v) ∈ settings (.node options) ↔
      options = [] ∧ p = [] ∧ v = .node [] ∨ (p, v) ∈ settingsOf options := by
  rw [settings]
  cases options with
  | nil => simp [settingsOf]
  | cons e options => simp

theorem not_spelled_of_mem_settings {t : Config} {p : List Key} {v : Config}
    (h : (p, v) ∈ settings t) : ¬Spelled p := by
  induction t using Tree.induction generalizing p v with
  | leaf a =>
    rw [settings, List.mem_singleton] at h
    cases h
    exact not_spelled_nil
  | node es ih =>
    rcases mem_settings_node.1 h with ⟨_, rfl, _⟩ | h
    · exact not_spelled_nil
    · obtain ⟨e, he, q, rfl, hs⟩ := mem_settingsOf.1 h
      exact fun hp => ih e he hs (spelled_location_append.1 hp)

theorem exists_setting (t : Config) : ∃ p v, (p, v) ∈ settings t := by
  induction t using Tree.induction with
  | leaf a => exact ⟨[], .leaf a, by simp [settings]⟩
  | node es ih =>
    cases es with
    | nil => exact ⟨[], .node [], by simp [settings]⟩
    | cons e es =>
      obtain ⟨q, v, hq⟩ := ih e List.mem_cons_self
      exact ⟨location e.1 ++ q, v, mem_settings_node.2 (.inr
        (mem_settingsOf.2 ⟨e, List.mem_cons_self, q, rfl, hq⟩))⟩

/-- An end behind keys without a dot is a setting. -/
theorem mem_settings_of_leafAt {t : Config} {p : List Key} {v : Config} (h : t.LeafAt p v)
    (hp : ¬Spelled p) : (p, v) ∈ settings t := by
  induction p generalizing t with
  | nil =>
    obtain ⟨hv, hc⟩ := h
    rw [get?_nil] at hv
    rw [Option.some.inj hv]
    cases v with
    | leaf a => simp [settings]
    | node m =>
      rw [show m = [] from hc]
      simp [settings]
  | cons k p ih =>
    rw [spelled_cons, not_or, Bool.not_eq_true] at hp
    obtain ⟨hv, hc⟩ := h
    cases t with
    | leaf a => cases hv
    | node es =>
      rw [get?_node_cons] at hv
      obtain ⟨u, hu, hv⟩ := Option.bind_eq_some_iff.1 hv
      refine mem_settings_node.2 (.inr (mem_settingsOf.2 ⟨_, Dict.mem_of_get? hu, p, ?_, ?_⟩))
      · rw [location_of_plain hp.1]
        rfl
      · exact ih ⟨hv, hc⟩ hp.2

/-- Without dotted keys the settings are the ends. -/
theorem leafAt_iff_of_plain {t : Config} (hd : t.Distinct)
    (hp : t.AllKeys fun k => dotted k = false) {p : List Key} {v : Config} :
    t.LeafAt p v ↔ (p, v) ∈ settings t := by
  constructor
  · intro h
    refine mem_settings_of_leafAt h fun ⟨c, hc, hdot⟩ => ?_
    rw [(allKeys_iff hd).1 hp p v h.1 c hc] at hdot
    cases hdot
  · intro h
    induction t using Tree.induction generalizing p v with
    | leaf a =>
      rw [settings, List.mem_singleton] at h
      cases h
      exact ⟨rfl, trivial⟩
    | node es ih =>
      rcases mem_settings_node.1 h with ⟨rfl, rfl, rfl⟩ | h
      · exact ⟨rfl, rfl⟩
      · obtain ⟨e, he, q, rfl, hs⟩ := mem_settingsOf.1 h
        obtain ⟨hkey, hin⟩ := allKeys_node.1 hp e he
        obtain ⟨hv, hc⟩ := ih e he (hd.values e he) hin hs
        refine ⟨?_, hc⟩
        rw [location_of_plain hkey, List.singleton_append, get?_node_cons,
          Dict.get?_of_mem hd.keys he]
        exact hv

/-! ### One run of the loop -/

theorem leafAt_nil {p : List Key} {v : Config} :
    (Tree.node [] : Config).LeafAt p v ↔ p = [] ∧ v = .node [] := by
  constructor
  · rintro ⟨hv, hc⟩
    cases p with
    | nil => exact ⟨rfl, (Option.some.inj hv).symm⟩
    | cons k p => cases hv
  · rintro ⟨rfl, rfl⟩
    exact ⟨rfl, rfl⟩

theorem ne_nil_of_apart {k : Key} {q p : List Key} (h : Apart (k :: q) p) : p ≠ [] := by
  rintro rfl
  exact h.2 List.nil_prefix

theorem mem_settings_of_entryValue {key : Key} {value value' v : Config} {q : List Key}
    (h : entryValue key value = .ok value') (hv : value'.LeafAt q v) (hq : ¬Spelled q)
    (hnested : ∀ m result, value = .node m → normalizeEntries m [] = .ok result →
      (Tree.node result).LeafAt q v →
        (q, v) ∈ settingsOf m ∨ (m = [] ∨ q ≠ []) ∧ (Tree.node []).LeafAt q v) :
    (q, v) ∈ settings value := by
  rcases entryValue_cases h with ⟨rfl, -⟩ | ⟨-, m, result, rfl, hresult, rfl⟩
  · exact mem_settings_of_leafAt hv hq
  · rw [mem_settings_node]
    rcases hnested m result rfl hresult hv with hm | ⟨hm, hnil⟩
    · exact .inr hm
    · obtain ⟨rfl, rfl⟩ := leafAt_nil.1 hnil
      exact .inl ⟨hm.resolve_right fun hne => hne rfl, rfl, rfl⟩

/-- The ends of the result are settings, or were there before. -/
theorem mem_settingsOf_of_leafAt {options acc result : Entries} {p : List Key} {v : Config}
    (h : normalizeEntries options acc = .ok result) (hv : (Tree.node result).LeafAt p v)
    (hp : ¬Spelled p) :
    (p, v) ∈ settingsOf options ∨
      (options = [] ∨ p ≠ []) ∧ (Tree.node acc).LeafAt p v := by
  induction options using Tree.entries_induction generalizing acc result p v with
  | nil =>
    rw [normalizeEntries] at h
    rw [← Except.ok.inj h] at hv
    exact .inr ⟨.inl rfl, hv⟩
  | cons key value options ihm iho =>
    obtain ⟨value', part, parts, hvalue, hl, hr⟩ := normalizeEntries_cons.1 h
    rcases iho hr hv hp with hlater | ⟨_, hbefore⟩
    · left
      rw [settingsOf]
      exact List.mem_append_right _ hlater
    · rcases leafAt_put.1 hbefore with ⟨q, he, hq⟩ | ⟨hapart, hacc⟩
      · left
        have he : p = location key ++ q := by rw [he, hl, List.cons_append]
        have hq' : ¬Spelled q := fun hs => hp (he ▸ spelled_location_append.2 hs)
        have hmem := mem_settings_of_entryValue hvalue hq hq' fun m inner hm hinner hleaf =>
          ihm m hm hinner hleaf hq'
        exact mem_settingsOf.2 ⟨(key, value), List.mem_cons_self, q, he, hmem⟩
      · exact .inr ⟨.inr (ne_nil_of_apart hapart), hacc⟩

/-- No entry is assigned above, at or below the place of another. -/
def LocationsApart (options : Entries) : Prop :=
  (options.map fun e => location e.1).Pairwise Apart

/-- Among locations apart, every entry keeps what it was assigned. -/
theorem get?_of_locationsApart {options acc result : Entries}
    (h : normalizeEntries options acc = .ok result) (ha : LocationsApart options)
    {e : Key × Config} (he : e ∈ options) :
    ∃ v, entryValue e.1 e.2 = .ok v ∧
      ∀ q, (Tree.node result).get? (location e.1 ++ q) = v.get? q := by
  have keep : ∀ (options acc : Entries), normalizeEntries options acc = .ok result →
      ∀ p, (∀ e ∈ options, Apart (location e.1) p) →
        (Tree.node result).get? p = (Tree.node acc).get? p := by
    intro options
    induction options with
    | nil =>
      intro acc h p _
      rw [normalizeEntries] at h
      rw [Except.ok.inj h]
    | cons e options ih =>
      intro acc h p hp
      obtain ⟨v, part, parts, _, hl, hr⟩ := normalizeEntries_cons.1 h
      obtain ⟨hfirst, hrest⟩ := List.forall_mem_cons.1 hp
      rw [ih _ hr p hrest]
      exact get?_put_away v (hl ▸ hfirst.1) (hl ▸ hfirst.2)
  induction options generalizing acc with
  | nil => cases he
  | cons e' options ih =>
    obtain ⟨v, part, parts, hv, hl, hr⟩ := normalizeEntries_cons.1 h
    rw [LocationsApart, List.map_cons, List.pairwise_cons] at ha
    rcases List.mem_cons.1 he with rfl | he
    · refine ⟨v, hv, fun q => ?_⟩
      have hothers : ∀ e' ∈ options, Apart (location e'.1) (location e.1 ++ q) := fun e' he' =>
        ((ha.1 _ (List.mem_map_of_mem he')).append q).symm
      rw [keep options _ hr _ hothers, hl, List.cons_append, get?_put_append]
    · exact ih hr ha.2 he

/-! ### Compatible options -/

/-- Every entry has a location of its own, apart from the others', and nothing under a dotted
key would need to be normalised itself; so also in the mappings that are reached. -/
inductive Compatible : Entries → Prop
  | intro {options : Entries} (placed : ∀ e ∈ options, location e.1 ≠ [])
      (copied : ∀ e ∈ options, dotted e.1 = true → e.2.AllKeys fun k => dotted k = false)
      (apart : LocationsApart options)
      (inside : ∀ key m, (key, .node m) ∈ options → dotted key = false → Compatible m) :
      Compatible options

theorem Compatible.placed {options : Entries} (h : Compatible options) : Placed options := by
  induction h with
  | intro placed copied apart inside ih =>
    intro k hk
    cases hk with
    | here he => exact placed _ he
    | inside he hd hm => exact ih _ _ he hd k hm

theorem Compatible.not_residual {options : Entries} (h : Compatible options)
    (hd : Tree.Distinct (.node options)) (p : List Key) (v : Config) : ¬Residual options p v := by
  intro hres
  induction hres with
  | @copied key value v options q hkey hv hq _ =>
    cases h with
    | intro _ copied _ _ =>
      obtain ⟨c, hc, hdot⟩ := hq
      have hvalue := hd.values _ List.mem_cons_self
      rw [(allKeys_iff hvalue).1 (copied _ List.mem_cons_self hkey) q v hv c hc] at hdot
      cases hdot
  | nested hkey _ _ ih =>
    cases h with
    | intro _ _ _ inside =>
      exact ih (inside _ _ List.mem_cons_self hkey) (hd.values _ List.mem_cons_self)
  | later _ ih =>
    cases h with
    | intro placed copied apart inside =>
      refine ih ⟨fun e he => placed e (List.mem_cons_of_mem _ he),
        fun e he => copied e (List.mem_cons_of_mem _ he), ?_,
        fun key m he => inside key m (List.mem_cons_of_mem _ he)⟩ (distinct_cons.1 hd).2.2
      rw [LocationsApart, List.map_cons, List.pairwise_cons] at apart
      exact apart.2

/-- The loop returns, and the ends of its result are the given settings. -/
def Reproduces (options : Entries) (target : List (List Key × Config)) : Prop :=
  ∃ result, normalizeEntries options [] = .ok result ∧
    ∀ p v, (Tree.node result).LeafAt p v ↔ (p, v) ∈ target

theorem Compatible.reproduces {options : Entries} (h : Compatible options)
    (hd : Tree.Distinct (.node options)) : Reproduces options (settings (.node options)) := by
  have hresidual := h.not_residual hd
  obtain ⟨result, hr⟩ := (normalizeEntries_isOk []).2 h.placed
  induction h generalizing result with
  | @intro options placed copied apart inside ih =>
    refine ⟨result, hr, fun p v => ⟨fun hv => ?_, fun hs => ?_⟩⟩
    · have hp : ¬Spelled p := by
        intro hp
        rcases (get?_normalizeEntries hr hp).1 hv.1 with hres | ⟨hnil, _⟩
        · exact hresidual p v hres
        · rw [get?_nil_spelled hp] at hnil
          cases hnil
      rw [mem_settings_node]
      rcases mem_settingsOf_of_leafAt hr hv hp with hs | ⟨hne, hnil⟩
      · exact .inr hs
      · obtain ⟨rfl, rfl⟩ := leafAt_nil.1 hnil
        exact .inl ⟨hne.resolve_right fun hne => hne rfl, rfl, rfl⟩
    · rcases mem_settings_node.1 hs with ⟨rfl, rfl, rfl⟩ | hs
      · rw [normalizeEntries] at hr
        cases hr
        exact ⟨rfl, rfl⟩
      · obtain ⟨e, he, q, rfl, hq⟩ := mem_settingsOf.1 hs
        obtain ⟨value', hvalue, hget⟩ := get?_of_locationsApart hr apart he
        have hin : e.2.Distinct := hd.values e he
        have hleaf : value'.LeafAt q v := by
          obtain ⟨key, value⟩ := e
          rcases entryValue_cases hvalue with ⟨rfl, hcopied⟩ | ⟨hkey, m, inner, rfl, hinner, rfl⟩
          · refine (leafAt_iff_of_plain hin ?_).2 hq
            rcases hcopied with hkey | ⟨a, rfl⟩
            · exact copied _ he hkey
            · exact .leaf a
          · obtain ⟨inner', hinner', hiff⟩ := ih key m he hkey hin
              ((inside key m he hkey).not_residual hin) inner hinner
            cases hinner.symm.trans hinner'
            exact (hiff q v).2 hq
        exact ⟨(hget q).trans hleaf.1, hleaf.2⟩

/-! ### Orders -/

/-- The same options with the keys of some mappings in another order. -/
inductive Reordered : Entries → Entries → Prop
  | perm {options options' : Entries} (h : options.Perm options') : Reordered options options'
  | inside (before after : Entries) (key : Key) {m m' : Entries} (h : Reordered m m') :
      Reordered (before ++ (key, .node m) :: after) (before ++ (key, .node m') :: after)
  | trans {a b c : Entries} (h : Reordered a b) (h' : Reordered b c) : Reordered a c

theorem Reordered.nil_iff {options options' : Entries} (h : Reordered options options') :
    options = [] ↔ options' = [] := by
  induction h with
  | perm h => exact ⟨fun he => (he ▸ h).nil_eq.symm, fun he => (he ▸ h).eq_nil⟩
  | inside => simp
  | trans _ _ ih ih' => exact ih.trans ih'

theorem Reordered.mem_settings {options options' : Entries} (h : Reordered options options')
    (s : List Key × Config) :
    s ∈ settings (.node options) ↔ s ∈ settings (.node options') := by
  induction h generalizing s with
  | @perm options options' h =>
    obtain ⟨p, v⟩ := s
    rw [mem_settings_node, mem_settings_node, (Reordered.perm h).nil_iff, mem_settingsOf,
      mem_settingsOf]
    simp only [h.mem_iff]
  | @inside before after key m m' _ ih =>
    obtain ⟨p, v⟩ := s
    have hnil : ∀ t : Config, before ++ (key, t) :: after ≠ [] := by simp
    rw [mem_settings_node, mem_settings_node, or_iff_right fun h => hnil _ h.1,
      or_iff_right fun h => hnil _ h.1, settingsOf_append, settingsOf_append]
    simp only [settingsOf, List.mem_append, List.mem_map, ih]
  | trans _ _ ih ih' => exact (ih s).trans (ih' s)

theorem Reordered.distinct {options options' : Entries} (h : Reordered options options')
    (hd : Tree.Distinct (.node options)) : Tree.Distinct (.node options') := by
  have perm : ∀ {a b : Entries}, a.Perm b → Tree.Distinct (.node a) → Tree.Distinct (.node b) :=
    fun h hd => .node ((h.map Prod.fst).nodup_iff.1 hd.keys) fun e he =>
      hd.values e (h.mem_iff.2 he)
  induction h with
  | perm h => exact perm h hd
  | inside before after key _ ih =>
    obtain ⟨hkey, hm, hrest⟩ := distinct_cons.1 (perm List.perm_middle hd)
    exact perm List.perm_middle.symm (distinct_cons.2 ⟨hkey, ih hm, hrest⟩)
  | trans _ _ ih ih' => exact ih' (ih hd)

theorem Reordered.allKeys {q : Key → Prop} {options options' : Entries}
    (h : Reordered options options') (ha : AllKeys q (.node options : Config)) :
    AllKeys q (.node options' : Config) := by
  induction h with
  | perm h =>
    rw [allKeys_node] at ha ⊢
    exact fun e he => ha e (h.mem_iff.2 he)
  | inside before after key _ ih =>
    rw [allKeys_node, List.forall_mem_append, List.forall_mem_cons] at ha ⊢
    exact ⟨ha.1, ⟨ha.2.1.1, ih ha.2.1.2⟩, ha.2.2⟩
  | trans _ _ ih ih' => exact ih' (ih ha)

theorem LocationsApart.perm {options options' : Entries} (h : options.Perm options')
    (ha : LocationsApart options) : LocationsApart options' :=
  (List.Perm.pairwise_iff (R := Apart) (fun h => h.symm)
    (h.map fun e : Key × Config => location e.1)).1 ha

theorem Compatible.perm {options options' : Entries} (h : options.Perm options')
    (hc : Compatible options) : Compatible options' := by
  cases hc with
  | intro placed copied apart inside =>
    exact ⟨fun e he => placed e (h.mem_iff.2 he), fun e he => copied e (h.mem_iff.2 he),
      apart.perm h, fun key m he => inside key m (h.mem_iff.2 he)⟩

theorem Reordered.compatible {options options' : Entries} (h : Reordered options options')
    (hc : Compatible options) : Compatible options' := by
  induction h with
  | perm h => exact hc.perm h
  | @inside before after key m m' hm ih =>
    refine Compatible.perm List.perm_middle.symm ?_
    cases hc.perm List.perm_middle with
    | intro placed copied apart inside =>
      refine ⟨?_, ?_, apart, fun key' m'' he hkey => ?_⟩
      · rw [List.forall_mem_cons] at placed ⊢
        exact placed
      · rw [List.forall_mem_cons] at copied ⊢
        exact ⟨fun hkey => hm.allKeys (copied.1 hkey), copied.2⟩
      · rcases List.mem_cons.1 he with he | he
        · cases he
          exact ih (inside key m List.mem_cons_self hkey)
        · exact inside key' m'' (List.mem_cons_of_mem _ he) hkey
  | trans _ _ ih ih' => exact ih' (ih hc)

/-! ### What the orders demand -/

/-- No two settings have the same path, or one on the way to the other's. -/
def NoConflict (options : Entries) : Prop :=
  (settingsOf options).Pairwise fun s t => Apart s.1 t.1

theorem settingsOf_eq_flatMap (options : Entries) :
    settingsOf options = options.flatMap fun e =>
      (settings e.2).map fun s => (location e.1 ++ s.1, s.2) := by
  induction options with
  | nil => rfl
  | cons e options ih => rw [settingsOf, ih, List.flatMap_cons]

theorem NoConflict.perm {options options' : Entries} (h : options.Perm options')
    (hn : NoConflict options) : NoConflict options' := by
  unfold NoConflict at hn ⊢
  rw [settingsOf_eq_flatMap] at hn ⊢
  exact (List.Perm.pairwise_iff (fun h => Apart.symm h) (h.flatMap_right _)).1 hn

theorem normalizeEntries_append {options options' acc result : Entries} :
    normalizeEntries (options ++ options') acc = .ok result ↔
      ∃ middle, normalizeEntries options acc = .ok middle ∧
        normalizeEntries options' middle = .ok result := by
  induction options generalizing acc with
  | nil => simp [normalizeEntries]
  | cons e options ih =>
    obtain ⟨key, value⟩ := e
    simp only [List.cons_append, normalizeEntries_cons, ih]
    constructor
    · rintro ⟨v, part, parts, hv, hl, middle, hm, hr⟩
      exact ⟨middle, ⟨v, part, parts, hv, hl, hm⟩, hr⟩
    · rintro ⟨middle, ⟨v, part, parts, hv, hl, hm⟩, hr⟩
      exact ⟨v, part, parts, hv, hl, middle, hm, hr⟩

/-- An entry that comes last and whose location is on the way to another's takes that one's
settings away. -/
theorem not_reproduces_of_overwritten {rest : Entries} {long short : Key × Config}
    {target : List (List Key × Config)} (hp : location short.1 <+: location long.1)
    (hn : NoConflict (rest ++ [long, short]))
    (ht : ∀ s ∈ settingsOf (rest ++ [long, short]), s ∈ target) :
    ¬Reproduces (rest ++ [long, short]) target := by
  rintro ⟨result, hr, hiff⟩
  obtain ⟨q, v, hq⟩ := exists_setting long.2
  obtain ⟨x, hx⟩ := hp
  have hlong : (location long.1 ++ q, v) ∈ settingsOf (rest ++ [long, short]) :=
    mem_settingsOf.2 ⟨long, by simp, q, rfl, hq⟩
  have hspelled : ¬Spelled (x ++ q) := by
    have h := not_spelled_of_mem_settings (mem_settings_node.2 (.inr hlong))
    rw [← hx, List.append_assoc] at h
    exact fun hs => h (spelled_location_append.2 hs)
  have hleaf := (hiff _ v).2 (ht _ hlong)
  -- the place is below what the last entry assigns
  rw [show rest ++ [long, short] = (rest ++ [long]) ++ [short] by simp,
    normalizeEntries_append] at hr
  obtain ⟨middle, hmiddle, hlast⟩ := hr
  obtain ⟨value', part, parts, hvalue, hl, hlast⟩ := normalizeEntries_cons.1 hlast
  rw [normalizeEntries] at hlast
  rw [← Except.ok.inj hlast, ← hx, List.append_assoc, hl, List.cons_append, LeafAt,
    get?_put_append] at hleaf
  have hshort := mem_settings_of_entryValue hvalue hleaf hspelled fun m inner _ hinner hv =>
    mem_settingsOf_of_leafAt hinner hv hspelled
  -- so that the other entry makes the same setting again
  have hapart : Apart (location long.1 ++ q) (location short.1 ++ (x ++ q)) := by
    unfold NoConflict at hn
    rw [settingsOf_append, List.pairwise_append] at hn
    have hpair := hn.2.1
    rw [settingsOf_eq_flatMap, List.flatMap_cons, List.pairwise_append] at hpair
    exact hpair.2.2 _ (List.mem_map_of_mem hq) _ (by
      rw [List.flatMap_singleton]
      exact List.mem_map_of_mem hshort)
  rw [← List.append_assoc, hx] at hapart
  exact hapart.1 List.prefix_rfl

theorem locationsApart_of_reproduces {options : Entries} (hn : NoConflict options)
    (h : ∀ other, Reordered options other → Reproduces other (settings (.node options))) :
    LocationsApart options := by
  -- two entries of the options, the one with the longer location before the other
  have last : ∀ {long short : Key × Config} {rest}, options.Perm (rest ++ [long, short]) →
      ¬location short.1 <+: location long.1 := by
    intro long short rest hperm hp
    refine not_reproduces_of_overwritten hp (hn.perm hperm) (fun s hs => ?_) (h _ (.perm hperm))
    exact ((Reordered.perm hperm).mem_settings s).2 (mem_settings_node.2 (.inr hs))
  rw [LocationsApart, List.pairwise_map, List.pairwise_iff_forall_sublist]
  intro e e' hsub
  obtain ⟨rest, hperm⟩ := hsub.exists_perm_append
  have hlast : options.Perm (rest ++ [e, e']) := hperm.trans List.perm_append_comm
  have hswap : options.Perm (rest ++ [e', e]) :=
    hlast.trans ((List.Perm.swap e' e []).append_left rest)
  exact ⟨last hswap, last hlast⟩

/-- Under a dotted key every end of the value shows where it stands. -/
theorem allKeys_of_reproduces {options : Entries} (hd : Tree.Distinct (.node options))
    (ha : LocationsApart options) (h : Reproduces options (settings (.node options)))
    {e : Key × Config} (he : e ∈ options) (hkey : dotted e.1 = true) :
    e.2.AllKeys fun k => dotted k = false := by
  obtain ⟨result, hr, hiff⟩ := h
  obtain ⟨v, hv, hget⟩ := get?_of_locationsApart hr ha he
  rw [entryValue, if_pos hkey] at hv
  cases hv
  refine (allKeys_iff (hd.values e he)).2 fun p u hu c hc => ?_
  obtain ⟨q, w, hw⟩ := exists_leafAt u
  obtain ⟨hleaf, hchild⟩ := LeafAt.append hu hw
  have hs := (hiff (location e.1 ++ (p ++ q)) w).1 ⟨(hget _).trans hleaf, hchild⟩
  by_contra hdot
  refine not_spelled_of_mem_settings hs ⟨c, ?_, by simpa using hdot⟩
  simp [hc]

theorem NoConflict.inside {before after m : Entries} {key : Key} (hkey : dotted key = false)
    (hn : NoConflict (before ++ (key, .node m) :: after)) : NoConflict m := by
  unfold NoConflict at hn
  rw [settingsOf_append, List.pairwise_append] at hn
  have hin := hn.2.1
  rw [settingsOf, List.pairwise_append, List.pairwise_map, location_of_plain hkey] at hin
  cases m with
  | nil => exact List.Pairwise.nil
  | cons e m => exact hin.1.imp fun h => h.of_append

/-- Among locations apart, the settings below a key are those of its value. -/
theorem mem_settings_inside {options m : Entries} {key : Key} {p : List Key} {v : Config}
    (ha : LocationsApart options) (he : (key, .node m) ∈ options) (hkey : dotted key = false) :
    (key :: p, v) ∈ settings (.node options) ↔ (p, v) ∈ settings (.node m) := by
  have hne : ¬(options = [] ∧ key :: p = [] ∧ v = .node []) :=
    fun h => List.cons_ne_nil _ _ h.2.1
  rw [mem_settings_node, or_iff_right hne, mem_settingsOf]
  constructor
  · rintro ⟨e, hmem, q, hp, hq⟩
    by_cases hee : e = (key, .node m)
    · rw [hee, location_of_plain hkey, List.singleton_append] at hp
      rw [(List.cons.inj hp).2]
      rw [hee] at hq
      exact hq
    · -- another entry assigns apart from the key
      have hsymm : Std.Symm fun a b : Key × Config => Apart (location a.1) (location b.1) :=
        ⟨fun _ _ h => h.symm⟩
      have hapart := (List.pairwise_map.1 ha).forall hmem he hee
      rw [location_of_plain hkey] at hapart
      have hkeyp : [key] <+: key :: p := ⟨p, rfl⟩
      exact ((List.prefix_or_prefix_of_prefix ⟨q, hp.symm⟩ hkeyp).elim hapart.1 hapart.2).elim
  · intro hq
    exact ⟨_, he, p, by rw [location_of_plain hkey]; rfl, hq⟩

/-- In another order inside, the loop does the same there as the loop of that mapping. -/
theorem reproduces_inside {before after m other : Entries} {key : Key} (hkey : dotted key = false)
    (ha : LocationsApart (before ++ (key, .node m) :: after))
    (h : Reproduces (before ++ (key, .node other) :: after)
      (settings (.node (before ++ (key, .node m) :: after)))) :
    Reproduces other (settings (.node m)) := by
  obtain ⟨result, hr, hiff⟩ := h
  have ha' : LocationsApart (before ++ (key, .node other) :: after) := by
    simpa [LocationsApart] using ha
  obtain ⟨v, hv, hget⟩ := get?_of_locationsApart hr ha'
    (e := (key, .node other)) (by simp)
  rw [entryValue, if_neg (by simp [hkey]), normalizeValue_node] at hv
  obtain ⟨inner, hinner, rfl⟩ := hv
  refine ⟨inner, hinner, fun p v => ?_⟩
  rw [← mem_settings_inside ha (by simp) hkey, ← hiff]
  have hplace := hget p
  rw [location_of_plain hkey, List.singleton_append] at hplace
  rw [LeafAt, LeafAt, hplace]

theorem compatible_of_reproduces {options : Entries} (hd : Tree.Distinct (.node options))
    (hn : NoConflict options)
    (h : ∀ other, Reordered options other → Reproduces other (settings (.node options))) :
    Compatible options := by
  have all : ∀ t : Config, ∀ options, t = .node options → Tree.Distinct (.node options) →
      NoConflict options →
      (∀ other, Reordered options other → Reproduces other (settings (.node options))) →
      Compatible options := by
    intro t
    induction t using Tree.induction with
    | leaf a => exact fun _ he => by cases he
    | node es ih =>
      rintro options ⟨⟩ hd hn h
      have hself := h es (.perm (.refl es))
      have ha := locationsApart_of_reproduces hn h
      refine ⟨fun e he => ?_, fun e he hkey => allKeys_of_reproduces hd ha hself he hkey, ha,
        fun key m he hkey => ?_⟩
      · obtain ⟨result, hr, _⟩ := hself
        exact (normalizeEntries_isOk []).1 ⟨result, hr⟩ _ (.here he)
      · have hin := ih _ he m rfl (hd.values _ he)
        obtain ⟨before, after, rfl⟩ := List.append_of_mem he
        exact hin (hn.inside hkey) fun other hother =>
          reproduces_inside hkey ha (h _ (.inside before after key hother))
  exact all _ options rfl hd hn h

/-! ### Losing nothing -/

/-- In every order of the keys the loop gives exactly the settings of the options, and always
the same dictionary. -/
structure LosesNothing (options : Options) : Prop where
  settings : ∀ other, Reordered options.entries other →
    Reproduces other (settings (.node options.entries))
  order : ∀ other other' result result', Reordered options.entries other →
    Reordered options.entries other' → normalizeEntries other [] = .ok result →
      normalizeEntries other' [] = .ok result' → Same (.node result : Config) (.node result')

theorem losesNothing_iff {options : Options} (hn : NoConflict options.entries) :
    LosesNothing options ↔ Compatible options.entries := by
  constructor
  · exact fun h => compatible_of_reproduces options.distinct hn h.settings
  · intro hc
    have hreproduces : ∀ other, Reordered options.entries other →
        Reproduces other (Mongo.settings (.node options.entries)) := by
      intro other ho
      obtain ⟨result, hr, hiff⟩ := (ho.compatible hc).reproduces (ho.distinct options.distinct)
      exact ⟨result, hr, fun p v => (hiff p v).trans (ho.mem_settings (p, v)).symm⟩
    refine ⟨hreproduces, fun other other' result result' ho ho' hr hr' => ?_⟩
    obtain ⟨_, hr₁, hiff⟩ := hreproduces other ho
    obtain ⟨_, hr₂, hiff'⟩ := hreproduces other' ho'
    cases hr.symm.trans hr₁
    cases hr'.symm.trans hr₂
    exact same_of_leafAt fun p v => (hiff p v).trans (hiff' p v).symm

/-- A dotted key and a nested mapping under one parent. -/
def mixedOptions : Options :=
  ⟨[(.str "net.port", .leaf (.int 27017)), (.str "net", .node [(.str "ipv6", .leaf (.bool true))])],
    by simp⟩

/-- Settings under parents of their own. -/
def separateOptions : Options :=
  ⟨[(.str "net.port", .leaf (.int 27017)),
    (.str "storage", .node [(.str "journal.commitIntervalMs", .leaf (.int 100))])], by simp⟩

theorem losesNothing_iff_separate :
    LosesNothing separateOptions ↔ Compatible separateOptions.entries := by
  have hsettings : settingsOf separateOptions.entries =
      [([.str "net", .str "port"], .leaf (.int 27017)),
        ([.str "storage", .str "journal", .str "commitIntervalMs"], .leaf (.int 100))] := rfl
  exact losesNothing_iff (by simp [NoConflict, hsettings, Apart])

/-- The nested mapping takes the place of what the dotted key has set. -/
theorem not_losesNothing_mixed :
    NoConflict mixedOptions.entries ∧ ¬LosesNothing mixedOptions := by
  have hsettings : settingsOf mixedOptions.entries =
      [([.str "net", .str "port"], .leaf (.int 27017)),
        ([.str "net", .str "ipv6"], .leaf (.bool true))] := rfl
  refine ⟨by simp [NoConflict, hsettings, Apart], fun h => ?_⟩
  obtain ⟨result, hr, hiff⟩ := h.settings _ (.perm (.refl _))
  have hform : normalizeEntries mixedOptions.entries [] =
      .ok [(.str "net", .node [(.str "ipv6", .leaf (.bool true))])] := rfl
  cases hform.symm.trans hr
  have hport := (hiff [.str "net", .str "port"] (.leaf (.int 27017))).2
    (mem_settings_node.2 (.inr (by simp [hsettings])))
  cases hport.1

end Yggdrasil.Mongo
