import Yggdrasil.Library.Grouping
import Yggdrasil.Mongo.Grow

/-! How the members of a grow request are grouped into shards. The names that items carry
link them, a shard is a connected component, and one pass over the items finds the
components; whether it accepts a request can depend on the order of the items. -/

namespace Yggdrasil.Mongo

open Relation

/-- The names an item carries: the one it refers to and its own. -/
def Node.labels (item : Node) : List String :=
  (orNone item.relatedTo).toList ++ (orNone item.name).toList

/-- The name the item is grouped by. -/
def Node.key (item : Node) : Option String := (orNone item.relatedTo).or (orNone item.name)

theorem Node.key_mem {item : Node} {k : String} (h : item.key = some k) : k ∈ item.labels := by
  unfold key at h
  unfold labels
  cases hr : orNone item.relatedTo with
  | some r => simp_all
  | none => simp_all

theorem Node.labels_eq_nil {item : Node} : item.labels = [] ↔ item.key = none := by
  unfold key labels
  cases orNone item.relatedTo <;> cases orNone item.name <;> simp

theorem Node.exists_key {item : Node} (h : item.labels ≠ []) : ∃ k, item.key = some k :=
  Option.ne_none_iff_exists'.1 fun hk => h (labels_eq_nil.2 hk)

/-- Two items of the list that carry one name. -/
def Linked (items : List Node) (a b : Node) : Prop :=
  a ∈ items ∧ b ∈ items ∧ ∃ t, t ∈ a.labels ∧ t ∈ b.labels

/-- Joined by a chain of items each of which carries a name of the next. -/
def Connected (items : List Node) : Node → Node → Prop := ReflTransGen (Linked items)

/-- Belonging to one shard: connected, or in a request without any names. -/
def SameShard (items : List Node) (a b : Node) : Prop :=
  (∀ c ∈ items, c.labels = []) ∨ Connected items a b

theorem Linked.symm {items : List Node} {a b : Node} (h : Linked items a b) : Linked items b a := by
  obtain ⟨ha, hb, t, hta, htb⟩ := h
  exact ⟨hb, ha, t, htb, hta⟩

theorem Connected.symm {items : List Node} {a b : Node} (h : Connected items a b) :
    Connected items b a := by
  induction h with
  | refl => exact .refl
  | tail _ hl ih => exact ih.head hl.symm

theorem Connected.mono {items items' : List Node} (hs : items ⊆ items') {a b : Node}
    (h : Connected items a b) : Connected items' a b := by
  refine ReflTransGen.mono ?_ _ _ h
  rintro c d ⟨hc, hd, ht⟩
  exact ⟨hs hc, hs hd, ht⟩

theorem SameShard.symm {items : List Node} {a b : Node} (h : SameShard items a b) :
    SameShard items b a := h.imp id Connected.symm

theorem sameShard_of_perm {items items' : List Node} (h : items.Perm items') :
    SameShard items = SameShard items' := by
  funext a b
  refine propext ⟨?_, ?_⟩
  · rintro (hn | hc)
    · exact .inl fun c hc => hn c (h.mem_iff.2 hc)
    · exact .inr (hc.mono h.subset)
  · rintro (hn | hc)
    · exact .inl fun c hc => hn c (h.mem_iff.1 hc)
    · exact .inr (hc.mono h.symm.subset)

/-! ### One item -/

namespace Grouping

/-- The group with index `i` holds the item. -/
def Holds (g : Grouping) (i : ℕ) (a : Node) : Prop := ∃ group, g.groups[i]? = some group ∧ a ∈ group

/-- The index of the group of a name, that of a new group if the name was not met. -/
def index (g : Grouping) (key : String) : ℕ := (Dict.get? g.names key).getD g.groups.length

theorem index_of_get? {g : Grouping} {key : String} {i : ℕ} (h : Dict.get? g.names key = some i) :
    g.index key = i := by
  unfold index
  rw [h]
  rfl

/-- Every name that was met has a group. -/
def Bounded (g : Grouping) : Prop := ∀ t i, Dict.get? g.names t = some i → i < g.groups.length

/-- The names the item carries are new, or those of the group it goes to. -/
def Fits (g : Grouping) (item : Node) : Prop :=
  ∀ key, item.key = some key → ∀ t ∈ item.labels,
    Dict.get? g.names t = none ∨ Dict.get? g.names t = some (g.index key)

/-- The item was put into the group with index `i`. -/
structure Placed (g : Grouping) (item : Node) (i : ℕ) (g' : Grouping) : Prop where
  flatten : g'.groups.flatten.Perm (g.groups.flatten ++ [item])
  holds : ∀ j a, g'.Holds j a ↔ g.Holds j a ∨ (j = i ∧ a = item)
  nonempty : (∀ group ∈ g.groups, group ≠ []) → ∀ group ∈ g'.groups, group ≠ []
  length : g.groups.length ≤ g'.groups.length
  lt_length : i < g'.groups.length
  names : ∀ t, Dict.get? g'.names t = if t ∈ item.labels then some i else Dict.get? g.names t
  unnamed : g'.unnamed = g.unnamed

end Grouping

open Grouping

theorem flatten_modify {α : Type} {l : List (List α)} {i : ℕ} (hi : i < l.length) (a : α) :
    (l.modify i (· ++ [a])).flatten.Perm (l.flatten ++ [a]) := by
  induction l generalizing i with
  | nil => simp at hi
  | cons g l ih =>
    cases i with
    | zero =>
      simp only [List.modify_zero_cons, List.flatten_cons, List.append_assoc]
      have hlast : ([a] ++ l.flatten).Perm (l.flatten ++ [a]) := List.perm_append_comm
      exact hlast.append_left g
    | succ i =>
      simp only [List.modify_succ_cons, List.flatten_cons, List.append_assoc]
      exact (ih (by simpa using hi)).append_left g

/-- The groups with one for the name. -/
def Grouping.opened (g : Grouping) (key : String) : List (List Node) :=
  if (Dict.get? g.names key).isSome then g.groups else g.groups ++ [[]]

theorem Grouping.Bounded.index_lt {g : Grouping} (hb : g.Bounded) (key : String) :
    g.index key < (g.opened key).length := by
  unfold index opened
  cases h : Dict.get? g.names key with
  | none => simp
  | some i => simpa using hb key i h

theorem Grouping.getElem?_opened {g : Grouping} {key : String} {j : ℕ} {group : List Node}
    (h : (g.opened key)[j]? = some group) :
    g.groups[j]? = some group ∨ (j = g.index key ∧ group = []) := by
  unfold opened at h
  unfold index
  cases hk : Dict.get? g.names key with
  | some i =>
    rw [hk] at h
    exact .inl h
  | none =>
    rw [hk] at h
    rcases lt_or_ge j g.groups.length with hj | hj
    · exact .inl ((List.getElem?_append_left hj).symm.trans h)
    · have hlast : [([] : List Node)][j - g.groups.length]? = some group :=
        (List.getElem?_append_right hj).symm.trans h
      obtain ⟨hlt, heq⟩ := List.getElem?_eq_some_iff.1 hlast
      have hj' : j - g.groups.length = 0 := Nat.lt_one_iff.1 hlt
      refine .inr ⟨?_, ?_⟩
      · simp only [Option.getD_none]
        omega
      · rw [← heq]
        simp [hj']

theorem Grouping.getElem?_opened_of_some {g : Grouping} {key : String} {j : ℕ}
    {group : List Node} (h : g.groups[j]? = some group) : (g.opened key)[j]? = some group := by
  unfold opened
  split_ifs
  · exact h
  · rw [List.getElem?_append_left (List.getElem?_eq_some_iff.1 h).1]
    exact h

/-- The groups with one for the name, after the item was added to that of its index. -/
theorem Grouping.getElem?_modify_opened (g : Grouping) (key : String) (item : Node) (j : ℕ) :
    ((g.opened key).modify (g.index key) (· ++ [item]))[j]? =
      ((g.opened key)[j]?).map fun group => if g.index key = j then group ++ [item] else group := by
  rw [List.getElem?_modify]
  rcases eq_or_ne (g.index key) j with hj | hj <;> simp [hj]

theorem holds_opened {g : Grouping} (hb : g.Bounded) (key : String) (item : Node)
    (names : List (String × ℕ)) (j : ℕ) (a : Node) :
    Holds ⟨(g.opened key).modify (g.index key) (· ++ [item]), names, g.unnamed⟩ j a ↔
      g.Holds j a ∨ (j = g.index key ∧ a = item) := by
  have hold : ∀ group, (g.opened key)[j]? = some group → a ∈ group → g.Holds j a := by
    intro group hgroup ha
    rcases getElem?_opened hgroup with hg | ⟨-, rfl⟩
    · exact ⟨group, hg, ha⟩
    · cases ha
  unfold Holds
  simp only [g.getElem?_modify_opened]
  constructor
  · rintro ⟨group, hgroup, ha⟩
    obtain ⟨group, hg, rfl⟩ := Option.map_eq_some_iff.1 hgroup
    split_ifs at ha with hj
    · rcases List.mem_append.1 ha with ha | ha
      · exact .inl (hold group hg ha)
      · exact .inr ⟨hj.symm, List.mem_singleton.1 ha⟩
    · exact .inl (hold group hg ha)
  · rintro (⟨group, hg, ha⟩ | ⟨rfl, rfl⟩)
    · refine ⟨_, by rw [getElem?_opened_of_some hg]; rfl, ?_⟩
      split_ifs
      · exact List.mem_append_left _ ha
      · exact ha
    · exact ⟨_, by rw [List.getElem?_eq_getElem (hb.index_lt key)]; rfl, by simp⟩

theorem placed_opened {g : Grouping} (hb : g.Bounded) (item : Node) (key : String)
    (names : List (String × ℕ)) (hnames : ∀ t, Dict.get? names t =
      if t ∈ item.labels then some (g.index key) else Dict.get? g.names t) :
    g.Placed item (g.index key)
      ⟨(g.opened key).modify (g.index key) (· ++ [item]), names, g.unnamed⟩ where
  flatten := by
    have hflat : (g.opened key).flatten = g.groups.flatten := by
      unfold opened
      split_ifs <;> simp
    exact hflat ▸ flatten_modify (hb.index_lt key) item
  holds := holds_opened hb key item names
  nonempty := by
    intro hne group hgroup
    obtain ⟨j, hj⟩ := List.mem_iff_getElem?.1 hgroup
    obtain ⟨group, hg, rfl⟩ :=
      Option.map_eq_some_iff.1 ((g.getElem?_modify_opened key item j).symm.trans hj)
    split_ifs with hij
    · simp
    · rcases getElem?_opened hg with hg' | ⟨hj', -⟩
      · exact hne group (List.mem_of_getElem? hg')
      · exact absurd hj'.symm hij
  length := by
    have hlen : g.groups.length ≤ (g.opened key).length := by
      unfold opened
      split_ifs <;> simp
    simpa using hlen
  lt_length := by simpa using hb.index_lt key
  names := hnames
  unnamed := rfl

theorem groupItem_of_unlabelled {g : Grouping} {item : Node} (h : item.labels = []) :
    groupItem g item = .ok { g with unnamed := g.unnamed ++ [item] } := by
  have hk : (orNone item.relatedTo).or (orNone item.name) = none := Node.labels_eq_nil.1 h
  unfold groupItem
  rw [hk]

/-- The group of the key takes the item before its own name is looked at. -/
theorem groupItem_eq (g : Grouping) {item : Node} {key : String} (hk : item.key = some key) :
    ∃ names, (∀ t, Dict.get? names t =
        if t = key then some (g.index key) else Dict.get? g.names t) ∧
      (orNone item.name = none → groupItem g item =
        .ok ⟨(g.opened key).modify (g.index key) (· ++ [item]), names, g.unnamed⟩) ∧
      ∀ name, orNone item.name = some name → groupItem g item =
        if (Dict.get? names name).any (· != g.index key) then .error (.rejected (.trove
          "Replica member names cannot belong to multiple MongoDB shards"))
        else .ok ⟨(g.opened key).modify (g.index key) (· ++ [item]),
          Dict.set names name (g.index key), g.unnamed⟩ := by
  unfold Node.key at hk
  unfold groupItem opened index
  rw [hk]
  cases hg : Dict.get? g.names key with
  | some i =>
    refine ⟨g.names, fun t => ?_, fun hname => ?_, fun name hname => ?_⟩
    · split_ifs with ht
      · rw [ht, hg, Option.getD_some]
      · rfl
    · simp [hg, hname]
    · simp [hg, hname]
  | none =>
    refine ⟨Dict.set g.names key g.groups.length, fun t => ?_, fun hname => ?_,
      fun name hname => ?_⟩
    · split_ifs with ht
      · rw [ht, Dict.get?_set_self, Option.getD_none]
      · rw [Dict.get?_set_of_ne ht]
    · simp [hg, hname]
    · simp [hg, hname]

theorem Node.labels_of_key {item : Node} {k : String} (hk : item.key = some k) :
    ∀ t, t ∈ item.labels ↔ t = k ∨ orNone item.name = some t := by
  intro t
  unfold key at hk
  unfold labels
  cases hr : orNone item.relatedTo with
  | some r =>
    have hrk : r = k := by simpa [hr] using hk
    cases orNone item.name <;> simp [hrk, eq_comm]
  | none =>
    have hn : orNone item.name = some k := by simpa [hr] using hk
    simp [hn, eq_comm]

/-- The item fits if the group of its own name, if there is one, is that of its key. -/
theorem fits_iff {g : Grouping} {item : Node} {key : String} (hk : item.key = some key)
    {names : List (String × ℕ)} (hnames : ∀ t, Dict.get? names t =
      if t = key then some (g.index key) else Dict.get? g.names t) :
    g.Fits item ↔ ∀ name, orNone item.name = some name →
      (Dict.get? names name).any (· != g.index key) = false := by
  have hself : Dict.get? g.names key = none ∨ Dict.get? g.names key = some (g.index key) := by
    cases hg : Dict.get? g.names key with
    | none => exact .inl rfl
    | some i => exact .inr (by rw [index_of_get? hg])
  have hlabels := Node.labels_of_key hk
  constructor
  · intro hf name hname
    rw [hnames]
    split_ifs with h
    · simp
    · rcases hf key hk name ((hlabels name).2 (.inr hname)) with hn | hn <;> simp [hn]
  · intro hf key' hk' t ht
    cases hk.symm.trans hk'
    rcases (hlabels t).1 ht with rfl | hname
    · exact hself
    · have hany := hf t hname
      rw [hnames] at hany
      split_ifs at hany with htk
      · rw [htk]
        exact hself
      · cases hg : Dict.get? g.names t with
        | none => exact .inl rfl
        | some i => exact .inr (by simpa [hg] using hany)

/-- An item that fits goes to the group of its key, and one that does not is refused. -/
theorem groupItem_of_key {g : Grouping} (hb : g.Bounded) {item : Node} {key : String}
    (hk : item.key = some key) :
    (g.Fits item → ∃ g', groupItem g item = .ok g' ∧ g.Placed item (g.index key) g') ∧
      (¬g.Fits item → ∃ x, groupItem g item = .error x) := by
  obtain ⟨names, hnames, hnone, hsome⟩ := groupItem_eq g hk
  have hfits := fits_iff hk hnames
  have hlabels := Node.labels_of_key hk
  cases hname : orNone item.name with
  | none =>
    refine ⟨fun _ => ⟨_, hnone hname, placed_opened hb item key _ fun t => ?_⟩, fun hn => ?_⟩
    · simp [hnames, hlabels, hname]
    · exact absurd (hfits.2 fun name h => by cases hname.symm.trans h) hn
  | some name =>
    have heq := hsome name hname
    refine ⟨fun hf => ⟨_, ?_, placed_opened hb item key (Dict.set names name (g.index key))
      fun t => ?_⟩, fun hn => ?_⟩
    · have hany := hfits.1 hf name hname
      rw [heq]
      simp only [hany, Bool.false_eq_true, if_false]
    · simp only [hlabels, hname, Option.some.injEq]
      rcases eq_or_ne t name with rfl | ht
      · simp
      · simp [Dict.get?_set_of_ne ht, hnames, ht.symm]
    · cases hany : (Dict.get? names name).any (· != g.index key) with
      | true => exact ⟨_, heq.trans (if_pos hany)⟩
      | false =>
        refine absurd (hfits.2 fun name' h => ?_) hn
        cases hname.symm.trans h
        exact hany

/-- An item that is not refused has no names and is put aside, or is placed by its key. -/
theorem groupItem_cases {g g' : Grouping} (hb : g.Bounded) {item : Node}
    (h : groupItem g item = .ok g') :
    (item.labels = [] ∧ g' = { g with unnamed := g.unnamed ++ [item] }) ∨
      ∃ key, item.key = some key ∧ g.Fits item ∧ g.Placed item (g.index key) g' := by
  by_cases hl : item.labels = []
  · rw [groupItem_of_unlabelled hl] at h
    exact .inl ⟨hl, (Except.ok.inj h).symm⟩
  · obtain ⟨key, hk⟩ := Node.exists_key hl
    obtain ⟨hok, herr⟩ := groupItem_of_key hb hk
    by_cases hfit : g.Fits item
    · obtain ⟨g'', hg'', hp⟩ := hok hfit
      cases h.symm.trans hg''
      exact .inr ⟨key, hk, hfit, hp⟩
    · obtain ⟨x, hx⟩ := herr hfit
      cases h.symm.trans hx

/-! ### The pass -/

/-- What every item keeps, the pass over a list keeps. -/
theorem foldlM_groupItem {P : List Node → Grouping → Prop}
    (hstep : ∀ done g item g', P done g → groupItem g item = .ok g' → P (done ++ [item]) g')
    {done l : List Node} {g g' : Grouping} (h : P done g) (hg : l.foldlM groupItem g = .ok g') :
    P (done ++ l) g' := by
  induction l generalizing done g with
  | nil =>
    cases hg
    rwa [List.append_nil]
  | cons item l ih =>
    rw [List.foldlM_cons] at hg
    cases hs : groupItem g item with
    | error x =>
      rw [hs] at hg
      cases hg
    | ok g₁ =>
      rw [hs] at hg
      have hrest := ih (hstep done g item g₁ h hs) hg
      rwa [List.append_assoc] at hrest

/-- What the grouping says about the items passed so far. -/
structure Grouping.Consistent (done : List Node) (g : Grouping) : Prop where
  all : (g.groups.flatten ++ g.unnamed).Perm done
  nonempty : ∀ group ∈ g.groups, group ≠ []
  labelled : ∀ i a, g.Holds i a → a.labels ≠ []
  unlabelled : ∀ a ∈ g.unnamed, a.labels = []
  bounded : g.Bounded
  named : ∀ i a, g.Holds i a → ∀ t ∈ a.labels, Dict.get? g.names t = some i
  carried : ∀ t i, Dict.get? g.names t = some i → ∃ a, g.Holds i a ∧ t ∈ a.labels
  connected : ∀ i a b, g.Holds i a → g.Holds i b → Connected done a b

theorem Grouping.Holds.mem {g : Grouping} {i : ℕ} {a : Node} (h : g.Holds i a) :
    a ∈ g.groups.flatten := by
  obtain ⟨group, hgroup, ha⟩ := h
  exact List.mem_flatten.2 ⟨group, List.mem_of_getElem? hgroup, ha⟩

theorem Grouping.exists_holds {g : Grouping} {a : Node} (h : a ∈ g.groups.flatten) :
    ∃ i, g.Holds i a := by
  obtain ⟨group, hgroup, ha⟩ := List.mem_flatten.1 h
  obtain ⟨i, hi⟩ := List.mem_iff_getElem?.1 hgroup
  exact ⟨i, group, hi, ha⟩

theorem consistent_nil : Grouping.Consistent [] ⟨[], [], []⟩ where
  all := .refl _
  nonempty := by simp
  labelled := by rintro i a ⟨group, h, -⟩; simp at h
  unlabelled := by simp
  bounded := by intro t i h; simp at h
  named := by rintro i a ⟨group, h, -⟩; simp at h
  carried := by intro t i h; simp at h
  connected := by rintro i a b ⟨group, h, -⟩; simp at h

namespace Grouping.Consistent

variable {done : List Node} {g g' : Grouping} {item : Node}

theorem holds_mem (h : Consistent done g) {i : ℕ} {a : Node} (ha : g.Holds i a) : a ∈ done :=
  h.all.mem_iff.1 (List.mem_append_left _ ha.mem)

/-- A name was met exactly if an item passed carries it. -/
theorem isSome_iff (h : Consistent done g) (t : String) :
    (Dict.get? g.names t).isSome ↔ ∃ a ∈ done, t ∈ a.labels := by
  constructor
  · intro ht
    obtain ⟨i, hi⟩ := Option.isSome_iff_exists.1 ht
    obtain ⟨a, ha, hta⟩ := h.carried t i hi
    exact ⟨a, h.holds_mem ha, hta⟩
  · rintro ⟨a, ha, hta⟩
    rcases List.mem_append.1 (h.all.mem_iff.2 ha) with hg | hu
    · obtain ⟨i, hi⟩ := exists_holds hg
      rw [h.named i a hi t hta]
      rfl
    · rw [h.unlabelled a hu] at hta
      cases hta

/-- The names of one item belong to one group. -/
theorem same_index (h : Consistent done g) {a : Node} (ha : a ∈ done) {s t : String}
    (hs : s ∈ a.labels) (ht : t ∈ a.labels) : Dict.get? g.names s = Dict.get? g.names t := by
  rcases List.mem_append.1 (h.all.mem_iff.2 ha) with hg | hu
  · obtain ⟨i, hi⟩ := exists_holds hg
    rw [h.named i a hi s hs, h.named i a hi t ht]
  · rw [h.unlabelled a hu] at hs
    cases hs

theorem unlabelled_step (h : Consistent done g) (hi : item.labels = []) :
    Consistent (done ++ [item]) { g with unnamed := g.unnamed ++ [item] } where
  all := by
    rw [← List.append_assoc]
    exact h.all.append_right _
  nonempty := h.nonempty
  labelled := h.labelled
  unlabelled := by
    intro a ha
    rcases List.mem_append.1 ha with ha | ha
    · exact h.unlabelled a ha
    · rwa [List.mem_singleton.1 ha]
  bounded := h.bounded
  named := h.named
  carried := h.carried
  connected i a b ha hb := (h.connected i a b ha hb).mono (List.subset_append_left _ _)

/-- What the group of the key holds carries the key, or is connected to what does. -/
theorem connected_last (h : Consistent done g) {key : String} (hk : item.key = some key) {a : Node}
    (ha : g.Holds (g.index key) a) : Connected (done ++ [item]) a item := by
  cases hg : Dict.get? g.names key with
  | none =>
    obtain ⟨group, hgroup, -⟩ := ha
    have hlt : g.index key < g.groups.length := (List.getElem?_eq_some_iff.1 hgroup).1
    simp [index, hg] at hlt
  | some i =>
    rw [index_of_get? hg] at ha
    obtain ⟨c, hc, hkc⟩ := h.carried key i hg
    refine ((h.connected i a c ha hc).mono (List.subset_append_left _ _)).tail ?_
    exact ⟨List.mem_append_left _ (h.holds_mem hc), by simp, key, hkc, Node.key_mem hk⟩

/-- The item is linked to what its group held before. -/
theorem placed_step (h : Consistent done g) {key : String} (hk : item.key = some key)
    (hfit : g.Fits item) (hp : g.Placed item (g.index key) g') :
    Consistent (done ++ [item]) g' where
  all := by
    rw [hp.unnamed]
    refine (hp.flatten.append_right _).trans ?_
    rw [List.append_assoc]
    refine (List.perm_append_comm.append_left _).trans ?_
    rw [← List.append_assoc]
    exact h.all.append_right _
  nonempty := hp.nonempty h.nonempty
  labelled := by
    intro i a ha
    rcases (hp.holds i a).1 ha with ha | ⟨-, rfl⟩
    · exact h.labelled i a ha
    · exact List.ne_nil_of_mem (Node.key_mem hk)
  unlabelled := by
    rw [hp.unnamed]
    exact h.unlabelled
  bounded := by
    intro t i ht
    rw [hp.names] at ht
    split_ifs at ht with hl
    · rw [← Option.some.inj ht]
      exact hp.lt_length
    · exact (h.bounded t i ht).trans_le hp.length
  named := by
    intro i a ha t hta
    rw [hp.names]
    rcases (hp.holds i a).1 ha with ha | ⟨rfl, rfl⟩
    · have hnamed := h.named i a ha t hta
      split_ifs with hl
      · rcases hfit key hk t hl with hn | hn
        · cases hn.symm.trans hnamed
        · exact hn.symm.trans hnamed
      · exact hnamed
    · rw [if_pos hta]
  carried := by
    intro t i ht
    rw [hp.names] at ht
    split_ifs at ht with hl
    · exact ⟨item, (hp.holds i item).2 (.inr ⟨(Option.some.inj ht).symm, rfl⟩), hl⟩
    · obtain ⟨a, ha, hta⟩ := h.carried t i ht
      exact ⟨a, (hp.holds i a).2 (.inl ha), hta⟩
  connected := by
    intro i a b ha hb
    rcases (hp.holds i a).1 ha with ha | ⟨rfl, rfl⟩ <;>
      rcases (hp.holds _ b).1 hb with hb | ⟨hi, rfl⟩
    · exact (h.connected i a b ha hb).mono (List.subset_append_left _ _)
    · exact h.connected_last hk (hi ▸ ha)
    · exact (h.connected_last hk hb).symm
    · exact .refl

/-- A step that succeeds keeps the grouping consistent. -/
theorem step (h : Consistent done g) (hg : groupItem g item = .ok g') :
    Consistent (done ++ [item]) g' := by
  rcases groupItem_cases h.bounded hg with ⟨hl, rfl⟩ | ⟨key, hk, hfit, hp⟩
  · exact h.unlabelled_step hl
  · exact h.placed_step hk hfit hp

/-- The groups are the connected components. -/
theorem grouped (h : Consistent done g) (hu : g.unnamed = []) :
    Grouped (Connected done) done g.groups := by
  have hall : g.groups.flatten.Perm done := by simpa [hu] using h.all
  refine ⟨h.nonempty, hall, ?_, ?_⟩
  · intro group hgroup a ha b hb
    obtain ⟨i, hi⟩ := List.mem_iff_getElem?.1 hgroup
    exact h.connected i a b ⟨group, hi, ha⟩ ⟨group, hi, hb⟩
  · rw [List.pairwise_iff_getElem]
    intro i j hi hj hij a ha b hb hab
    have hstay : ∀ c, Connected done a c → g.Holds i c := by
      intro c hc
      induction hc with
      | refl => exact ⟨_, List.getElem?_eq_getElem hi, ha⟩
      | tail _ hl ih =>
        obtain ⟨-, hd, t, htc, htd⟩ := hl
        obtain ⟨k, hk⟩ := exists_holds (hall.mem_iff.2 hd)
        have hik : i = k := Option.some.inj ((h.named i _ ih t htc).symm.trans (h.named k _ hk t htd))
        rwa [hik]
    have hbi := hstay b hab
    have hbj : g.Holds j b := ⟨_, List.getElem?_eq_getElem hj, hb⟩
    obtain ⟨t, ht⟩ := List.exists_mem_of_ne_nil _ (h.labelled i b hbi)
    exact hij.ne (Option.some.inj ((h.named i b hbi t ht).symm.trans (h.named j b hbj t ht)))

end Grouping.Consistent

end Yggdrasil.Mongo
