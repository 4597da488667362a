import Yggdrasil.Mongo.ShardGroups

/-! Which orders of the items the grouping accepts. An item is refused when its own name was
met before in another group, so a request is accepted in every order if whoever carries the
name of a referring item also refers to what it refers to, and in some order if the names of
every component lead to one of them. -/

namespace Yggdrasil.Mongo

open Grouping Relation

/-- An item of the list with the first name refers to the second. -/
def Refers (items : List Node) (s t : String) : Prop :=
  ∃ a ∈ items, orNone a.name = some s ∧ orNone a.relatedTo = some t

/-- The name of an item that refers to another name comes with that name wherever it is used. -/
def Tied (items : List Node) : Prop :=
  ∀ a ∈ items, ∀ s t, orNone a.name = some s → orNone a.relatedTo = some t →
    ∀ b ∈ items, s ∈ b.labels → t ∈ b.labels

/-- The names of every item lead, from referring name to name referred to, to one root. -/
def Rooted (items : List Node) : Prop :=
  ∃ root : String → String,
    (∀ a ∈ items, ∀ s ∈ a.labels, ∀ t ∈ a.labels, root s = root t) ∧
      ∀ a ∈ items, ∀ t ∈ a.labels, ReflTransGen (Refers items) t (root t)

theorem Refers.mono {items items' : List Node} (hs : items ⊆ items') {s t : String}
    (h : Refers items s t) : Refers items' s t := by
  obtain ⟨a, ha, hst⟩ := h
  exact ⟨a, hs ha, hst⟩

theorem reaches_mono {items items' : List Node} (hs : items ⊆ items') {s t : String}
    (h : ReflTransGen (Refers items) s t) : ReflTransGen (Refers items') s t := by
  refine ReflTransGen.mono ?_ _ _ h
  intro u v huv
  exact huv.mono hs

theorem Refers.mem_labels {a : Node} {s t : String} (hs : orNone a.name = some s)
    (ht : orNone a.relatedTo = some t) : s ∈ a.labels ∧ t ∈ a.labels := by
  unfold Node.labels
  simp [hs, ht]

theorem Refers.key {a : Node} {t : String} (ht : orNone a.relatedTo = some t) :
    a.key = some t := by
  unfold Node.key
  simp [ht]

/-- The names of an item lead to its key. -/
theorem reaches_key {items : List Node} {a : Node} (ha : a ∈ items) {k t : String}
    (hk : a.key = some k) (ht : t ∈ a.labels) : ReflTransGen (Refers items) t k := by
  rcases (Node.labels_of_key hk t).1 ht with rfl | hname
  · exact .refl
  · cases hr : orNone a.relatedTo with
    | some r =>
      cases hk.symm.trans (Refers.key hr)
      exact .single ⟨a, ha, hname, hr⟩
    | none =>
      have hkn : orNone a.name = some k := by simpa [Node.key, hr] using hk
      cases hkn.symm.trans hname
      exact .refl

/-! ### Accepted requests -/

def Accepted (items : List Node) : Prop := ∃ groups, groupShardInstances items = .ok groups

/-- The pass over the items ends. -/
def Groupable (g : Grouping) (items : List Node) : Prop := ∃ g', items.foldlM groupItem g = .ok g'

theorem all_unlabelled_iff (items : List Node) :
    (items.all fun item => (orNone item.name).isNone && (orNone item.relatedTo).isNone) = true ↔
      ∀ a ∈ items, a.labels = [] := by
  simp only [List.all_eq_true, Bool.and_eq_true, Option.isNone_iff_eq_none, Node.labels,
    List.append_eq_nil_iff, Option.toList_eq_nil_iff]
  exact ⟨fun h a ha => (h a ha).symm, fun h a ha => (h a ha).symm⟩

theorem groupShardInstances_of_unlabelled {items : List Node} (h : ∀ a ∈ items, a.labels = []) :
    groupShardInstances items = .ok (if items = [] then [] else [items]) := by
  unfold groupShardInstances
  rw [if_pos ((all_unlabelled_iff items).2 h)]
  cases items <;> simp

theorem groupShardInstances_of_labelled {items : List Node} (h : ¬∀ a ∈ items, a.labels = []) :
    groupShardInstances items = match items.foldlM groupItem ⟨[], [], []⟩ with
      | .error x => .error x
      | .ok g =>
        if g.unnamed.isEmpty then .ok g.groups
        else .error (.rejected (.trove
          "Named MongoDB replica members are required when related_to is used")) := by
  unfold groupShardInstances
  have hne : items.isEmpty = false := by
    cases items with
    | nil => exact absurd (fun a ha => by cases ha) h
    | cons a l => rfl
  rw [hne, if_neg (mt (all_unlabelled_iff items).1 h)]
  rfl

theorem run_consistent {items : List Node} {g : Grouping}
    (h : items.foldlM groupItem ⟨[], [], []⟩ = .ok g) : Consistent items g :=
  foldlM_groupItem (fun _ _ _ _ hc hg => hc.step hg) consistent_nil h

/-- What is accepted is grouped by the shards the names make. -/
theorem groupShardInstances_grouped {items : List Node} {groups : List (List Node)}
    (h : groupShardInstances items = .ok groups) : Grouped (SameShard items) items groups := by
  by_cases hn : ∀ a ∈ items, a.labels = []
  · rw [groupShardInstances_of_unlabelled hn] at h
    cases h
    split_ifs with hi
    · rw [hi]
      exact ⟨by simp, .refl _, by simp, .nil⟩
    · exact ⟨by simpa using hi, by simp, fun _ _ _ _ _ _ => .inl hn, by simp⟩
  · rw [groupShardInstances_of_labelled hn] at h
    cases hr : items.foldlM groupItem ⟨[], [], []⟩ with
    | error x =>
      rw [hr] at h
      cases h
    | ok g =>
      rw [hr] at h
      dsimp only at h
      split_ifs at h with hu
      cases h
      refine ((run_consistent hr).grouped (List.isEmpty_iff.1 hu)).mono fun a _ b _ => ?_
      exact ⟨.inr, fun hs => hs.resolve_left hn⟩

/-- A request that mixes items with and without names is refused. -/
theorem not_accepted_of_mixed {items : List Node} {a : Node} (ha : a ∈ items)
    (hl : a.labels = []) (hn : ¬∀ a ∈ items, a.labels = []) : ¬Accepted items := by
  rintro ⟨groups, h⟩
  rw [groupShardInstances_of_labelled hn] at h
  cases hr : items.foldlM groupItem ⟨[], [], []⟩ with
  | error x =>
    rw [hr] at h
    cases h
  | ok g =>
    rw [hr] at h
    dsimp only at h
    split_ifs at h with hu
    have hc := run_consistent hr
    rcases List.mem_append.1 (hc.all.mem_iff.2 ha) with hg | hg
    · obtain ⟨i, hi⟩ := exists_holds hg
      exact hc.labelled i a hi hl
    · rw [List.isEmpty_iff.1 hu] at hg
      cases hg

/-- With a name on every item, what counts is that the pass ends. -/
theorem accepted_iff_groupable {items : List Node} (h : ∀ a ∈ items, a.labels ≠ []) :
    Accepted items ↔ Groupable ⟨[], [], []⟩ items := by
  by_cases hn : ∀ a ∈ items, a.labels = []
  · have hnil : items = [] := List.eq_nil_iff_forall_not_mem.2 fun a ha => h a ha (hn a ha)
    subst hnil
    exact ⟨fun _ => ⟨_, rfl⟩, fun _ => ⟨_, rfl⟩⟩
  · unfold Accepted
    rw [groupShardInstances_of_labelled hn]
    constructor
    · rintro ⟨groups, hg⟩
      cases hr : items.foldlM groupItem ⟨[], [], []⟩ with
      | error x =>
        rw [hr] at hg
        cases hg
      | ok g => exact ⟨g, hr⟩
    · rintro ⟨g, hr⟩
      have hc := run_consistent hr
      have hu : g.unnamed = [] := by
        refine List.eq_nil_iff_forall_not_mem.2 fun a ha => ?_
        exact h a (hc.all.mem_iff.1 (List.mem_append_right _ ha)) (hc.unlabelled a ha)
      rw [hr]
      exact ⟨g.groups, by simp [hu]⟩

theorem groupable_cons {g : Grouping} {item : Node} {l : List Node} :
    Groupable g (item :: l) ↔ ∃ g₁, groupItem g item = .ok g₁ ∧ Groupable g₁ l := by
  unfold Groupable
  rw [List.foldlM_cons]
  cases hs : groupItem g item with
  | error x =>
    constructor
    · rintro ⟨g', hg'⟩
      cases hg'
    · rintro ⟨g₁, h₁, -⟩
      cases h₁
  | ok g₁ =>
    constructor
    · rintro ⟨g', hg'⟩
      exact ⟨g₁, rfl, g', hg'⟩
    · rintro ⟨g₂, h₂, g', hg'⟩
      cases h₂
      exact ⟨g', hg'⟩

/-! ### Every order -/

theorem fits_of_tied {items done : List Node} {g : Grouping} {item : Node}
    (hs : Tied items) (hsub : done ⊆ items) (hitem : item ∈ items)
    (hc : Consistent done g) : g.Fits item := by
  intro key hk t ht
  cases hg : Dict.get? g.names t with
  | none => exact .inl rfl
  | some i =>
    -- the item that brought the name also brought the key
    obtain ⟨b, hb, htb⟩ := hc.carried t i hg
    have hkb : key ∈ b.labels := by
      rcases (Node.labels_of_key hk t).1 ht with rfl | hname
      · exact htb
      · cases hr : orNone item.relatedTo with
        | none =>
          have hkn : orNone item.name = some key := by simpa [Node.key, hr] using hk
          cases hkn.symm.trans hname
          exact htb
        | some r =>
          cases hk.symm.trans (Refers.key hr)
          exact hs item hitem t key hname hr b (hsub (hc.holds_mem hb)) htb
    rw [index_of_get? (hc.named i b hb key hkb)]
    exact .inr rfl

theorem groupable_of_tied {items : List Node} (hs : Tied items)
    (hl : ∀ a ∈ items, a.labels ≠ []) {done rest : List Node} {g : Grouping}
    (hsub : done ++ rest ⊆ items) (hc : Consistent done g) : Groupable g rest := by
  induction rest generalizing done g with
  | nil => exact ⟨g, rfl⟩
  | cons item rest ih =>
    have hitem : item ∈ items := hsub (List.mem_append_right _ List.mem_cons_self)
    obtain ⟨key, hk⟩ := Node.exists_key (hl item hitem)
    have hfit := fits_of_tied hs (fun a ha => hsub (List.mem_append_left _ ha)) hitem hc
    obtain ⟨g₁, hg₁, hp⟩ := (groupItem_of_key hc.bounded hk).1 hfit
    refine groupable_cons.2 ⟨g₁, hg₁, ih ?_ (hc.placed_step hk hfit hp)⟩
    rwa [List.append_assoc]

/-- An item whose name was met without the name it refers to is refused. -/
theorem not_groupable_of_untied {a b : Node} {s t : String} (hs : orNone a.name = some s)
    (ht : orNone a.relatedTo = some t) (hsb : s ∈ b.labels) (htb : t ∉ b.labels)
    (rest : List Node) : ¬Groupable ⟨[], [], []⟩ (b :: a :: rest) := by
  intro h
  obtain ⟨g₁, hg₁, h⟩ := groupable_cons.1 h
  obtain ⟨g₂, hg₂, -⟩ := groupable_cons.1 h
  have hc : Consistent [b] g₁ := consistent_nil.step hg₁
  have hst : Dict.get? g₁.names t = none := by
    refine Option.not_isSome_iff_eq_none.1 fun hsome => ?_
    obtain ⟨c, hcb, htc⟩ := (hc.isSome_iff t).1 hsome
    rw [List.mem_singleton.1 hcb] at htc
    exact htb htc
  obtain ⟨i, hi⟩ := Option.isSome_iff_exists.1 ((hc.isSome_iff s).2 ⟨b, by simp, hsb⟩)
  have hnot : ¬g₁.Fits a := by
    intro hf
    have hidx : g₁.index t = g₁.groups.length := by simp [index, hst]
    rcases hf t (Refers.key ht) s (Refers.mem_labels hs ht).1 with hn | hn
    · cases hi.symm.trans hn
    · rw [hidx, hi] at hn
      exact (hc.bounded s i hi).ne (Option.some.inj hn)
  obtain ⟨x, hx⟩ := (groupItem_of_key hc.bounded (Refers.key ht)).2 hnot
  cases hg₂.symm.trans hx

/-- With a name on every item, every order is accepted exactly if the names are tied. -/
theorem forall_accepted_iff {items : List Node} (hl : ∀ a ∈ items, a.labels ≠ []) :
    (∀ items', items'.Perm items → Accepted items') ↔ Tied items := by
  constructor
  · intro h a ha s t hs ht b hb hsb
    by_contra htb
    have hab : b ≠ a := by
      rintro rfl
      exact htb (Refers.mem_labels hs ht).2
    classical
    have hfirst : items.Perm (a :: b :: (items.erase a).erase b) :=
      (List.perm_cons_erase ha).trans
        ((List.perm_cons_erase ((List.mem_erase_of_ne hab).2 hb)).cons a)
    have hswap := hfirst.trans (List.Perm.swap b a _)
    have hl' : ∀ c ∈ b :: a :: (items.erase a).erase b, c.labels ≠ [] := fun c hc =>
      hl c (hswap.mem_iff.2 hc)
    exact not_groupable_of_untied hs ht hsb htb _ ((accepted_iff_groupable hl').1 (h _ hswap.symm))
  · intro hs items' hp
    have hl' : ∀ a ∈ items', a.labels ≠ [] := fun a ha => hl a (hp.mem_iff.1 ha)
    exact (accepted_iff_groupable hl').2
      (groupable_of_tied hs hl (by simpa using hp.subset) consistent_nil)

/-! ### Some order -/

/-- The names of each group lead to one of them. -/
def Grouping.Led (done : List Node) (g : Grouping) : Prop :=
  ∀ i, ∃ root, ∀ t, Dict.get? g.names t = some i → ReflTransGen (Refers done) t root

theorem led_step {done : List Node} {g g' : Grouping} {item : Node} (hc : Consistent done g)
    (hr : g.Led done) (hg : groupItem g item = .ok g') : g'.Led (done ++ [item]) := by
  have hmono : ∀ {s t}, ReflTransGen (Refers done) s t →
      ReflTransGen (Refers (done ++ [item])) s t := reaches_mono (List.subset_append_left _ _)
  rcases groupItem_cases hc.bounded hg with ⟨-, rfl⟩ | ⟨key, hk, -, hp⟩
  · intro i
    obtain ⟨root, hroot⟩ := hr i
    exact ⟨root, fun t ht => hmono (hroot t ht)⟩
  · have hreach : ∀ t ∈ item.labels, ReflTransGen (Refers (done ++ [item])) t key := fun t ht =>
      reaches_key (List.mem_append_right _ (List.mem_singleton_self _)) hk ht
    intro i
    -- a new group has the key for its root, an old one keeps the root it has
    by_cases hnew : i = g.index key ∧ Dict.get? g.names key = none
    · refine ⟨key, fun t ht => ?_⟩
      rw [hp.names] at ht
      split_ifs at ht with htl
      · exact hreach t htl
      · have hlt := hc.bounded t i ht
        rw [hnew.1, index, hnew.2] at hlt
        exact absurd hlt (lt_irrefl _)
    · obtain ⟨root, hroot⟩ := hr i
      refine ⟨root, fun t ht => ?_⟩
      rw [hp.names] at ht
      split_ifs at ht with htl
      · have hi := Option.some.inj ht
        cases hgk : Dict.get? g.names key with
        | none => exact absurd ⟨hi.symm, hgk⟩ hnew
        | some j =>
          rw [index_of_get? hgk] at hi
          exact (hreach t htl).trans (hmono (hroot key (hi ▸ hgk)))
      · exact hmono (hroot t ht)

theorem run_led {items : List Node} {g : Grouping}
    (h : items.foldlM groupItem ⟨[], [], []⟩ = .ok g) : g.Led items := by
  have hboth : Consistent items g ∧ g.Led items :=
    foldlM_groupItem (P := fun done g => Consistent done g ∧ g.Led done)
      (fun _ _ _ _ hg hs => ⟨hg.1.step hs, led_step hg.1 hg.2 hs⟩)
      ⟨consistent_nil, fun i => ⟨"", fun t ht => by cases ht⟩⟩ h
  exact hboth.2

theorem rooted_of_groupable {items : List Node} (h : Groupable ⟨[], [], []⟩ items) :
    Rooted items := by
  obtain ⟨g, hg⟩ := h
  have hc := run_consistent hg
  choose root hroot using run_led hg
  refine ⟨fun t => ((Dict.get? g.names t).map root).getD t, ?_, ?_⟩
  · intro a ha s hs t ht
    dsimp only
    obtain ⟨i, hi⟩ := Option.isSome_iff_exists.1 ((hc.isSome_iff s).2 ⟨a, ha, hs⟩)
    rw [← hc.same_index ha hs ht, hi]
    rfl
  · intro a ha t ht
    obtain ⟨i, hi⟩ := Option.isSome_iff_exists.1 ((hc.isSome_iff t).2 ⟨a, ha, ht⟩)
    dsimp only
    rw [hi]
    exact hroot i t hi

/-- The groups so far agree with the roots: names with one root share a group, which has the
root. -/
structure Grouping.Follows (root : String → String) (g : Grouping) : Prop where
  same : ∀ s t, (Dict.get? g.names s).isSome → (Dict.get? g.names t).isSome → root s = root t →
    Dict.get? g.names s = Dict.get? g.names t
  root : ∀ t, (Dict.get? g.names t).isSome → (Dict.get? g.names (root t)).isSome

theorem follows_nil (root : String → String) : Grouping.Follows root ⟨[], [], []⟩ where
  same s t hs := by cases hs
  root t ht := by cases ht

/-- The item extends the group of its key, or opens a group that has the root of its names. -/
def Grouping.Next (root : String → String) (g : Grouping) (item : Node) : Prop :=
  ∃ key, item.key = some key ∧ ((Dict.get? g.names key).isSome ∨
    (root key ∈ item.labels ∧ ∀ t ∈ item.labels, Dict.get? g.names t = none))

section Roots

variable {items : List Node} {root : String → String} {g : Grouping}

theorem root_eq_of_reaches
    (hsame : ∀ a ∈ items, ∀ s ∈ a.labels, ∀ t ∈ a.labels, root s = root t) {s t : String}
    (h : ReflTransGen (Refers items) s t) : root s = root t := by
  induction h with
  | refl => rfl
  | tail _ hst ih =>
    obtain ⟨a, ha, hs, ht⟩ := hst
    obtain ⟨hsl, htl⟩ := Refers.mem_labels hs ht
    exact ih.trans (hsame a ha _ hsl _ htl)

/-- The first edge of a path from a new name to one that was met. -/
theorem exists_refers_of_reaches {P : String → Prop} {s t : String}
    (h : ReflTransGen (Refers items) s t) (hs : ¬P s) (ht : P t) :
    ∃ u v, Refers items u v ∧ ¬P u ∧ P v := by
  induction h with
  | refl => exact absurd ht hs
  | @tail u v _ huv ih =>
    by_cases hu : P u
    · exact ih hu
    · exact ⟨u, v, huv, hu, ht⟩

variable {done rest : List Node}

/-- While items are left, one of them can be placed. -/
theorem exists_next (hsame : ∀ a ∈ items, ∀ s ∈ a.labels, ∀ t ∈ a.labels, root s = root t)
    (hreach : ∀ a ∈ items, ∀ t ∈ a.labels, ReflTransGen (Refers items) t (root t))
    (hl : ∀ a ∈ items, a.labels ≠ []) (hperm : (done ++ rest).Perm items)
    (hc : Consistent done g) (hf : g.Follows root) (hne : rest ≠ []) :
    ∃ item ∈ rest, g.Next root item := by
  by_contra hnone
  have hrest : ∀ a ∈ items, a ∉ done → a ∈ rest := fun a ha hd =>
    (List.mem_append.1 (hperm.mem_iff.2 ha)).resolve_left hd
  have hmet : ∀ a ∈ done, ∀ t ∈ a.labels, (Dict.get? g.names t).isSome := fun a ha t ht =>
    (hc.isSome_iff t).2 ⟨a, ha, ht⟩
  obtain ⟨y, hy⟩ := List.exists_mem_of_ne_nil rest hne
  have hyi : y ∈ items := hperm.mem_iff.1 (List.mem_append_right _ hy)
  obtain ⟨u, hu⟩ := Node.exists_key (hl y hyi)
  have hul := Node.key_mem hu
  have hnew : ¬(Dict.get? g.names u).isSome := fun h => hnone ⟨y, hy, u, hu, .inl h⟩
  have hpath := hreach y hyi u hul
  by_cases hroot : (Dict.get? g.names (root u)).isSome
  · obtain ⟨s, t, ⟨a, ha, hs, ht⟩, hsn, htm⟩ :=
      exists_refers_of_reaches (P := fun t => (Dict.get? g.names t).isSome) hpath hnew hroot
    have had : a ∉ done := fun hd => hsn (hmet a hd s (Refers.mem_labels hs ht).1)
    exact hnone ⟨a, hrest a ha had, t, Refers.key ht, .inl htm⟩
  · -- no name with this root was met, so an item with the root opens its group
    have hunmet : ∀ t, root t = root u → Dict.get? g.names t = none := by
      intro t ht
      refine Option.not_isSome_iff_eq_none.1 fun hsome => hroot ?_
      rw [← ht]
      exact hf.root t hsome
    have hopen : ∀ a ∈ items, root u ∈ a.labels → root (root u) = root u → False := by
      intro a ha hmem hidem
      have hall : ∀ t ∈ a.labels, root t = root u := fun t ht =>
        (hsame a ha t ht (root u) hmem).trans hidem
      have had : a ∉ done := fun hd => hroot (hmet a hd _ hmem)
      obtain ⟨k, hk⟩ := Node.exists_key (hl a ha)
      refine hnone ⟨a, hrest a ha had, k, hk, .inr ⟨?_, fun t ht => hunmet t (hall t ht)⟩⟩
      rwa [hall k (Node.key_mem hk)]
    have hidem : root (root u) = root u := (root_eq_of_reaches hsame hpath).symm
    rcases ReflTransGen.cases_tail hpath with heq | ⟨s, -, a, ha, hs, ht⟩
    · exact hopen y hyi (by rw [heq]; exact hul) hidem
    · exact hopen a ha (Refers.mem_labels hs ht).2 hidem

/-- Placing such an item succeeds and keeps the groups in agreement with the roots. -/
theorem follows_next (hsame : ∀ a ∈ items, ∀ s ∈ a.labels, ∀ t ∈ a.labels, root s = root t)
    {item : Node} (hitem : item ∈ items) (hc : Consistent done g) (hf : g.Follows root)
    (hn : g.Next root item) :
    ∃ g', groupItem g item = .ok g' ∧ Consistent (done ++ [item]) g' ∧ g'.Follows root := by
  obtain ⟨key, hk, hcase⟩ := hn
  have hroots : ∀ t ∈ item.labels, root t = root key := fun t ht =>
    hsame item hitem t ht key (Node.key_mem hk)
  have hold : ∀ t, (Dict.get? g.names t).isSome → root t = root key →
      Dict.get? g.names t = some (g.index key) := by
    intro t ht hr
    rcases hcase with hkey | ⟨hmem, hnew⟩
    · obtain ⟨i, hi⟩ := Option.isSome_iff_exists.1 hkey
      rw [hf.same t key ht hkey hr, index_of_get? hi, hi]
    · have hroot := hf.root t ht
      rw [hr, hnew _ hmem] at hroot
      cases hroot
  have hfit : g.Fits item := by
    intro key' hk' t ht
    cases hk.symm.trans hk'
    cases hg : Dict.get? g.names t with
    | none => exact .inl rfl
    | some i => exact .inr (hg ▸ hold t (by rw [hg]; rfl) (hroots t ht))
  obtain ⟨g', hg', hp⟩ := (groupItem_of_key hc.bounded hk).1 hfit
  have hkeep : ∀ t, (Dict.get? g.names t).isSome → (Dict.get? g'.names t).isSome := by
    intro t ht
    rw [hp.names]
    split_ifs
    · rfl
    · exact ht
  refine ⟨g', hg', hc.placed_step hk hfit hp, fun s t hs ht hr => ?_, fun t ht => ?_⟩
  · rw [hp.names] at hs ht ⊢
    rw [hp.names]
    split_ifs at hs ht ⊢ with hsl htl htl
    · rfl
    · exact (hold t ht (hr.symm.trans (hroots s hsl))).symm
    · exact hold s hs (hr.trans (hroots t htl))
    · exact hf.same s t hs ht hr
  · by_cases htl : t ∈ item.labels
    · rw [hroots t htl]
      rcases hcase with hkey | ⟨hmem, -⟩
      · exact hkeep _ (hf.root key hkey)
      · rw [hp.names, if_pos hmem]
        rfl
    · rw [hp.names, if_neg htl] at ht
      exact hkeep _ (hf.root t ht)

theorem exists_groupable (hsame : ∀ a ∈ items, ∀ s ∈ a.labels, ∀ t ∈ a.labels, root s = root t)
    (hreach : ∀ a ∈ items, ∀ t ∈ a.labels, ReflTransGen (Refers items) t (root t))
    (hl : ∀ a ∈ items, a.labels ≠ []) (hperm : (done ++ rest).Perm items)
    (hc : Consistent done g) (hf : g.Follows root) :
    ∃ rest', rest'.Perm rest ∧ Groupable g rest' := by
  classical
  induction hlen : rest.length generalizing done rest g with
  | zero =>
    refine ⟨[], ?_, g, rfl⟩
    rw [List.length_eq_zero_iff.1 hlen]
  | succ n ih =>
    obtain ⟨item, hitem, hn⟩ := exists_next hsame hreach hl hperm hc hf
      (by rintro rfl; cases hlen)
    have hfirst := List.perm_cons_erase hitem
    have hmem : item ∈ items := hperm.mem_iff.1 (List.mem_append_right _ hitem)
    obtain ⟨g', hg', hc', hf'⟩ := follows_next hsame hmem hc hf hn
    have hperm' : ((done ++ [item]) ++ rest.erase item).Perm items := by
      rw [List.append_assoc]
      exact (hfirst.symm.append_left done).trans hperm
    have hlen' : (rest.erase item).length = n := by
      rw [List.length_erase_of_mem hitem, hlen]
      rfl
    obtain ⟨rest', hrest', hpass⟩ := ih hperm' hc' hf' hlen'
    exact ⟨item :: rest', (hrest'.cons item).trans hfirst.symm, groupable_cons.2 ⟨g', hg', hpass⟩⟩

end Roots

/-- With a name on every item, some order is accepted exactly if the names have roots. -/
theorem exists_accepted_iff {items : List Node} (hl : ∀ a ∈ items, a.labels ≠ []) :
    (∃ items', items'.Perm items ∧ Accepted items') ↔ Rooted items := by
  constructor
  · rintro ⟨items', hp, ha⟩
    obtain ⟨root, hsame, hreach⟩ := rooted_of_groupable
      ((accepted_iff_groupable fun a ha => hl a (hp.mem_iff.1 ha)).1 ha)
    exact ⟨root, fun a ha => hsame a (hp.mem_iff.2 ha), fun a ha t ht =>
      reaches_mono hp.subset (hreach a (hp.mem_iff.2 ha) t ht)⟩
  · rintro ⟨root, hsame, hreach⟩
    obtain ⟨items', hp, hpass⟩ := exists_groupable hsame hreach hl
      (show ([] ++ items).Perm items from .refl items) consistent_nil (follows_nil root)
    exact ⟨items', hp, (accepted_iff_groupable fun a ha => hl a (hp.mem_iff.1 ha)).2 hpass⟩

/-! ### The order of a request -/

/-- The groups of an accepted request are its shards, and neither whether it is accepted nor
its partition depends on the order of its items. -/
def GroupsShards (items : List Node) : Prop :=
  (∀ groups, groupShardInstances items = .ok groups → Grouped (SameShard items) items groups) ∧
    ∀ items', items'.Perm items → (groupShardInstances items').toOption.map partition =
      (groupShardInstances items).toOption.map partition

theorem outcome_eq_iff {items items' : List Node} (h : items'.Perm items) :
    (groupShardInstances items').toOption.map partition =
        (groupShardInstances items).toOption.map partition ↔
      (Accepted items' ↔ Accepted items) := by
  unfold Accepted
  cases hg' : groupShardInstances items' with
  | error x' =>
    cases hg : groupShardInstances items with
    | error x => simp [Except.toOption]
    | ok groups => simp [Except.toOption]
  | ok groups' =>
    cases hg : groupShardInstances items with
    | error x => simp [Except.toOption]
    | ok groups =>
      have hgroups' := groupShardInstances_grouped hg'
      rw [sameShard_of_perm h] at hgroups'
      have heq := (hgroups'.of_perm h).partition_eq (fun _ _ => SameShard.symm)
        (groupShardInstances_grouped hg)
      simp [Except.toOption, heq]

theorem accepted_of_unlabelled {items : List Node} (h : ∀ a ∈ items, a.labels = []) :
    Accepted items := ⟨_, groupShardInstances_of_unlabelled h⟩

theorem groupsShards_iff_accepted {items : List Node} :
    GroupsShards items ↔ ∀ items', items'.Perm items → (Accepted items' ↔ Accepted items) := by
  constructor
  · rintro ⟨-, h⟩ items' hp
    exact (outcome_eq_iff hp).1 (h items' hp)
  · exact fun h => ⟨fun _ => groupShardInstances_grouped, fun items' hp =>
      (outcome_eq_iff hp).2 (h items' hp)⟩

/-- The grouping is free of the order exactly if an item has no name, whoever carries the name
of a referring item also refers to what it refers to, or some names lead to no common root. -/
theorem groupsShards_iff (items : List Node) :
    GroupsShards items ↔ (∃ a ∈ items, a.labels = []) ∨ Tied items ∨ ¬Rooted items := by
  rw [groupsShards_iff_accepted]
  by_cases hex : ∃ a ∈ items, a.labels = []
  · refine iff_of_true (fun items' hp => ?_) (.inl hex)
    obtain ⟨a, ha, hla⟩ := hex
    by_cases hn : ∀ a ∈ items, a.labels = []
    · exact iff_of_true (accepted_of_unlabelled fun b hb => hn b (hp.mem_iff.1 hb))
        (accepted_of_unlabelled hn)
    · refine iff_of_false (not_accepted_of_mixed (hp.mem_iff.2 ha) hla fun h => hn fun b hb => ?_)
        (not_accepted_of_mixed ha hla hn)
      exact h b (hp.mem_iff.2 hb)
  · have hl : ∀ a ∈ items, a.labels ≠ [] := fun a ha hla => hex ⟨a, ha, hla⟩
    rw [or_iff_right hex, ← forall_accepted_iff hl, ← exists_accepted_iff hl]
    constructor
    · intro h
      by_cases ha : Accepted items
      · exact .inl fun items' hp => (h items' hp).2 ha
      · refine .inr ?_
        rintro ⟨items', hp, ha'⟩
        exact ha ((h items' hp).1 ha')
    · rintro (h | h) items' hp
      · exact iff_of_true (h items' hp) (h items (.refl _))
      · exact iff_of_false (fun ha => h ⟨items', hp, ha⟩) fun ha => h ⟨items, .refl _, ha⟩

/-- A member that refers to a name, and after it the member with that name, which refers to
another. -/
def forwardReference : List Node :=
  [⟨"small", some 1, .none, some "c", some "b", none, none, none, none, none⟩,
    ⟨"small", some 1, .none, some "b", some "a", none, none, none, none, none⟩]

/-- In the other order these members are one shard. -/
theorem not_groupsShards_forwardReference : ¬GroupsShards forwardReference := by
  intro h
  have hswap := congrArg Option.isSome (h.2 _ (List.reverse_perm forwardReference))
  have hback : ((groupShardInstances forwardReference.reverse).toOption.map partition).isSome =
      true := rfl
  have hforth : ((groupShardInstances forwardReference).toOption.map partition).isSome =
      false := rfl
  rw [hback, hforth] at hswap
  cases hswap

end Yggdrasil.Mongo
