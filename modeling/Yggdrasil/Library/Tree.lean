import Mathlib.Data.List.Infix
import Yggdrasil.Library.Dict

/-! Trees of dictionaries: a leaf carries a value, a node the entries of a dictionary. A place
in a tree is the list of the keys that lead to it. Assignment at a place makes the nodes on
the way to it; merging lays one tree over another. -/

namespace Yggdrasil

inductive Tree (κ α : Type) where
  | leaf (a : α)
  | node (entries : List (κ × Tree κ α))

namespace Tree

variable {κ α : Type}

theorem induction {P : Tree κ α → Prop} (leaf : ∀ a, P (.leaf a))
    (node : ∀ es, (∀ e ∈ es, P e.2) → P (.node es)) (t : Tree κ α) : P t :=
  @Tree.rec κ α P (fun es => ∀ e ∈ es, P e.2) (fun e => P e.2) leaf node
    (fun _ he => absurd he List.not_mem_nil)
    (fun _ _ he hes e hm => (List.mem_cons.1 hm).elim (fun h => h ▸ he) (hes e))
    (fun _ _ ht => ht) t

/-- Induction on the entries of a node: the entries inside the first one, and the rest. -/
theorem entries_induction {P : List (κ × Tree κ α) → Prop} (nil : P [])
    (cons : ∀ k t es, (∀ m, t = .node m → P m) → P es → P ((k, t) :: es))
    (es : List (κ × Tree κ α)) : P es :=
  @Tree.rec_1 κ α (fun t => ∀ m, t = .node m → P m) P (fun e => ∀ m, e.2 = .node m → P m)
    (fun _ _ h => by cases h) (fun _ hes _ h => Tree.node.inj h ▸ hes) nil
    (fun e es he hes => cons e.1 e.2 es he hes) (fun _ _ ht => ht) es

/-- The keys of every node are distinct. -/
inductive Distinct : Tree κ α → Prop
  | leaf (a : α) : Distinct (.leaf a)
  | node {es : List (κ × Tree κ α)} (keys : (es.map Prod.fst).Nodup)
      (values : ∀ e ∈ es, Distinct e.2) : Distinct (.node es)

theorem Distinct.keys {es : List (κ × Tree κ α)} (h : Distinct (.node es)) :
    (es.map Prod.fst).Nodup := by
  cases h with
  | node keys _ => exact keys

theorem Distinct.values {es : List (κ × Tree κ α)} (h : Distinct (.node es)) :
    ∀ e ∈ es, Distinct e.2 := by
  cases h with
  | node _ values => exact values

@[simp] theorem distinct_leaf (a : α) : Distinct (.leaf a : Tree κ α) := .leaf a

@[simp] theorem distinct_nil : Distinct (.node [] : Tree κ α) := .node List.nodup_nil (by simp)

@[simp] theorem distinct_cons {k : κ} {t : Tree κ α} {es : List (κ × Tree κ α)} :
    Distinct (.node ((k, t) :: es)) ↔
      k ∉ es.map Prod.fst ∧ t.Distinct ∧ Distinct (.node es) := by
  constructor
  · intro h
    obtain ⟨hk, hes⟩ := List.nodup_cons.1 h.keys
    exact ⟨hk, h.values _ List.mem_cons_self,
      .node hes fun e he => h.values e (List.mem_cons_of_mem _ he)⟩
  · rintro ⟨hk, ht, hes⟩
    exact .node (List.nodup_cons.2 ⟨hk, hes.keys⟩) (List.forall_mem_cons.2 ⟨ht, hes.values⟩)

variable [DecidableEq κ]

/-- What stands at a place. -/
def get? : Tree κ α → List κ → Option (Tree κ α)
  | t, [] => some t
  | .leaf _, _ :: _ => none
  | .node es, k :: p => (Dict.get? es k).bind fun t => get? t p

@[simp] theorem get?_nil (t : Tree κ α) : t.get? [] = some t := by cases t <;> rfl

@[simp] theorem get?_leaf_cons (a : α) (k : κ) (p : List κ) :
    (Tree.leaf a : Tree κ α).get? (k :: p) = none := rfl

theorem get?_node_cons (es : List (κ × Tree κ α)) (k : κ) (p : List κ) :
    (Tree.node es).get? (k :: p) = (Dict.get? es k).bind fun t => t.get? p := rfl

theorem get?_append (t : Tree κ α) (p q : List κ) :
    t.get? (p ++ q) = (t.get? p).bind fun u => u.get? q := by
  induction p generalizing t with
  | nil => simp
  | cons k p ih =>
    cases t with
    | leaf a => rfl
    | node es =>
      rw [List.cons_append, get?_node_cons, get?_node_cons]
      cases Dict.get? es k with
      | none => rfl
      | some u => exact ih u

theorem Distinct.get? {t u : Tree κ α} (h : t.Distinct) {p : List κ} (hu : t.get? p = some u) :
    u.Distinct := by
  induction p generalizing t with
  | nil =>
    rw [get?_nil] at hu
    exact Option.some.inj hu ▸ h
  | cons k p ih =>
    cases t with
    | leaf a => cases hu
    | node es =>
      rw [get?_node_cons] at hu
      obtain ⟨v, hv, hu⟩ := Option.bind_eq_some_iff.1 hu
      exact ih (h.values _ (Dict.mem_of_get? hv)) hu

/-- Every key, at every depth, satisfies `q`. -/
inductive AllKeys (q : κ → Prop) : Tree κ α → Prop
  | leaf (a : α) : AllKeys q (.leaf a)
  | node {es : List (κ × Tree κ α)} (keys : ∀ e ∈ es, q e.1)
      (values : ∀ e ∈ es, AllKeys q e.2) : AllKeys q (.node es)

omit [DecidableEq κ] in
theorem allKeys_node {q : κ → Prop} {es : List (κ × Tree κ α)} :
    AllKeys q (.node es) ↔ ∀ e ∈ es, q e.1 ∧ AllKeys q e.2 := by
  constructor
  · intro h
    cases h with
    | node keys values => exact fun e he => ⟨keys e he, values e he⟩
  · exact fun h => .node (fun e he => (h e he).1) fun e he => (h e he).2

/-- The keys of a tree are those on the way to its places. -/
theorem allKeys_iff {q : κ → Prop} {t : Tree κ α} (h : t.Distinct) :
    AllKeys q t ↔ ∀ p v, t.get? p = some v → ∀ c ∈ p, q c := by
  induction t using Tree.induction with
  | leaf a =>
    refine ⟨fun _ p v hv => ?_, fun _ => .leaf a⟩
    cases p with
    | nil => simp
    | cons k p => cases hv
  | node es ih =>
    rw [allKeys_node]
    constructor
    · intro hall p v hv
      cases p with
      | nil => simp
      | cons k p =>
        rw [get?_node_cons] at hv
        obtain ⟨u, hu, hv⟩ := Option.bind_eq_some_iff.1 hv
        have hm := Dict.mem_of_get? hu
        have hrest := (ih _ hm (h.values _ hm)).1 (hall _ hm).2 p v hv
        exact List.forall_mem_cons.2 ⟨(hall _ hm).1, hrest⟩
    · intro hall e he
      have hget : Dict.get? es e.1 = some e.2 := Dict.get?_of_mem h.keys he
      have hin : ∀ p, (Tree.node es).get? (e.1 :: p) = e.2.get? p := by
        intro p
        rw [get?_node_cons, hget, Option.bind_some]
      refine ⟨hall [e.1] e.2 ((hin []).trans (get?_nil _)) e.1 List.mem_cons_self, ?_⟩
      refine (ih e he (h.values e he)).2 fun p v hv c hc => ?_
      exact hall (e.1 :: p) v ((hin p).trans hv) c (List.mem_cons_of_mem _ hc)

/-! ### Leaves -/

/-- A leaf, or a node without entries. -/
def Childless : Tree κ α → Prop
  | .leaf _ => True
  | .node es => es = []

/-- The tree ends at the place, with this value. -/
def LeafAt (t : Tree κ α) (p : List κ) (v : Tree κ α) : Prop := t.get? p = some v ∧ v.Childless

/-- The value of a leaf; nodes have none. -/
def label : Tree κ α → Option α
  | .leaf a => some a
  | .node _ => none

/-- Equality of dictionaries, at every depth without regard to the order of the entries. -/
def Same (t u : Tree κ α) : Prop := ∀ p, (t.get? p).map label = (u.get? p).map label

theorem exists_leafAt (t : Tree κ α) : ∃ p v, t.LeafAt p v := by
  induction t using Tree.induction with
  | leaf a => exact ⟨[], .leaf a, rfl, trivial⟩
  | node es ih =>
    cases es with
    | nil => exact ⟨[], .node [], rfl, rfl⟩
    | cons e es =>
      obtain ⟨p, v, hp, hv⟩ := ih e List.mem_cons_self
      refine ⟨e.1 :: p, v, ?_, hv⟩
      rw [get?_node_cons]
      simpa [Dict.get?] using hp

theorem LeafAt.append {t u v : Tree κ α} {p q : List κ} (hu : t.get? p = some u)
    (hv : u.LeafAt q v) : t.LeafAt (p ++ q) v := by
  refine ⟨?_, hv.2⟩
  rw [get?_append, hu]
  exact hv.1

/-- Trees with the same ends are the same. -/
theorem same_of_leafAt {t u : Tree κ α} (h : ∀ p v, t.LeafAt p v ↔ u.LeafAt p v) : Same t u := by
  have half : ∀ {t u : Tree κ α}, (∀ p v, t.LeafAt p v ↔ u.LeafAt p v) → ∀ {p w},
      t.get? p = some w → (u.get? p).map label = some w.label := by
    intro t u h p w hw
    cases w with
    | leaf a =>
      rw [((h p _).1 ⟨hw, trivial⟩).1]
      rfl
    | node es =>
      obtain ⟨q, v, hv⟩ := exists_leafAt (.node es)
      have hend := ((h (p ++ q) v).1 (LeafAt.append hw hv)).1
      rw [get?_append] at hend
      obtain ⟨w', hw', _⟩ := Option.bind_eq_some_iff.1 hend
      cases w' with
      | leaf b =>
        -- the other tree would end where this one goes on
        have hleaf := ((h p _).2 ⟨hw', trivial⟩).1
        rw [hw] at hleaf
        cases hleaf
      | node es' =>
        rw [hw']
        rfl
  intro p
  cases ht : t.get? p with
  | some w => exact (half h ht).symm
  | none =>
    cases hu : u.get? p with
    | none => rfl
    | some w =>
      have := half (fun p v => (h p v).symm) hu
      rw [ht] at this
      cases this

/-! ### Assignment -/

/-- The entries of the node that a key leads to; none where it leads elsewhere. -/
def inside (es : List (κ × Tree κ α)) (k : κ) : List (κ × Tree κ α) :=
  match Dict.get? es k with
  | some (.node m) => m
  | _ => []

/-- Assignment at the place `k :: p`. -/
def put (es : List (κ × Tree κ α)) (k : κ) : List κ → Tree κ α → List (κ × Tree κ α)
  | [], t => Dict.set es k t
  | k' :: p, t => Dict.set es k (.node (put (inside es k) k' p t))

theorem get?_inside (es : List (κ × Tree κ α)) (k c : κ) (q : List κ) :
    (Tree.node (inside es k)).get? (c :: q) = (Tree.node es).get? (k :: c :: q) := by
  rw [get?_node_cons es]
  unfold inside
  cases Dict.get? es k with
  | none => rfl
  | some t => cases t <;> rfl

theorem put_ne_nil (es : List (κ × Tree κ α)) (k : κ) (p : List κ) (t : Tree κ α) :
    put es k p t ≠ [] := by
  have hset : ∀ u : Tree κ α, Dict.set es k u ≠ [] := by
    intro u he
    have := Dict.get?_set_self es k u
    rw [he] at this
    cases this
  cases p with
  | nil => exact hset t
  | cons c p => exact hset _

/-- At the place and below stands what was assigned. -/
theorem get?_put_append (es : List (κ × Tree κ α)) (k : κ) (p q : List κ) (t : Tree κ α) :
    (Tree.node (put es k p t)).get? (k :: (p ++ q)) = t.get? q := by
  induction p generalizing es k with
  | nil => rw [put, List.nil_append, get?_node_cons, Dict.get?_set_self, Option.bind_some]
  | cons c p ih =>
    rw [put, get?_node_cons, Dict.get?_set_self, Option.bind_some, List.cons_append, ih]

/-- Away from the place nothing changes. -/
theorem get?_put_away {es : List (κ × Tree κ α)} {k : κ} {p q : List κ} (t : Tree κ α)
    (h : ¬k :: p <+: q) (h' : ¬q <+: k :: p) :
    (Tree.node (put es k p t)).get? q = (Tree.node es).get? q := by
  induction p generalizing es k q with
  | nil =>
    cases q with
    | nil => exact absurd List.nil_prefix h'
    | cons c q =>
      have hc : c ≠ k := fun he => h (he ▸ List.cons_prefix_cons.2 ⟨rfl, List.nil_prefix⟩)
      rw [put, get?_node_cons, Dict.get?_set_of_ne hc, get?_node_cons]
  | cons k' p ih =>
    cases q with
    | nil => exact absurd List.nil_prefix h'
    | cons c q =>
      by_cases hc : c = k
      · subst hc
        rw [List.cons_prefix_cons, not_and] at h h'
        have hq := h rfl
        have hq' := h' rfl
        cases q with
        | nil => exact absurd List.nil_prefix hq'
        | cons d q =>
          rw [put, get?_node_cons, Dict.get?_set_self, Option.bind_some, ih hq hq', get?_inside]
      · rw [put, get?_node_cons, Dict.get?_set_of_ne hc, get?_node_cons]

/-- The nodes on the way to the place have entries. -/
theorem get?_put_above {es : List (κ × Tree κ α)} {k : κ} {p q : List κ} (t : Tree κ α)
    (h : q <+: k :: p) (hne : q ≠ k :: p) :
    ∃ m, (Tree.node (put es k p t)).get? q = some (.node m) ∧ m ≠ [] := by
  induction p generalizing es k q with
  | nil =>
    cases q with
    | nil => exact ⟨_, get?_nil _, put_ne_nil es k [] t⟩
    | cons c q =>
      obtain ⟨rfl, hq⟩ := List.cons_prefix_cons.1 h
      exact absurd (by rw [List.prefix_nil.1 hq]) hne
  | cons k' p ih =>
    cases q with
    | nil => exact ⟨_, get?_nil _, put_ne_nil es k (k' :: p) t⟩
    | cons c q =>
      obtain ⟨rfl, hq⟩ := List.cons_prefix_cons.1 h
      rw [put, get?_node_cons, Dict.get?_set_self, Option.bind_some]
      exact ih hq fun he => hne (by rw [he])

theorem Distinct.inside {es : List (κ × Tree κ α)} (h : Distinct (.node es)) (k : κ) :
    Distinct (.node (Tree.inside es k)) := by
  unfold Tree.inside
  cases he : Dict.get? es k with
  | none => exact distinct_nil
  | some t =>
    cases t with
    | leaf a => exact distinct_nil
    | node m => exact h.values _ (Dict.mem_of_get? he)

theorem Distinct.set {es : List (κ × Tree κ α)} (h : Distinct (.node es)) {t : Tree κ α}
    (ht : t.Distinct) (k : κ) : Distinct (.node (Dict.set es k t)) := by
  refine .node (Dict.nodup_set h.keys k t) fun e he => ?_
  rcases Dict.mem_set he with rfl | he
  · exact ht
  · exact h.values e he

theorem Distinct.put {es : List (κ × Tree κ α)} (h : Distinct (.node es)) {t : Tree κ α}
    (ht : t.Distinct) (k : κ) (p : List κ) : Distinct (.node (Tree.put es k p t)) := by
  induction p generalizing es k with
  | nil => exact h.set ht k
  | cons c p ih => exact h.set (ih (h.inside k) c) k

/-! ### Places apart -/

/-- Neither place is on the way to the other. -/
def Apart (p q : List κ) : Prop := ¬p <+: q ∧ ¬q <+: p

omit [DecidableEq κ] in
theorem Apart.symm {p q : List κ} (h : Apart p q) : Apart q p := ⟨h.2, h.1⟩

omit [DecidableEq κ] in
theorem Apart.append {p q : List κ} (h : Apart p q) (r : List κ) : Apart (p ++ r) q := by
  refine ⟨fun hp => h.1 ((List.prefix_append p r).trans hp), fun hp => ?_⟩
  exact (List.prefix_or_prefix_of_prefix hp (List.prefix_append p r)).elim h.2 h.1

omit [DecidableEq κ] in
theorem Apart.of_append {k : κ} {p q : List κ} (h : Apart (k :: p) (k :: q)) : Apart p q :=
  ⟨fun hp => h.1 (List.cons_prefix_cons.2 ⟨rfl, hp⟩),
    fun hp => h.2 (List.cons_prefix_cons.2 ⟨rfl, hp⟩)⟩

/-- An assignment keeps the places apart from its own, and gives the ends of its value. -/
theorem leafAt_put {es : List (κ × Tree κ α)} {k : κ} {p q : List κ} {t v : Tree κ α} :
    (Tree.node (put es k p t)).LeafAt q v ↔
      (∃ r, q = k :: (p ++ r) ∧ t.LeafAt r v) ∨
        Apart (k :: p) q ∧ (Tree.node es).LeafAt q v := by
  unfold LeafAt
  by_cases h : k :: p <+: q
  · obtain ⟨r, rfl⟩ := h
    rw [List.cons_append, get?_put_append]
    constructor
    · exact fun hv => .inl ⟨r, rfl, hv⟩
    · rintro (⟨r', he, hv⟩ | ⟨ha, _⟩)
      · rwa [List.append_cancel_left (List.cons.inj he).2]
      · exact absurd ⟨r, rfl⟩ ha.1
  · have hnot : ¬∃ r, q = k :: (p ++ r) ∧ t.get? r = some v ∧ v.Childless :=
      fun ⟨r, he, _⟩ => h ⟨r, he.symm⟩
    rw [or_iff_right hnot]
    by_cases h' : q <+: k :: p
    · -- on the way to the place stand nodes with entries
      obtain ⟨m, hm, hne⟩ := get?_put_above t h' fun he => h (he ▸ List.prefix_rfl)
      rw [hm]
      refine iff_of_false (fun hv => ?_) fun hv => hv.1.2 h'
      obtain ⟨he, hc⟩ := hv
      cases he
      exact hne hc
    · rw [get?_put_away t h h']
      exact ⟨fun hv => ⟨⟨h, h'⟩, hv⟩, fun hv => hv.2⟩

/-! ### Merging -/

mutual

/-- One tree laid over another, which may be missing. -/
def overlay : Tree κ α → Option (Tree κ α) → Tree κ α
  | .leaf a, _ => .leaf a
  | .node source, some (.node target) => .node (merge source target)
  | .node source, _ => .node source

/-- The entries of the source are laid over those of the target. -/
def merge : List (κ × Tree κ α) → List (κ × Tree κ α) → List (κ × Tree κ α)
  | [], target => target
  | (k, t) :: source, target => merge source (Dict.set target k (overlay t (Dict.get? target k)))

end

theorem get?_merge {source : List (κ × Tree κ α)} (h : (source.map Prod.fst).Nodup)
    (target : List (κ × Tree κ α)) (k : κ) :
    Dict.get? (merge source target) k =
      ((Dict.get? source k).map fun t => overlay t (Dict.get? target k)).or
        (Dict.get? target k) := by
  induction source generalizing target with
  | nil => rfl
  | cons e source ih =>
    obtain ⟨c, t⟩ := e
    rw [List.map_cons, List.nodup_cons] at h
    rw [merge, ih h.2]
    by_cases hc : c = k
    · subst hc
      rw [Dict.get?_eq_none h.1, Dict.get?_set_self]
      simp [Dict.get?]
    · rw [Dict.get?_set_of_ne (Ne.symm hc)]
      simp [Dict.get?, hc]

/-- A leaf of the source is a leaf of the merged tree. -/
theorem get?_overlay_leaf {s : Tree κ α} (h : s.Distinct) {p : List κ} {a : α}
    (hs : s.get? p = some (.leaf a)) (t : Option (Tree κ α)) :
    (overlay s t).get? p = some (.leaf a) := by
  induction p generalizing s t with
  | nil =>
    rw [get?_nil] at hs
    rw [Option.some.inj hs]
    exact get?_nil _
  | cons k p ih =>
    cases s with
    | leaf b => cases hs
    | node source =>
      match t with
      | none => exact hs
      | some (.leaf b) => exact hs
      | some (.node target) =>
        rw [get?_node_cons] at hs
        obtain ⟨u, hu, hs⟩ := Option.bind_eq_some_iff.1 hs
        rw [overlay, get?_node_cons, get?_merge h.keys, hu]
        exact ih (h.values _ (Dict.mem_of_get? hu)) hs _

/-- A node of the source is a node of the merged tree. -/
theorem get?_overlay_node {s : Tree κ α} (h : s.Distinct) {p : List κ} {m : List (κ × Tree κ α)}
    (hs : s.get? p = some (.node m)) (t : Option (Tree κ α)) :
    ∃ m', (overlay s t).get? p = some (.node m') := by
  induction p generalizing s t with
  | nil =>
    rw [get?_nil] at hs
    rw [Option.some.inj hs]
    match t with
    | none => exact ⟨m, get?_nil _⟩
    | some (.leaf b) => exact ⟨m, get?_nil _⟩
    | some (.node target) => exact ⟨merge m target, get?_nil _⟩
  | cons k p ih =>
    cases s with
    | leaf b => cases hs
    | node source =>
      match t with
      | none => exact ⟨m, hs⟩
      | some (.leaf b) => exact ⟨m, hs⟩
      | some (.node target) =>
        rw [get?_node_cons] at hs
        obtain ⟨u, hu, hs⟩ := Option.bind_eq_some_iff.1 hs
        rw [overlay, get?_node_cons, get?_merge h.keys, hu]
        exact ih (h.values _ (Dict.mem_of_get? hu)) hs _

/-- The tree does not reach the place, and where it ends on the way it ends in a node. -/
def Open (t : Tree κ α) (p : List κ) : Prop :=
  t.get? p = none ∧ ∀ q a, q <+: p → t.get? q ≠ some (.leaf a)

theorem Open.child {source : List (κ × Tree κ α)} {k : κ} {p : List κ} {u : Tree κ α}
    (h : (Tree.node source).Open (k :: p)) (hu : Dict.get? source k = some u) : u.Open p := by
  have hget : ∀ q, (Tree.node source).get? (k :: q) = u.get? q := by
    intro q
    rw [get?_node_cons, hu, Option.bind_some]
  refine ⟨hget p ▸ h.1, fun q a hq hleaf => ?_⟩
  exact h.2 (k :: q) a (List.cons_prefix_cons.2 ⟨rfl, hq⟩) ((hget q).trans hleaf)

/-- Where the source leaves a place open, the target shows. -/
theorem get?_overlay_of_open {s : Tree κ α} (h : s.Distinct) {p : List κ} (ho : s.Open p)
    (t : Option (Tree κ α)) : (overlay s t).get? p = t.bind fun u => u.get? p := by
  induction p generalizing s t with
  | nil =>
    have hnone := ho.1
    rw [get?_nil] at hnone
    cases hnone
  | cons k p ih =>
    cases s with
    | leaf a => exact absurd (get?_nil _) (ho.2 [] a List.nil_prefix)
    | node source =>
      match t with
      | none => exact ho.1
      | some (.leaf b) => exact ho.1
      | some (.node target) =>
        rw [overlay, get?_node_cons, get?_merge h.keys, Option.bind_some, get?_node_cons]
        cases hu : Dict.get? source k with
        | none => rfl
        | some u => exact ih (h.values _ (Dict.mem_of_get? hu)) (ho.child hu) _

/-- Whatever the merged tree has, one of the two has. -/
theorem get?_of_get?_overlay {s : Tree κ α} (h : s.Distinct) {p : List κ} {v : Tree κ α}
    {t : Option (Tree κ α)} (hv : (overlay s t).get? p = some v) :
    (∃ w, s.get? p = some w ∧ w.label = v.label) ∨ (t.bind fun u => u.get? p) = some v := by
  induction p generalizing s t with
  | nil =>
    left
    rw [get?_nil] at hv
    refine ⟨s, get?_nil s, ?_⟩
    rw [← Option.some.inj hv]
    match s, t with
    | .leaf a, _ => rfl
    | .node source, none => rfl
    | .node source, some (.leaf b) => rfl
    | .node source, some (.node target) => rfl
  | cons k p ih =>
    cases s with
    | leaf a => cases hv
    | node source =>
      match t with
      | none => exact .inl ⟨v, hv, rfl⟩
      | some (.leaf b) => exact .inl ⟨v, hv, rfl⟩
      | some (.node target) =>
        rw [overlay, get?_node_cons, get?_merge h.keys] at hv
        rw [Option.bind_some, get?_node_cons, get?_node_cons]
        cases hu : Dict.get? source k with
        | none =>
          rw [hu] at hv
          exact .inr hv
        | some u =>
          rw [hu] at hv
          exact ih (h.values _ (Dict.mem_of_get? hu)) hv

theorem Distinct.overlay {s : Tree κ α} (h : s.Distinct) {t : Option (Tree κ α)}
    (ht : ∀ u, t = some u → u.Distinct) : (Tree.overlay s t).Distinct := by
  induction s using Tree.induction generalizing t with
  | leaf a => exact .leaf a
  | node source ih =>
    match t with
    | none => exact h
    | some (.leaf b) => exact h
    | some (.node target) =>
      have run : ∀ (source target : List (κ × Tree κ α)), Distinct (.node target) →
          (∀ e ∈ source, ∀ {t : Option (Tree κ α)}, (∀ u, t = some u → u.Distinct) →
            (Tree.overlay e.2 t).Distinct) → Distinct (.node (merge source target)) := by
        intro source
        induction source with
        | nil => exact fun target htarget _ => htarget
        | cons e source ihs =>
          intro target htarget hsource
          refine ihs _ (htarget.set (hsource e List.mem_cons_self ?_) e.1)
            fun e he => hsource e (List.mem_cons_of_mem _ he)
          exact fun u hu => htarget.values _ (Dict.mem_of_get? hu)
      exact run source target (ht _ rfl) fun e he => ih e he (h.values e he)

end Tree

end Yggdrasil
