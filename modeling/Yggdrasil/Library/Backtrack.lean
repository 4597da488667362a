import Mathlib.Data.List.Basic
import Mathlib.Data.List.Infix
import Mathlib.Data.List.TakeWhile

/-! Regular expressions as a backtracking matcher reads them. A pattern gives the ways to match the
start of a text, in the order in which they are tried, and the first one counts. The searches try
a pattern where a line starts, as for a pattern with `^` in front. -/

namespace Yggdrasil.Backtrack

variable {α β γ : Type}

/-- The ways to match the start of a text, each with what it captures and the text after it. -/
def Pattern (α β : Type) : Type := List α → List (β × List α)

instance : Monad (Pattern α) where
  pure b l := [(b, l)]
  bind p f l := (p l).flatMap fun x => f x.1 x.2

theorem bind_apply (p : Pattern α β) (f : β → Pattern α γ) (l : List α) :
    (p >>= f) l = (p l).flatMap fun x => f x.1 x.2 := rfl

theorem pure_apply (b : β) (l : List α) : (pure b : Pattern α β) l = [(b, l)] := rfl

theorem mem_bind {p : Pattern α β} {f : β → Pattern α γ} {l : List α} {y : γ × List α} :
    y ∈ (p >>= f) l ↔ ∃ x ∈ p l, y ∈ f x.1 x.2 := List.mem_flatMap

/-! ### Parts of patterns -/

section Parts

/-- A word, as it is written. -/
def word [DecidableEq α] (w : List α) : Pattern α Unit := fun l =>
  if w.isPrefixOf l then [((), l.drop w.length)] else []

/-- One of some symbols. -/
def oneOf (p : α → Bool) : Pattern α α := fun l =>
  match l with
  | [] => []
  | a :: l => if p a then [(a, l)] else []

def greedy (p : α → Bool) : List α → List (List α × List α)
  | [] => [([], [])]
  | a :: l =>
    if p a then (greedy p l).map (fun x => (a :: x.1, x.2)) ++ [([], a :: l)] else [([], a :: l)]

/-- As many of some symbols as the rest of the pattern leaves, `*`. -/
def many (p : α → Bool) : Pattern α (List α) := greedy p

def lazily (p : α → Bool) : List α → List (List α × List α)
  | [] => [([], [])]
  | a :: l => ([], a :: l) :: if p a then (lazily p l).map (fun x => (a :: x.1, x.2)) else []

/-- As few of some symbols as the rest of the pattern takes, `*?`. -/
def few (p : α → Bool) : Pattern α (List α) := lazily p

/-- `+`. -/
def many1 (p : α → Bool) : Pattern α (List α) := fun l => (many p l).filter fun x => x.1 ≠ []

/-- `?`. -/
def optional (p : Pattern α β) : Pattern α Unit := fun l =>
  (p l).map (fun x => ((), x.2)) ++ [((), l)]

/-- The end of a line, `$`. -/
def lineEnd [DecidableEq α] (nl : α) : Pattern α Unit := fun l =>
  if l = [] ∨ l.head? = some nl then [((), l)] else []

end Parts

/-! ### Searches -/

section Searches

variable [DecidableEq α] (nl : α) (p : Pattern α β)

/-- The match at the start of a text. -/
def first (l : List α) : Option (β × List α) := (p l).head?

/-- What a match captures. -/
def capture (l : List α) : Option β := (first p l).map Prod.fst

/-- The first line start with a match: the text before it, what is captured and the text after it.
The flag says whether the text starts a line. -/
def searchFrom : Bool → List α → Option (List α × β × List α)
  | b, [] => if b then (first p []).map fun y => ([], y) else none
  | b, a :: l =>
    match if b then first p (a :: l) else none with
    | some y => some ([], y)
    | none => (searchFrom (a = nl) l).map fun x => (a :: x.1, x.2)

def search (l : List α) : Option (List α × β × List α) := searchFrom nl p true l

/-- The matches from left to right, without overlap. The number counts the symbols that belong to
the last match. -/
def findAllFrom : ℕ → Bool → List α → List (β × List α)
  | 0, b, [] => if b then (first p []).toList else []
  | 0, b, a :: l =>
    match if b then first p (a :: l) else none with
    | some y => y :: findAllFrom (l.length - y.2.length) (a = nl) l
    | none => findAllFrom 0 (a = nl) l
  | _ + 1, _, [] => []
  | k + 1, _, a :: l => findAllFrom k (a = nl) l

def findAll (l : List α) : List (β × List α) := findAllFrom nl p 0 true l

/-- The text from every line start. -/
def starts : Bool → List α → List (List α)
  | b, [] => if b then [[]] else []
  | b, a :: l => (if b then [a :: l] else []) ++ starts (a = nl) l

/-- The lines of a text. A newline at its end starts no line. -/
def lines (l : List α) : List (List α) :=
  ((starts nl true l).filter (· ≠ [])).map (List.takeWhile (· ≠ nl))

end Searches

/-! ### Single matches -/

section Matches

variable {p : α → Bool} {l r : List α}

theorem mem_greedy {x : List α × List α} :
    x ∈ greedy p l ↔ l = x.1 ++ x.2 ∧ ∀ a ∈ x.1, p a = true := by
  obtain ⟨u, r⟩ := x
  induction l generalizing u with
  | nil =>
    simp only [greedy, List.mem_singleton, Prod.mk.injEq]
    constructor
    · rintro ⟨rfl, rfl⟩
      simp
    · rintro ⟨h, -⟩
      exact List.append_eq_nil_iff.1 h.symm
  | cons a l ih =>
    have hcons : (u, r) = ([], a :: l) ↔ a :: l = u ++ r ∧ u = [] := by
      constructor
      · rintro ⟨⟩
        exact ⟨rfl, rfl⟩
      · rintro ⟨h, rfl⟩
        rw [h, List.nil_append]
    rw [greedy]
    split_ifs with ha
    · rw [List.mem_append, List.mem_map, List.mem_singleton, hcons]
      constructor
      · rintro (⟨⟨v, r'⟩, hmem, heq⟩ | ⟨h, rfl⟩)
        · obtain ⟨rfl, rfl⟩ := Prod.mk.inj heq
          obtain ⟨hl, hall⟩ := (ih v).1 hmem
          refine ⟨by rw [hl]; rfl, fun c hc => ?_⟩
          rcases List.mem_cons.1 hc with rfl | hc
          · exact ha
          · exact hall c hc
        · exact ⟨h, by simp⟩
      · rintro ⟨h, hall⟩
        cases u with
        | nil => exact .inr ⟨h, rfl⟩
        | cons c u =>
          obtain ⟨rfl, hl⟩ := List.cons.inj h
          exact .inl ⟨(u, r), (ih u).2 ⟨hl, fun c hc => hall c (List.mem_cons_of_mem a hc)⟩, rfl⟩
    · rw [List.mem_singleton, hcons]
      refine ⟨fun ⟨h, hu⟩ => ⟨h, by simp [hu]⟩, fun ⟨h, hall⟩ => ⟨h, ?_⟩⟩
      cases u with
      | nil => rfl
      | cons c u =>
        obtain ⟨rfl, -⟩ := List.cons.inj h
        exact absurd (hall a List.mem_cons_self) ha

/-- A greedy part gives nothing back if the rest of the pattern does not start with its symbols. -/
theorem many_bind (f : List α → Pattern α γ) (l : List α)
    (h : ∀ u a r, p a = true → f u (a :: r) = []) :
    (many p >>= f) l = f (l.takeWhile p) (l.dropWhile p) := by
  induction l generalizing f with
  | nil => exact List.append_nil _
  | cons a l ih =>
    have hshort : (many p >>= f) (a :: l) = (greedy p (a :: l)).flatMap fun x => f x.1 x.2 := rfl
    rw [hshort, greedy]
    by_cases ha : p a = true
    · have hrec := ih (fun u => f (a :: u)) fun u => h (a :: u)
      rw [if_pos ha, List.flatMap_append, List.flatMap_map, List.flatMap_singleton, h [] a l ha,
        List.append_nil, List.takeWhile_cons_of_pos ha, List.dropWhile_cons_of_pos ha, ← hrec]
      rfl
    · rw [if_neg ha, List.flatMap_singleton, List.takeWhile_cons_of_neg ha,
        List.dropWhile_cons_of_neg ha]

theorem greedy_of_stop (h : ∀ a ∈ r.head?, p a = false) : greedy p r = [([], r)] := by
  cases r with
  | nil => rfl
  | cons a r =>
    have ha : p a = false := h a rfl
    rw [greedy, ha, if_neg Bool.false_ne_true]

theorem first_bind (p : Pattern α β) (f : β → Pattern α γ) (l : List α) :
    first (p >>= f) l = (p l).findSome? fun x => first (f x.1) x.2 := List.head?_flatMap

theorem first_pure (b : β) (l : List α) : first (pure b : Pattern α β) l = some (b, l) := rfl

/-- The longest way is the first. -/
theorem greedy_head (p : α → Bool) (l : List α) :
    ∃ t, greedy p l = (l.takeWhile p, l.dropWhile p) :: t := by
  induction l with
  | nil => exact ⟨[], rfl⟩
  | cons a l ih =>
    obtain ⟨t, ht⟩ := ih
    rw [greedy, ht]
    by_cases ha : p a = true
    · rw [if_pos ha, List.takeWhile_cons_of_pos ha, List.dropWhile_cons_of_pos ha]
      exact ⟨_, rfl⟩
    · rw [if_neg ha, List.takeWhile_cons_of_neg ha, List.dropWhile_cons_of_neg ha]
      exact ⟨_, rfl⟩

theorem first_many_nil (e : Pattern α γ) : first (many p >>= fun _ => e) [] = first e [] :=
  congrArg List.head? (List.append_nil (e []))

/-- What comes after the symbols is tried from the last of them on backwards. -/
theorem first_many_cons (e : Pattern α γ) (a : α) (l : List α) :
    first (many p >>= fun _ => e) (a :: l) =
      if p a then (first (many p >>= fun _ => e) l).or (first e (a :: l)) else first e (a :: l) := by
  change ((greedy p (a :: l)).flatMap fun x => e x.2).head? = _
  rw [greedy]
  split_ifs
  · rw [List.flatMap_append, List.flatMap_map, List.flatMap_singleton, List.head?_append]
    rfl
  · rw [List.flatMap_singleton]
    rfl

/-- The two longest ways. -/
theorem greedy_snoc {a : α} (ha : p a = true) (hr : ∀ b ∈ r.head?, p b = false) :
    ∀ {u : List α}, (∀ b ∈ u, p b = true) →
      ∃ t, greedy p (u ++ a :: r) = (u ++ [a], r) :: (u, a :: r) :: t
  | [], _ => by
    refine ⟨[], ?_⟩
    rw [List.nil_append, greedy, if_pos ha, greedy_of_stop hr]
    rfl
  | b :: u, hu => by
    obtain ⟨t, ht⟩ := greedy_snoc ha hr fun c hc => hu c (List.mem_cons_of_mem b hc)
    refine ⟨t.map (fun x => (b :: x.1, x.2)) ++ [([], b :: (u ++ a :: r))], ?_⟩
    rw [List.cons_append, greedy, if_pos (hu b List.mem_cons_self), ht]
    rfl

variable [DecidableEq α]

theorem word_append (w l : List α) : word w (w ++ l) = [((), l)] := by
  rw [word, if_pos (List.isPrefixOf_iff_prefix.2 (List.prefix_append w l)), List.drop_left]

theorem word_eq_nil {w : List α} (h : ¬w <+: l) : word w l = [] := by
  rw [word, if_neg (by rwa [List.isPrefixOf_iff_prefix])]

theorem mem_word {w : List α} {x : Unit × List α} : x ∈ word w l ↔ l = w ++ x.2 := by
  constructor
  · intro h
    by_cases hw : w <+: l
    · obtain ⟨r, rfl⟩ := hw
      rw [word_append, List.mem_singleton] at h
      rw [h]
    · rw [word_eq_nil hw] at h
      exact absurd h List.not_mem_nil
  · intro h
    rw [h, word_append]
    exact List.mem_singleton.2 rfl

end Matches

/-! ### The first match of a search -/

section First

variable [DecidableEq α] {nl : α} {p : Pattern α β}

/-- The place after a text is the start of a line. The flag is for the empty text. -/
def Starts (nl : α) (b : Bool) (u : List α) : Prop := (u = [] ∧ b = true) ∨ u.getLast? = some nl

omit [DecidableEq α] in
theorem starts_nil {b : Bool} : Starts nl b [] ↔ b = true := by simp [Starts]

theorem starts_cons {b : Bool} {a : α} {u : List α} :
    Starts nl b (a :: u) ↔ Starts nl (a = nl) u := by
  cases u with
  | nil => simp [Starts]
  | cons c u => simp [Starts, List.getLast?_cons_cons]

/-- The first match is at a line start, and there is none at a line start before it. -/
theorem searchFrom_eq_some_iff {b : Bool} {l u : List α} {y : β × List α} :
    searchFrom nl p b l = some (u, y) ↔ ∃ s, l = u ++ s ∧ Starts nl b u ∧ first p s = some y ∧
      ∀ v t, l = v ++ t → Starts nl b v → v.length < u.length → first p t = none := by
  induction l generalizing b u with
  | nil =>
    rw [searchFrom]
    constructor
    · intro h
      split_ifs at h with hb
      obtain ⟨z, hz, heq⟩ := Option.map_eq_some_iff.1 h
      obtain ⟨rfl, rfl⟩ := Prod.mk.inj heq
      exact ⟨[], rfl, starts_nil.2 hb, hz, fun v t _ _ hlt => absurd hlt (Nat.not_lt_zero _)⟩
    · rintro ⟨s, hl, hstart, hfirst, -⟩
      obtain ⟨rfl, rfl⟩ := List.append_eq_nil_iff.1 hl.symm
      rw [if_pos (starts_nil.1 hstart), hfirst]
      rfl
  | cons a l ih =>
    rw [searchFrom]
    cases hhere : (if b then first p (a :: l) else none) with
    | some z =>
      have hb : b = true ∧ first p (a :: l) = some z := by
        split_ifs at hhere with hb
        exact ⟨hb, hhere⟩
      constructor
      · intro h
        obtain ⟨rfl, rfl⟩ := Prod.mk.inj (Option.some.inj h)
        exact ⟨a :: l, rfl, starts_nil.2 hb.1, hb.2,
          fun v t _ _ hlt => absurd hlt (Nat.not_lt_zero _)⟩
      · rintro ⟨s, hl, -, hfirst, hbefore⟩
        cases u with
        | nil =>
          rw [List.nil_append] at hl
          rw [← hl, hb.2] at hfirst
          rw [Option.some.inj hfirst]
        | cons c u =>
          have hnone := hbefore [] (a :: l) rfl (starts_nil.2 hb.1) (Nat.succ_pos _)
          rw [hb.2] at hnone
          cases hnone
    | none =>
      constructor
      · intro h
        obtain ⟨⟨u', y'⟩, hrec, heq⟩ := Option.map_eq_some_iff.1 h
        obtain ⟨rfl, rfl⟩ := Prod.mk.inj heq
        obtain ⟨s, hl, hstart, hfirst, hbefore⟩ := ih.1 hrec
        refine ⟨s, by rw [hl]; rfl, starts_cons.2 hstart, hfirst, fun v t hvt hv hlt => ?_⟩
        cases v with
        | nil =>
          rw [if_pos (starts_nil.1 hv)] at hhere
          rwa [show t = a :: l from hvt.symm]
        | cons c v =>
          obtain ⟨rfl, hl'⟩ := List.cons.inj hvt
          exact hbefore v t hl' (starts_cons.1 hv) (Nat.lt_of_succ_lt_succ hlt)
      · rintro ⟨s, hl, hstart, hfirst, hbefore⟩
        cases u with
        | nil =>
          rw [List.nil_append] at hl
          rw [if_pos (starts_nil.1 hstart), hl, hfirst] at hhere
          cases hhere
        | cons c u =>
          obtain ⟨rfl, hl'⟩ := List.cons.inj hl
          have hrec : searchFrom nl p (a = nl) l = some (u, y) := by
            refine ih.2 ⟨s, hl', starts_cons.1 hstart, hfirst, fun v t hvt hv hlt => ?_⟩
            exact hbefore (a :: v) t (by rw [hvt]; rfl) (starts_cons.2 hv) (Nat.succ_lt_succ hlt)
          rw [hrec]
          rfl

theorem search_eq_some_iff {l u : List α} {y : β × List α} :
    search nl p l = some (u, y) ↔ ∃ s, l = u ++ s ∧ Starts nl true u ∧ first p s = some y ∧
      ∀ v t, l = v ++ t → Starts nl true v → v.length < u.length → first p t = none :=
  searchFrom_eq_some_iff

end First

/-! ### Lines -/

section Lines

variable [DecidableEq α] {nl : α} {p : Pattern α β}

theorem mem_starts {b : Bool} {l s : List α} :
    s ∈ starts nl b l ↔ ∃ u, l = u ++ s ∧ Starts nl b u := by
  induction l generalizing b with
  | nil =>
    rw [starts]
    constructor
    · intro h
      split_ifs at h with hb
      · exact ⟨[], (List.mem_singleton.1 h).symm, starts_nil.2 hb⟩
      · exact absurd h List.not_mem_nil
    · rintro ⟨u, hl, hu⟩
      obtain ⟨rfl, rfl⟩ := List.append_eq_nil_iff.1 hl.symm
      rw [if_pos (starts_nil.1 hu)]
      exact List.mem_singleton.2 rfl
  | cons a l ih =>
    rw [starts, List.mem_append, ih]
    constructor
    · rintro (h | ⟨u, rfl, hu⟩)
      · split_ifs at h with hb
        · exact ⟨[], (List.mem_singleton.1 h).symm, starts_nil.2 hb⟩
        · exact absurd h List.not_mem_nil
      · exact ⟨a :: u, rfl, starts_cons.2 hu⟩
    · rintro ⟨u, hl, hu⟩
      cases u with
      | nil =>
        rw [if_pos (starts_nil.1 hu)]
        exact .inl (List.mem_singleton.2 hl.symm)
      | cons c u =>
        obtain ⟨rfl, htail⟩ := List.cons.inj hl
        exact .inr ⟨u, htail, starts_cons.1 hu⟩

theorem starts_append {b : Bool} {u l : List α} (hu : u.getLast? = some nl) :
    starts nl b (u ++ l) = ((starts nl b u).filter (· ≠ [])).map (· ++ l) ++ starts nl true l := by
  induction u generalizing b with
  | nil => cases hu
  | cons a u ih =>
    cases u with
    | nil =>
      obtain rfl : a = nl := by simpa using hu
      cases b <;> simp [starts]
    | cons c u =>
      rw [List.getLast?_cons_cons] at hu
      rw [List.cons_append, starts, starts, ih hu]
      cases b <;> simp

theorem nl_mem_of_mem_starts {b : Bool} {u s : List α} (hu : u.getLast? = some nl)
    (hs : s ∈ (starts nl b u).filter (· ≠ [])) : nl ∈ s := by
  induction u generalizing b with
  | nil => cases hu
  | cons a u ih =>
    have hlast : nl ∈ a :: u := List.mem_of_getLast? hu
    rw [starts, List.filter_append, List.mem_append] at hs
    rcases hs with hs | hs
    · cases b with
      | false => simp at hs
      | true =>
        have hself : s = a :: u := by simpa using hs
        rw [hself]
        exact hlast
    · cases u with
      | nil =>
        by_cases ha : a = nl <;> simp [starts, ha] at hs
      | cons c u =>
        rw [List.getLast?_cons_cons] at hu
        exact ih hu hs

omit [DecidableEq α] in
theorem takeWhile_append_of_mem {q : α → Bool} {a : α} {u l : List α} (ha : a ∈ u)
    (hq : q a = false) :
    (u ++ l).takeWhile q = u.takeWhile q ∧ (u ++ l).dropWhile q = u.dropWhile q ++ l := by
  induction u with
  | nil => exact absurd ha List.not_mem_nil
  | cons c u ih =>
    rw [List.cons_append]
    by_cases hc : q c = true
    · have hmem : a ∈ u := (List.mem_cons.1 ha).resolve_left fun h => by simp [← h, hq] at hc
      obtain ⟨htake, hdrop⟩ := ih hmem
      simp only [List.takeWhile_cons_of_pos hc, List.dropWhile_cons_of_pos hc, htake, hdrop,
        and_self]
    · simp [hc]

theorem lines_append {u l : List α} (hu : u.getLast? = some nl) :
    lines nl (u ++ l) = lines nl u ++ lines nl l := by
  rw [lines, starts_append hu, List.filter_append, List.map_append, List.filter_map]
  have hfilter : ((starts nl true u).filter (· ≠ [])).filter
      ((fun s => decide (s ≠ [])) ∘ (· ++ l)) = (starts nl true u).filter (· ≠ []) := by
    rw [List.filter_eq_self]
    intro s hs
    have hne : s ≠ [] := by simpa using (List.mem_filter.1 hs).2
    simp [hne]
  rw [hfilter, List.map_map, lines, lines]
  refine congrArg (· ++ _) (List.map_congr_left fun s hs => ?_)
  exact (takeWhile_append_of_mem (nl_mem_of_mem_starts hu hs) (by simp)).1

theorem starts_of_notMem {l : List α} (h : nl ∉ l) (hne : l ≠ []) (b : Bool) :
    starts nl b l = if b then [l] else [] := by
  induction l generalizing b with
  | nil => exact absurd rfl hne
  | cons a l ih =>
    obtain ⟨ha, hl⟩ := not_or.1 (mt List.mem_cons.2 h)
    rw [starts, decide_eq_false (Ne.symm ha)]
    cases l with
    | nil => simp [starts]
    | cons c l => simp [ih hl (List.cons_ne_nil c l)]

theorem lines_of_notMem {l : List α} (hne : l ≠ []) (h : nl ∉ l) : lines nl l = [l] := by
  have htake : l.takeWhile (· ≠ nl) = l := by
    rw [List.takeWhile_eq_self_iff]
    exact fun a ha => by simpa using fun heq : a = nl => h (heq ▸ ha)
  rw [lines, starts_of_notMem h hne, if_pos rfl, List.filter_singleton, decide_eq_true hne]
  exact congrArg (fun x => [x]) htake

theorem starts_snoc (b : Bool) (l : List α) :
    starts nl b (l ++ [nl]) = (starts nl b l).map (· ++ [nl]) ++ [[]] := by
  induction l generalizing b with
  | nil => cases b <;> simp [starts]
  | cons a l ih =>
    rw [List.cons_append, starts, starts, ih]
    cases b <;> simp

/-- A newline at the end of a text that ends within a line. -/
theorem lines_snoc {l : List α} (hne : l ≠ []) (hl : l.getLast? ≠ some nl) :
    lines nl (l ++ [nl]) = lines nl l := by
  have htake (s : List α) : (s ++ [nl]).takeWhile (· ≠ nl) = s.takeWhile (· ≠ nl) := by
    have hstop : [nl].takeWhile (· ≠ nl) = [] := List.takeWhile_cons_of_neg (by simp)
    rw [List.takeWhile_append, hstop, List.append_nil]
    split_ifs with h
    · exact ((List.takeWhile_prefix _).eq_of_length h).symm
    · rfl
  have hfull : (starts nl true l).filter (· ≠ []) = starts nl true l := by
    rw [List.filter_eq_self]
    intro s hs
    rw [decide_eq_true_eq]
    rintro rfl
    obtain ⟨u, hu, hstart⟩ := mem_starts.1 hs
    rw [List.append_nil] at hu
    rcases hstart with ⟨hnil, -⟩ | hlast
    · exact hne (hu.trans hnil)
    · exact hl (hu ▸ hlast)
  have hsnoc : (starts nl true (l ++ [nl])).filter (· ≠ []) =
      (starts nl true l).map (· ++ [nl]) := by
    rw [starts_snoc, List.filter_append, List.filter_eq_self.2 fun s hs => by
      obtain ⟨t, -, rfl⟩ := List.mem_map.1 hs
      simp]
    simp
  rw [lines, lines, hsnoc, hfull, List.map_map]
  exact List.map_congr_left fun s _ => htake s

theorem starts_line {l : List α} (h : nl ∉ l) (r : List α) (b : Bool) :
    starts nl b (l ++ nl :: r) = (if b then [l ++ nl :: r] else []) ++ starts nl true r := by
  induction l generalizing b with
  | nil => simp [starts]
  | cons a l ih =>
    obtain ⟨ha, hl⟩ := not_or.1 (mt List.mem_cons.2 h)
    rw [List.cons_append, starts, decide_eq_false (Ne.symm ha), ih hl]
    rfl

theorem lines_line {l : List α} (h : nl ∉ l) (r : List α) :
    lines nl (l ++ nl :: r) = l :: lines nl r := by
  have htake : (l ++ nl :: r).takeWhile (· ≠ nl) = l := by
    rw [List.takeWhile_append_of_pos fun a ha => by simpa using fun heq : a = nl => h (heq ▸ ha),
      List.takeWhile_cons_of_neg (by simp), List.append_nil]
  rw [lines, starts_line h, if_pos rfl, List.singleton_append,
    List.filter_cons_of_pos (by simp), List.map_cons, htake, lines]

end Lines

/-! ### All matches -/

section All

variable [DecidableEq α] {nl : α} {p : Pattern α β}

theorem findAllFrom_skip {u : List α} (hu : u ≠ []) (b : Bool) (r : List α) :
    findAllFrom nl p u.length b (u ++ r) = findAllFrom nl p 0 (u.getLast? = some nl) r := by
  induction u generalizing b with
  | nil => exact absurd rfl hu
  | cons a u ih =>
    rw [List.cons_append, List.length_cons, findAllFrom]
    cases u with
    | nil => simp
    | cons c u => rw [ih (List.cons_ne_nil c u), List.getLast?_cons_cons]

/-- The line starts inside of a text. -/
theorem starts_inside (nl : α) {u : List α} (hu : u ≠ []) (r : List α) (b : Bool) :
    ∃ inner, starts nl b (u ++ r) = (if b then [u ++ r] else []) ++ inner ++
        starts nl (u.getLast? = some nl) r ∧
      ∀ s ∈ inner, ∃ v w, v ≠ [] ∧ w ≠ [] ∧ u = v ++ w ∧ v.getLast? = some nl ∧ s = w ++ r := by
  induction u generalizing b with
  | nil => exact absurd rfl hu
  | cons a u ih =>
    cases u with
    | nil => exact ⟨[], by simp [starts], fun s hs => absurd hs List.not_mem_nil⟩
    | cons c u =>
      obtain ⟨inner, hstarts, hinner⟩ := ih (List.cons_ne_nil c u) (a = nl)
      refine ⟨(if a = nl then [c :: u ++ r] else []) ++ inner, ?_, fun s hs => ?_⟩
      · rw [List.cons_append, starts, hstarts, List.getLast?_cons_cons]
        simp
      · rcases List.mem_append.1 hs with hs | hs
        · split_ifs at hs with ha
          · exact ⟨[a], c :: u, by simp, by simp, rfl, by simp [ha], List.mem_singleton.1 hs⟩
          · exact absurd hs List.not_mem_nil
        · obtain ⟨v, w, hv, hw, hvw, hlast, rfl⟩ := hinner s hs
          refine ⟨a :: v, w, by simp, hw, by rw [hvw]; rfl, ?_, rfl⟩
          obtain ⟨d, v, rfl⟩ := List.exists_cons_of_ne_nil hv
          rwa [List.getLast?_cons_cons]

/-- If no match covers the start of another one, all line starts with a match are found. -/
theorem length_findAllFrom (hnil : first p [] = none)
    (hsuffix : ∀ s y, first p s = some y → ∃ u, u ≠ [] ∧ s = u ++ y.2 ∧
      ∀ v w, v ≠ [] → w ≠ [] → u = v ++ w → v.getLast? = some nl → first p (w ++ y.2) = none)
    (b : Bool) (l : List α) :
    (findAllFrom nl p 0 b l).length = (starts nl b l).countP fun s => (first p s).isSome := by
  induction hn : l.length using Nat.strong_induction_on generalizing b l with
  | _ n ih =>
    cases l with
    | nil => cases b <;> simp [findAllFrom, starts, hnil]
    | cons a l =>
      rw [findAllFrom]
      cases hhere : (if b then first p (a :: l) else none) with
      | none =>
        have hrec := ih l.length (by rw [← hn]; exact Nat.lt_succ_self _) (a = nl) l rfl
        rw [starts, List.countP_append, ← hrec]
        cases b with
        | false => simp
        | true => simp [show first p (a :: l) = none from hhere]
      | some y =>
        obtain ⟨rfl, hfirst⟩ : b = true ∧ first p (a :: l) = some y := by
          split_ifs at hhere with hb
          exact ⟨hb, hhere⟩
        obtain ⟨u, hu, hl, hcover⟩ := hsuffix _ _ hfirst
        obtain ⟨c, u, rfl⟩ := List.exists_cons_of_ne_nil hu
        rw [List.cons_append] at hl
        obtain ⟨rfl, rfl⟩ := List.cons.inj hl
        obtain ⟨inner, hstarts, hinner⟩ := starts_inside nl hu y.2 true
        have hlength : (u ++ y.2).length - y.2.length = u.length := by
          rw [List.length_append, Nat.add_sub_cancel]
        have hskip : findAllFrom nl p u.length (a = nl) (u ++ y.2) =
            findAllFrom nl p 0 ((a :: u).getLast? = some nl) y.2 := findAllFrom_skip hu true y.2
        have hnone : inner.countP (fun s => (first p s).isSome) = 0 := by
          rw [List.countP_eq_zero]
          intro s hs
          obtain ⟨v, w, hv, hw, hvw, hlast, rfl⟩ := hinner s hs
          rw [hcover v w hv hw hvw hlast]
          exact Bool.false_ne_true
        have hrec := ih y.2.length (by rw [← hn, List.length_cons, List.length_append]; omega)
          ((a :: u).getLast? = some nl) y.2 rfl
        change (y :: findAllFrom nl p ((u ++ y.2).length - y.2.length) (a = nl)
          (u ++ y.2)).length = _
        rw [hlength, hskip, List.length_cons, hrec, ← List.cons_append, hstarts,
          List.countP_append, List.countP_append, hnone, if_pos rfl, List.countP_singleton,
          List.cons_append, hfirst, Option.isSome_some, if_pos rfl]
        omega

theorem mem_findAllFrom {b : Bool} {l : List α} {k : ℕ} {y : β × List α}
    (h : y ∈ findAllFrom nl p k b l) : ∃ s ∈ starts nl b l, first p s = some y := by
  induction l generalizing k b with
  | nil =>
    cases k with
    | zero =>
      rw [findAllFrom] at h
      split_ifs at h with hb
      · exact ⟨[], by simp [starts, hb], by simpa using h⟩
      · exact absurd h List.not_mem_nil
    | succ k => exact absurd h List.not_mem_nil
  | cons a l ih =>
    have hrest {k : ℕ} (h : y ∈ findAllFrom nl p k (a = nl) l) :
        ∃ s ∈ starts nl b (a :: l), first p s = some y := by
      obtain ⟨s, hs, hy⟩ := ih h
      exact ⟨s, List.mem_append_right _ hs, hy⟩
    cases k with
    | succ k => exact hrest h
    | zero =>
      rw [findAllFrom] at h
      cases hhere : (if b then first p (a :: l) else none) with
      | none =>
        rw [hhere] at h
        exact hrest h
      | some z =>
        rw [hhere] at h
        rcases List.mem_cons.1 h with rfl | h
        · split_ifs at hhere with hb
          exact ⟨a :: l, by simp [starts, hb], hhere⟩
        · exact hrest h

/-- The number of matches by lines, for a pattern that the first line decides about. -/
theorem countP_lines {q : List α → Bool} (hnil : q [] = false) {l : List α}
    (hq : ∀ s ∈ starts nl true l, (first p s).isSome = q (s.takeWhile (· ≠ nl))) :
    (starts nl true l).countP (fun s => (first p s).isSome) = (lines nl l).countP q := by
  rw [lines, List.countP_map, List.countP_filter]
  refine List.countP_congr fun s hs => ?_
  rw [hq s hs]
  by_cases hne : s = []
  · subst hne
    simp [hnil]
  · simp [hne]

end All

/-! ### Longer texts -/

section Through

/-- The pattern matches the same parts of a text with more text after it. -/
def Through (p : Pattern α β) (s l : List α) : Prop :=
  p (s ++ l) = (p s).map fun x => (x.1, x.2 ++ l)

variable {p : Pattern α β} {f : β → Pattern α γ} {q : α → Bool} {s l : List α}

theorem through_pure (b : β) : Through (pure b : Pattern α β) s l := rfl

theorem Through.bind (h : Through p s l) (hf : ∀ x ∈ p s, Through (f x.1) x.2 l) :
    Through (p >>= f) s l := by
  rw [Through, bind_apply, bind_apply, h, List.flatMap_map, List.map_flatMap]
  exact List.flatMap_congr hf

theorem through_many (h : (∃ a ∈ s, q a = false) ∨ ∀ a ∈ l.head?, q a = false) :
    Through (many q) s l := by
  induction s with
  | nil =>
    have hl := h.resolve_left fun ⟨a, ha, _⟩ => absurd ha List.not_mem_nil
    exact greedy_of_stop hl
  | cons a s ih =>
    change greedy q (a :: (s ++ l)) = (greedy q (a :: s)).map fun x => (x.1, x.2 ++ l)
    rw [greedy, greedy]
    by_cases ha : q a = true
    · have hrest : (∃ b ∈ s, q b = false) ∨ ∀ b ∈ l.head?, q b = false := by
        refine h.imp_left fun ⟨b, hb, hq⟩ => ⟨b, (List.mem_cons.1 hb).resolve_left ?_, hq⟩
        rintro rfl
        rw [ha] at hq
        cases hq
      have hrec : greedy q (s ++ l) = (greedy q s).map fun x => (x.1, x.2 ++ l) := ih hrest
      rw [if_pos ha, if_pos ha, hrec, List.map_append, List.map_map, List.map_map]
      rfl
    · rw [if_neg ha, if_neg ha]
      rfl

theorem through_many1 (h : (∃ a ∈ s, q a = false) ∨ ∀ a ∈ l.head?, q a = false) :
    Through (many1 q) s l := by
  have hmany := through_many h
  change (many q (s ++ l)).filter _ = ((many q s).filter _).map _
  rw [hmany, List.filter_map]
  rfl

theorem through_oneOf (h : s ≠ [] ∨ ∀ a ∈ l.head?, q a = false) : Through (oneOf q) s l := by
  cases s with
  | nil =>
    have hl := h.resolve_left fun hne => hne rfl
    cases l with
    | nil => rfl
    | cons a l => simp [Through, oneOf, hl a rfl]
  | cons a s =>
    change (if q a then _ else _) = (if q a then _ else _ : List _).map _
    split_ifs <;> rfl

theorem through_optional (h : Through p s l) : Through (optional p) s l := by
  change (p (s ++ l)).map _ ++ _ = ((p s).map _ ++ _).map _
  rw [h, List.map_append, List.map_map, List.map_map]
  rfl

theorem first_then (p : Pattern α β) (t : Pattern α γ) (l : List α) :
    first (p >>= fun b => t >>= fun _ => pure b) l =
      (p l).findSome? fun x => (first t x.2).map fun y => (x.1, y.2) := by
  rw [first_bind]
  refine congrArg (fun g => (p l).findSome? g) (funext fun x => ?_)
  change (List.flatMap (fun y => [(x.1, y.2)]) (t x.2)).head? = (List.head? (t x.2)).map _
  cases t x.2 <;> rfl

variable [DecidableEq α]

theorem through_word {w : List α} (h : w <+: s ++ l → w <+: s) : Through (word w) s l := by
  by_cases hw : w <+: s
  · obtain ⟨r, rfl⟩ := hw
    rw [Through, List.append_assoc, word_append, word_append]
    rfl
  · rw [Through, word_eq_nil hw, word_eq_nil fun hc => hw (h hc)]
    rfl

/-- A word that the text after does not go on with. -/
theorem through_word_of_head {w : List α} (h : ∀ a ∈ l.head?, a ∉ w) : Through (word w) s l := by
  refine through_word fun hw => ?_
  rcases List.prefix_or_prefix_of_prefix hw (List.prefix_append s l) with hs | ⟨y, rfl⟩
  · exact hs
  · rw [List.prefix_append_right_inj] at hw
    cases y with
    | nil => rw [List.append_nil]
    | cons a y =>
      obtain ⟨r, hr⟩ := hw
      exact absurd (by simp) (h a (by rw [← hr]; rfl))

/-- A word within a line, in a text that ends a line. -/
theorem through_word_of_line {w : List α} {nl : α} (hw : nl ∉ w) (hs : s.getLast? = some nl) :
    Through (word w) s l := by
  refine through_word fun hpre => ?_
  rcases List.prefix_or_prefix_of_prefix hpre (List.prefix_append s l) with h | h
  · exact h
  · exact absurd (h.subset (List.mem_of_getLast? hs)) hw

omit [DecidableEq α] in
theorem capture_eq_none_iff {l : List α} : capture p l = none ↔ first p l = none :=
  Option.map_eq_none_iff

/-- A search finds the same place in a text that goes on differently there. -/
theorem search_transfer {nl : α} {a s s' : List α} {y y' : β × List α}
    (h : search nl p (a ++ s) = some (a, y))
    (hthrough : ∀ u, u.getLast? = some nl → capture p (u ++ s') = capture p (u ++ s))
    (hfirst : first p s' = some y') : search nl p (a ++ s') = some (a, y') := by
  obtain ⟨t, ht, hstart, -, hbefore⟩ := search_eq_some_iff.1 h
  obtain rfl := List.append_cancel_left ht
  refine search_eq_some_iff.2 ⟨s', rfl, hstart, hfirst, fun v t hvt hv hlt => ?_⟩
  obtain ⟨u, rfl⟩ : ∃ u, a = v ++ u := by
    rcases List.append_eq_append_iff.1 hvt with ⟨u, rfl, -⟩ | ⟨u, hu, -⟩
    · rw [List.length_append] at hlt
      omega
    · exact ⟨u, hu⟩
  rw [List.append_assoc] at hvt
  obtain rfl := List.append_cancel_left hvt
  have hu : u ≠ [] := by
    rintro rfl
    simp at hlt
  have hlast : u.getLast? = some nl := by
    rcases hstart with ⟨hnil, -⟩ | hlast
    · exact absurd (List.append_eq_nil_iff.1 hnil).2 hu
    · rwa [List.getLast?_append_of_ne_nil _ hu] at hlast
  have hnone := hbefore v (u ++ s) (by rw [List.append_assoc]) hv hlt
  rwa [← capture_eq_none_iff, hthrough u hlast, capture_eq_none_iff]

omit [DecidableEq α] in
/-- What is captured does not change if the tail of the pattern goes through in the same cases. -/
theorem capture_then {t : Pattern α γ} (h : Through p s l)
    (ht : ∀ x ∈ p s, (first t (x.2 ++ l)).isSome = (first t x.2).isSome) :
    capture (p >>= fun b => t >>= fun _ => pure b) (s ++ l) =
      capture (p >>= fun b => t >>= fun _ => pure b) s := by
  rw [capture, capture, first_then, first_then, h, List.findSome?_map]
  generalize hx : p s = xs at ht
  clear hx h
  induction xs with
  | nil => rfl
  | cons x xs ih =>
    have hhead := ht x List.mem_cons_self
    have htail := ih fun y hy => ht y (List.mem_cons_of_mem x hy)
    rw [List.findSome?_cons, List.findSome?_cons, Function.comp_apply]
    cases hfirst : first t x.2 with
    | none =>
      rw [hfirst, Option.isSome_none, Option.isSome_eq_false_iff, Option.isNone_iff_eq_none] at hhead
      rw [hhead]
      exact htail
    | some y =>
      rw [hfirst, Option.isSome_some] at hhead
      obtain ⟨z, hz⟩ := Option.isSome_iff_exists.1 hhead
      rw [hz]
      rfl

end Through

end Yggdrasil.Backtrack
