import Mathlib.Data.List.Infix

/-! Edits of a text at the occurrences of a word: counting them, replacing the first and
replacing all. Everything is read off the tokens of the text, its leftmost occurrences without
overlap and the characters between them. A seam that the word cannot straddle splits the tokens. -/

namespace Yggdrasil.Splice

variable {α : Type} [DecidableEq α]

/-- The occurrences of `p`, which are `none`, and the characters between them. The number counts
the characters that belong to the last occurrence. -/
def tokens (p : List α) : ℕ → List α → List (Option α)
  | _, [] => []
  | k + 1, _ :: l => tokens p k l
  | 0, a :: l =>
    if p.isPrefixOf (a :: l) then none :: tokens p (p.length - 1) l else some a :: tokens p 0 l

/-- Put a text in the place of every occurrence. -/
def fill (q : List α) (ts : List (Option α)) : List α := ts.flatMap fun o => o.elim q ([·])

/-- Put `q` in the place of the first occurrence of `p`. -/
def fillFirst (p q : List α) : List (Option α) → List α
  | [] => []
  | none :: ts => q ++ fill p ts
  | some a :: ts => a :: fillFirst p q ts

def count (p l : List α) : ℕ := (tokens p 0 l).count none

def replaceAll (p q l : List α) : List α := fill q (tokens p 0 l)

def replaceFirst (p q l : List α) : List α := fillFirst p q (tokens p 0 l)

variable {p q l m : List α}

/-! ### Tokens -/

theorem tokens_skip : ∀ (k : ℕ) (l : List α), tokens p k l = tokens p 0 (l.drop k)
  | 0, l => by rw [List.drop_zero]
  | k + 1, [] => by rw [List.drop_nil, tokens, tokens]
  | k + 1, _ :: l => by rw [tokens, List.drop_succ_cons, tokens_skip k l]

theorem tokens_of_prefix (hp : p ≠ []) (l : List α) :
    tokens p 0 (p ++ l) = none :: tokens p 0 l := by
  obtain ⟨a, p', rfl⟩ := List.exists_cons_of_ne_nil hp
  rw [List.cons_append, tokens, if_pos (by simp), tokens_skip]
  simp

theorem tokens_cons_of_not {a : α} (h : ¬p <+: a :: l) :
    tokens p 0 (a :: l) = some a :: tokens p 0 l := by
  rw [tokens, if_neg (by rwa [List.isPrefixOf_iff_prefix])]

/-- The tokens put together again. -/
theorem fill_tokens (hp : p ≠ []) : ∀ l : List α, fill p (tokens p 0 l) = l
  | [] => rfl
  | a :: l => by
    by_cases h : p <+: a :: l
    · obtain ⟨r, hr⟩ := h
      have hlt : r.length < (a :: l).length := by
        rw [← hr, List.length_append]
        have := List.length_pos_iff.2 hp
        omega
      rw [← hr, tokens_of_prefix hp]
      exact congrArg (p ++ ·) (fill_tokens hp r)
    · rw [tokens_cons_of_not h]
      exact congrArg (a :: ·) (fill_tokens hp l)
  termination_by l => l.length
  decreasing_by
    · exact hlt
    · exact Nat.lt_succ_self _

omit [DecidableEq α] in
theorem fill_append (q : List α) (ts us : List (Option α)) :
    fill q (ts ++ us) = fill q ts ++ fill q us := List.flatMap_append

omit [DecidableEq α] in
theorem fillFirst_append_of_mem {ts us : List (Option α)} (h : none ∈ ts) :
    fillFirst p q (ts ++ us) = fillFirst p q ts ++ fill p us := by
  induction ts with
  | nil => exact absurd h List.not_mem_nil
  | cons o ts ih =>
    cases o with
    | none => simp [fillFirst, fill_append]
    | some a =>
      have h' : none ∈ ts := by simpa using h
      simp [fillFirst, ih h']

omit [DecidableEq α] in
theorem fillFirst_append_of_notMem {ts us : List (Option α)} (h : none ∉ ts) :
    fillFirst p q (ts ++ us) = fill p ts ++ fillFirst p q us := by
  induction ts with
  | nil => rfl
  | cons o ts ih =>
    cases o with
    | none => exact absurd List.mem_cons_self h
    | some a =>
      have h' : none ∉ ts := fun hm => h (List.mem_cons_of_mem _ hm)
      simp [fillFirst, ih h', fill]

/-! ### Seams -/

/-- No occurrence of `p` straddles the seam between `l` and `m`. -/
def Seam (p l m : List α) : Prop :=
  ∀ x y, p = x ++ y → x ≠ [] → y ≠ [] → x <:+ l → ¬y <+: m

omit [DecidableEq α] in
theorem Seam.of_suffix {l' : List α} (h : Seam p l m) (hl : l' <:+ l) : Seam p l' m :=
  fun x y hp hx hy hs => h x y hp hx hy (hs.trans hl)

omit [DecidableEq α] in
/-- A word at the start of a text with such a seam lies before the seam. -/
theorem Seam.prefix_left (h : Seam p l m) (hl : l ≠ []) (hpre : p <+: l ++ m) : p <+: l := by
  rcases List.prefix_or_prefix_of_prefix hpre (List.prefix_append l m) with hpl | hlp
  · exact hpl
  · obtain ⟨y, hy⟩ := hlp
    by_cases hnil : y = []
    · rw [← hy, hnil, List.append_nil]
    · rw [← hy, List.prefix_append_right_inj] at hpre
      exact absurd hpre (h l y hy.symm hl hnil List.suffix_rfl)

theorem tokens_append (hp : p ≠ []) :
    ∀ {l : List α}, Seam p l m → tokens p 0 (l ++ m) = tokens p 0 l ++ tokens p 0 m
  | [], _ => rfl
  | a :: l, h => by
    by_cases hpre : p <+: a :: l
    · obtain ⟨r, hr⟩ := hpre
      have hlt : r.length < (a :: l).length := by
        rw [← hr, List.length_append]
        have := List.length_pos_iff.2 hp
        omega
      have hseam : Seam p r m := h.of_suffix ⟨p, hr⟩
      rw [← hr, List.append_assoc, tokens_of_prefix hp, tokens_of_prefix hp, tokens_append hp hseam]
      rfl
    · have hpre' : ¬p <+: a :: (l ++ m) := fun hc => hpre (h.prefix_left (List.cons_ne_nil a l) hc)
      have hseam : Seam p l m := h.of_suffix (List.suffix_cons a l)
      rw [List.cons_append, tokens_cons_of_not hpre', tokens_cons_of_not hpre,
        tokens_append hp hseam]
      rfl
  termination_by l => l.length
  decreasing_by
    · exact hlt
    · exact Nat.lt_succ_self _

theorem count_append (hp : p ≠ []) (h : Seam p l m) :
    count p (l ++ m) = count p l + count p m := by
  rw [count, tokens_append hp h, List.count_append]
  rfl

theorem replaceAll_append (hp : p ≠ []) (h : Seam p l m) :
    replaceAll p q (l ++ m) = replaceAll p q l ++ replaceAll p q m := by
  rw [replaceAll, tokens_append hp h, fill_append]
  rfl

theorem count_pos_iff_mem : 0 < count p l ↔ none ∈ tokens p 0 l := List.count_pos_iff

theorem replaceFirst_append_left (hp : p ≠ []) (h : Seam p l m) (hl : 0 < count p l) :
    replaceFirst p q (l ++ m) = replaceFirst p q l ++ m := by
  rw [replaceFirst, tokens_append hp h, fillFirst_append_of_mem (count_pos_iff_mem.1 hl),
    fill_tokens hp]
  rfl

theorem replaceFirst_append_right (hp : p ≠ []) (h : Seam p l m) (hl : count p l = 0) :
    replaceFirst p q (l ++ m) = l ++ replaceFirst p q m := by
  have hmem : none ∉ tokens p 0 l := fun hm => by
    have := count_pos_iff_mem.2 hm
    omega
  rw [replaceFirst, tokens_append hp h, fillFirst_append_of_notMem hmem, fill_tokens hp]
  rfl

/-! ### Occurrences -/

theorem occurs_of_count_pos (hp : p ≠ []) : ∀ {l : List α}, 0 < count p l → p <:+: l
  | [], h => absurd h (Nat.lt_irrefl 0)
  | a :: l, h => by
    by_cases hpre : p <+: a :: l
    · exact hpre.isInfix
    · rw [count, tokens_cons_of_not hpre, List.count_cons_of_ne (Option.some_ne_none a)] at h
      exact (occurs_of_count_pos hp h).trans (List.suffix_cons a l).isInfix

theorem count_pos_of_occurs (hp : p ≠ []) : ∀ {l : List α}, p <:+: l → 0 < count p l
  | [], h => absurd (List.infix_nil.1 h) hp
  | a :: l, h => by
    by_cases hpre : p <+: a :: l
    · obtain ⟨r, hr⟩ := hpre
      rw [← hr, count, tokens_of_prefix hp, List.count_cons_self]
      exact Nat.succ_pos _
    · rw [count, tokens_cons_of_not hpre, List.count_cons_of_ne (Option.some_ne_none a)]
      exact count_pos_of_occurs hp ((List.infix_cons_iff.1 h).resolve_left hpre)

theorem count_pos_iff (hp : p ≠ []) : 0 < count p l ↔ p <:+: l :=
  ⟨occurs_of_count_pos hp, count_pos_of_occurs hp⟩

theorem count_eq_zero_iff (hp : p ≠ []) : count p l = 0 ↔ ¬p <:+: l := by
  rw [← count_pos_iff hp]
  omega

/-- The text around the first occurrence. -/
theorem exists_first (hp : p ≠ []) :
    ∀ {l : List α}, 0 < count p l → ∃ a b, l = a ++ p ++ b ∧ count p a = 0 ∧
      (∀ q, replaceFirst p q l = a ++ q ++ b) ∧ count p l = 1 + count p b
  | [], h => absurd h (Nat.lt_irrefl 0)
  | c :: l, h => by
    by_cases hpre : p <+: c :: l
    · obtain ⟨r, hr⟩ := hpre
      refine ⟨[], r, by rw [List.nil_append, hr], rfl, fun q => ?_, ?_⟩
      · rw [← hr, replaceFirst, tokens_of_prefix hp, fillFirst, fill_tokens hp, List.nil_append]
      · rw [← hr, count, tokens_of_prefix hp, List.count_cons_self, count, Nat.add_comm]
    · have htokens := tokens_cons_of_not hpre
      have hcount : count p (c :: l) = count p l := by
        rw [count, htokens, List.count_cons_of_ne (Option.some_ne_none c)]
        rfl
      obtain ⟨a, b, hl, ha, hreplace, hb⟩ := exists_first hp (hcount ▸ h)
      have hpre' : ¬p <+: c :: a := fun hc => hpre (hc.trans ⟨p ++ b, by rw [hl]; simp⟩)
      refine ⟨c :: a, b, by rw [hl]; simp, ?_, fun q => ?_, hcount ▸ hb⟩
      · rw [count, tokens_cons_of_not hpre', List.count_cons_of_ne (Option.some_ne_none c)]
        exact ha
      · rw [replaceFirst, htokens, fillFirst]
        exact congrArg (c :: ·) (hreplace q)

theorem replaceFirst_of_count_zero (hp : p ≠ []) (h : count p l = 0) : replaceFirst p q l = l := by
  have hseam : Seam p l [] := fun _ _ _ _ hy _ hc => hy (List.prefix_nil.1 hc)
  have := replaceFirst_append_right (q := q) hp hseam h
  rwa [List.append_nil, show replaceFirst p q ([] : List α) = [] from rfl, List.append_nil] at this

/-! ### Words that do not straddle -/

/-- The two texts differ at a place that both have. -/
def differ : List α → List α → Bool
  | a :: l, b :: m => a != b || differ l m
  | _, _ => false

/-- No end of a text but the empty one fits the start of `q`. -/
def endsClear (q : List α) : List α → Bool
  | [] => true
  | a :: l => differ (a :: l) q && endsClear q l

/-- No proper end of `p` fits the start of `q`. -/
def leftClear (p q : List α) : Bool := endsClear q p.tail

/-- An occurrence of `p` lies inside an occurrence of `q` or apart from it. -/
def clear (p q : List α) : Bool := leftClear p q && leftClear p.reverse q.reverse

theorem not_prefix_of_differ : ∀ {l q : List α}, differ l q = true → ∀ b, ¬l <+: q ++ b
  | [], _, h, _ => by cases h
  | _ :: _, [], h, _ => by cases h
  | a :: l, c :: q, h, b => by
    intro hpre
    obtain ⟨rfl, hl⟩ := List.cons_prefix_cons.1 hpre
    rw [differ, bne_self_eq_false, Bool.false_or] at h
    exact not_prefix_of_differ h b hl

theorem differ_of_endsClear {y : List α} (hy : y ≠ []) :
    ∀ {l : List α}, endsClear q l = true → y <:+ l → differ y q = true
  | [], _, hs => absurd (List.suffix_nil.1 hs) hy
  | a :: l, h, hs => by
    rw [endsClear, Bool.and_eq_true] at h
    rcases List.suffix_cons_iff.1 hs with rfl | hs
    · exact h.1
    · exact differ_of_endsClear hy h.2 hs

theorem not_prefix_of_leftClear (h : leftClear p q = true) {x y : List α} (hp : p = x ++ y)
    (hx : x ≠ []) (hy : y ≠ []) (b : List α) : ¬y <+: q ++ b := by
  have hsuffix : y <:+ p.tail := by
    obtain ⟨c, x', rfl⟩ := List.exists_cons_of_ne_nil hx
    exact ⟨x', by rw [hp]; rfl⟩
  exact not_prefix_of_differ (differ_of_endsClear hy h hsuffix) b

theorem seam_before (h : clear p q = true) (a b : List α) : Seam p a (q ++ b) :=
  fun _ _ hp hx hy _ => not_prefix_of_leftClear (Bool.and_eq_true_iff.1 h).1 hp hx hy b

theorem seam_of_rightClear (h : leftClear p.reverse q.reverse = true) (a b : List α) :
    Seam p (a ++ q) b := by
  intro x y hp hx hy hs _
  have hrev : x.reverse <+: (a ++ q).reverse := List.reverse_prefix.2 hs
  rw [List.reverse_append] at hrev
  refine not_prefix_of_leftClear h (x := y.reverse) (y := x.reverse) ?_
    (by simpa using hy) (by simpa using hx) a.reverse hrev
  rw [hp, List.reverse_append]

theorem seam_after (h : clear p q = true) (a b : List α) : Seam p (a ++ q) b :=
  seam_of_rightClear (Bool.and_eq_true_iff.1 h).2 a b

section Clear

variable (h : clear p q = true) (hp : p ≠ []) (a b : List α)

include h hp

theorem count_insert : count p (a ++ q ++ b) = count p a + count p q + count p b := by
  have hq := seam_before h a []
  rw [List.append_nil] at hq
  rw [count_append hp (seam_after h a b), count_append hp hq]

theorem replaceFirst_before {r : List α} (ha : 0 < count p a) :
    replaceFirst p r (a ++ q ++ b) = replaceFirst p r a ++ q ++ b := by
  rw [List.append_assoc, replaceFirst_append_left hp (seam_before h a b) ha, List.append_assoc]

theorem replaceFirst_after {r : List α} (ha : count p a = 0) (hq : count p q = 0) :
    replaceFirst p r (a ++ q ++ b) = a ++ q ++ replaceFirst p r b := by
  have hseam := seam_after h [] b
  rw [List.nil_append] at hseam
  rw [List.append_assoc, replaceFirst_append_right hp (seam_before h a b) ha,
    replaceFirst_append_right hp hseam hq, List.append_assoc]

theorem replaceAll_insert {r : List α} :
    replaceAll p r (a ++ q ++ b) = replaceAll p r a ++ replaceAll p r q ++ replaceAll p r b := by
  have hq := seam_before h a []
  rw [List.append_nil] at hq
  rw [replaceAll_append hp (seam_after h a b), replaceAll_append hp hq]

end Clear

/-- Putting `r` in the place of `o` neither makes nor breaks an occurrence of `p`. -/
def inert (p o r : List α) : Bool :=
  !p.isEmpty && !o.isEmpty && clear p o && clear p r && count p o == count p r

theorem inert_of_count_zero {o r : List α} (hp : p ≠ []) (ho : o ≠ []) (hpo : clear p o = true)
    (hpr : clear p r = true) (hzo : count p o = 0) (hzr : count p r = 0) : inert p o r = true := by
  simp [inert, hp, ho, hpo, hpr, hzo, hzr]

theorem count_swap {o r : List α} (h : inert p o r = true) (a b : List α) :
    count p (a ++ r ++ b) = count p (a ++ o ++ b) := by
  simp only [inert, Bool.and_eq_true, Bool.not_eq_true', List.isEmpty_eq_false_iff,
    beq_iff_eq] at h
  obtain ⟨⟨⟨⟨hp, -⟩, hpo⟩, hpr⟩, heq⟩ := h
  rw [count_insert hpr hp, count_insert hpo hp, heq]

theorem count_replaceFirst_of_inert {o r : List α} (h : inert p o r = true) (l : List α) :
    count p (replaceFirst o r l) = count p l := by
  have ho : o ≠ [] := by
    simp only [inert, Bool.and_eq_true, Bool.not_eq_true', List.isEmpty_eq_false_iff] at h
    exact h.1.1.1.2
  rcases Nat.eq_zero_or_pos (count o l) with hl | hl
  · rw [replaceFirst_of_count_zero ho hl]
  · obtain ⟨a, b, rfl, -, hreplace, -⟩ := exists_first ho hl
    rw [hreplace, count_swap h]

/-- An addition after `o` neither makes nor breaks an occurrence of `p`. -/
def inertAfter (p o r : List α) : Bool :=
  !p.isEmpty && !o.isEmpty && leftClear p.reverse o.reverse && clear p r && count p r == 0

theorem count_replaceFirst_of_inertAfter {o r : List α} (h : inertAfter p o r = true)
    (l : List α) : count p (replaceFirst o (o ++ r) l) = count p l := by
  simp only [inertAfter, Bool.and_eq_true, Bool.not_eq_true', List.isEmpty_eq_false_iff,
    beq_iff_eq] at h
  obtain ⟨⟨⟨⟨hp, ho⟩, hpo⟩, hpr⟩, hzero⟩ := h
  rcases Nat.eq_zero_or_pos (count o l) with hl | hl
  · rw [replaceFirst_of_count_zero ho hl]
  · obtain ⟨a, b, rfl, -, hreplace, -⟩ := exists_first ho hl
    rw [hreplace, ← List.append_assoc a, count_insert hpr hp, hzero,
      count_append hp (seam_of_rightClear hpo a b), Nat.add_zero]

/-- The new text is in place. -/
theorem infix_replaceFirst {o r : List α} (ho : o ≠ []) (hl : 0 < count o l) :
    r <:+: replaceFirst o r l := by
  obtain ⟨a, b, -, -, hreplace, -⟩ := exists_first ho hl
  rw [hreplace]
  exact ⟨a, b, rfl⟩

theorem mem_replaceFirst {o r : List α} (ho : o ≠ []) {c : α} (h : c ∈ replaceFirst o r l) :
    c ∈ l ∨ c ∈ r := by
  rcases Nat.eq_zero_or_pos (count o l) with hl | hl
  · rw [replaceFirst_of_count_zero ho hl] at h
    exact .inl h
  · obtain ⟨a, b, rfl, -, hreplace, -⟩ := exists_first ho hl
    rw [hreplace] at h
    simp only [List.mem_append] at h ⊢
    rcases h with (h | h) | h
    · exact .inl (.inl (.inl h))
    · exact .inr h
    · exact .inl (.inr h)

theorem mem_of_mem_tokens {c : α} : ∀ (k : ℕ) {l : List α}, some c ∈ tokens p k l → c ∈ l
  | _, [], h => absurd h (by simp [tokens])
  | k + 1, a :: l, h => List.mem_cons_of_mem a (mem_of_mem_tokens k h)
  | 0, a :: l, h => by
    rw [tokens] at h
    split_ifs at h
    · have h' : some c ∈ tokens p (p.length - 1) l := by simpa using h
      exact List.mem_cons_of_mem a (mem_of_mem_tokens _ h')
    · rcases List.mem_cons.1 h with h | h
      · exact Option.some.inj h ▸ List.mem_cons_self
      · exact List.mem_cons_of_mem a (mem_of_mem_tokens 0 h)

theorem mem_replaceAll {c : α} (h : c ∈ replaceAll p q l) : c ∈ l ∨ c ∈ q := by
  obtain ⟨o, ho, hc⟩ := List.mem_flatMap.1 h
  cases o with
  | none => exact .inr hc
  | some a =>
    rw [show c = a by simpa using hc]
    exact .inl (mem_of_mem_tokens 0 ho)

theorem replaceAll_of_count_zero (hp : p ≠ []) (h : count p l = 0) : replaceAll p q l = l := by
  have hmem : none ∉ tokens p 0 l := fun hm => by
    have := count_pos_iff_mem.2 hm
    omega
  have hfill : ∀ ts : List (Option α), none ∉ ts → fill q ts = fill p ts := by
    intro ts hts
    refine List.flatMap_congr fun o ho => ?_
    cases o with
    | none => exact absurd ho hts
    | some a => rfl
  rw [replaceAll, hfill _ hmem, fill_tokens hp]

theorem replaceAll_self (hp : p ≠ []) : replaceAll p q p = q := by
  have h := tokens_of_prefix hp []
  rw [List.append_nil] at h
  rw [replaceAll, h]
  exact List.append_nil q

/-- A replacement of all occurrences passes over a text it is clear of. -/
theorem infix_replaceAll (h : clear p q = true) (hp : p ≠ []) (hq : count p q = 0) {r : List α}
    (hl : q <:+: l) : q <:+: replaceAll p r l := by
  obtain ⟨a, b, rfl⟩ := hl
  rw [replaceAll_insert h hp, replaceAll_of_count_zero hp hq]
  exact ⟨_, _, rfl⟩

theorem count_self (hp : p ≠ []) : count p p = 1 := by
  have h := tokens_of_prefix hp []
  rw [List.append_nil] at h
  rw [count, h]
  rfl

theorem replaceFirst_prefix (hp : p ≠ []) (l : List α) : replaceFirst p q (p ++ l) = q ++ l := by
  rw [replaceFirst, tokens_of_prefix hp, fillFirst, fill_tokens hp]

/-- The replacement of an occurrence before which there is none. -/
theorem replaceFirst_at (hp : p ≠ []) (hself : clear p p = true) {a : List α} (ha : count p a = 0)
    (b : List α) : replaceFirst p q (a ++ p ++ b) = a ++ q ++ b := by
  rw [List.append_assoc, replaceFirst_append_right hp (seam_before hself a b) ha,
    replaceFirst_prefix hp, List.append_assoc]

theorem count_zero_of_occurs (hp : p ≠ []) (h : l <:+: m) (hm : count p m = 0) : count p l = 0 := by
  rw [count_eq_zero_iff hp] at hm ⊢
  exact fun hc => hm (hc.trans h)

/-- A replacement that brings no new occurrence takes one away. -/
theorem count_replaceFirst_self (hp : p ≠ []) (hself : clear p p = true) (hc : clear p q = true)
    (hq : count p q = 0) : count p (replaceFirst p q l) = count p l - 1 := by
  rcases Nat.eq_zero_or_pos (count p l) with hl | hl
  · rw [replaceFirst_of_count_zero hp hl, hl]
  · obtain ⟨a, b, rfl, -, hreplace, -⟩ := exists_first hp hl
    rw [hreplace, count_insert hc hp, count_insert hself hp, hq, count_self hp]
    omega

theorem length_replaceFirst (hp : p ≠ []) (hl : 0 < count p l) :
    (replaceFirst p q l).length + p.length = l.length + q.length := by
  obtain ⟨a, b, rfl, -, hreplace, -⟩ := exists_first hp hl
  rw [hreplace]
  simp only [List.length_append]
  omega

/-- The replacement of the only occurrence. -/
theorem exists_only (hp : p ≠ []) (hself : clear p p = true) (hl : count p l = 1) :
    ∃ a b, l = a ++ p ++ b ∧ count p a = 0 ∧ count p b = 0 ∧
      ∀ q, replaceAll p q l = a ++ q ++ b := by
  obtain ⟨a, b, rfl, ha, -, hb⟩ := exists_first hp (l := l) (by omega)
  have hb' : count p b = 0 := by omega
  refine ⟨a, b, rfl, ha, hb', fun q => ?_⟩
  rw [replaceAll_insert hself hp, replaceAll_of_count_zero hp ha, replaceAll_of_count_zero hp hb',
    replaceAll_self hp]

/-! ### Sides -/

section Sides

variable {w a b : List α}

omit [DecidableEq α] in
theorem prefix_left_of_notMem {c : α} (hc : c ∉ w) (h : w <+: a ++ c :: b) : w <+: a := by
  rcases List.prefix_or_prefix_of_prefix h (List.prefix_append a (c :: b)) with hw | ⟨y, rfl⟩
  · exact hw
  · rw [List.prefix_append_right_inj] at h
    cases y with
    | nil => rw [List.append_nil]
    | cons e y =>
      obtain ⟨rfl, -⟩ := List.cons_prefix_cons.1 h
      exact absurd (by simp) hc

omit [DecidableEq α] in
/-- A word lies on one side of a character that it does not have. -/
theorem infix_split {c : α} (hc : c ∉ w) (h : w <:+: a ++ c :: b) : w <:+: a ∨ w <:+: b := by
  induction a with
  | nil =>
    rcases List.infix_cons_iff.1 h with hpre | hb
    · exact .inl (prefix_left_of_notMem (a := []) hc hpre).isInfix
    · exact .inr hb
  | cons d a ih =>
    rcases List.infix_cons_iff.1 h with hpre | hrest
    · exact .inl (prefix_left_of_notMem (a := d :: a) hc hpre).isInfix
    · exact (ih hrest).imp_left List.infix_cons

theorem differ_comm : ∀ l m : List α, differ l m = differ m l
  | [], [] => rfl
  | [], _ :: _ => rfl
  | _ :: _, [] => rfl
  | a :: l, b :: m => by rw [differ, differ, differ_comm l m, bne_comm]

/-- A word that no end of the first part fits lies in the second. -/
theorem infix_of_endsClear (h : endsClear w a = true) (hw : w <:+: a ++ b) : w <:+: b := by
  induction a with
  | nil => exact hw
  | cons c a ih =>
    rw [endsClear, Bool.and_eq_true, differ_comm] at h
    rcases List.infix_cons_iff.1 hw with hpre | hrest
    · exact absurd hpre (not_prefix_of_differ h.1 b)
    · exact ih h.2 hrest

end Sides

end Yggdrasil.Splice
