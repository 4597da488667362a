import Yggdrasil.Containerd.Configuration

/-! What the patterns of the edit match: where the spaces after an array end, and that a match at a
line start does not depend on the text from a later line on. -/

namespace Yggdrasil.Containerd

open Backtrack Python

/-! ### Tails -/

section Tails

variable {l r x : Text}

/-- The next line is there, and it is neither blank nor a comment. -/
def Settled (l : Text) : Prop :=
  ∃ v c r, l = '\n' :: (v ++ c :: r) ∧ (∀ d ∈ v, isSpace d = true) ∧ '\n' ∉ v ∧
    isSpace c = false ∧ c ≠ '#'

theorem first_lineEnd (l : Text) : first (lineEnd '\n') l =
    if l = [] ∨ l.head? = some '\n' then some ((), l) else none := by
  rw [first, lineEnd]
  split_ifs <;> rfl

theorem first_trailing_nil : first trailing [] = some ((), []) := rfl

theorem first_blankEnd_nil : first blankEnd [] = some ((), []) := rfl

theorem dropWhile_newline (l : Text) :
    l.dropWhile (· ≠ '\n') = [] ∨ (l.dropWhile (· ≠ '\n')).head? = some '\n' := by
  induction l with
  | nil => exact .inl rfl
  | cons c l ih =>
    by_cases hc : c = '\n'
    · subst hc
      exact .inr rfl
    · rwa [List.dropWhile_cons_of_pos (by simpa using hc)]

theorem comment_eq_nil {c : Char} (h : c ≠ '#') : comment (c :: l) = [] := by
  have hword : word ['#'] (c :: l) = [] := word_eq_nil fun hc =>
    h (List.cons_prefix_cons.1 hc).1.symm
  rw [comment, bind_apply, hword, List.flatMap_nil]

theorem comment_hash (l : Text) :
    ∃ t, comment ('#' :: l) = ((), ('#' :: l).dropWhile (· ≠ '\n')) :: t := by
  obtain ⟨t, ht⟩ := greedy_head (fun a : Char => decide (a ≠ '\n')) l
  refine ⟨t.flatMap fun x => [((), x.2)], ?_⟩
  have hword : word ['#'] ('#' :: l) = [((), l)] := word_append ['#'] l
  have hmany : many (fun a : Char => decide (a ≠ '\n')) l = _ := ht
  rw [comment, bind_apply, hword, List.flatMap_singleton, bind_apply, hmany]
  rfl

theorem first_afterSpaces (c : Char) (l : Text) :
    first (optional comment >>= fun _ => lineEnd '\n') (c :: l) =
      if c = '#' then some ((), (c :: l).dropWhile (· ≠ '\n'))
      else if c = '\n' then some ((), c :: l) else none := by
  have hoptional : optional comment (c :: l) =
      (comment (c :: l)).map (fun x => ((), x.2)) ++ [((), c :: l)] := rfl
  rw [first_bind, hoptional]
  split_ifs with hc hnl
  · subst hc
    obtain ⟨t, ht⟩ := comment_hash l
    rw [ht, List.map_cons, List.cons_append, List.findSome?_cons, first_lineEnd,
      if_pos (dropWhile_newline _)]
  · rw [comment_eq_nil hc, List.map_nil, List.nil_append, List.findSome?_singleton, first_lineEnd,
      if_pos (.inr (by rw [hnl]; rfl))]
  · rw [comment_eq_nil hc, List.map_nil, List.nil_append, List.findSome?_singleton, first_lineEnd,
      if_neg (by simpa using hnl)]

theorem first_trailing_cons (c : Char) (l : Text) : first trailing (c :: l) =
    if isSpace c then (first trailing l).or (if c = '\n' then some ((), c :: l) else none)
    else if c = '#' then some ((), (c :: l).dropWhile (· ≠ '\n')) else none := by
  refine (first_many_cons (p := isSpace) (optional comment >>= fun _ => lineEnd '\n') c l).trans ?_
  rw [first_afterSpaces]
  by_cases hspace : isSpace c = true
  · have hc : c ≠ '#' := by
      rintro rfl
      exact absurd hspace (by decide)
    rw [if_pos hspace, if_pos hspace, if_neg hc]
    rfl
  · have hnl : c ≠ '\n' := by
      rintro rfl
      exact hspace (by decide)
    rw [if_neg hspace, if_neg hspace, if_neg hnl]

theorem first_blankEnd_cons (c : Char) (l : Text) : first blankEnd (c :: l) =
    if isSpace c then (first blankEnd l).or (if c = '\n' then some ((), c :: l) else none)
    else none := by
  refine (first_many_cons (p := isSpace) (lineEnd '\n') c l).trans ?_
  rw [first_lineEnd]
  by_cases hspace : isSpace c = true
  · rw [if_pos hspace, if_pos hspace]
    simp [blankEnd, spaces]
  · have hnl : c ≠ '\n' := by
      rintro rfl
      exact hspace (by decide)
    rw [if_neg hspace, if_neg hspace, if_neg (by simpa using hnl)]

theorem trailing_eq_none_iff : first trailing l = none ↔
    ∃ v c r, l = v ++ c :: r ∧ (∀ d ∈ v, isSpace d = true) ∧ '\n' ∉ v ∧ isSpace c = false ∧
      c ≠ '#' := by
  induction l with
  | nil => simp [first_trailing_nil]
  | cons c l ih =>
    rw [first_trailing_cons]
    by_cases hspace : isSpace c = true
    · rw [if_pos hspace, Option.or_eq_none_iff, ih]
      constructor
      · rintro ⟨⟨v, d, r, rfl, hv, hnl, hd⟩, hc⟩
        have hc' : c ≠ '\n' := by
          rintro rfl
          simp at hc
        refine ⟨c :: v, d, r, rfl, ?_, ?_, hd⟩
        · simpa [hspace] using hv
        · simpa [Ne.symm hc'] using hnl
      · rintro ⟨v, d, r, heq, hv, hnl, hd⟩
        cases v with
        | nil =>
          obtain ⟨rfl, -⟩ := List.cons.inj heq
          rw [hspace] at hd
          cases hd.1
        | cons e v =>
          obtain ⟨rfl, rfl⟩ := List.cons.inj heq
          simp only [List.mem_cons, not_or] at hnl
          exact ⟨⟨v, d, r, rfl, fun x hx => hv x (List.mem_cons_of_mem _ hx), hnl.2, hd⟩,
            if_neg (Ne.symm hnl.1)⟩
    · rw [if_neg hspace]
      constructor
      · intro h
        have hc : c ≠ '#' := by
          rintro rfl
          simp at h
        exact ⟨[], c, l, rfl, by simp, by simp, Bool.eq_false_iff.2 hspace, hc⟩
      · rintro ⟨v, d, r, heq, hv, -, hd⟩
        cases v with
        | nil =>
          obtain ⟨rfl, -⟩ := List.cons.inj heq
          exact if_neg hd.2
        | cons e v =>
          obtain ⟨rfl, -⟩ := List.cons.inj heq
          exact absurd (hv _ List.mem_cons_self) hspace

/-- What the spaces and the comment after an array take: all spaces up to a comment or the end of
the text, or up to the last end of a line among them. -/
theorem exists_of_trailing {u : Unit} (h : first trailing l = some (u, r)) :
    ∃ w c, l = w ++ (c ++ r) ∧ (∀ d ∈ w, isSpace d = true) ∧
      (c = [] ∧ (r = [] ∨ Settled r) ∨ ∃ t, c = '#' :: t ∧ '\n' ∉ t) ∧
      (r = [] ∨ r.head? = some '\n') := by
  induction l with
  | nil =>
    obtain ⟨-, rfl⟩ := Prod.mk.inj (Option.some.inj h)
    exact ⟨[], [], rfl, by simp, .inl ⟨rfl, .inl rfl⟩, .inl rfl⟩
  | cons d l ih =>
    rw [first_trailing_cons] at h
    by_cases hspace : isSpace d = true
    · rw [if_pos hspace] at h
      cases hrest : first trailing l with
      | some y =>
        rw [hrest, Option.some_or] at h
        obtain ⟨w, c, rfl, hw, hc, hr⟩ := ih (hrest.trans h)
        exact ⟨d :: w, c, rfl, by simpa [hspace] using hw, hc, hr⟩
      | none =>
        rw [hrest, Option.none_or] at h
        split_ifs at h with hd
        obtain ⟨-, rfl⟩ := Prod.mk.inj (Option.some.inj h)
        obtain ⟨v, c, r, rfl, hv, hnl, hsettled⟩ := trailing_eq_none_iff.1 hrest
        exact ⟨[], [], rfl, by simp, .inl ⟨rfl, .inr ⟨v, c, r, by rw [hd], hv, hnl, hsettled⟩⟩,
          .inr (by rw [hd]; rfl)⟩
    · rw [if_neg hspace] at h
      split_ifs at h with hd
      obtain ⟨-, rfl⟩ := Prod.mk.inj (Option.some.inj h)
      subst hd
      refine ⟨[], '#' :: l.takeWhile (· ≠ '\n'), ?_, by simp, .inr ⟨_, rfl, fun hc => ?_⟩,
        dropWhile_newline _⟩
      · rw [List.dropWhile_cons_of_pos (by decide)]
        exact congrArg ('#' :: ·) List.takeWhile_append_dropWhile.symm
      · simpa using List.mem_takeWhile_imp hc

/-- Before a settled text nothing is taken. -/
theorem first_trailing_of_settled (h : Settled l) : first trailing l = some ((), l) := by
  obtain ⟨v, c, r, rfl, hv, hnl, hc⟩ := h
  rw [first_trailing_cons, if_pos (by decide), if_pos rfl,
    trailing_eq_none_iff.2 ⟨v, c, r, rfl, hv, hnl, hc⟩, Option.none_or]

theorem exists_trailing (h : l = [] ∨ l.head? = some '\n') :
    ∃ r, first trailing l = some ((), r) := by
  rcases h with rfl | h
  · exact ⟨[], rfl⟩
  · obtain ⟨l, rfl⟩ := List.head?_eq_some_iff.1 h
    rw [first_trailing_cons, if_pos (by decide), if_pos rfl]
    cases hrest : first trailing l with
    | none => exact ⟨_, rfl⟩
    | some y => exact ⟨y.2, rfl⟩

theorem isSome_trailing_append (h : l.getLast? = some '\n') (x : Text) :
    (first trailing (l ++ x)).isSome = (first trailing l).isSome := by
  induction l with
  | nil => cases h
  | cons c l ih =>
    rw [List.cons_append, first_trailing_cons, first_trailing_cons]
    cases l with
    | nil =>
      obtain rfl : c = '\n' := by simpa using h
      have hspace : isSpace '\n' = true := by decide
      simp [first_trailing_nil, hspace]
    | cons d l =>
      rw [List.getLast?_cons_cons] at h
      have hrec := ih h
      rw [List.cons_append] at hrec
      split_ifs <;> simp [hrec]

theorem isSome_blankEnd_append (h : l.getLast? = some '\n') (x : Text) :
    (first blankEnd (l ++ x)).isSome = (first blankEnd l).isSome := by
  induction l with
  | nil => cases h
  | cons c l ih =>
    rw [List.cons_append, first_blankEnd_cons, first_blankEnd_cons]
    cases l with
    | nil =>
      obtain rfl : c = '\n' := by simpa using h
      have hspace : isSpace '\n' = true := by decide
      simp [first_blankEnd_nil, hspace]
    | cons d l =>
      rw [List.getLast?_cons_cons] at h
      have hrec := ih h
      rw [List.cons_append] at hrec
      split_ifs <;> simp [hrec]

end Tails

/-! ### Parts of a line -/

section Heads

variable {s x : Text}

theorem getLast?_rest {u r : Text} {c : Char} (h : (u ++ c :: r).getLast? = some '\n')
    (hc : c ≠ '\n') : r.getLast? = some '\n' := by
  cases r with
  | nil =>
    rw [List.getLast?_append] at h
    exact absurd (by simpa using h) hc
  | cons d r =>
    have hsplit : u ++ c :: d :: r = (u ++ [c]) ++ d :: r := by simp
    rw [hsplit, List.getLast?_append_of_ne_nil _ (List.cons_ne_nil d r)] at h
    exact h

theorem mem_many {p : Char → Bool} {l : Text} {y : Text × Text} :
    y ∈ many p l ↔ l = y.1 ++ y.2 ∧ ∀ c ∈ y.1, p c = true := mem_greedy

/-- The array of the disabled plugins with what stands before it. -/
def arrayText (d : Text × Text × Text) : Text :=
  "disabled_plugins".toList ++ (d.1 ++ '=' :: (d.2.1 ++ d.2.2))

theorem arrayText_def (d : Text × Text × Text) :
    arrayText d = "disabled_plugins".toList ++ (d.1 ++ '=' :: (d.2.1 ++ d.2.2)) := rfl

structure ArrayParts (d : Text × Text × Text) : Prop where
  gap₁ : ∀ c ∈ d.1, isSpace c = true
  gap₂ : ∀ c ∈ d.2.1, isSpace c = true
  array : ∃ inner, d.2.2 = '[' :: (inner ++ [']']) ∧ '\n' ∉ inner

theorem mem_arrayHead {y : (Text × Text × Text) × Text} (h : y ∈ arrayHead s) :
    s = arrayText y.1 ++ y.2 ∧ ArrayParts y.1 := by
  obtain ⟨y₁, h₁, h⟩ := mem_bind.1 h
  obtain ⟨y₂, h₂, h⟩ := mem_bind.1 h
  obtain ⟨y₃, h₃, h⟩ := mem_bind.1 h
  obtain ⟨y₄, h₄, h⟩ := mem_bind.1 h
  obtain ⟨y₅, h₅, h⟩ := mem_bind.1 h
  obtain ⟨y₆, h₆, h⟩ := mem_bind.1 h
  obtain ⟨y₇, h₇, h⟩ := mem_bind.1 h
  obtain rfl := List.mem_singleton.1 h
  obtain ⟨hr₂, hgap₁⟩ := mem_many.1 h₂
  obtain ⟨hr₄, hgap₂⟩ := mem_many.1 h₄
  obtain ⟨hr₆, hinner⟩ := mem_many.1 h₆
  refine ⟨?_, hgap₁, hgap₂, y₆.1, rfl, fun hc => by simpa using hinner _ hc⟩
  rw [mem_word.1 h₁, hr₂, mem_word.1 h₃, hr₄, mem_word.1 h₅, hr₆, mem_word.1 h₇]
  simp [arrayText_def]

theorem through_arrayHead (hs : s.getLast? = some '\n') (hx : x.head? = some 'd') :
    Through arrayHead s x := by
  have hhead {p : Char → Bool} (hp : p 'd' = false) : ∀ a ∈ x.head?, p a = false := by
    rw [hx]
    rintro a ⟨⟩
    exact hp
  have hword {w : Text} (hw : 'd' ∉ w) : ∀ a ∈ x.head?, a ∉ w := by
    rw [hx]
    rintro a ⟨⟩
    exact hw
  refine (through_word_of_line (by simp) hs).bind fun y₁ h₁ => ?_
  refine (through_many (.inr (hhead (by decide)))).bind fun y₂ h₂ => ?_
  refine (through_word_of_head (hword (by decide))).bind fun y₃ h₃ => ?_
  refine (through_many (.inr (hhead (by decide)))).bind fun y₄ h₄ => ?_
  refine (through_word_of_head (hword (by decide))).bind fun y₅ h₅ => ?_
  have hlast : y₅.2.getLast? = some '\n' := by
    have hsplit : s = ("disabled_plugins".toList ++ (y₂.1 ++ '=' :: y₄.1)) ++ '[' :: y₅.2 := by
      rw [mem_word.1 h₁, (mem_many.1 h₂).1, mem_word.1 h₃, (mem_many.1 h₄).1, mem_word.1 h₅]
      simp
    rw [hsplit] at hs
    exact getLast?_rest hs (by decide)
  refine (through_many (.inl ⟨'\n', List.mem_of_getLast? hlast, by simp⟩)).bind fun y₆ h₆ => ?_
  exact (through_word_of_head (hword (by decide))).bind fun y₇ h₇ => through_pure _

/-- A line start before a line that begins with the key matches in the same cases. -/
theorem capture_disabledArray (hs : s.getLast? = some '\n') (hx : x.head? = some 'd') :
    capture disabledArray (s ++ x) = capture disabledArray s := by
  refine capture_then (through_arrayHead hs hx) fun y hy => isSome_trailing_append ?_ x
  obtain ⟨hsplit, -, -, inner, harray, -⟩ := mem_arrayHead hy
  have hparts : s = ("disabled_plugins".toList ++ (y.1.1 ++ '=' :: (y.1.2.1 ++ '[' :: inner))) ++
      ']' :: y.2 := by
    rw [hsplit, arrayText_def, harray]
    simp
  rw [hparts] at hs
  exact getLast?_rest hs (by decide)

/-- The spaces before a symbol. -/
theorem spaces_bind {γ : Type} (f : Text → Pattern Char γ) {gap r : Text} {c : Char}
    (hgap : ∀ d ∈ gap, isSpace d = true) (hc : isSpace c = false)
    (hf : ∀ u d r, isSpace d = true → f u (d :: r) = []) :
    (spaces >>= f) (gap ++ c :: r) = f gap (c :: r) := by
  refine (many_bind f _ hf).trans ?_
  rw [List.takeWhile_append_of_pos hgap, List.dropWhile_append_of_pos hgap,
    List.takeWhile_cons_of_neg (by simp [hc]), List.dropWhile_cons_of_neg (by simp [hc]),
    List.append_nil]

/-- A symbol does not match where a space stands. -/
theorem word_space {γ : Type} {c d : Char} (hc : isSpace c = false) (hd : isSpace d = true)
    (f : Unit → Pattern Char γ) (r : Text) : (word [c] >>= f) (d :: r) = [] := by
  have hword : word [c] (d :: r) = [] := word_eq_nil fun h => by
    obtain ⟨rfl, -⟩ := List.cons_prefix_cons.1 h
    rw [hc] at hd
    cases hd
  rw [bind_apply, hword, List.flatMap_nil]

theorem word_bind {γ : Type} (w r : Text) (f : Unit → Pattern Char γ) :
    (word w >>= f) (w ++ r) = f () r := by
  rw [bind_apply, word_append, List.flatMap_singleton]

theorem symbol_bind {γ : Type} (c : Char) (r : Text) (f : Unit → Pattern Char γ) :
    (word [c] >>= f) (c :: r) = f () r := word_bind [c] r f

/-- An array at the end of its line is matched up to the end of the line. -/
theorem first_arrayText {d : Text × Text × Text} (hd : ArrayParts d)
    (hx : x = [] ∨ x.head? = some '\n') :
    ∃ t, arrayHead (arrayText d ++ x) = (d, x) :: t := by
  obtain ⟨gap₁, gap₂, array⟩ := d
  obtain ⟨hgap₁, hgap₂, inner, rfl, hinner⟩ := hd
  have hstop : ∀ a ∈ x.head?, decide (a ≠ '\n') = false := by
    rcases hx with rfl | hx
    · simp
    · rw [hx]
      rintro a ⟨⟩
      simp
  obtain ⟨t, ht⟩ := greedy_snoc (p := fun a : Char => decide (a ≠ '\n')) (a := ']') (by decide)
    hstop (u := inner) fun c hc => by simpa using fun h : c = '\n' => hinner (h ▸ hc)
  have hshape : arrayText (gap₁, gap₂, '[' :: (inner ++ [']'])) ++ x =
      "disabled_plugins".toList ++ (gap₁ ++ '=' :: (gap₂ ++ '[' :: (inner ++ ']' :: x))) := by
    simp [arrayText_def]
  have hequals : isSpace '=' = false := by decide
  have hbracket : isSpace '[' = false := by decide
  have hclose : word [']'] x = [] := word_eq_nil fun h => by
    rcases hx with rfl | hx
    · simp at h
    · obtain ⟨r, rfl⟩ := List.head?_eq_some_iff.1 hx
      exact absurd (List.cons_prefix_cons.1 h).1 (by decide)
  have hmany : many (fun a : Char => decide (a ≠ '\n')) (inner ++ ']' :: x) = _ := ht
  rw [hshape, arrayHead, word_bind,
    spaces_bind _ hgap₁ hequals fun u e r he => word_space hequals he _ r, symbol_bind,
    spaces_bind _ hgap₂ hbracket fun u e r he => word_space hbracket he _ r, symbol_bind,
    bind_apply, hmany, List.flatMap_cons, List.flatMap_cons, bind_apply, hclose,
    List.flatMap_nil, List.nil_append, symbol_bind]
  exact ⟨_, rfl⟩

theorem first_disabledArray {d : Text × Text × Text} (hd : ArrayParts d)
    (hx : x = [] ∨ x.head? = some '\n') {r : Text} (hr : first trailing x = some ((), r)) :
    first disabledArray (arrayText d ++ x) = some (d, r) := by
  obtain ⟨t, ht⟩ := first_arrayText hd hx
  refine (first_then arrayHead trailing _).trans ?_
  rw [ht, List.findSome?_cons, hr]
  rfl

/-! The version. -/

/-- A line that sets the version. -/
def versionText (gap₁ gap₂ v : Text) : Text :=
  "version".toList ++ (gap₁ ++ '=' :: (gap₂ ++ v))

theorem versionText_def (gap₁ gap₂ v : Text) :
    versionText gap₁ gap₂ v = "version".toList ++ (gap₁ ++ '=' :: (gap₂ ++ v)) := rfl

theorem mem_versionHead {y : Text × Text} (h : y ∈ versionHead s) :
    ∃ gap₁ gap₂, s = versionText gap₁ gap₂ y.1 ++ y.2 ∧ (∀ c ∈ gap₁, isSpace c = true) ∧
      (∀ c ∈ gap₂, isSpace c = true) ∧ y.1 ≠ [] ∧ ∀ c ∈ y.1, isDigit c = true := by
  obtain ⟨y₁, h₁, h⟩ := mem_bind.1 h
  obtain ⟨y₂, h₂, h⟩ := mem_bind.1 h
  obtain ⟨y₃, h₃, h⟩ := mem_bind.1 h
  obtain ⟨y₄, h₄, h⟩ := mem_bind.1 h
  obtain ⟨hmany, hne⟩ := List.mem_filter.1 h
  obtain ⟨hr₂, hgap₁⟩ := mem_many.1 h₂
  obtain ⟨hr₄, hgap₂⟩ := mem_many.1 h₄
  obtain ⟨hr, hv⟩ := mem_many.1 hmany
  refine ⟨y₂.1, y₄.1, ?_, hgap₁, hgap₂, by simpa using hne, hv⟩
  rw [mem_word.1 h₁, hr₂, mem_word.1 h₃, hr₄, hr]
  simp [versionText_def]

theorem not_isSpace_of_isDigit {c : Char} (h : isDigit c = true) : isSpace c = false := by
  -- The codes of the spaces, in none of the runs of ten digits.
  have hcodes : ∀ n ∈ [9, 10, 11, 12, 13, 28, 29, 30, 31, 32, 0x85, 0xa0, 0x1680, 0x2000, 0x2001,
      0x2002, 0x2003, 0x2004, 0x2005, 0x2006, 0x2007, 0x2008, 0x2009, 0x200a, 0x2028, 0x2029,
      0x202f, 0x205f, 0x3000], ∀ z ∈ decimalZeros, n < z ∨ z + 10 ≤ n := by decide +kernel
  rw [isDigit, digitValue, Option.isSome_map] at h
  obtain ⟨z, hz⟩ := Option.isSome_iff_exists.1 h
  have hbounds : z ≤ c.toNat ∧ c.toNat < z + 10 := by simpa using List.find?_some hz
  by_contra hspace
  have hmem : c.toNat ∈ [9, 10, 11, 12, 13, 28, 29, 30, 31, 32, 0x85, 0xa0, 0x1680, 0x2000, 0x2001,
      0x2002, 0x2003, 0x2004, 0x2005, 0x2006, 0x2007, 0x2008, 0x2009, 0x200a, 0x2028, 0x2029,
      0x202f, 0x205f, 0x3000] := by
    simp only [isSpace, Bool.not_eq_false, Bool.or_eq_true, Bool.and_eq_true, decide_eq_true_eq,
      beq_iff_eq] at hspace
    simp only [List.mem_cons, List.not_mem_nil, or_false]
    omega
  have := hcodes _ hmem z (List.mem_of_find?_eq_some hz)
  omega

theorem through_versionHead (hs : s.getLast? = some '\n')
    (hx : ∀ c ∈ x.head?, isSpace c = false ∧ isDigit c = false ∧ c ≠ '=') :
    Through versionHead s x := by
  refine (through_word_of_line (by simp) hs).bind fun y₁ h₁ => ?_
  refine (through_many (.inr fun c hc => (hx c hc).1)).bind fun y₂ h₂ => ?_
  refine (through_word_of_head fun c hc => by simpa using (hx c hc).2.2).bind fun y₃ h₃ => ?_
  refine (through_many (.inr fun c hc => (hx c hc).1)).bind fun y₄ h₄ => ?_
  exact through_many1 (.inr fun c hc => (hx c hc).2.1)

theorem getLast?_digits {u v r : Text} (hv : v ≠ []) (hdigits : ∀ c ∈ v, isDigit c = true)
    (h : (u ++ (v ++ r)).getLast? = some '\n') : r.getLast? = some '\n' := by
  rcases List.eq_nil_or_concat' v with rfl | ⟨v, c, rfl⟩
  · exact absurd rfl hv
  · have hsplit : u ++ (v ++ [c] ++ r) = (u ++ v) ++ c :: r := by simp
    rw [hsplit] at h
    refine getLast?_rest h ?_
    rintro rfl
    exact absurd (hdigits '\n' (by simp)) (by decide +kernel)

theorem capture_versionNumber (hs : s.getLast? = some '\n')
    (hx : ∀ c ∈ x.head?, isSpace c = false ∧ isDigit c = false ∧ c ≠ '=') :
    capture versionNumber (s ++ x) = capture versionNumber s := by
  refine capture_then (through_versionHead hs hx) fun y hy => isSome_blankEnd_append ?_ x
  obtain ⟨gap₁, gap₂, hsplit, -, -, hne, hv⟩ := mem_versionHead hy
  have hparts : s = ("version".toList ++ (gap₁ ++ '=' :: gap₂)) ++ (y.1 ++ y.2) := by
    rw [hsplit, versionText_def]
    simp
  rw [hparts] at hs
  exact getLast?_digits hne hv hs

theorem first_versionText {gap₁ gap₂ v r : Text} (hgap₁ : ∀ c ∈ gap₁, isSpace c = true)
    (hgap₂ : ∀ c ∈ gap₂, isSpace c = true) (hv : v ≠ []) (hdigits : ∀ c ∈ v, isDigit c = true)
    (hr : ∀ c ∈ r.head?, isDigit c = false) {u : Unit × Text} (hend : first blankEnd r = some u) :
    first versionNumber (versionText gap₁ gap₂ v ++ r) = some (v, u.2) := by
  have hequals : isSpace '=' = false := by decide
  obtain ⟨c, v, rfl⟩ := List.exists_cons_of_ne_nil hv
  have hc : isSpace c = false := not_isSpace_of_isDigit (hdigits c List.mem_cons_self)
  have hshape : versionText gap₁ gap₂ (c :: v) ++ r =
      "version".toList ++ (gap₁ ++ '=' :: (gap₂ ++ c :: (v ++ r))) := by
    simp [versionText_def]
  have hstop : ∀ (u : Text) (d : Char) (r : Text), isSpace d = true →
      many1 isDigit (d :: r) = [] := fun _ d r hd => by
    have hdigit : isDigit d = false := by
      by_contra hdigit
      rw [not_isSpace_of_isDigit ((Bool.not_eq_false _).mp hdigit)] at hd
      cases hd
    change (greedy isDigit (d :: r)).filter _ = []
    rw [greedy_of_stop fun e he => by rwa [← Option.some.inj he]]
    rfl
  obtain ⟨t, ht⟩ := greedy_head isDigit (c :: v ++ r)
  have htake : (c :: v ++ r).takeWhile isDigit = c :: v ∧ (c :: v ++ r).dropWhile isDigit = r := by
    rw [List.takeWhile_append_of_pos hdigits, List.dropWhile_append_of_pos hdigits]
    cases r with
    | nil => simp
    | cons d r =>
      have hd := hr d rfl
      simp [hd]
  have hhead : ∃ t', versionHead (versionText gap₁ gap₂ (c :: v) ++ r) = (c :: v, r) :: t' := by
    rw [hshape, versionHead, word_bind,
      spaces_bind _ hgap₁ hequals fun u e r he => word_space hequals he _ r, symbol_bind,
      spaces_bind _ hgap₂ hc hstop]
    have hmany : many isDigit (c :: (v ++ r)) = _ := ht
    rw [many1, hmany, htake.1, htake.2]
    exact ⟨_, rfl⟩
  obtain ⟨t', ht'⟩ := hhead
  refine (first_then versionHead blankEnd _).trans ?_
  rw [ht', List.findSome?_cons, hend]
  rfl

end Heads

/-! ### Headers -/

section Headers

variable {id l x : Text}

/-- A line that is a header of the handler. -/
def isHeader (id l : Text) : Bool := (first (handlerHeader id) l).isSome

theorem through_handlerHead (hid : '\n' ∉ id) (hx : ∀ c ∈ x.head?, c = '\n') :
    Through (handlerHead id) l x := by
  have hhead {p : Char → Bool} (hp : p '\n' = false) : ∀ c ∈ x.head?, p c = false :=
    fun c hc => hx c hc ▸ hp
  have hword {w : Text} (hw : '\n' ∉ w) : ∀ c ∈ x.head?, c ∉ w := fun c hc => hx c hc ▸ hw
  refine (through_many (.inr (hhead (by decide)))).bind fun y₁ _ => ?_
  refine (through_word_of_head (hword (by simp))).bind fun y₂ _ => ?_
  refine (through_optional (through_oneOf (.inr (hhead (by decide))))).bind fun y₃ _ => ?_
  refine (through_word_of_head (hword hid)).bind fun y₄ _ => ?_
  refine (through_optional (through_oneOf (.inr (hhead (by decide))))).bind fun y₅ _ => ?_
  exact through_word_of_head (hword (by simp))

theorem mem_optional {y : Unit × Text} (h : y ∈ optional (oneOf isQuote) l) :
    ∃ q, l = q ++ y.2 ∧ '\n' ∉ q := by
  rcases List.mem_append.1 h with h | h
  · obtain ⟨z, hz, rfl⟩ := List.mem_map.1 h
    cases l with
    | nil => exact absurd hz List.not_mem_nil
    | cons c l =>
      rw [oneOf] at hz
      split_ifs at hz with hc
      · rw [List.mem_singleton.1 hz]
        refine ⟨[c], rfl, fun hmem => ?_⟩
        rw [← List.mem_singleton.1 hmem] at hc
        exact absurd hc (by decide)
      · exact absurd hz List.not_mem_nil
  · rw [List.mem_singleton.1 h]
    exact ⟨[], rfl, List.not_mem_nil⟩

theorem mem_handlerHead (hid : '\n' ∉ id) {y : Unit × Text} (h : y ∈ handlerHead id l) :
    ∃ w z, l = w ++ '[' :: (z ++ y.2) ∧ (∀ c ∈ w, isBlank c = true) ∧ '\n' ∉ z := by
  obtain ⟨y₁, h₁, h⟩ := mem_bind.1 h
  obtain ⟨y₂, h₂, h⟩ := mem_bind.1 h
  obtain ⟨y₃, h₃, h⟩ := mem_bind.1 h
  obtain ⟨y₄, h₄, h⟩ := mem_bind.1 h
  obtain ⟨y₅, h₅, h⟩ := mem_bind.1 h
  obtain ⟨hl, hw⟩ := mem_many.1 h₁
  obtain ⟨q₁, hq₁, hnl₁⟩ := mem_optional h₃
  obtain ⟨q₂, hq₂, hnl₂⟩ := mem_optional h₅
  have hopen : "[plugins.".toList = '[' :: "plugins.".toList := by simp
  have hplugins : '\n' ∉ "plugins.".toList := by simp
  have hkata : '\n' ∉ ".containerd.runtimes.kata]".toList := by simp
  refine ⟨y₁.1, "plugins.".toList ++ (q₁ ++ (id ++ (q₂ ++ ".containerd.runtimes.kata]".toList))),
    ?_, hw, ?_⟩
  · rw [hl, mem_word.1 h₂, hq₁, mem_word.1 h₄, hq₂, mem_word.1 h, hopen]
    simp only [List.append_assoc, List.cons_append]
  · simp only [List.mem_append, not_or]
    exact ⟨hplugins, hnl₁, hid, hnl₂, hkata⟩

theorem exists_of_blankEnd {u : Unit × Text} (h : first blankEnd l = some u) :
    ∃ w, l = w ++ u.2 ∧ (∀ c ∈ w, isSpace c = true) ∧ ∀ c ∈ u.2.head?, c = '\n' := by
  induction l with
  | nil =>
    rw [← Option.some.inj h]
    exact ⟨[], rfl, by simp, by simp⟩
  | cons c l ih =>
    rw [first_blankEnd_cons] at h
    split_ifs at h with hspace hc
    · cases hrest : first blankEnd l with
      | some y =>
        rw [hrest, Option.some_or] at h
        obtain ⟨w, rfl, hw, hr⟩ := ih (hrest.trans h)
        exact ⟨c :: w, rfl, by simpa [hspace] using hw, hr⟩
      | none =>
        rw [hrest, Option.none_or] at h
        rw [← Option.some.inj h]
        exact ⟨[], rfl, by simp, by simp [hc]⟩
    · rw [Option.or_none] at h
      obtain ⟨w, rfl, hw, hr⟩ := ih h
      exact ⟨c :: w, rfl, by simpa [hspace] using hw, hr⟩

theorem isSome_blankEnd_line (hl : '\n' ∉ l) (hx : ∀ c ∈ x.head?, c = '\n') :
    (first blankEnd (l ++ x)).isSome = (first blankEnd l).isSome := by
  have hspace : isSpace '\n' = true := by decide
  induction l with
  | nil =>
    cases x with
    | nil => rfl
    | cons c x =>
      obtain rfl := hx c rfl
      simp [first_blankEnd_cons, first_blankEnd_nil, hspace]
  | cons c l ih =>
    obtain ⟨hc, hl⟩ := not_or.1 (mt List.mem_cons.2 hl)
    rw [List.cons_append, first_blankEnd_cons, first_blankEnd_cons]
    split_ifs with _ hnl
    · exact absurd hnl.symm hc
    · simp [ih hl]
    · rfl

/-- Whether there is a header at a line start is decided by its line. -/
theorem isHeader_append (hid : '\n' ∉ id) (hl : '\n' ∉ l) (hx : ∀ c ∈ x.head?, c = '\n') :
    (first (handlerHeader id) (l ++ x)).isSome = isHeader id l := by
  have hcapture : capture (handlerHeader id) (l ++ x) = capture (handlerHeader id) l := by
    refine capture_then (through_handlerHead hid hx) fun y hy => ?_
    obtain ⟨w, z, hsplit, -, -⟩ := mem_handlerHead hid hy
    refine isSome_blankEnd_line (fun hc => hl ?_) hx
    rw [hsplit]
    simp [hc]
  have hsome (t : Text) : (capture (handlerHeader id) t).isSome =
      (first (handlerHeader id) t).isSome := Option.isSome_map
  rw [← hsome, hcapture, hsome, isHeader]

/-- The text after blanks and an opening bracket. -/
theorem isHeader_bracket (hid : '\n' ∉ id) {y : Unit × Text}
    (h : first (handlerHeader id) l = some y) : (l.dropWhile isBlank).head? = some '[' := by
  obtain ⟨z, hz, -⟩ := List.exists_of_findSome?_eq_some ((first_then _ blankEnd l).symm.trans h)
  obtain ⟨w, t, rfl, hw, -⟩ := mem_handlerHead hid hz
  rw [List.dropWhile_append_of_pos hw, List.dropWhile_cons_of_neg (by decide)]
  rfl

theorem isSpace_head {w r : Text} (hw : ∀ c ∈ w, isSpace c = true)
    (hr : ∀ c ∈ r.head?, c = '\n') :
    ∀ c ∈ ((w ++ r).dropWhile isBlank).head?, isSpace c = true := by
  have hspace : isSpace '\n' = true := by decide
  induction w with
  | nil =>
    cases r with
    | nil => simp
    | cons c r =>
      obtain rfl := hr c rfl
      rw [List.nil_append, List.dropWhile_cons_of_neg (by decide)]
      rintro c ⟨⟩
      exact hspace
  | cons c w ih =>
    rw [List.cons_append]
    by_cases hblank : isBlank c = true
    · rw [List.dropWhile_cons_of_pos hblank]
      exact ih fun d hd => hw d (List.mem_cons_of_mem c hd)
    · rw [List.dropWhile_cons_of_neg hblank]
      rintro d ⟨⟩
      exact hw c List.mem_cons_self

/-- A match takes spaces only after its header, so that it covers no other one. -/
theorem handlerHeader_covers (hid : '\n' ∉ id) {y : Unit × Text}
    (h : first (handlerHeader id) l = some y) :
    ∃ u, u ≠ [] ∧ l = u ++ y.2 ∧ ∀ v w, v ≠ [] → w ≠ [] → u = v ++ w → v.getLast? = some '\n' →
      first (handlerHeader id) (w ++ y.2) = none := by
  obtain ⟨z, hz, hend⟩ := List.exists_of_findSome?_eq_some ((first_then _ blankEnd l).symm.trans h)
  obtain ⟨⟨u, r⟩, hblank, rfl⟩ := Option.map_eq_some_iff.1 hend
  obtain ⟨b, t, hl, hb, ht⟩ := mem_handlerHead hid hz
  obtain ⟨s, hs, hs', hr⟩ := exists_of_blankEnd hblank
  refine ⟨b ++ '[' :: (t ++ s), by simp, ?_, fun v w _ hw hvw hlast => ?_⟩
  · rw [hl, hs]
    simp
  have hline : '\n' ∉ b ++ '[' :: t := by
    have hblankLine : '\n' ∉ b := fun hc => absurd (hb _ hc) (by decide)
    simp [hblankLine, ht]
  -- The line end before the other header is among the spaces after this one.
  have hinside : ∃ v', s = v' ++ w := by
    have hsplit : (b ++ '[' :: t) ++ s = v ++ w := by
      rw [← hvw]
      simp
    rcases List.append_eq_append_iff.1 hsplit with ⟨v', -, htail⟩ | ⟨v', hv, -⟩
    · exact ⟨v', htail⟩
    · refine absurd ?_ hline
      rw [hv]
      exact List.mem_append_left _ (List.mem_of_getLast? hlast)
  obtain ⟨v', rfl⟩ := hinside
  by_contra hne
  obtain ⟨y', hy'⟩ := Option.ne_none_iff_exists'.1 hne
  have hbracket := isHeader_bracket hid hy'
  have hw' : ∀ c ∈ w, isSpace c = true := fun c hc => hs' c (List.mem_append_right v' hc)
  exact absurd (isSpace_head hw' hr _ hbracket) (by decide)

theorem handlerHeader_nil (hid : '\n' ∉ id) : first (handlerHeader id) [] = none := by
  by_contra hne
  obtain ⟨y, hy⟩ := Option.ne_none_iff_exists'.1 hne
  exact absurd (isHeader_bracket hid hy) (by simp)

theorem countP_starts (hid : '\n' ∉ id) (l : Text) :
    (starts '\n' true l).countP (fun s => (first (handlerHeader id) s).isSome) =
      (lines '\n' l).countP (isHeader id) := by
  refine countP_lines (by rw [isHeader, handlerHeader_nil hid]; rfl) fun s _ => ?_
  have hline : '\n' ∉ s.takeWhile (· ≠ '\n') := fun hc => by
    simpa using List.mem_takeWhile_imp hc
  have hrest : ∀ c ∈ (s.dropWhile (· ≠ '\n')).head?, c = '\n' := by
    rcases dropWhile_newline s with h | h
    · rw [h]
      simp
    · rw [h]
      rintro c ⟨⟩
      rfl
  have happend := isHeader_append hid hline hrest
  rwa [List.takeWhile_append_dropWhile] at happend

theorem length_findAll (hid : '\n' ∉ id) (l : Text) :
    (findAll '\n' (handlerHeader id) l).length = (lines '\n' l).countP (isHeader id) :=
  (length_findAllFrom (handlerHeader_nil hid) (fun _ _ => handlerHeader_covers hid) true l).trans
    (countP_starts hid l)

end Headers

end Yggdrasil.Containerd
