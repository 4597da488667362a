import Yggdrasil.Python.Dumps

/-! A JSON text that is cut off. What the reader accepts it accepts in front of more text as well,
if this does not go on with a number; so no text of an object is the beginning of another one. -/

namespace Yggdrasil.Python.Json

section Truncation

variable {c : Char} {cs rest more : List Char}

theorem skip_append_of_cons (h : skip cs = c :: rest) (more : List Char) :
    skip (cs ++ more) = c :: (rest ++ more) := by
  rw [skip] at h ⊢
  rw [List.dropWhile_append, h]
  rfl

theorem scanString_append {us : List ℕ} (h : scanString cs = some (us, rest)) (more : List Char) :
    scanString (cs ++ more) = some (us, rest ++ more) := by
  fun_induction scanString cs generalizing us rest with
  | case1 => cases h
  | case2 cs =>
    obtain ⟨rfl, rfl⟩ : [] = us ∧ cs = rest := by simpa using h
    rfl
  | case3 a b c d cs ih =>
    simp only [Option.bind_eq_bind, Option.bind_eq_some_iff, Option.some.injEq, Prod.mk.injEq] at h
    obtain ⟨u, hu, ⟨vs, r⟩, hr, rfl, rfl⟩ := h
    simp only [List.cons_append, scanString, hu, ih hr, Option.bind_eq_bind, Option.bind_some]
  | case4 c cs _ ih =>
    simp only [Option.bind_eq_bind, Option.bind_eq_some_iff, Option.some.injEq, Prod.mk.injEq] at h
    obtain ⟨u, hu, ⟨vs, r⟩, hr, rfl, rfl⟩ := h
    rw [List.cons_append, List.cons_append, scanString_escaped hu, ih hr]
    rfl
  | case5 => cases h
  | case6 c cs hquote _ _ hc ih =>
    simp only [Option.bind_eq_bind, Option.bind_eq_some_iff, Option.some.injEq, Prod.mk.injEq] at h
    obtain ⟨⟨vs, r⟩, hr, rfl, rfl⟩ := h
    have hplain : isPlain c := by
      have hquote : c ≠ '"' := hquote
      simp only [not_or, Nat.not_lt] at hc
      simp [isPlain, hquote, hc]
    rw [List.cons_append, scanString_plainChar hplain, ih hr]
    rfl

/-! ### Numbers -/

theorem takeWhile_append_of_rest (h : cs.dropWhile Char.isDigit ≠ []) (more : List Char) :
    (cs ++ more).takeWhile Char.isDigit = cs.takeWhile Char.isDigit ∧
      (cs ++ more).dropWhile Char.isDigit = cs.dropWhile Char.isDigit ++ more := by
  induction cs with
  | nil => exact absurd rfl h
  | cons c cs ih =>
    by_cases hc : c.isDigit = true
    · rw [List.dropWhile_cons_of_pos hc] at h
      simp [hc, ih h]
    · simp [hc]

theorem digitsAfter_more {w : List Char} (h : digitsAfter c cs = (w, rest)) (hrest : rest ≠ [])
    (hc : w ≠ [] ∨ rest.head? ≠ some c) (more : List Char) :
    digitsAfter c (cs ++ more) = (w, rest ++ more) := by
  unfold digitsAfter at h ⊢
  split_ifs at h with hnone
  · obtain ⟨rfl, rfl⟩ := Prod.mk.inj h
    rcases hc with hw | hc
    · exact absurd rfl hw
    · exact absurd rfl hc
  · obtain ⟨rfl, rfl⟩ := Prod.mk.inj h
    obtain ⟨htake, hdrop⟩ := takeWhile_append_of_rest hrest more
    rw [htake, hdrop, if_neg hnone]

theorem scanInteger_more {w : List Char} (h : scanInteger cs = some (w, rest)) (hrest : rest ≠ [])
    (more : List Char) : scanInteger (cs ++ more) = some (w, rest ++ more) := by
  unfold scanInteger at h
  split at h
  · obtain ⟨rfl, rfl⟩ := Prod.mk.inj (Option.some.inj h)
    rfl
  · rename_i hzero
    split_ifs at h with hnone
    obtain ⟨rfl, rfl⟩ := Prod.mk.inj (Option.some.inj h)
    obtain ⟨htake, hdrop⟩ := takeWhile_append_of_rest hrest more
    rw [scanInteger]
    · rw [htake, hdrop, if_neg hnone]
    · rintro cs' heq
      cases cs with
      | nil => exact hnone rfl
      | cons c cs => exact hzero _ (by rw [(List.cons.inj heq).1])

theorem scanFraction_more {w : List Char} (h : scanFraction cs = (w, rest)) (hrest : rest ≠ [])
    (hc : rest.head? ≠ some '.') (more : List Char) :
    scanFraction (cs ++ more) = (w, rest ++ more) := by
  unfold scanFraction at h
  split at h
  · exact digitsAfter_more h hrest (.inr hc) more
  · rename_i hdot
    obtain ⟨rfl, rfl⟩ := Prod.mk.inj h
    cases cs with
    | nil => exact absurd rfl hrest
    | cons c cs =>
      rw [List.cons_append, scanFraction]
      rintro cs' heq
      exact hdot _ (by rw [(List.cons.inj heq).1])

theorem scanExponent_more {w : List Char} (h : scanExponent cs = (w, rest)) (hrest : rest ≠ [])
    (hstops : Stops rest) (more : List Char) : scanExponent (cs ++ more) = (w, rest ++ more) := by
  have hhead {e : Char} (he : e = 'e' ∨ e = 'E') : rest.head? ≠ some e := by
    intro hr
    rcases he with rfl | rfl
    · exact (hstops _ hr).2.2.1 rfl
    · exact (hstops _ hr).2.2.2 rfl
  cases cs with
  | nil => exact absurd (Prod.mk.inj h).2.symm hrest
  | cons e cs =>
    by_cases he : e = 'e' ∨ e = 'E'
    · cases cs with
      | nil =>
        obtain ⟨-, rfl⟩ : [] = w ∧ [e] = rest := by simpa [scanExponent, he] using h
        exact absurd rfl (hhead he)
      | cons s ds =>
        simp only [List.cons_append, scanExponent, if_pos he] at h ⊢
        by_cases hs : s = '+' ∨ s = '-'
        · rw [if_pos hs] at h ⊢
          rcases hd : digitsAfter s ds with ⟨v, r⟩
          rw [hd] at h
          by_cases hv : v.isEmpty = true
          · obtain ⟨-, rfl⟩ : [] = w ∧ e :: s :: ds = rest := by simpa [hv] using h
            exact absurd rfl (hhead he)
          · obtain ⟨rfl, rfl⟩ : e :: v = w ∧ r = rest := by simpa [hv] using h
            rw [digitsAfter_more hd hrest (.inl fun h => hv (by rw [h]; rfl))]
            simp [hv]
        · rw [if_neg hs] at h ⊢
          rw [← List.cons_append]
          exact digitsAfter_more h hrest (.inr (hhead he)) more
    · obtain ⟨rfl, rfl⟩ : [] = w ∧ e :: cs = rest := by simpa [scanExponent, he] using h
      simp [scanExponent, he]

theorem scanUnsigned_more {w : List Char} (h : scanUnsigned cs = some (w, rest))
    (hrest : rest ≠ []) (hstops : Stops rest) (more : List Char) :
    scanUnsigned (cs ++ more) = some (w, rest ++ more) := by
  simp only [scanUnsigned, Option.bind_eq_bind, Option.bind_eq_some_iff, Option.some.injEq,
    Prod.mk.injEq] at h
  obtain ⟨⟨i, r⟩, hi, rfl, hr⟩ := h
  dsimp only at hr
  rcases hf : scanFraction r with ⟨f, r'⟩
  rcases he : scanExponent r' with ⟨e, r''⟩
  rw [hf, he] at hr
  obtain rfl : r'' = rest := hr
  -- What is left grows to the left only, so it is not empty anywhere.
  have hr' : r' ≠ [] := by
    rintro rfl
    exact hrest (Prod.mk.inj he).2.symm
  have hdot : r'.head? ≠ some '.' := by
    intro hdot
    obtain ⟨cs', rfl⟩ : ∃ cs', r' = '.' :: cs' := List.head?_eq_some_iff.1 hdot
    obtain ⟨-, rfl⟩ := Prod.mk.inj he
    exact (hstops _ rfl).2.1 rfl
  have hr : r ≠ [] := by
    rintro rfl
    exact hr' (Prod.mk.inj hf).2.symm
  simp only [scanUnsigned, scanInteger_more hi hr, Option.bind_eq_bind, Option.bind_some,
    scanFraction_more hf hr' hdot, scanExponent_more he hrest hstops]

theorem scanUnsigned_head {p : List Char × List Char} (h : scanUnsigned cs = some p) :
    ∃ d ds, cs = d :: ds ∧ d.isDigit = true := by
  simp only [scanUnsigned, Option.bind_eq_bind, Option.bind_eq_some_iff] at h
  obtain ⟨⟨i, r⟩, hi, -⟩ := h
  exact (scanInteger_append hi (by simp [Stops] : Stops [])).2

/-- A number that something stands after is the same number with more text after it. -/
theorem scanOnce_number_more {w : List Char} (h : scanNumber cs = some (w, rest))
    (hrest : rest ≠ []) (hstops : Stops rest) (n : ℕ) (more : List Char) :
    scanOnce (n + 1) (cs ++ more) = some (.number (String.ofList w), rest ++ more) := by
  unfold scanNumber at h
  split at h
  · simp only [Option.bind_eq_bind, Option.bind_eq_some_iff, Option.some.injEq, Prod.mk.injEq] at h
    obtain ⟨⟨v, r⟩, hv, rfl, rfl⟩ := h
    obtain ⟨d, ds, rfl, hd⟩ := scanUnsigned_head hv
    exact (scanOnce_number n hd (scanUnsigned_more hv hrest hstops more)).2
  · obtain ⟨d, ds, rfl, hd⟩ := scanUnsigned_head h
    exact (scanOnce_number n hd (scanUnsigned_more h hrest hstops more)).1

/-! ### Values -/

/-- A number does not stand at the end of the text. -/
def Ended (v : Json) (rest : List Char) : Prop :=
  (∃ literal, v = .number literal) → rest ≠ [] ∧ Stops rest

theorem ended_of_skip {v : Json} (h : skip rest = c :: cs) (hc : isEnd c = true) :
    Ended v rest := by
  intro _
  have hnil : rest ≠ [] := by
    rintro rfl
    cases h
  refine ⟨hnil, ?_⟩
  have hrest : rest = rest.takeWhile isBlank ++ c :: cs := by
    rw [← h]
    exact (List.takeWhile_append_dropWhile ..).symm
  rw [hrest]
  exact stops_isEnd (fun c hc => List.mem_takeWhile_imp hc) hc

/-- More fuel and more text do not change what was read. -/
structure Extends (n : ℕ) : Prop where
  once : ∀ m ≥ n, ∀ cs v rest more, scanOnce n cs = some (v, rest) → Ended v rest →
    scanOnce m (cs ++ more) = some (v, rest ++ more)
  object : ∀ m ≥ n, ∀ done cs v rest more, scanObject n done cs = some (v, rest) →
    (∃ items, v = .object items) ∧ scanObject m done (cs ++ more) = some (v, rest ++ more)
  array : ∀ m ≥ n, ∀ done cs v rest more, scanArray n done cs = some (v, rest) →
    scanArray m done (cs ++ more) = some (v, rest ++ more)

theorem scanOnce_nil (n : ℕ) : scanOnce n [] = none := by
  cases n with
  | zero => rfl
  | succ n => simp [scanOnce, scanNumber, scanUnsigned, scanInteger]

theorem scanArray_nil (n : ℕ) (done : List Json) : scanArray n done [] = none := by
  cases n with
  | zero => rfl
  | succ n => simp [scanArray, scanOnce_nil]

/-- What a value is read from is not blank, so the blanks before it end there. -/
theorem skip_append_of_scanOnce {n : ℕ} {p : Json × List Char} (h : scanOnce n (skip cs) = some p)
    (more : List Char) : skip (cs ++ more) = skip cs ++ more := by
  cases hskip : skip cs with
  | nil =>
    rw [hskip, scanOnce_nil] at h
    cases h
  | cons c cs' => exact skip_append_of_cons hskip more

theorem Extends.scanOnce_succ {n : ℕ} (ih : Extends n) {m : ℕ} (hm : n ≤ m) {v : Json}
    (h : scanOnce (n + 1) cs = some (v, rest)) (hend : Ended v rest) (more : List Char) :
    scanOnce (m + 1) (cs ++ more) = some (v, rest ++ more) := by
  rw [scanOnce.eq_def] at h
  dsimp only at h
  split at h
  case h_1 cs =>
    obtain ⟨⟨us, r⟩, hr, heq⟩ := Option.map_eq_some_iff.1 h
    obtain ⟨rfl, rfl⟩ := Prod.mk.inj heq
    rw [List.cons_append, scanOnce, scanString_append hr]
    rfl
  case h_2 cs =>
    split at h
    case h_1 hskip =>
      obtain ⟨rfl, rfl⟩ := Prod.mk.inj (Option.some.inj h)
      simp [scanOnce, skip_append_of_cons hskip]
    case h_2 hskip =>
      simp only [List.cons_append, scanOnce, skip_append_of_cons hskip]
      exact (ih.object m hm _ _ v rest more h).2
    case h_3 => cases h
  case h_3 cs =>
    split at h
    case h_1 hskip =>
      obtain ⟨rfl, rfl⟩ := Prod.mk.inj (Option.some.inj h)
      simp [scanOnce, skip_append_of_cons hskip]
    case h_2 hclose =>
      cases hskip : skip cs with
      | nil =>
        rw [hskip, scanArray_nil] at h
        cases h
      | cons c cs' =>
        rw [hskip] at h
        have hread := ih.array m hm _ _ v rest more h
        simp only [List.cons_append, scanOnce, skip_append_of_cons hskip]
        split
        · rename_i heq
          exact absurd (hskip.trans (by rw [(List.cons.inj heq).1])) (hclose _)
        · exact hread
  case h_10 =>
    obtain ⟨⟨w, r⟩, hw, heq⟩ := Option.map_eq_some_iff.1 h
    obtain ⟨rfl, rfl⟩ := Prod.mk.inj heq
    obtain ⟨hrest, hstops⟩ := hend ⟨_, rfl⟩
    exact scanOnce_number_more hw hrest hstops m more
  all_goals
    obtain ⟨rfl, rfl⟩ := Prod.mk.inj (Option.some.inj h)
    rfl

theorem Extends.scanObject_succ {n : ℕ} (ih : Extends n) {m : ℕ} (hm : n ≤ m) {v : Json}
    {done : List (String × Json)} (h : scanObject (n + 1) done cs = some (v, rest))
    (more : List Char) : (∃ items, v = .object items) ∧
      scanObject (m + 1) done (cs ++ more) = some (v, rest ++ more) := by
  rw [scanObject] at h
  simp only [Option.bind_eq_bind, Option.bind_eq_some_iff] at h
  obtain ⟨⟨key, r⟩, hkey, h⟩ := h
  split at h
  case h_1 hcolon =>
    simp only [Option.bind_eq_some_iff] at h
    obtain ⟨⟨w, r'⟩, hw, h⟩ := h
    have hvalue := skip_append_of_scanOnce hw more
    dsimp only at h
    split at h
    case h_1 hclose =>
      obtain ⟨rfl, rfl⟩ := Prod.mk.inj (Option.some.inj h)
      have hread := ih.once m hm _ _ _ more hw (ended_of_skip hclose rfl)
      refine ⟨⟨_, rfl⟩, ?_⟩
      simp [scanObject, scanString_append hkey, skip_append_of_cons hcolon, hvalue, hread,
        skip_append_of_cons hclose]
    case h_2 hcomma =>
      have hread := ih.once m hm _ _ _ more hw (ended_of_skip hcomma rfl)
      split at h
      case h_1 hquote =>
        obtain ⟨hobject, hrest⟩ := ih.object m hm _ _ v rest more h
        refine ⟨hobject, ?_⟩
        simp [scanObject, scanString_append hkey, skip_append_of_cons hcolon, hvalue, hread,
          skip_append_of_cons hcomma, skip_append_of_cons hquote, hrest]
      case h_2 => cases h
    case h_3 => cases h
  case h_2 => cases h

theorem Extends.scanArray_succ {n : ℕ} (ih : Extends n) {m : ℕ} (hm : n ≤ m) {v : Json}
    {done : List Json} (h : scanArray (n + 1) done cs = some (v, rest)) (more : List Char) :
    scanArray (m + 1) done (cs ++ more) = some (v, rest ++ more) := by
  rw [scanArray] at h
  simp only [Option.bind_eq_bind, Option.bind_eq_some_iff] at h
  obtain ⟨⟨w, r⟩, hw, h⟩ := h
  dsimp only at h
  split at h
  case h_1 hclose =>
    obtain ⟨rfl, rfl⟩ := Prod.mk.inj (Option.some.inj h)
    have hread := ih.once m hm _ _ _ more hw (ended_of_skip hclose rfl)
    simp [scanArray, hread, skip_append_of_cons hclose]
  case h_2 cs' hcomma =>
    have hread := ih.once m hm _ _ _ more hw (ended_of_skip hcomma rfl)
    have hrest := ih.array m hm _ _ v rest more h
    cases hskip : skip cs' with
    | nil =>
      rw [hskip, scanArray_nil] at h
      cases h
    | cons c cs'' =>
      rw [hskip] at hrest
      simp only [scanArray, hread, Option.bind_eq_bind, Option.bind_some,
        skip_append_of_cons hcomma, skip_append_of_cons hskip]
      exact hrest
  case h_3 => cases h

theorem extends_all (n : ℕ) : Extends n := by
  induction n with
  | zero =>
    constructor
    · intro m _ cs v rest more h
      rw [scanOnce] at h
      cases h
    · intro m _ done cs v rest more h
      rw [scanObject] at h
      cases h
    · intro m _ done cs v rest more h
      rw [scanArray] at h
      cases h
  | succ n ih =>
    have hpred : ∀ m ≥ n + 1, ∃ k, m = k + 1 ∧ n ≤ k := fun m hm => ⟨m - 1, by omega, by omega⟩
    constructor
    · intro m hm cs v rest more h hend
      obtain ⟨k, rfl, hk⟩ := hpred m hm
      exact ih.scanOnce_succ hk h hend more
    · intro m hm done cs v rest more h
      obtain ⟨k, rfl, hk⟩ := hpred m hm
      exact ih.scanObject_succ hk h more
    · intro m hm done cs v rest more h
      obtain ⟨k, rfl, hk⟩ := hpred m hm
      exact ih.scanArray_succ hk h more

/-- What begins with a brace is read as an object. -/
theorem exists_object {n : ℕ} {v : Json} (h : scanOnce n ('\x7b' :: cs) = some (v, rest)) :
    ∃ items, v = .object items := by
  cases n with
  | zero =>
    rw [scanOnce] at h
    cases h
  | succ n =>
    rw [scanOnce] at h
    split at h
    · exact ⟨_, (Prod.mk.inj (Option.some.inj h)).1.symm⟩
    · exact ((extends_all n).object n le_rfl _ _ _ _ [] h).1
    · cases h

/-- The text of an object that is cut off anywhere cannot be read. -/
theorem loads_of_prefix {items : List (String × Json)} (h : Wellformed (.object items))
    {style : Style} {left more : List Char} (hleft : left ++ more = dumps style (.object items))
    (hmore : more ≠ []) : loads left = none := by
  have hwhole := h.reads.scan style 0 (left.length + 1 + more.length) [] (by
    rw [← dumps, ← hleft, List.length_append]
    omega) (by simp [Stops])
  rw [List.append_nil, ← dumps, ← hleft] at hwhole
  rw [loads]
  split
  case h_2 => rfl
  case h_1 v rest hread =>
    cases left with
    | nil =>
      rw [skip, List.dropWhile_nil, scanOnce_nil] at hread
      cases hread
    | cons c left =>
      obtain ⟨rfl, hskip⟩ : c = '\x7b' ∧ skip (c :: left) = c :: left := by
        have hc : c = '\x7b' := by
          rw [dumps] at hleft
          cases items with
          | nil =>
            rw [text] at hleft
            exact (List.cons.inj hleft).1
          | cons m ms =>
            rw [text] at hleft
            exact (List.cons.inj hleft).1
        rw [hc]
        exact ⟨rfl, rfl⟩
      rw [hskip] at hread
      obtain ⟨items', rfl⟩ := exists_object hread
      have hmore' := (extends_all _).once _ (Nat.le_add_right _ more.length) _ _ _ more hread
        (by rintro ⟨literal, heq⟩; cases heq)
      rw [hwhole] at hmore'
      have hempty : rest ++ more = [] := (Prod.mk.inj (Option.some.inj hmore')).2.symm
      exact absurd (List.append_eq_nil_iff.1 hempty).2 hmore

end Truncation

end Yggdrasil.Python.Json
