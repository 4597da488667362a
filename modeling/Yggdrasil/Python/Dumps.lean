import Yggdrasil.Python.Json

/-! `json.dumps`: the text of a value, on one line or with an indent, in ASCII only. The reader
gives the value back, whatever the style. -/

namespace Yggdrasil.Python.Json

/-! ### Texts of values -/

section Writing

/-- `\uXXXX`. -/
def unicodeEscape (u : ℕ) : List Char :=
  ['\\', 'u', Nat.digitChar (u / 0x1000 % 16), Nat.digitChar (u / 0x100 % 16),
    Nat.digitChar (u / 0x10 % 16), Nat.digitChar (u % 16)]

/-- The code units of a character. -/
def units (c : Char) : List ℕ :=
  if c.toNat < 0x10000 then [c.toNat]
  else [0xd800 + (c.toNat - 0x10000) / 0x400, 0xdc00 + (c.toNat - 0x10000) % 0x400]

def escape (c : Char) : List Char :=
  if c = '"' then ['\\', '"']
  else if c = '\\' then ['\\', '\\']
  else if c = '\n' then ['\\', 'n']
  else if c = '\r' then ['\\', 'r']
  else if c = '\t' then ['\\', 't']
  else if c.toNat = 0x0c then ['\\', 'f']
  else if c.toNat = 0x08 then ['\\', 'b']
  else if 0x20 ≤ c.toNat ∧ c.toNat < 0x7f then [c]
  else (units c).flatMap unicodeEscape

/-- A string after its opening quote. -/
def closed (cs : List Char) : List Char := cs.flatMap escape ++ ['"']

/-- The indent, and the blanks after a comma and after a colon. -/
structure Style where
  indent : Option ℕ
  comma : ℕ
  colon : ℕ

/-- The end of a line and the indent of the next one. -/
def Style.gap (style : Style) (level : ℕ) : List Char :=
  match style.indent with
  | none => []
  | some n => '\n' :: List.replicate (n * level) ' '

mutual

def text (style : Style) (level : ℕ) : Json → List Char
  | .null => ['n', 'u', 'l', 'l']
  | .bool true => ['t', 'r', 'u', 'e']
  | .bool false => ['f', 'a', 'l', 's', 'e']
  | .number literal => literal.toList
  | .string s => '"' :: closed s.toList
  | .array [] => ['[', ']']
  | .array (v :: vs) => '[' :: (style.gap (level + 1) ++ (text style (level + 1) v ++
      (itemsText style (level + 1) vs ++ (style.gap level ++ [']']))))
  | .object [] => ['\x7b', '\x7d']
  | .object ((k, v) :: ms) => '\x7b' :: (style.gap (level + 1) ++ ('"' :: (closed k.toList ++
      ':' :: (List.replicate style.colon ' ' ++ (text style (level + 1) v ++
        (entriesText style (level + 1) ms ++ (style.gap level ++ ['\x7d'])))))))

/-- The items after the first one. -/
def itemsText (style : Style) (level : ℕ) : List Json → List Char
  | [] => []
  | v :: vs => ',' :: (List.replicate style.comma ' ' ++ style.gap level ++
      (text style level v ++ itemsText style level vs))

/-- The members after the first one. -/
def entriesText (style : Style) (level : ℕ) : List (String × Json) → List Char
  | [] => []
  | (k, v) :: ms => ',' :: (List.replicate style.comma ' ' ++ style.gap level ++
      ('"' :: (closed k.toList ++ ':' :: (List.replicate style.colon ' ' ++
        (text style level v ++ entriesText style level ms)))))

end

/-- `json.dumps`. -/
def dumps (style : Style) (v : Json) : List Char := text style 0 v

/-- A value that has a text: the keys of an object are distinct, and a number is one. -/
inductive Wellformed : Json → Prop
  | null : Wellformed .null
  | bool (b : Bool) : Wellformed (.bool b)
  | number {literal : String} : Numeral literal.toList → Wellformed (.number literal)
  | string (s : String) : Wellformed (.string s)
  | array {items : List Json} : (∀ v ∈ items, Wellformed v) → Wellformed (.array items)
  | object {items : List (String × Json)} : (items.map Prod.fst).Nodup →
      (∀ m ∈ items, Wellformed m.2) → Wellformed (.object items)

end Writing

/-! ### Strings -/

section Strings

variable {c : Char} {rest : List Char}

theorem hexDigit_digitChar (d : ℕ) : hexDigit (Nat.digitChar (d % 16)) = some (d % 16) := by
  have h : ∀ d < 16, hexDigit (Nat.digitChar d) = some d := by decide
  exact h _ (Nat.mod_lt d (by decide))

theorem scanString_unicodeEscape {u : ℕ} (hu : u < 0x10000) (cs : List Char) :
    scanString (unicodeEscape u ++ cs) = (scanString cs).map fun p => (u :: p.1, p.2) := by
  have hvalue : ((u / 0x1000 % 16) * 16 + u / 0x100 % 16) * 256 + (u / 0x10 % 16) * 16 + u % 16 =
      u := by omega
  simp only [unicodeEscape, List.cons_append, List.nil_append, scanString, hex4,
    hexDigit_digitChar, Option.bind_eq_bind, Option.bind_some, hvalue]
  cases scanString cs <;> rfl

theorem scanString_plainChar (hc : isPlain c) (cs : List Char) :
    scanString (c :: cs) = (scanString cs).map fun p => (c.toNat :: p.1, p.2) := by
  have hplain : c ≠ '"' ∧ c ≠ '\\' ∧ 0x20 ≤ c.toNat := by simpa [isPlain] using hc
  have hnot : ¬(c = '\\' ∨ c.toNat < 0x20) := by
    rintro (h | h)
    · exact hplain.2.1 h
    · omega
  rw [scanString.eq_def]
  split
  · simp_all
  · simp_all
  · simp_all
  · simp_all
  · rename_i d ds _ _ _ heq
    obtain ⟨rfl, rfl⟩ := List.cons.inj heq
    rw [if_neg hnot]
    cases scanString cs <;> rfl

theorem toNat_lt (c : Char) : c.toNat < 0x110000 := by
  rcases c.valid with h | h
  · have hlt : c.toNat < 0xd800 := h
    omega
  · exact h.2

theorem units_lt (c : Char) : ∀ u ∈ units c, u < 0x10000 := by
  have hc := toNat_lt c
  intro u hu
  unfold units at hu
  split_ifs at hu with h
  · rw [List.mem_singleton.1 hu]
    exact h
  · simp only [List.mem_cons, List.not_mem_nil, or_false] at hu
    rcases hu with hu | hu <;> omega

theorem scanString_units {us : List ℕ} (h : ∀ u ∈ us, u < 0x10000) (cs : List Char) :
    scanString (us.flatMap unicodeEscape ++ cs) =
      (scanString cs).map fun p => (us ++ p.1, p.2) := by
  induction us with
  | nil => simp
  | cons u us ih =>
    rw [List.flatMap_cons, List.append_assoc, scanString_unicodeEscape (h u List.mem_cons_self),
      ih fun u hu => h u (List.mem_cons_of_mem _ hu), Option.map_map]
    rfl

theorem scanString_escaped {u : ℕ} (hu : escaped c = some u) (cs : List Char) :
    scanString ('\\' :: c :: cs) = (scanString cs).map fun p => (u :: p.1, p.2) := by
  have hc : c ≠ 'u' := by
    rintro rfl
    cases hu
  rw [scanString.eq_def]
  split
  · simp_all
  · simp_all
  · simp_all
  · rename_i heq
    simp only [List.cons.injEq, true_and] at heq
    obtain ⟨rfl, rfl⟩ := heq
    rw [hu]
    cases scanString cs <;> rfl
  · rename_i hnot heq
    obtain ⟨rfl, rfl⟩ := List.cons.inj heq
    exact absurd rfl (hnot _ _ rfl)

/-- An escaped character is read as its code units. -/
theorem scanString_escape (c : Char) (cs : List Char) :
    scanString (escape c ++ cs) = (scanString cs).map fun p => (units c ++ p.1, p.2) := by
  have hescaped {d : Char} {u : ℕ} (hu : escaped d = some u) (hc : c.toNat = u)
      (hlt : u < 0x10000) : scanString (['\\', d] ++ cs) =
        (scanString cs).map fun p => (units c ++ p.1, p.2) := by
    have hunits : units c = [u] := by rw [units, if_pos (hc ▸ hlt), hc]
    rw [List.cons_append, List.cons_append, List.nil_append, scanString_escaped hu, hunits]
    rfl
  unfold escape
  split_ifs with hquote hbackslash hn hr ht hf hb hplain
  · exact hescaped rfl (by rw [hquote]; rfl) (by decide)
  · exact hescaped rfl (by rw [hbackslash]; rfl) (by decide)
  · exact hescaped rfl (by rw [hn]; rfl) (by decide)
  · exact hescaped rfl (by rw [hr]; rfl) (by decide)
  · exact hescaped rfl (by rw [ht]; rfl) (by decide)
  · exact hescaped rfl hf (by decide)
  · exact hescaped rfl hb (by decide)
  · have hunits : units c = [c.toNat] := by rw [units, if_pos (by omega)]
    have hc : isPlain c := by simp [isPlain, hquote, hbackslash, hplain.1]
    rw [List.singleton_append, scanString_plainChar hc, hunits]
    rfl
  · exact scanString_units (units_lt c) cs

theorem scanString_closed (cs : List Char) :
    scanString (closed cs ++ rest) = some (cs.flatMap units, rest) := by
  unfold closed
  induction cs with
  | nil => rfl
  | cons c cs ih =>
    rw [List.flatMap_cons, List.append_assoc, List.append_assoc, scanString_escape,
      ← List.append_assoc, ih]
    rfl

theorem join_cons {u : ℕ} (h : ¬(0xd800 ≤ u ∧ u ≤ 0xdbff)) (us : List ℕ) :
    join (u :: us) = charOf u :: join us := by
  cases us with
  | nil => rfl
  | cons v us => rw [join, if_neg fun h' => h ⟨h'.1, h'.2.1⟩]

/-- The code units of a text join to the text. -/
theorem join_units (cs : List Char) : join (cs.flatMap units) = cs := by
  induction cs with
  | nil => rfl
  | cons c cs ih =>
    rw [List.flatMap_cons]
    by_cases h : c.toNat < 0x10000
    · have hunits : units c = [c.toNat] := if_pos h
      have hsurrogate : ¬(0xd800 ≤ c.toNat ∧ c.toNat ≤ 0xdbff) := by
        rintro ⟨h₁, h₂⟩
        rcases c.valid with h | h
        · have hlt : c.toNat < 0xd800 := h
          omega
        · have hlt : 0xdfff < c.toNat := h.1
          omega
      rw [hunits, List.singleton_append, join_cons hsurrogate, charOf_toNat, ih]
    · have hunits : units c = [0xd800 + (c.toNat - 0x10000) / 0x400,
        0xdc00 + (c.toNat - 0x10000) % 0x400] := if_neg h
      have hc := toNat_lt c
      have hpair : 0x10000 + (0xd800 + (c.toNat - 0x10000) / 0x400 - 0xd800) * 0x400 +
          (0xdc00 + (c.toNat - 0x10000) % 0x400 - 0xdc00) = c.toNat := by omega
      rw [hunits, List.cons_append, List.cons_append, List.nil_append, join, if_pos (by omega),
        hpair, Char.ofNat_toNat, ih]

end Strings

/-! ### Numbers -/

section Numbers

variable {cs r rest : List Char}

theorem takeWhile_append_of_stops (cs : List Char) (h : Stops rest) :
    (cs ++ rest).takeWhile Char.isDigit = cs.takeWhile Char.isDigit ∧
      (cs ++ rest).dropWhile Char.isDigit = cs.dropWhile Char.isDigit ++ rest := by
  induction cs with
  | nil => simpa using takeWhile_digits (by simp : ∀ c ∈ [], Char.isDigit c = true) h
  | cons c cs ih =>
    by_cases hc : c.isDigit = true
    · simp [hc, ih]
    · simp [hc]

theorem digitsAfter_append (c : Char) (h : Stops rest) :
    digitsAfter c (cs ++ rest) = ((digitsAfter c cs).1, (digitsAfter c cs).2 ++ rest) := by
  obtain ⟨htake, hdrop⟩ := takeWhile_append_of_stops cs h
  unfold digitsAfter
  rw [htake, hdrop]
  split_ifs <;> rfl

theorem scanInteger_append {i : List Char} (hi : scanInteger cs = some (i, r)) (h : Stops rest) :
    scanInteger (cs ++ rest) = some (i, r ++ rest) ∧ ∃ d ds, cs = d :: ds ∧ d.isDigit = true := by
  obtain ⟨htake, hdrop⟩ := takeWhile_append_of_stops cs h
  unfold scanInteger at hi
  split at hi
  · rename_i cs
    simp only [Option.some.injEq, Prod.mk.injEq] at hi
    obtain ⟨rfl, rfl⟩ := hi
    exact ⟨rfl, _, _, rfl, rfl⟩
  · rename_i hzero
    split_ifs at hi with hnone
    simp only [Option.some.injEq, Prod.mk.injEq] at hi
    obtain ⟨rfl, rfl⟩ := hi
    obtain ⟨d, ds, rfl⟩ : ∃ d ds, cs = d :: ds := by
      cases cs with
      | nil => exact absurd rfl hnone
      | cons d ds => exact ⟨d, ds, rfl⟩
    have hd : d.isDigit = true := by
      by_contra hd
      simp [hd] at hnone
    refine ⟨?_, d, ds, rfl, hd⟩
    rw [List.cons_append] at htake hdrop ⊢
    rw [scanInteger]
    · rw [htake, hdrop, if_neg hnone]
    · rintro cs' heq
      exact hzero _ (by rw [(List.cons.inj heq).1])

theorem scanFraction_append (h : Stops rest) :
    scanFraction (cs ++ rest) = ((scanFraction cs).1, (scanFraction cs).2 ++ rest) := by
  cases cs with
  | nil => exact scanFraction_of_stops h
  | cons c cs =>
    by_cases hc : c = '.'
    · rw [hc]
      exact digitsAfter_append '.' h
    · have hother (cs : List Char) : scanFraction (c :: cs) = ([], c :: cs) := by
        rw [scanFraction]
        rintro cs' heq
        exact hc (List.cons.inj heq).1
      rw [List.cons_append, hother, hother]
      rfl

theorem scanExponent_append {e : List Char} (he : scanExponent cs = (e, [])) (h : Stops rest) :
    scanExponent (cs ++ rest) = (e, rest) := by
  cases cs with
  | nil =>
    obtain rfl : [] = e := congrArg Prod.fst he
    exact scanExponent_of_stops h
  | cons c cs =>
    by_cases hc : c = 'e' ∨ c = 'E'
    · cases cs with
      | nil => simp [scanExponent, hc] at he
      | cons s ds =>
        simp only [List.cons_append, scanExponent, if_pos hc] at he ⊢
        by_cases hs : s = '+' ∨ s = '-'
        · rw [if_pos hs] at he ⊢
          rw [digitsAfter_append s h]
          dsimp only at he ⊢
          split_ifs at he ⊢
          · simp at he
          · simp only [Prod.mk.injEq] at he
            rw [he.1, he.2]
            rfl
        · rw [if_neg hs] at he ⊢
          rw [← List.cons_append, digitsAfter_append c h, he]
          rfl
    · simp [scanExponent, hc] at he

theorem scanUnsigned_append {w : List Char} (hw : scanUnsigned cs = some (w, [])) (h : Stops rest) :
    scanUnsigned (cs ++ rest) = some (w, rest) ∧ ∃ d ds, cs = d :: ds ∧ d.isDigit = true := by
  simp only [scanUnsigned, Option.bind_eq_bind, Option.bind_eq_some_iff, Option.some.injEq,
    Prod.mk.injEq] at hw
  obtain ⟨⟨i, r⟩, hi, rfl, hnil⟩ := hw
  obtain ⟨hint, hdigit⟩ := scanInteger_append hi h
  have hexponent := scanExponent_append (e := (scanExponent (scanFraction r).2).1)
    (Prod.ext rfl hnil) h
  refine ⟨?_, hdigit⟩
  simp only [scanUnsigned, hint, Option.bind_eq_bind, Option.bind_some, scanFraction_append h,
    hexponent]

/-- What the scanner takes for a number to its end is one. -/
theorem numeral_of_scanNumber {w : List Char} (h : scanNumber w = some (w, [])) : Numeral w := by
  have hblank {d : Char} (hd : d.isDigit = true) : isBlank d = false := by
    refine Bool.eq_false_iff.2 fun h => ?_
    rcases isBlank_iff.1 h with rfl | rfl | rfl | rfl <;> exact absurd hd (by decide)
  unfold scanNumber at h
  split at h
  · rename_i cs
    simp only [Option.bind_eq_bind, Option.bind_eq_some_iff, Option.some.injEq, Prod.mk.injEq] at h
    obtain ⟨⟨v, r⟩, hv, heq, rfl⟩ := h
    obtain rfl : v = cs := (List.cons.inj heq).2
    obtain ⟨-, d, ds, rfl, hd⟩ := scanUnsigned_append hv (by simp [Stops] : Stops [])
    exact ⟨⟨'-', _, rfl, rfl⟩, fun n rest hrest =>
      (scanOnce_number n hd (scanUnsigned_append hv hrest).1).2⟩
  · obtain ⟨-, d, ds, rfl, hd⟩ := scanUnsigned_append h (by simp [Stops] : Stops [])
    exact ⟨⟨d, ds, rfl, hblank hd⟩, fun n rest hrest =>
      (scanOnce_number n hd (scanUnsigned_append h hrest).1).1⟩

theorem numeral_nan : Numeral "NaN".toList := ⟨⟨'N', _, rfl, rfl⟩, fun _ _ _ => rfl⟩

theorem numeral_infinity : Numeral "Infinity".toList := ⟨⟨'I', _, rfl, rfl⟩, fun _ _ _ => rfl⟩

theorem numeral_negInfinity : Numeral "-Infinity".toList := ⟨⟨'-', _, rfl, rfl⟩, fun _ _ _ => rfl⟩

end Numbers

/-! ### Values -/

section Values

variable {style : Style} {level n : ℕ} {rest : List Char}

theorem isBlank_spaces (n : ℕ) : ∀ c ∈ List.replicate n ' ', isBlank c := by
  intro c hc
  rw [List.eq_of_mem_replicate hc]
  rfl

theorem isBlank_gap (style : Style) (level : ℕ) : ∀ c ∈ style.gap level, isBlank c := by
  intro c hc
  unfold Style.gap at hc
  split at hc
  · cases hc
  · rcases List.mem_cons.1 hc with rfl | hc
    · rfl
    · exact isBlank_spaces _ c hc

theorem isBlank_separator (style : Style) (level : ℕ) :
    ∀ c ∈ List.replicate style.comma ' ' ++ style.gap level, isBlank c := by
  intro c hc
  rcases List.mem_append.1 hc with hc | hc
  · exact isBlank_spaces _ c hc
  · exact isBlank_gap style level c hc

/-- What ends a value, after blanks. -/
def isEnd (c : Char) : Bool := c = ',' || c = ']' || c = '\x7d'

theorem isBlank_of_isEnd {c : Char} (hc : isEnd c = true) : isBlank c = false := by
  simp only [isEnd, Bool.or_eq_true, decide_eq_true_eq] at hc
  rcases hc with (rfl | rfl) | rfl <;> rfl

theorem stops_isEnd {blanks : List Char} {c : Char} (hb : ∀ c ∈ blanks, isBlank c)
    (hc : isEnd c = true) : Stops (blanks ++ c :: rest) := by
  intro d hd
  cases blanks with
  | nil =>
    obtain rfl : c = d := by simpa using hd
    simp only [isEnd, Bool.or_eq_true, decide_eq_true_eq] at hc
    rcases hc with (rfl | rfl) | rfl <;> decide
  | cons b blanks =>
    obtain rfl : b = d := by simpa using hd
    rcases isBlank_iff.1 (hb b List.mem_cons_self) with rfl | rfl | rfl | rfl <;> decide

/-- A value has a text that neither begins with a blank nor ends an array, and that is read as the
value, with as much fuel as it has characters. -/
structure Reads (v : Json) : Prop where
  head : ∀ style level, ∃ c cs, text style level v = c :: cs ∧ isBlank c = false ∧ c ≠ ']'
  scan : ∀ style level n rest, (text style level v).length ≤ n → Stops rest →
    scanOnce n (text style level v ++ rest) = some (v, rest)

theorem Reads.skip {v : Json} (hv : Reads v) {blanks : List Char} (hb : ∀ c ∈ blanks, isBlank c)
    (style : Style) (level : ℕ) (rest : List Char) :
    skip (blanks ++ (text style level v ++ rest)) = text style level v ++ rest := by
  obtain ⟨c, cs, hc, hblank, -⟩ := hv.head style level
  rw [hc]
  exact skip_append hb hblank

/-- A value whose text has no blanks and no values in it. -/
theorem reads_word {v : Json} {c : Char} {cs : List Char}
    (htext : ∀ style level, text style level v = c :: cs) (hblank : isBlank c = false)
    (hclose : c ≠ ']') (hscan : ∀ n rest, Stops rest →
      scanOnce (n + 1) (c :: cs ++ rest) = some (v, rest)) : Reads v := by
  refine ⟨fun style level => ⟨c, cs, htext style level, hblank, hclose⟩, ?_⟩
  intro style level n rest hn hrest
  rw [htext] at hn ⊢
  obtain ⟨n, rfl⟩ : ∃ k, n = k + 1 := ⟨n - 1, by rw [List.length_cons] at hn; omega⟩
  exact hscan n rest hrest

theorem reads_number {literal : String} (h : Numeral literal.toList) : Reads (.number literal) := by
  obtain ⟨c, cs, hc, hblank⟩ := h.head
  have hclose : c ≠ ']' := by
    rintro rfl
    have hscan := h.scan 0 [] (by simp [Stops])
    rw [hc] at hscan
    simp [scanOnce, scanNumber, scanUnsigned, scanInteger] at hscan
  refine reads_word (fun style level => by rw [text, hc]) hblank hclose fun n rest hrest => ?_
  rw [← hc, h.scan n rest hrest, String.ofList_toList]

theorem reads_string (s : String) : Reads (.string s) := by
  refine reads_word (fun style level => by rw [text]) (by decide) (by decide) fun n rest _ => ?_
  rw [List.cons_append, scanOnce, scanString_closed]
  simp [join_units]

/-- Reading the items of an array, from the first character of one on. -/
theorem scanArray_items {vs : List Json} (h : ∀ v ∈ vs, Reads v) {v : Json} (hv : Reads v)
    {blanks : List Char} (hb : ∀ c ∈ blanks, isBlank c) (done : List Json)
    (hn : (text style level v).length + (itemsText style level vs).length + 1 ≤ n)
    (rest : List Char) :
    scanArray n done (text style level v ++ (itemsText style level vs ++ (blanks ++ ']' :: rest))) =
      some (.array (done ++ v :: vs), rest) := by
  induction vs generalizing v n done with
  | nil =>
    obtain ⟨n, rfl⟩ : ∃ k, n = k + 1 := ⟨n - 1, by omega⟩
    have hscan := hv.scan style level n (blanks ++ ']' :: rest) (by omega) (stops_isEnd hb rfl)
    have hclose : Json.skip (blanks ++ ']' :: rest) = ']' :: rest := skip_append hb (by decide)
    rw [itemsText, List.nil_append, scanArray, hscan]
    simp [hclose]
  | cons w ws ih =>
    obtain ⟨n, rfl⟩ : ∃ k, n = k + 1 := ⟨n - 1, by omega⟩
    have hw := h w List.mem_cons_self
    simp only [itemsText, List.length_cons, List.length_append] at hn
    have hnil : ∀ c ∈ ([] : List Char), isBlank c := by simp
    have hscan := hv.scan style level n (itemsText style level (w :: ws) ++ (blanks ++ ']' :: rest))
      (by omega) (by rw [itemsText]; exact stops_isEnd hnil rfl)
    have hnext := hw.skip (isBlank_separator style level) style level
      (itemsText style level ws ++ (blanks ++ ']' :: rest))
    have hcomma (cs : List Char) : Json.skip (',' :: cs) = ',' :: cs := rfl
    rw [scanArray, hscan, itemsText]
    simp only [Option.bind_eq_bind, Option.bind_some, List.cons_append, hcomma, List.append_assoc]
    rw [← List.append_assoc (List.replicate _ _), hnext,
      ih (fun v hv => h v (List.mem_cons_of_mem _ hv)) hw (done ++ [v]) (by omega)]
    simp

/-- Reading the members of an object, from the first character of a key on. -/
theorem scanObject_entries {ms : List (String × Json)} (h : ∀ m ∈ ms, Reads m.2) (k : String)
    {v : Json} (hv : Reads v) {blanks : List Char} (hb : ∀ c ∈ blanks, isBlank c)
    (done : List (String × Json))
    (hn : (text style level v).length + (entriesText style level ms).length + 1 ≤ n)
    (rest : List Char) :
    scanObject n done (closed k.toList ++ ':' :: (List.replicate style.colon ' ' ++
      (text style level v ++ (entriesText style level ms ++ (blanks ++ '\x7d' :: rest))))) =
        some (.object (Dict.update done ((k, v) :: ms)), rest) := by
  have hcolon (cs : List Char) : Json.skip (':' :: cs) = ':' :: cs := rfl
  induction ms generalizing k v n done with
  | nil =>
    obtain ⟨n, rfl⟩ : ∃ k, n = k + 1 := ⟨n - 1, by omega⟩
    have hscan := hv.scan style level n (blanks ++ '\x7d' :: rest) (by omega) (stops_isEnd hb rfl)
    have hclose : Json.skip (blanks ++ '\x7d' :: rest) = '\x7d' :: rest := skip_append hb (by decide)
    rw [entriesText, List.nil_append, scanObject, scanString_closed]
    simp only [Option.bind_eq_bind, Option.bind_some, hcolon, hv.skip (isBlank_spaces _), hscan,
      hclose, join_units, String.ofList_toList]
    rfl
  | cons m ms ih =>
    obtain ⟨k', w⟩ := m
    obtain ⟨n, rfl⟩ : ∃ k, n = k + 1 := ⟨n - 1, by omega⟩
    have hw : Reads w := h (k', w) List.mem_cons_self
    have hlength : (text style level w).length + (entriesText style level ms).length + 1 ≤
        (entriesText style level ((k', w) :: ms)).length := by
      rw [entriesText]
      simp only [List.length_cons, List.length_append]
      omega
    have hnil : ∀ c ∈ ([] : List Char), isBlank c := by simp
    have hscan := hv.scan style level n
      (entriesText style level ((k', w) :: ms) ++ (blanks ++ '\x7d' :: rest)) (by omega)
      (by rw [entriesText]; exact stops_isEnd hnil rfl)
    have hcomma (cs : List Char) : Json.skip (',' :: cs) = ',' :: cs := rfl
    have hnext (cs : List Char) :
        Json.skip (List.replicate style.comma ' ' ++ style.gap level ++ '"' :: cs) = '"' :: cs :=
      skip_append (isBlank_separator style level) (by decide)
    rw [scanObject, scanString_closed]
    simp only [Option.bind_eq_bind, Option.bind_some, hcolon, hv.skip (isBlank_spaces _), hscan,
      join_units, String.ofList_toList]
    simp only [entriesText, List.cons_append, List.append_assoc, hcomma]
    simp only [List.append_assoc] at hnext
    rw [hnext]
    exact ih (fun m hm => h m (List.mem_cons_of_mem _ hm)) k' hw _ (by omega)

theorem reads_array {items : List Json} (h : ∀ v ∈ items, Reads v) : Reads (.array items) := by
  cases items with
  | nil => exact reads_word (fun _ _ => rfl) (by decide) (by decide) fun _ _ _ => rfl
  | cons v vs =>
    constructor
    · intro style level
      exact ⟨'[', _, by rw [text], by decide, by decide⟩
    · intro style level n rest hn hrest
      obtain ⟨n, rfl⟩ : ∃ k, n = k + 1 := ⟨n - 1, by rw [text, List.length_cons] at hn; omega⟩
      have hv := h v List.mem_cons_self
      have hskip := hv.skip (isBlank_gap style (level + 1)) style (level + 1)
        (itemsText style (level + 1) vs ++ (style.gap level ++ ']' :: rest))
      obtain ⟨c, cs, hc, -, hclose⟩ := hv.head style (level + 1)
      have hlength : (text style (level + 1) v).length +
          (itemsText style (level + 1) vs).length + 1 ≤ n := by
        rw [text] at hn
        simp only [List.length_cons, List.length_append] at hn
        omega
      have hread := scanArray_items (fun v hv => h v (List.mem_cons_of_mem _ hv)) hv
        (isBlank_gap style level) [] hlength rest
      rw [text, List.cons_append, scanOnce]
      simp only [List.append_assoc, List.cons_append, List.nil_append, hskip]
      rw [hc, List.cons_append] at hread ⊢
      split
      · rename_i heq
        exact absurd (List.cons.inj heq).1 hclose
      · exact hread

theorem reads_object {items : List (String × Json)} (hnd : (items.map Prod.fst).Nodup)
    (h : ∀ m ∈ items, Reads m.2) : Reads (.object items) := by
  cases items with
  | nil => exact reads_word (fun _ _ => rfl) (by decide) (by decide) fun _ _ _ => rfl
  | cons m ms =>
    obtain ⟨k, v⟩ := m
    have hv : Reads v := h (k, v) List.mem_cons_self
    constructor
    · intro style level
      exact ⟨'\x7b', _, by rw [text], by decide, by decide⟩
    · intro style level n rest hn hrest
      obtain ⟨n, rfl⟩ : ∃ k, n = k + 1 := ⟨n - 1, by rw [text, List.length_cons] at hn; omega⟩
      have hopen (cs : List Char) : Json.skip (style.gap (level + 1) ++ '"' :: cs) = '"' :: cs :=
        skip_append (isBlank_gap style (level + 1)) (by decide)
      have hlength : (text style (level + 1) v).length +
          (entriesText style (level + 1) ms).length + 1 ≤ n := by
        rw [text] at hn
        simp only [List.length_cons, List.length_append] at hn
        omega
      have hread := scanObject_entries (fun m hm => h m (List.mem_cons_of_mem _ hm)) k hv
        (isBlank_gap style level) [] hlength rest
      rw [text, List.cons_append, scanOnce]
      simp only [List.append_assoc, List.cons_append, List.nil_append, hopen]
      rw [hread, Dict.update_of_nodup (by simpa using hnd)]
      rfl

theorem Wellformed.reads {v : Json} (h : Wellformed v) : Reads v := by
  induction h with
  | null => exact reads_word (fun _ _ => rfl) (by decide) (by decide) fun _ _ _ => rfl
  | bool b =>
    cases b with
    | true => exact reads_word (fun _ _ => rfl) (by decide) (by decide) fun _ _ _ => rfl
    | false => exact reads_word (fun _ _ => rfl) (by decide) (by decide) fun _ _ _ => rfl
  | number h => exact reads_number h
  | string s => exact reads_string s
  | array _ ih => exact reads_array ih
  | object hnd _ ih => exact reads_object hnd ih

/-- The reader gives back what was written. -/
theorem loads_dumps {v : Json} (h : Wellformed v) (style : Style) {blanks : List Char}
    (hb : ∀ c ∈ blanks, isBlank c) : loads (dumps style v ++ blanks) = some v := by
  have hv := h.reads
  have hstops : Stops blanks := by
    intro c hc
    rcases isBlank_iff.1 (hb c (List.mem_of_mem_head? hc)) with rfl | rfl | rfl | rfl <;> decide
  have hnil : ∀ c ∈ ([] : List Char), isBlank c := by simp
  have hskip := hv.skip hnil style 0 blanks
  rw [List.nil_append] at hskip
  rw [loads, dumps, hskip, hv.scan style 0 _ blanks (by simp; omega) hstops]
  simp [skip_blanks hb]

end Values

end Yggdrasil.Python.Json
