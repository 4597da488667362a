import Yggdrasil.Python.Value

/-! Literals of lists of strings: what `ast.literal_eval` reads of them, and that it reads back what
`repr` writes. A literal of another kind, and an escape that `repr` does not write, is `none`. -/

namespace Yggdrasil.Python.Literal

/-! ### Reading -/

section Reading

def hexDigit (c : Char) : Option ℕ := "0123456789abcdef".toList.idxOf? c

def hexPair (a b : Char) : Option Char :=
  (hexDigit a).bind fun m => (hexDigit b).map fun n => Char.ofNat (16 * m + n)

/-- The character that a letter stands for after a backslash. -/
def escaped (c : Char) : Option Char :=
  if c = 'n' then some '\n'
  else if c = 'r' then some '\r'
  else if c = 't' then some '\t'
  else if c = '\\' ∨ c = '\'' ∨ c = '"' then some c
  else none

/-- Where a string is read: outside of an escape, after a backslash, and within a pair of digits. -/
inductive Mode where
  | plain
  | escape
  | hex
  | low (high : Char)

/-- The characters of a string up to its closing quote, and the text after it. -/
def scanString (quote : Char) : Mode → List Char → Option (List Char × List Char)
  | _, [] => none
  | .plain, c :: cs =>
    if c = quote then some ([], cs)
    else if c = '\n' then none
    else if c = '\\' then scanString quote .escape cs
    else (scanString quote .plain cs).map fun x => (c :: x.1, x.2)
  | .escape, c :: cs =>
    if c = 'x' then scanString quote .hex cs
    else (escaped c).bind fun d => (scanString quote .plain cs).map fun x => (d :: x.1, x.2)
  | .hex, c :: cs => scanString quote (.low c) cs
  | .low high, c :: cs =>
    (hexPair high c).bind fun d => (scanString quote .plain cs).map fun x => (d :: x.1, x.2)

def skipBlanks (cs : List Char) : List Char := cs.dropWhile (· = ' ')

/-- The strings up to the closing bracket, and the text after it. -/
def scanItems : ℕ → List Char → Option (List String × List Char)
  | 0, _ => none
  | _ + 1, [] => none
  | n + 1, c :: cs =>
    if c = ']' then some ([], cs)
    else if c = '\'' ∨ c = '"' then
      (scanString c .plain cs).bind fun x =>
        match skipBlanks x.2 with
        | [] => none
        | e :: rest =>
          if e = ',' then (scanItems n (skipBlanks rest)).map fun y => (String.ofList x.1 :: y.1, y.2)
          else if e = ']' then some ([String.ofList x.1], rest)
          else none
    else none

def literalEval (t : List Char) : Option Value :=
  match skipBlanks t with
  | [] => none
  | c :: cs =>
    if c = '[' then
      (scanItems (cs.length + 1) (skipBlanks cs)).bind fun x =>
        if skipBlanks x.2 = [] then some (.list (x.1.map .str)) else none
    else none

end Reading

/-! ### Reading back -/

section RoundTrip

variable {quote : Char} {r : List Char}

theorem hexDigit_digitChar : ∀ n < 16, hexDigit (Nat.digitChar n) = some n := by decide +kernel

theorem hexPair_hex2 {c : Char} (h : c.toNat < 256) :
    hexPair (Nat.digitChar (c.toNat / 16)) (Nat.digitChar (c.toNat % 16)) = some c := by
  rw [hexPair, hexDigit_digitChar _ (by omega), hexDigit_digitChar _ (by omega)]
  have hnat : 16 * (c.toNat / 16) + c.toNat % 16 = c.toNat := by omega
  simp [hnat]

theorem lt_of_not_isPrintable {c : Char} (h : isPrintable c = false) : c.toNat < 256 := by
  simp only [isPrintable, Bool.or_eq_false_iff, Bool.and_eq_false_iff, decide_eq_false_iff_not,
    bne_eq_false_iff_eq] at h
  omega

/-- One character as `repr` writes it. -/
theorem scanString_reprChar (hquote : quote = '\'' ∨ quote = '"') (c : Char) (r : List Char) :
    scanString quote .plain (reprChar quote c ++ r) =
      (scanString quote .plain r).map fun x => (c :: x.1, x.2) := by
  have hslash : '\\' ≠ quote := by rcases hquote with rfl | rfl <;> decide
  have hopen (l : List Char) : scanString quote .plain ('\\' :: l) = scanString quote .escape l := by
    rw [scanString, if_neg hslash, if_neg (by decide), if_pos rfl]
  unfold reprChar
  split_ifs with h₁ h₂ h₃ h₄ h₅
  · have hx : c ≠ 'x' := by
      rintro rfl
      rcases h₁ with h | h
      · rcases hquote with rfl | rfl <;> cases h
      · cases h
    have hself : escaped c = some c := by
      rcases h₁ with rfl | rfl
      · rcases hquote with rfl | rfl <;> rfl
      · rfl
    rw [List.cons_append, hopen, List.cons_append, List.nil_append, scanString, if_neg hx, hself,
      Option.bind_some]
  · rw [List.cons_append, hopen, h₂]
    rfl
  · rw [List.cons_append, hopen, h₃]
    rfl
  · rw [List.cons_append, hopen, h₄]
    rfl
  · rw [not_or] at h₁
    rw [List.cons_append, List.nil_append, scanString, if_neg h₁.1, if_neg h₂, if_neg h₁.2]
  · have hsmall := lt_of_not_isPrintable ((Bool.not_eq_true _).mp h₅)
    rw [List.cons_append, hopen, List.cons_append, scanString, if_pos rfl, hex2, List.cons_append,
      scanString, List.cons_append, List.nil_append, scanString, hexPair_hex2 hsmall,
      Option.bind_some]

theorem scanString_repr (hquote : quote = '\'' ∨ quote = '"') (cs r : List Char) :
    scanString quote .plain (cs.flatMap (reprChar quote) ++ quote :: r) = some (cs, r) := by
  induction cs with
  | nil => rw [List.flatMap_nil, List.nil_append, scanString, if_pos rfl]
  | cons c cs ih =>
    rw [List.flatMap_cons, List.append_assoc, scanString_reprChar hquote, ih, Option.map_some]

theorem exists_reprStr (s : String) : ∃ quote, (quote = '\'' ∨ quote = '"') ∧
    (reprStr s).toList = quote :: (s.toList.flatMap (reprChar quote) ++ [quote]) := by
  refine ⟨_, ?_, by rw [reprStr, String.toList_ofList]; rfl⟩
  split_ifs
  · exact .inr rfl
  · exact .inl rfl

theorem scanItems_string (hquote : quote = '\'' ∨ quote = '"') (n : ℕ) (cs z : List Char) :
    scanItems (n + 1) (quote :: (cs.flatMap (reprChar quote) ++ quote :: z)) =
      match skipBlanks z with
      | [] => none
      | e :: rest =>
        if e = ',' then (scanItems n (skipBlanks rest)).map fun y => (String.ofList cs :: y.1, y.2)
        else if e = ']' then some ([String.ofList cs], rest)
        else none := by
  have hbracket : quote ≠ ']' := by rcases hquote with rfl | rfl <;> decide
  rw [scanItems, if_neg hbracket, if_pos hquote, scanString_repr hquote, Option.bind_some]

theorem skipBlanks_of_ne {c : Char} (h : c ≠ ' ') (cs : List Char) :
    skipBlanks (c :: cs) = c :: cs := List.dropWhile_cons_of_neg (by simpa using h)

theorem skipBlanks_blank (cs : List Char) : skipBlanks (' ' :: cs) = skipBlanks cs :=
  List.dropWhile_cons_of_pos rfl

/-- The text of the items starts with a quote. -/
theorem head?_intercalate (s : String) (l : List String) : ∃ quote, (quote = '\'' ∨ quote = '"') ∧
    (", ".intercalate ((s :: l).map reprStr)).toList.head? = some quote := by
  obtain ⟨quote, hquote, hrepr⟩ := exists_reprStr s
  refine ⟨quote, hquote, ?_⟩
  cases l with
  | nil => rw [List.map_singleton, String.intercalate_singleton, hrepr, List.head?_cons]
  | cons t l =>
    rw [List.map_cons, List.map_cons, String.intercalate_cons_cons, String.toList_append,
      String.toList_append, hrepr, List.cons_append, List.cons_append, List.head?_cons]

theorem skipBlanks_items (l : List String) (r : List Char) :
    skipBlanks ((", ".intercalate (l.map reprStr)).toList ++ ']' :: r) =
      (", ".intercalate (l.map reprStr)).toList ++ ']' :: r := by
  cases l with
  | nil => rfl
  | cons s l =>
    obtain ⟨quote, hquote, hhead⟩ := head?_intercalate s l
    obtain ⟨z, hz⟩ := List.head?_eq_some_iff.1 hhead
    rw [hz, List.cons_append, skipBlanks_of_ne]
    rcases hquote with rfl | rfl <;> decide

/-- The text of the items, with the bracket after them. -/
theorem scanItems_repr (l : List String) (r : List Char) :
    ∀ n, l.length < n → scanItems n ((", ".intercalate (l.map reprStr)).toList ++ ']' :: r) =
      some (l, r) := by
  induction l with
  | nil =>
    rintro n hn
    obtain ⟨n, rfl⟩ := Nat.exists_eq_succ_of_ne_zero (Nat.ne_of_gt hn)
    rfl
  | cons s l ih =>
    rintro n hn
    obtain ⟨n, rfl⟩ := Nat.exists_eq_succ_of_ne_zero (Nat.ne_of_gt (Nat.zero_lt_of_lt hn))
    obtain ⟨quote, hquote, hrepr⟩ := exists_reprStr s
    cases l with
    | nil =>
      rw [List.map_singleton, String.intercalate_singleton, hrepr, List.cons_append,
        List.append_assoc, List.singleton_append, scanItems_string hquote,
        skipBlanks_of_ne (by decide)]
      simp
    | cons t l =>
      have hcomma : ", ".toList = [',', ' '] := by simp
      have hrec := ih n (Nat.lt_of_succ_lt_succ hn)
      have hskip := skipBlanks_items (t :: l) r
      rw [List.map_cons, List.map_cons, String.intercalate_cons_cons, ← List.map_cons,
        String.toList_append, String.toList_append, hrepr, hcomma]
      generalize (", ".intercalate ((t :: l).map reprStr)).toList = z at hrec hskip
      have hshape : quote :: (s.toList.flatMap (reprChar quote) ++ [quote]) ++ [',', ' '] ++
          z ++ ']' :: r = quote :: (s.toList.flatMap (reprChar quote) ++
            quote :: (',' :: ' ' :: (z ++ ']' :: r))) := by simp
      rw [hshape, scanItems_string hquote, skipBlanks_of_ne (by decide)]
      dsimp only
      rw [if_pos rfl, skipBlanks_blank, hskip, hrec, Option.map_some, String.ofList_toList]

theorem reprItems_map (l : List String) : Value.reprItems (l.map .str) = l.map reprStr := by
  induction l with
  | nil => rfl
  | cons s l ih =>
    rw [List.map_cons, Value.reprItems, ih]
    rfl

theorem repr_list (l : List String) : (Value.list (l.map .str)).repr.toList =
    '[' :: ((", ".intercalate (l.map reprStr)).toList ++ [']']) := by
  have hopen : "[".toList = ['['] := by simp
  have hclose : "]".toList = [']'] := by simp
  rw [Value.repr, reprItems_map, Value.seqText, String.toList_append, String.toList_append, hopen,
    hclose]
  rfl

theorem length_le_intercalate (l : List String) :
    l.length ≤ (", ".intercalate (l.map reprStr)).toList.length := by
  induction l with
  | nil => exact Nat.zero_le _
  | cons s l ih =>
    obtain ⟨quote, -, hrepr⟩ := exists_reprStr s
    have hpos : 1 ≤ (reprStr s).toList.length := by rw [hrepr]; simp
    cases l with
    | nil => rwa [List.map_singleton, String.intercalate_singleton]
    | cons t l =>
      rw [List.map_cons, List.map_cons, String.intercalate_cons_cons, ← List.map_cons,
        String.toList_append, String.toList_append, List.length_append, List.length_append,
        List.length_cons]
      omega

/-- What `repr` writes for a list of strings is read back. -/
theorem literalEval_repr (l : List String) :
    literalEval (Value.list (l.map .str)).repr.toList = some (.list (l.map .str)) := by
  rw [repr_list, literalEval, skipBlanks_of_ne (by decide)]
  dsimp only
  have hlength := length_le_intercalate l
  rw [if_pos rfl, skipBlanks_items l [], scanItems_repr l [] _ (by
    rw [List.length_append]
    omega), Option.bind_some]
  rfl

end RoundTrip

end Yggdrasil.Python.Literal
