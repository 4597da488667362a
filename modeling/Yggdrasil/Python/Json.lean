import Mathlib.Data.List.TakeWhile
import Yggdrasil.Library.Dict

/-! `json.loads`, as far as the value it gives for a text; a number is kept as it is written.
The reader is a descent with fuel, of which every character of the text needs one unit. -/

namespace Yggdrasil.Python

inductive Json where
  | null
  | bool (b : Bool)
  | number (literal : String)
  | string (s : String)
  | array (items : List Json)
  | object (items : List (String × Json))

namespace Json

def isBlank (c : Char) : Bool := c = ' ' ∨ c = '\t' ∨ c = '\n' ∨ c = '\r'

def skip (cs : List Char) : List Char := cs.dropWhile isBlank

/-! ### Strings -/

def hexDigit (c : Char) : Option ℕ :=
  if '0' ≤ c ∧ c ≤ '9' then some (c.toNat - 48)
  else if 'a' ≤ c ∧ c ≤ 'f' then some (c.toNat - 87)
  else if 'A' ≤ c ∧ c ≤ 'F' then some (c.toNat - 55)
  else none

def hex4 (a b c d : Char) : Option ℕ := do
  some (((← hexDigit a) * 16 + (← hexDigit b)) * 256 + (← hexDigit c) * 16 + (← hexDigit d))

/-- The characters that a backslash stands before, apart from `u`. -/
def escaped : Char → Option ℕ
  | '"' => some 0x22
  | '\\' => some 0x5c
  | '/' => some 0x2f
  | 'b' => some 0x08
  | 'f' => some 0x0c
  | 'n' => some 0x0a
  | 'r' => some 0x0d
  | 't' => some 0x09
  | _ => none

/-- The code points of a string after its opening quote, and what follows the closing one. -/
def scanString : List Char → Option (List ℕ × List Char)
  | [] => none
  | '"' :: cs => some ([], cs)
  | '\\' :: 'u' :: a :: b :: c :: d :: cs => do
    let u ← hex4 a b c d
    let (us, rest) ← scanString cs
    some (u :: us, rest)
  | '\\' :: c :: cs => do
    let u ← escaped c
    let (us, rest) ← scanString cs
    some (u :: us, rest)
  | c :: cs => do
    if c = '\\' ∨ c.toNat < 0x20 then none
    else
      let (us, rest) ← scanString cs
      some (c.toNat :: us, rest)

def charOf (u : ℕ) : Char := if 0xd800 ≤ u ∧ u ≤ 0xdfff then Char.ofNat 0xfffd else Char.ofNat u

/-- Two escaped surrogates are one character; a surrogate alone, which no `Char` is, becomes the
replacement character. -/
def join : List ℕ → List Char
  | u :: v :: us =>
    if 0xd800 ≤ u ∧ u ≤ 0xdbff ∧ 0xdc00 ≤ v ∧ v ≤ 0xdfff then
      Char.ofNat (0x10000 + (u - 0xd800) * 0x400 + (v - 0xdc00)) :: join us
    else charOf u :: join (v :: us)
  | [u] => [charOf u]
  | [] => []

/-! ### Numbers -/

/-- Read a character with the digits after it, if there are any. -/
def digitsAfter (c : Char) (cs : List Char) : List Char × List Char :=
  if (cs.takeWhile Char.isDigit).isEmpty then ([], c :: cs)
  else (c :: cs.takeWhile Char.isDigit, cs.dropWhile Char.isDigit)

def scanInteger : List Char → Option (List Char × List Char)
  | '0' :: cs => some (['0'], cs)
  | cs =>
    if (cs.takeWhile Char.isDigit).isEmpty then none
    else some (cs.takeWhile Char.isDigit, cs.dropWhile Char.isDigit)

def scanFraction : List Char → List Char × List Char
  | '.' :: cs => digitsAfter '.' cs
  | cs => ([], cs)

def scanExponent : List Char → List Char × List Char
  | e :: cs =>
    if e = 'e' ∨ e = 'E' then
      match cs with
      | s :: ds =>
        if s = '+' ∨ s = '-' then
          let (w, rest) := digitsAfter s ds
          if w.isEmpty then ([], e :: cs) else (e :: w, rest)
        else digitsAfter e cs
      | [] => ([], [e])
    else ([], e :: cs)
  | [] => ([], [])

def scanUnsigned (cs : List Char) : Option (List Char × List Char) := do
  let (i, cs) ← scanInteger cs
  let (f, cs) := scanFraction cs
  let (e, cs) := scanExponent cs
  some (i ++ f ++ e, cs)

def scanNumber : List Char → Option (List Char × List Char)
  | '-' :: cs => do
    let (w, rest) ← scanUnsigned cs
    some ('-' :: w, rest)
  | cs => scanUnsigned cs

/-! ### Values -/

mutual

def scanOnce : ℕ → List Char → Option (Json × List Char)
  | 0, _ => none
  | n + 1, cs =>
    match cs with
    | '"' :: cs => (scanString cs).map fun p => (.string (String.ofList (join p.1)), p.2)
    | '{' :: cs =>
      match skip cs with
      | '}' :: cs => some (.object [], cs)
      | '"' :: cs => scanObject n [] cs
      | _ => none
    | '[' :: cs =>
      match skip cs with
      | ']' :: cs => some (.array [], cs)
      | cs => scanArray n [] cs
    | 'n' :: 'u' :: 'l' :: 'l' :: cs => some (.null, cs)
    | 't' :: 'r' :: 'u' :: 'e' :: cs => some (.bool true, cs)
    | 'f' :: 'a' :: 'l' :: 's' :: 'e' :: cs => some (.bool false, cs)
    | 'N' :: 'a' :: 'N' :: cs => some (.number "NaN", cs)
    | 'I' :: 'n' :: 'f' :: 'i' :: 'n' :: 'i' :: 't' :: 'y' :: cs => some (.number "Infinity", cs)
    | '-' :: 'I' :: 'n' :: 'f' :: 'i' :: 'n' :: 'i' :: 't' :: 'y' :: cs =>
      some (.number "-Infinity", cs)
    | cs => (scanNumber cs).map fun p => (.number (String.ofList p.1), p.2)

/-- The members from the first character of a key on. -/
def scanObject : ℕ → List (String × Json) → List Char → Option (Json × List Char)
  | 0, _, _ => none
  | n + 1, done, cs => do
    let (key, cs) ← scanString cs
    match skip cs with
    | ':' :: cs =>
      let (v, cs) ← scanOnce n (skip cs)
      let done := Dict.set done (String.ofList (join key)) v
      match skip cs with
      | '}' :: cs => some (.object done, cs)
      | ',' :: cs =>
        match skip cs with
        | '"' :: cs => scanObject n done cs
        | _ => none
      | _ => none
    | _ => none

def scanArray : ℕ → List Json → List Char → Option (Json × List Char)
  | 0, _, _ => none
  | n + 1, done, cs => do
    let (v, cs) ← scanOnce n cs
    match skip cs with
    | ']' :: cs => some (.array (done ++ [v]), cs)
    | ',' :: cs => scanArray n (done ++ [v]) (skip cs)
    | _ => none

end

/-- `json.loads`. -/
def loads (cs : List Char) : Option Json :=
  match scanOnce (cs.length + 1) (skip cs) with
  | some (v, rest) => if (skip rest).isEmpty then some v else none
  | none => none

/-! ### Texts that are read -/

section Texts

variable {c : Char} {cs rest blanks : List Char}

theorem isBlank_iff : isBlank c = true ↔ c = ' ' ∨ c = '\t' ∨ c = '\n' ∨ c = '\r' := by
  simp [isBlank]

theorem skip_append (hb : ∀ c ∈ blanks, isBlank c) (hc : isBlank c = false) :
    skip (blanks ++ c :: rest) = c :: rest := by
  induction blanks with
  | nil => simp [skip, hc]
  | cons b blanks ih =>
    have hskip : skip (b :: (blanks ++ c :: rest)) = skip (blanks ++ c :: rest) := by
      simp [skip, hb b List.mem_cons_self]
    rw [List.cons_append, hskip]
    exact ih fun c hc => hb c (List.mem_cons_of_mem _ hc)

theorem skip_blanks (hb : ∀ c ∈ blanks, isBlank c) : skip blanks = [] :=
  List.dropWhile_eq_nil_iff.2 hb

/-- A character that stands for itself in a string. -/
def isPlain (c : Char) : Bool := c ≠ '"' ∧ c ≠ '\\' ∧ 0x20 ≤ c.toNat

theorem scanString_plain {name : List Char} (h : ∀ c ∈ name, isPlain c) :
    scanString (name ++ '"' :: rest) = some (name.map Char.toNat, rest) := by
  induction name with
  | nil => rfl
  | cons c name ih =>
    have hc : c ≠ '"' ∧ c ≠ '\\' ∧ 0x20 ≤ c.toNat := by simpa [isPlain] using h c List.mem_cons_self
    have hih := ih fun c hc => h c (List.mem_cons_of_mem _ hc)
    rw [List.cons_append, scanString.eq_def]
    split
    · simp_all
    · simp_all
    · simp_all
    · simp_all
    · rename_i d ds _ _ _ heq
      obtain ⟨rfl, rfl⟩ := List.cons.inj heq
      have hnot : ¬(c = '\\' ∨ c.toNat < 0x20) := by
        rintro (h | h)
        · exact hc.2.1 h
        · exact absurd h (by omega)
      simp [hnot, hih]

theorem charOf_toNat (c : Char) : charOf c.toNat = c := by
  have hvalid := c.valid
  have hnot : ¬(0xd800 ≤ c.toNat ∧ c.toNat ≤ 0xdfff) := by
    rcases hvalid with h | h
    · exact fun h' => absurd h'.1 (Nat.not_le.2 h)
    · exact fun h' => absurd h.1 (Nat.not_lt.2 h'.2)
  rw [charOf, if_neg hnot, Char.ofNat_toNat]

theorem join_map (name : List Char) : join (name.map Char.toNat) = name := by
  induction name with
  | nil => rfl
  | cons c name ih =>
    cases name with
    | nil => simp [join, charOf_toNat]
    | cons d name =>
      have hnot : ¬(0xd800 ≤ c.toNat ∧ c.toNat ≤ 0xdbff ∧ 0xdc00 ≤ d.toNat ∧ d.toNat ≤ 0xdfff) := by
        rintro ⟨h₁, h₂, -⟩
        rcases c.valid with h | h
        · exact absurd h₁ (Nat.not_le.2 h)
        · have hlt : 0xdfff < c.toNat := h.1
          omega
      rw [List.map_cons, List.map_cons, join, if_neg hnot, charOf_toNat, ← List.map_cons, ih]

/-- What follows a number does not go on with it. -/
def Stops (rest : List Char) : Prop :=
  ∀ c ∈ rest.head?, c.isDigit = false ∧ c ≠ '.' ∧ c ≠ 'e' ∧ c ≠ 'E'

/-- A number as it is written. -/
structure Numeral (literal : List Char) : Prop where
  head : ∃ c cs, literal = c :: cs ∧ isBlank c = false
  scan : ∀ (n : ℕ) (rest : List Char), Stops rest →
    scanOnce (n + 1) (literal ++ rest) = some (.number (String.ofList literal), rest)

theorem scanFraction_of_stops (h : Stops rest) : scanFraction rest = ([], rest) := by
  cases rest with
  | nil => rfl
  | cons c rest =>
    rw [scanFraction.eq_def]
    split
    · rename_i heq
      obtain ⟨rfl, rfl⟩ := List.cons.inj heq
      exact absurd rfl (h '.' rfl).2.1
    · rfl

theorem scanExponent_of_stops (h : Stops rest) : scanExponent rest = ([], rest) := by
  cases rest with
  | nil => rfl
  | cons c rest =>
    have hc := h c rfl
    have hnot : ¬(c = 'e' ∨ c = 'E') := by
      rintro (he | he)
      · exact hc.2.2.1 he
      · exact hc.2.2.2 he
    simp only [scanExponent, if_neg hnot]

theorem takeWhile_digits {ds : List Char} (hd : ∀ c ∈ ds, c.isDigit = true) (h : Stops rest) :
    (ds ++ rest).takeWhile Char.isDigit = ds ∧ (ds ++ rest).dropWhile Char.isDigit = rest := by
  induction ds with
  | nil =>
    cases rest with
    | nil => exact ⟨rfl, rfl⟩
    | cons c rest => simp [(h c rfl).1]
  | cons d ds ih =>
    have hih := ih fun c hc => hd c (List.mem_cons_of_mem _ hc)
    simp [hd d List.mem_cons_self, hih]

/-- Digits are a number if they are `0` alone or do not begin with it. -/
theorem scanUnsigned_digits {d : Char} {ds : List Char} (hd : ∀ c ∈ d :: ds, c.isDigit = true)
    (hzero : d = '0' → ds = []) (h : Stops rest) :
    scanUnsigned (d :: ds ++ rest) = some (d :: ds, rest) := by
  have hint : scanInteger (d :: ds ++ rest) = some (d :: ds, rest) := by
    by_cases h0 : d = '0'
    · rw [h0, hzero h0]
      rfl
    · obtain ⟨htake, hdrop⟩ := takeWhile_digits hd h
      rw [List.cons_append] at htake hdrop ⊢
      rw [scanInteger.eq_def]
      split
      · rename_i heq
        exact absurd (List.cons.inj heq).1 h0
      · rw [htake, hdrop]
        rfl
  simp only [scanUnsigned, hint, Option.bind_eq_bind, Option.bind_some, scanFraction_of_stops h,
    scanExponent_of_stops h, List.append_nil]

theorem scanOnce_number {d : Char} {p : List Char × List Char} (n : ℕ) (hd : d.isDigit = true)
    (h : scanUnsigned (d :: cs) = some p) :
    scanOnce (n + 1) (d :: cs) = some (.number (String.ofList p.1), p.2) ∧
      scanOnce (n + 1) ('-' :: d :: cs) = some (.number (String.ofList ('-' :: p.1)), p.2) := by
  constructor
  · have hnumber : scanNumber (d :: cs) = some p := by
      rw [scanNumber.eq_def]
      split
      · rename_i heq
        obtain ⟨rfl, -⟩ := List.cons.inj heq
        exact absurd hd (by decide)
      · exact h
    rw [scanOnce.eq_def]
    dsimp only
    split
    all_goals try
      rename_i heq
      obtain ⟨rfl, -⟩ := List.cons.inj heq
      exact absurd hd (by decide)
    rw [hnumber]
    rfl
  · have hnumber : scanNumber ('-' :: d :: cs) = some ('-' :: p.1, p.2) := by
      simp [scanNumber, h]
    rw [scanOnce.eq_def]
    dsimp only
    split
    all_goals try
      rename_i heq
      simp only [List.cons.injEq] at heq
      obtain ⟨-, rfl, -⟩ := heq
      exact absurd hd (by decide)
    all_goals try
      rename_i heq
      exact absurd (List.cons.inj heq).1 (by decide)
    rw [hnumber]
    rfl

theorem numeral_digits {d : Char} {ds : List Char} (hd : ∀ c ∈ d :: ds, c.isDigit = true)
    (hzero : d = '0' → ds = []) : Numeral (d :: ds) ∧ Numeral ('-' :: d :: ds) := by
  have hdigit := hd d List.mem_cons_self
  have hblank : isBlank d = false := by
    refine Bool.eq_false_iff.2 fun h => ?_
    rcases isBlank_iff.1 h with rfl | rfl | rfl | rfl <;> exact absurd hdigit (by decide)
  constructor
  · exact ⟨⟨d, ds, rfl, hblank⟩, fun n rest h =>
      (scanOnce_number n hdigit (scanUnsigned_digits hd hzero h)).1⟩
  · exact ⟨⟨'-', d :: ds, rfl, by decide⟩, fun n rest h =>
      (scanOnce_number n hdigit (scanUnsigned_digits hd hzero h)).2⟩

/-- The digits of a number do not begin with a zero. -/
theorem toDigits_head (n : ℕ) : ∃ d ds, Nat.toDigits 10 n = d :: ds ∧ (d = '0' → ds = []) := by
  induction n using Nat.strong_induction_on with
  | h n ih =>
    by_cases hn : n < 10
    · exact ⟨_, _, Nat.toDigits_of_lt_base hn, fun _ => rfl⟩
    · obtain ⟨d, ds, hds, hzero⟩ := ih (n / 10) (by omega)
      refine ⟨d, ds ++ [Nat.digitChar (n % 10)], ?_, fun hd => ?_⟩
      · rw [Nat.toDigits_of_base_le (by decide) (by omega), hds, List.cons_append]
      · have hpos : n / 10 ≠ 0 := by omega
        rw [hd, hzero hd] at hds
        have hvalue := Nat.ofDigitChars_ten_toDigits (n := n / 10)
        rw [hds] at hvalue
        exact absurd hvalue.symm hpos

theorem numeral_toString (i : ℤ) : Numeral (toString i).toList := by
  have hnat (n : ℕ) : Numeral n.repr.toList ∧ Numeral ('-' :: n.repr.toList) := by
    obtain ⟨d, ds, hds, hzero⟩ := toDigits_head n
    rw [Nat.toList_repr, hds]
    refine numeral_digits (fun c hc => ?_) hzero
    rw [← hds] at hc
    exact Nat.isDigit_of_mem_toDigits (by decide) (by decide) hc
  cases i with
  | ofNat n => exact (hnat n).1
  | negSucc n =>
    have htext : (toString (Int.negSucc n)).toList = '-' :: (n + 1).repr.toList := by
      simp [toString, Int.repr]
    rw [htext]
    exact (hnat (n + 1)).2

theorem numeral_fraction {ds : List Char} (hne : ds ≠ []) (hd : ∀ c ∈ ds, c.isDigit = true) :
    Numeral ('0' :: '.' :: ds) := by
  refine ⟨⟨'0', '.' :: ds, rfl, by decide⟩, fun n rest h => ?_⟩
  obtain ⟨htake, hdrop⟩ := takeWhile_digits hd h
  have hfraction : scanFraction ('.' :: ds ++ rest) = ('.' :: ds, rest) := by
    rw [List.cons_append, scanFraction, digitsAfter, htake, hdrop, if_neg (by simpa using hne)]
  have hunsigned : scanUnsigned ('0' :: ('.' :: ds ++ rest)) = some ('0' :: '.' :: ds, rest) := by
    simp only [scanUnsigned, scanInteger, Option.bind_eq_bind, Option.bind_some, hfraction,
      scanExponent_of_stops h]
    simp
  exact (scanOnce_number n (by decide) hunsigned).1

/-- A member of an object as the scripts write it. -/
def memberText (m : String × String) : List Char :=
  '"' :: m.1.toList ++ '"' :: ' ' :: ':' :: ' ' :: m.2.toList

/-- Members with a comma and blanks between them. -/
def membersText (blanks : List Char) : List (String × String) → List Char
  | [] => []
  | [m] => memberText m
  | m :: ms => memberText m ++ ',' :: blanks ++ membersText blanks ms

def Readable (m : String × String) : Prop := (∀ c ∈ m.1.toList, isPlain c) ∧ Numeral m.2.toList

/-- The dictionary of the members, of which the last one counts for a key. -/
def dictOf (ms : List (String × String)) : List (String × Json) :=
  Dict.update [] (ms.map fun m => (m.1, .number m.2))

theorem stops_append (hb : ∀ c ∈ blanks, isBlank c) (hc : c = ',' ∨ c = '}') :
    Stops (blanks ++ c :: rest) := by
  intro d hd
  cases blanks with
  | nil =>
    obtain rfl : c = d := by simpa using hd
    rcases hc with rfl | rfl <;> decide
  | cons b blanks =>
    obtain rfl : b = d := by simpa using hd
    rcases isBlank_iff.1 (hb b List.mem_cons_self) with rfl | rfl | rfl | rfl <;> decide

/-- Reading one member, and what comes after it. -/
theorem scanObject_member {m : String × String} (hm : Readable m) {tail : List Char}
    (ht : Stops tail) (n : ℕ) (done : List (String × Json)) :
    scanObject (n + 2) done (m.1.toList ++ '"' :: ' ' :: ':' :: ' ' :: m.2.toList ++ tail) =
      match skip tail with
      | '}' :: cs => some (.object (Dict.set done m.1 (.number m.2)), cs)
      | ',' :: cs =>
        match skip cs with
        | '"' :: cs => scanObject (n + 1) (Dict.set done m.1 (.number m.2)) cs
        | _ => none
      | _ => none := by
  obtain ⟨hplain, hnumeral⟩ := hm
  have hkey : scanString (m.1.toList ++ '"' :: ' ' :: ':' :: ' ' :: m.2.toList ++ tail) =
      some (m.1.toList.map Char.toNat, ' ' :: ':' :: ' ' :: m.2.toList ++ tail) := by
    rw [List.append_assoc]
    exact scanString_plain hplain
  have hcolon : skip (' ' :: ':' :: ' ' :: m.2.toList ++ tail) = ':' :: ' ' :: m.2.toList ++ tail :=
    rfl
  have hvalue : skip (' ' :: m.2.toList ++ tail) = m.2.toList ++ tail := by
    obtain ⟨c, cs, hc, hblank⟩ := hnumeral.head
    have hspace : ∀ c ∈ [' '], isBlank c := List.all_eq_true.1 rfl
    rw [hc]
    exact skip_append hspace hblank
  rw [scanObject, hkey]
  simp only [Option.bind_eq_bind, Option.bind_some]
  rw [hcolon]
  simp only [List.cons_append]
  rw [← List.cons_append, hvalue, hnumeral.scan n tail ht]
  simp only [Option.bind_some, join_map, String.ofList_toList]

/-- Reading the members of an object, from the first character of a key on. -/
theorem scanObject_members {sep : List Char} (hs : ∀ c ∈ sep, isBlank c)
    (hb : ∀ c ∈ blanks, isBlank c) {ms : List (String × String)} (hms : ∀ m ∈ ms, Readable m) :
    ∀ (n : ℕ) (done : List (String × Json)) (cs : List Char), ms.length < n →
      membersText sep ms ++ blanks ++ '}' :: rest = '"' :: cs →
      scanObject n done cs =
        some (.object (Dict.update done (ms.map fun m => (m.1, .number m.2))), rest) := by
  induction ms with
  | nil =>
    intro n done cs _ hcs
    cases blanks with
    | nil => cases hcs
    | cons b blanks =>
      obtain ⟨rfl, -⟩ := List.cons.inj hcs
      exact absurd (hb '"' List.mem_cons_self) (by decide)
  | cons m ms ih =>
    intro n done cs hn hcs
    have hm := hms m List.mem_cons_self
    have hms' : ∀ m ∈ ms, Readable m := fun m hm => hms m (List.mem_cons_of_mem _ hm)
    rw [List.length_cons] at hn
    obtain ⟨n, rfl⟩ : ∃ k, n = k + 2 := ⟨n - 2, by omega⟩
    cases ms with
    | nil =>
      have hclose : skip (blanks ++ '}' :: rest) = '}' :: rest := skip_append hb (by decide)
      have htext : cs = m.1.toList ++ '"' :: ' ' :: ':' :: ' ' :: m.2.toList ++
          (blanks ++ '}' :: rest) := by
        simpa [membersText, memberText] using (List.cons.inj hcs).2.symm
      rw [htext, scanObject_member hm (stops_append hb (.inr rfl)), hclose]
      rfl
    | cons m' ms =>
      have hquote : ∃ cs', membersText sep (m' :: ms) ++ blanks ++ '}' :: rest = '"' :: cs' := by
        cases ms <;> exact ⟨_, rfl⟩
      obtain ⟨cs', hcs'⟩ := hquote
      have hnext : skip (sep ++ '"' :: cs') = '"' :: cs' := skip_append hs (by decide)
      have htext : cs = m.1.toList ++ '"' :: ' ' :: ':' :: ' ' :: m.2.toList ++
          ',' :: (sep ++ '"' :: cs') := by
        rw [← hcs']
        simpa [membersText, memberText] using (List.cons.inj hcs).2.symm
      have hnil : ∀ c ∈ ([] : List Char), isBlank c := by simp
      have hcomma : Stops (',' :: (sep ++ '"' :: cs')) := stops_append hnil (.inl rfl)
      have hskip : skip (',' :: (sep ++ '"' :: cs')) = ',' :: (sep ++ '"' :: cs') := rfl
      rw [htext, scanObject_member hm hcomma, hskip]
      simp only [hnext]
      exact ih hms' (n + 1) _ cs' (by omega) hcs'

theorem length_membersText (sep : List Char) (ms : List (String × String)) :
    ms.length ≤ (membersText sep ms).length := by
  induction ms with
  | nil => exact le_rfl
  | cons m ms ih =>
    cases ms with
    | nil => simp [membersText, memberText]
    | cons m' ms =>
      simp only [membersText, memberText, List.length_append, List.length_cons] at ih ⊢
      omega

/-- The text of an object with members is read as the dictionary of its members. -/
theorem loads_object {first sep : List Char} (hf : ∀ c ∈ first, isBlank c)
    (hs : ∀ c ∈ sep, isBlank c) (hb : ∀ c ∈ blanks, isBlank c) (hr : ∀ c ∈ rest, isBlank c)
    {ms : List (String × String)} (hne : ms ≠ []) (hms : ∀ m ∈ ms, Readable m) :
    loads ('{' :: first ++ (membersText sep ms ++ blanks ++ '}' :: rest)) =
      some (.object (dictOf ms)) := by
  have hquote : ∃ cs, membersText sep ms ++ blanks ++ '}' :: rest = '"' :: cs := by
    rcases ms with _ | ⟨m, _ | ⟨m', ms⟩⟩
    · exact absurd rfl hne
    · exact ⟨_, rfl⟩
    · exact ⟨_, rfl⟩
  obtain ⟨cs, hcs⟩ := hquote
  have hopen : skip (first ++ '"' :: cs) = '"' :: cs := skip_append hf (by decide)
  have hlength : ms.length < ('{' :: first ++ '"' :: cs).length := by
    have hle := length_membersText sep ms
    rw [← hcs]
    simp only [List.length_append, List.length_cons]
    omega
  have hread := scanObject_members hs hb hms _ [] cs hlength hcs
  have hstart : skip ('{' :: first ++ '"' :: cs) = '{' :: (first ++ '"' :: cs) := rfl
  rw [hcs, loads, hstart, scanOnce]
  simp only [hopen, hread, skip_blanks hr, List.isEmpty_nil, if_true]
  rfl

end Texts

end Json

end Yggdrasil.Python
