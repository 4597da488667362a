import Yggdrasil.Python.Value

/-! `int` of a Python value. Text may use any decimal digits of Unicode, with single
underscores between them; a float is cut off at its decimal point. -/

namespace Yggdrasil.Python

inductive NumberError
  | type
  | value
  | overflow
  deriving DecidableEq

/-- The zero of every run of ten decimal digits. -/
def decimalZeros : List ℕ :=
  [0x30, 0x660, 0x6f0, 0x7c0, 0x966, 0x9e6, 0xa66, 0xae6, 0xb66, 0xbe6, 0xc66, 0xce6, 0xd66, 0xde6,
   0xe50, 0xed0, 0xf20, 0x1040, 0x1090, 0x17e0, 0x1810, 0x1946, 0x19d0, 0x1a80, 0x1a90, 0x1b50,
   0x1bb0, 0x1c40, 0x1c50, 0xa620, 0xa8d0, 0xa900, 0xa9d0, 0xa9f0, 0xaa50, 0xabf0, 0xff10, 0x104a0,
   0x10d30, 0x11066, 0x110f0, 0x11136, 0x111d0, 0x112f0, 0x11450, 0x114d0, 0x11650, 0x116c0, 0x11730,
   0x118e0, 0x11950, 0x11c50, 0x11d50, 0x11da0, 0x16a60, 0x16ac0, 0x16b50, 0x1d7ce, 0x1d7d8, 0x1d7e2,
   0x1d7ec, 0x1d7f6, 0x1e140, 0x1e2f0, 0x1e950, 0x1fbf0]

def digitValue (c : Char) : Option ℕ :=
  (decimalZeros.find? fun z => z ≤ c.toNat ∧ c.toNat < z + 10).map (c.toNat - ·)

/-- The rest of a number whose digits so far are worth `acc`. -/
def digitsFrom (acc : ℕ) : List Char → Option ℕ
  | [] => some acc
  | '_' :: c :: cs => (digitValue c).bind fun d => digitsFrom (10 * acc + d) cs
  | c :: cs => (digitValue c).bind fun d => digitsFrom (10 * acc + d) cs

def natOfDigits : List Char → Option ℕ
  | [] => none
  | c :: cs => (digitValue c).bind fun d => digitsFrom d cs

def signed (parse : List Char → Option ℕ) : List Char → Option ℤ
  | '-' :: cs => (parse cs).map fun n => -(n : ℤ)
  | '+' :: cs => (parse cs).map fun n => (n : ℤ)
  | cs => (parse cs).map fun n => (n : ℤ)

def intOfText (s : String) : Option ℤ := signed natOfDigits (strip s).toList

/-- The integer part of a non-negative decimal `ddd.ddde±dd`. -/
def truncDecimal (cs : List Char) : Option ℕ :=
  let mantissa := cs.takeWhile (· != 'e')
  let whole := mantissa.takeWhile (· != '.')
  let fraction := (mantissa.dropWhile (· != '.')).drop 1
  let exponent := (signed natOfDigits ((cs.dropWhile (· != 'e')).drop 1)).getD 0
  let shift := exponent - fraction.length
  (natOfDigits (whole ++ fraction)).map fun digits =>
    if 0 ≤ shift then digits * 10 ^ shift.toNat else digits / 10 ^ (-shift).toNat

/-- `int(value)`. -/
def intOf : Value → Except NumberError ℤ
  | .bool b => .ok (if b then 1 else 0)
  | .int i => .ok i
  | .float r =>
    if r = "inf" ∨ r = "-inf" then .error .overflow
    else match signed truncDecimal r.toList with
      | some i => .ok i
      | none => .error .value
  | .str s =>
    match intOfText s with
    | some i => .ok i
    | none => .error .value
  | _ => .error .type

/-! ### Numbers that were printed -/

theorem digitValue_of_isDigit {c : Char} (h : c.isDigit = true) :
    digitValue c = some (c.toNat - '0'.toNat) := by
  simp only [Char.isDigit, Bool.and_eq_true, decide_eq_true_eq] at h
  have h₁ : 48 ≤ c.toNat := h.1
  have h₂ : c.toNat ≤ 57 := h.2
  have hfind : decimalZeros.find? (fun z => z ≤ c.toNat ∧ c.toNat < z + 10) = some 0x30 := by
    rw [decimalZeros, List.find?_cons_of_pos]
    simp only [decide_eq_true_eq]
    omega
  rw [digitValue, hfind]
  rfl

theorem digitsFrom_eq {ds : List Char} (h : ∀ c ∈ ds, c.isDigit = true) (acc : ℕ) :
    digitsFrom acc ds = some (Nat.ofDigitChars 10 ds acc) := by
  induction ds generalizing acc with
  | nil => rw [digitsFrom, Nat.ofDigitChars_nil]
  | cons c ds ih =>
    have hc := h c List.mem_cons_self
    have hne : c ≠ '_' := by
      rintro rfl
      exact absurd hc (by decide)
    rw [digitsFrom, digitValue_of_isDigit hc, Option.bind_some,
      ih (fun d hd => h d (List.mem_cons_of_mem c hd)), Nat.ofDigitChars_cons]
    exact fun _ _ he => absurd he hne

theorem natOfDigits_repr (n : ℕ) : natOfDigits n.repr.toList = some n := by
  have hdigits : ∀ c ∈ Nat.toDigits 10 n, c.isDigit = true := fun c hc =>
    Nat.isDigit_of_mem_toDigits (by decide) (by decide) hc
  have hvalue := Nat.ofDigitChars_ten_toDigits (n := n)
  rw [Nat.toList_repr]
  cases hd : Nat.toDigits 10 n with
  | nil => exact absurd hd Nat.toDigits_ne_nil
  | cons c ds =>
    rw [hd] at hdigits hvalue
    rw [Nat.ofDigitChars_cons] at hvalue
    rw [natOfDigits, digitValue_of_isDigit (hdigits c List.mem_cons_self), Option.bind_some,
      digitsFrom_eq fun d h => hdigits d (List.mem_cons_of_mem c h)]
    simpa using hvalue

theorem isSpace_of_isDigit {c : Char} (h : c.isDigit = true) : isSpace c = false := by
  simp only [Char.isDigit, Bool.and_eq_true, decide_eq_true_eq] at h
  have h₁ : 48 ≤ c.toNat := h.1
  have h₂ : c.toNat ≤ 57 := h.2
  simp [isSpace]
  omega

/-- A text without blanks is its own strip. -/
theorem strip_eq_self {s : String} (h : ∀ c ∈ s.toList, isSpace c = false) : strip s = s := by
  have hdrop : ∀ cs : List Char, (∀ c ∈ cs, isSpace c = false) → cs.dropWhile isSpace = cs := by
    intro cs hcs
    cases cs with
    | nil => rfl
    | cons c cs => exact List.dropWhile_cons_of_neg (by simp [hcs c List.mem_cons_self])
  rw [strip, stripList, hdrop _ h, hdrop _ fun c hc => h c (List.mem_reverse.1 hc),
    List.reverse_reverse, String.ofList_toList]

/-- `int` reads an integer as it was printed. -/
theorem intOfText_toString (z : ℤ) : intOfText (toString z) = some z := by
  have hdigits (n : ℕ) : ∀ c ∈ n.repr.toList, c.isDigit = true := fun c hc => by
    rw [Nat.toList_repr] at hc
    exact Nat.isDigit_of_mem_toDigits (by decide) (by decide) hc
  cases z with
  | ofNat n =>
    have hstrip : strip n.repr = n.repr :=
      strip_eq_self fun c hc => isSpace_of_isDigit (hdigits n c hc)
    have hsigned : signed natOfDigits n.repr.toList =
        (natOfDigits n.repr.toList).map fun k => (k : ℤ) := by
      cases hd : n.repr.toList with
      | nil => rfl
      | cons c ds =>
        have hc := hdigits n c (hd ▸ List.mem_cons_self)
        rw [signed]
        · intro _ he
          exact absurd hc (by rw [(List.cons.inj he).1]; decide)
        · intro _ he
          exact absurd hc (by rw [(List.cons.inj he).1]; decide)
    change signed natOfDigits (strip n.repr).toList = _
    rw [hstrip, hsigned, natOfDigits_repr]
    rfl
  | negSucc n =>
    have htext : (toString (Int.negSucc n)).toList = '-' :: (n + 1).repr.toList := by
      simp [toString, Int.repr]
    have hstrip : strip (toString (Int.negSucc n)) = toString (Int.negSucc n) := by
      refine strip_eq_self fun c hc => ?_
      rw [htext] at hc
      rcases List.mem_cons.1 hc with rfl | hc
      · decide
      · exact isSpace_of_isDigit (hdigits _ c hc)
    rw [intOfText, hstrip, htext, signed, natOfDigits_repr]
    rfl

end Yggdrasil.Python
