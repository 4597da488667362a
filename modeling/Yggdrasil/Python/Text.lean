import Mathlib.Data.List.Basic
import Mathlib.Data.Rat.Floor

/-! The string operations of the Python standard library that the scripts use:
stripping, case folding, substring and word searches, `repr` of a string and the
`.0f` number format. Case folding is exact on every character whose folded form
contains an ASCII character; the other characters are left alone, which no caller
can see, since all of them compare with ASCII literals or drop what is not ASCII. -/

namespace Yggdrasil.Python

/-! ### ASCII letters -/

theorem isUpper_iff_toNat {c : Char} : c.isUpper ↔ 'A'.toNat ≤ c.toNat ∧ c.toNat ≤ 'Z'.toNat := by
  change decide ('A'.val ≤ c.val ∧ c.val ≤ 'Z'.val) = true ↔ _
  rw [decide_eq_true_iff]
  exact Iff.rfl

theorem isLower_iff_toNat {c : Char} : c.isLower ↔ 'a'.toNat ≤ c.toNat ∧ c.toNat ≤ 'z'.toNat := by
  change (decide ('a'.val ≤ c.val) && decide (c.val ≤ 'z'.val)) = true ↔ _
  rw [Bool.and_eq_true, decide_eq_true_iff, decide_eq_true_iff]
  exact Iff.rfl

theorem isAlphanum_iff {c : Char} : c.isAlphanum ↔ c.isUpper ∨ c.isLower ∨ c.isDigit := by
  change ((c.isUpper || c.isLower) || c.isDigit) = true ↔ _
  rw [Bool.or_eq_true, Bool.or_eq_true, or_assoc]

/-! ### Spaces and cases -/

/-- The characters `str.strip` removes. -/
def isSpace (c : Char) : Bool :=
  let n := c.toNat
  (0x09 ≤ n && n ≤ 0x0d) || (0x1c ≤ n && n ≤ 0x20) || n == 0x85 || n == 0xa0 || n == 0x1680 ||
    (0x2000 ≤ n && n ≤ 0x200a) || n == 0x2028 || n == 0x2029 || n == 0x202f || n == 0x205f ||
    n == 0x3000

/-- Remove the characters satisfying `p` from both ends. -/
def stripList (p : Char → Bool) (cs : List Char) : List Char :=
  ((cs.dropWhile p).reverse.dropWhile p).reverse

def strip (s : String) : String := String.ofList (stripList isSpace s.toList)

def lowerChar (c : Char) : List Char :=
  match c.toNat with
  | 0x130 => ['i', Char.ofNat 0x307]
  | 0x212a => ['k']
  | _ => [c.toLower]

def lower (s : String) : String := String.ofList (s.toList.flatMap lowerChar)

def casefoldChar (c : Char) : List Char :=
  match c.toNat with
  | 0xdf => ['s', 's']
  | 0x149 => [Char.ofNat 0x2bc, 'n']
  | 0x17f => ['s']
  | 0x1f0 => ['j', Char.ofNat 0x30c]
  | 0x1e96 => ['h', Char.ofNat 0x331]
  | 0x1e97 => ['t', Char.ofNat 0x308]
  | 0x1e98 => ['w', Char.ofNat 0x30a]
  | 0x1e99 => ['y', Char.ofNat 0x30a]
  | 0x1e9a => ['a', Char.ofNat 0x2be]
  | 0x1e9e => ['s', 's']
  | 0xfb00 => ['f', 'f']
  | 0xfb01 => ['f', 'i']
  | 0xfb02 => ['f', 'l']
  | 0xfb03 => ['f', 'f', 'i']
  | 0xfb04 => ['f', 'f', 'l']
  | 0xfb05 => ['s', 't']
  | 0xfb06 => ['s', 't']
  | _ => lowerChar c

def casefold (s : String) : String := String.ofList (s.toList.flatMap casefoldChar)

def upper (s : String) : String := String.ofList (s.toList.map Char.toUpper)

/-- The characters that end a line for `str.splitlines`. -/
def isLineEnd (c : Char) : Bool :=
  let n := c.toNat
  (0x0a ≤ n && n ≤ 0x0d) || (0x1c ≤ n && n ≤ 0x1e) || n == 0x85 || n == 0x2028 || n == 0x2029

/-- The lines of a text whose first line has begun with `line`. -/
def linesFrom (line : List Char) : List Char → List (List Char)
  | [] => if line.isEmpty then [] else [line]
  | '\r' :: '\n' :: cs => line :: linesFrom [] cs
  | c :: cs => if isLineEnd c then line :: linesFrom [] cs else linesFrom (line ++ [c]) cs

def splitlines (s : String) : List String := (linesFrom [] s.toList).map String.ofList

/-- A line that is followed by a newline. -/
theorem linesFrom_append {line l rest : List Char} (h : ∀ c ∈ l, isLineEnd c = false) :
    linesFrom line (l ++ '\n' :: rest) = (line ++ l) :: linesFrom [] rest := by
  induction l generalizing line with
  | nil => simp [linesFrom, isLineEnd]
  | cons c l ih =>
    have hc := h c List.mem_cons_self
    have hcr : c ≠ '\r' := by
      rintro rfl
      exact absurd hc (by decide)
    rw [List.cons_append, linesFrom]
    · rw [if_neg (by simp [hc]), ih fun c' hc' => h c' (List.mem_cons_of_mem _ hc')]
      simp
    · exact fun _ he => absurd he hcr

theorem isLineEnd_of_not_isSpace {c : Char} (h : isSpace c = false) : isLineEnd c = false := by
  refine Bool.eq_false_iff.2 fun hend => ?_
  simp only [isLineEnd, isSpace, Bool.or_eq_true, Bool.and_eq_true, decide_eq_true_eq, beq_iff_eq,
    Bool.or_eq_false_iff, Bool.and_eq_false_iff, decide_eq_false_iff_not, beq_eq_false_iff_ne] at h hend
  omega

/-! ### Searches -/

def isInfix (p : List Char) : List Char → Bool
  | [] => p.isEmpty
  | c :: cs => p.isPrefixOf (c :: cs) || isInfix p cs

/-- `sub in s`. -/
def contains (s sub : String) : Bool := isInfix sub.toList s.toList

def endsWith (s suffix : String) : Bool := suffix.toList.isSuffixOf s.toList

/-- `s[: -len(suffix)]`. -/
def dropSuffix (s suffix : String) : String :=
  String.ofList (s.toList.take (s.toList.length - suffix.toList.length))

/-- The class `\w`, of which the scripts meet only the ASCII part. -/
def isWordChar (c : Char) : Bool := c.isAlphanum || c == '_'

/-- The pattern `\bw\b` for a word `w`, searched after the character `prev`. -/
def wordFrom (w : List Char) (prev : Option Char) : List Char → Bool
  | [] => false
  | c :: cs =>
    (!(prev.any isWordChar) && w.isPrefixOf (c :: cs) &&
      !(((c :: cs).drop w.length).head?.any isWordChar)) || wordFrom w (some c) cs

def containsWord (s w : String) : Bool := wordFrom w.toList none s.toList

/-- The pattern `.*b`. -/
def aheadInLine (b : List Char) : List Char → Bool
  | [] => b.isEmpty
  | c :: cs => b.isPrefixOf (c :: cs) || (c != '\n' && aheadInLine b cs)

/-- The pattern `a.*b`. -/
def inOneLine (a b : List Char) : List Char → Bool
  | [] => false
  | c :: cs => (a.isPrefixOf (c :: cs) && aheadInLine b ((c :: cs).drop a.length)) || inOneLine a b cs

/-! ### Formats -/

/-- Exact in Latin-1; beyond it every character counts as printable. -/
def isPrintable (c : Char) : Bool :=
  let n := c.toNat
  (0x20 ≤ n && n ≤ 0x7e) || (0xa1 ≤ n && n != 0xad)

def hex2 (n : Nat) : List Char := [Nat.digitChar (n / 16), Nat.digitChar (n % 16)]

def reprChar (quote c : Char) : List Char :=
  if c = quote ∨ c = '\\' then ['\\', c]
  else if c = '\n' then ['\\', 'n']
  else if c = '\r' then ['\\', 'r']
  else if c = '\t' then ['\\', 't']
  else if isPrintable c then [c]
  else '\\' :: 'x' :: hex2 c.toNat

/-- `repr` of a string: single quotes unless only double quotes avoid escapes. -/
def reprStr (s : String) : String :=
  let quote := if s.toList.contains '\'' && !s.toList.contains '"' then '"' else '\''
  String.ofList (quote :: s.toList.flatMap (reprChar quote) ++ [quote])

def roundHalfEven (q : ℚ) : ℤ :=
  if q - q.floor < 1 / 2 then q.floor
  else if 1 / 2 < q - q.floor then q.floor + 1
  else if q.floor % 2 = 0 then q.floor else q.floor + 1

/-- The format `.0f`, which keeps the sign of a negative number rounded to zero. -/
def format0f (q : ℚ) : String :=
  if q < 0 ∧ roundHalfEven q = 0 then "-0" else toString (roundHalfEven q)

end Yggdrasil.Python
