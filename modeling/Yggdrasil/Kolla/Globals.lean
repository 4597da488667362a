import Mathlib.Data.List.DropRight
import Mathlib.Data.List.Infix

/-! One key of `globals.yml` is set by a search and a substitution on its lines. The search is not
anchored and the value stands in the replacement, so that a call keeps to its key only if no key
ends with it, and only for a value that the tools take as it is. -/

namespace Yggdrasil.Kolla.Globals

abbrev Text := List Char

def isKeyChar (c : Char) : Bool := c.isAlphanum || c = '_'

structure GlobalKey where
  text : Text
  nonempty : text ≠ []
  plain : ∀ c ∈ text, isKeyChar c = true

/-- The key with its colon. -/
def GlobalKey.mark (k : GlobalKey) : Text := k.text ++ [':']

/-- `KEY: value`. -/
def GlobalKey.line (k : GlobalKey) (value : Text) : Text := k.mark ++ ' ' :: value

/-- `globals.yml` by its lines. -/
structure GlobalsFile where
  lines : List Text
  broken : ∀ l ∈ lines, '\n' ∉ l

/-! ### The value -/

/-- The options of the shell's `echo`. -/
def isEchoOption : Text → Bool
  | '-' :: l => !l.isEmpty && l.all ['n', 'e', 'E'].contains
  | _ => false

/-- What `echo "$2"` prints. -/
def echo (value : Text) : Text :=
  if isEchoOption value then (if value.contains 'n' then [] else ['\n']) else value ++ ['\n']

def escapeSlashes (t : Text) : Text := t.flatMap fun c => if c = '/' then ['\\', '/'] else [c]

/-- The output without the line ends after it, as `$(…)` gives it. -/
def configValue (value : Text) : Text := (escapeSlashes (echo value)).rdropWhile (· = '\n')

/-! ### The tools -/

/-- `#\? *KEY:` at the start of a text. -/
def startsMark (k : GlobalKey) (l : Text) : Bool :=
  k.mark.isPrefixOf ((if l.head? = some '#' then l.tail else l).dropWhile (· = ' '))

/-- `grep "#\? *KEY:"`. -/
def grep (k : GlobalKey) (l : Text) : Bool := l.tails.any (startsMark k)

/-- The text before the first match and the text from there, which `.*` extends the match to. -/
def cutMark (k : GlobalKey) : Text → Option (Text × Text)
  | [] => none
  | c :: l =>
    if startsMark k (c :: l) then some ([], c :: l)
    else (cutMark k l).map fun p => (c :: p.1, p.2)

/-- A replacement with `&` for the match. -/
def expand (m r : Text) : Text := r.flatMap fun c => if c = '&' then m else [c]

/-- What `sed` makes of the part of a script that the value stands in. Its own account of `\` and
of line ends is open. -/
structure Sed where
  /-- What is written after the pattern of an `s` command, up to the end of the script: the text
  in the place of a match, from the match and its group. -/
  replacement : Text → Option (Text → Text → Text)
  /-- What is written after `$ a`. -/
  addition : Text → Option (List Text → List Text)
  replacement_literal : ∀ r, '\\' ∉ r → '\n' ∉ r →
    replacement ('\\' :: '1' :: ' ' :: (escapeSlashes r ++ ['/', 'g'])) =
      some fun m g => g ++ ' ' :: expand m r
  addition_literal : ∀ (k : GlobalKey) r, '\\' ∉ r → '\n' ∉ r →
    addition (k.mark ++ ' ' :: escapeSlashes r) =
      some fun lines => if lines.isEmpty then [] else lines ++ [k.line r]

def substitute (k : GlobalKey) (f : Text → Text → Text) (l : Text) : Text :=
  match cutMark k l with
  | none => l
  | some p => p.1 ++ f p.2 k.mark

/-- `set_global_config`: the lines of the file after it, if `sed` takes the script. -/
def setGlobalConfig (sed : Sed) (k : GlobalKey) (value : Text) (file : GlobalsFile) :
    Option (List Text) :=
  if file.lines.any (grep k) then
    (sed.replacement ('\\' :: '1' :: ' ' :: (configValue value ++ ['/', 'g']))).map fun f =>
      (file.lines.map (substitute k f)).flatMap (List.splitOn '\n')
  else
    (sed.addition (k.mark ++ ' ' :: configValue value)).map fun add =>
      (add file.lines).flatMap (List.splitOn '\n')

/-! ### The purpose -/

/-- The key of a line at the top level, with a comment sign before it or without. -/
def keyOf (l : Text) : Option Text :=
  let body := if l.head? = some '#' then l.tail.dropWhile (· = ' ') else l
  let name := body.takeWhile isKeyChar
  if name ≠ [] ∧ (body.drop name.length).head? = some ':' then some name else none

/-- The line of another key. -/
def IsOther (k : GlobalKey) (l : Text) : Prop := ∃ name ∈ keyOf l, name ≠ k.text

/-- The key has the value, and the lines of the other keys are as they were. -/
structure Sets (k : GlobalKey) (value : Text) (file : GlobalsFile) (out : List Text) : Prop where
  defined : k.line value ∈ out
  only : ∀ l ∈ out, k.mark <+: l → l = k.line value
  others : ∀ (i : ℕ) (l : Text), file.lines[i]? = some l → IsOther k l → out[i]? = some l

def Meets (sed : Sed) (k : GlobalKey) (value : Text) (file : GlobalsFile) : Prop :=
  ∃ out, setGlobalConfig sed k value file = some out ∧ Sets k value file out

/-- The value is printed as it is and has no sign for `sed`. Either the key with its colon is
nowhere in the file, or it is at the start of a line, and where it is in the line of another key
this line has the same value. -/
structure Settable (k : GlobalKey) (value : Text) (file : GlobalsFile) : Prop where
  prints : isEchoOption value = false
  unescaped : '\\' ∉ value
  single : '\n' ∉ value
  place : (file.lines ≠ [] ∧ ∀ l ∈ file.lines, grep k l = false) ∨
    ('&' ∉ value ∧ (∃ l ∈ file.lines, startsMark k l = true) ∧
      ∀ l ∈ file.lines, IsOther k l → ∀ p ∈ cutMark k l, l = p.1 ++ k.line value)

/-! ### Matches -/

section Matches

variable {k : GlobalKey} {l : Text} {p : Text × Text}

theorem colon_notMem (k : GlobalKey) : ':' ∉ k.text := fun h => by
  have hplain := k.plain _ h
  exact absurd hplain (by decide)

theorem exists_mark_cons (k : GlobalKey) :
    ∃ c t, k.mark = c :: t ∧ c ≠ '#' ∧ c ≠ ' ' := by
  obtain ⟨c, t, htext⟩ := List.exists_cons_of_ne_nil k.nonempty
  have hc : isKeyChar c = true := k.plain c (by rw [htext]; exact List.mem_cons_self)
  refine ⟨c, t ++ [':'], by rw [GlobalKey.mark, htext]; rfl, ?_, ?_⟩
  · rintro rfl
    exact absurd hc (by decide)
  · rintro rfl
    exact absurd hc (by decide)

theorem two_le_length_mark (k : GlobalKey) : 2 ≤ k.mark.length := by
  have := List.length_pos_iff.2 k.nonempty
  simp only [GlobalKey.mark, List.length_append, List.length_singleton]
  omega

theorem startsMark_of_mark (h : k.mark <+: l) : startsMark k l = true := by
  obtain ⟨c, t, hmark, hsign, hblank⟩ := exists_mark_cons k
  obtain ⟨r, rfl⟩ := h
  rw [startsMark, hmark, List.cons_append, List.head?_cons, if_neg (by simpa using hsign),
    List.dropWhile_cons_of_neg (by simpa using hblank), ← List.cons_append, ← hmark]
  exact List.isPrefixOf_iff_prefix.2 (List.prefix_append _ r)

theorem length_le_of_startsMark (h : startsMark k l = true) : k.mark.length ≤ l.length := by
  have hlength := (List.isPrefixOf_iff_prefix.1 h).length_le
  refine hlength.trans (((List.dropWhile_suffix _).length_le).trans ?_)
  split_ifs
  · exact (List.tail_suffix l).length_le
  · exact le_rfl

theorem startsMark_nil (k : GlobalKey) : startsMark k [] = false := by
  by_contra h
  have := length_le_of_startsMark ((Bool.not_eq_false _).mp h)
  have := two_le_length_mark k
  simp only [List.length_nil] at *
  omega

theorem cutMark_eq_none_iff : cutMark k l = none ↔ grep k l = false := by
  induction l with
  | nil => simp [cutMark, grep, startsMark_nil]
  | cons c l ih =>
    rw [cutMark, grep, List.tails_cons, List.any_cons]
    by_cases h : startsMark k (c :: l) = true
    · simp [h]
    · rw [if_neg h, Bool.eq_false_iff.2 h, Bool.false_or, Option.map_eq_none_iff]
      exact ih

theorem cutMark_spec (h : cutMark k l = some p) : l = p.1 ++ p.2 ∧ startsMark k p.2 = true ∧
    (p.1 ≠ [] → startsMark k l = false) := by
  induction l generalizing p with
  | nil => cases h
  | cons c l ih =>
    rw [cutMark] at h
    split_ifs at h with hstart
    · obtain rfl := Option.some.inj h
      exact ⟨rfl, hstart, fun hne => absurd rfl hne⟩
    · obtain ⟨q, hq, rfl⟩ := Option.map_eq_some_iff.1 h
      obtain ⟨hl, hmark, -⟩ := ih hq
      exact ⟨by rw [hl]; rfl, hmark, fun _ => Bool.eq_false_iff.2 hstart⟩

/-- The mark does not overlap itself, so that it is not at a start that a part of it makes. -/
theorem mark_before {a r : Text} (ha : a ≠ [])
    (h : k.mark <+: a ++ (k.mark ++ r)) : k.mark <+: a := by
  rcases List.prefix_or_prefix_of_prefix h (List.prefix_append a _) with hmark | ⟨y, hy⟩
  · exact hmark
  · rw [← hy, List.prefix_append_right_inj, hy, GlobalKey.mark, List.append_assoc] at h
    rcases List.eq_nil_or_concat' y with rfl | ⟨y', c, rfl⟩
    · rw [← hy, List.append_nil]
    · rw [GlobalKey.mark, ← List.append_assoc] at hy
      obtain ⟨htext, hc⟩ := List.append_inj' hy rfl
      obtain rfl : c = ':' := List.singleton_inj.1 hc
      have hlength : (y' ++ [':']).length ≤ k.text.length := by
        rw [← htext, List.length_append, List.length_append, List.length_singleton]
        have := List.length_pos_iff.2 ha
        omega
      have hwithin := List.prefix_of_prefix_length_le h (List.prefix_append k.text _) hlength
      exact absurd (hwithin.subset (by simp)) (colon_notMem k)

theorem line_injective {v w : Text} (h : k.line v = k.line w) : v = w := by
  simpa [GlobalKey.line] using h

/-- A line with the mark at its start comes from a match at the start. -/
theorem fst_eq_nil {v : Text} (h : cutMark k l = some p)
    (hmark : k.mark <+: p.1 ++ (k.mark ++ v)) : p.1 = [] := by
  obtain ⟨hl, -, hfirst⟩ := cutMark_spec h
  by_contra hne
  have hstart := startsMark_of_mark ((mark_before hne hmark).trans ⟨p.2, hl.symm⟩)
  rw [hfirst hne] at hstart
  cases hstart

theorem grep_of_mark (h : k.mark <+: l) : grep k l = true := by
  rw [grep, List.any_eq_true]
  exact ⟨l, (List.mem_tails l l).2 List.suffix_rfl, startsMark_of_mark h⟩

theorem mark_prefix_line (k : GlobalKey) (v : Text) : k.mark <+: k.line v :=
  List.prefix_append k.mark _

end Matches

/-! ### Literal values -/

section Literal

variable {k : GlobalKey} {v m : Text} {file : GlobalsFile}

theorem mem_escapeSlashes {c : Char} (h : c ∈ escapeSlashes v) : c ∈ v ∨ c = '\\' := by
  obtain ⟨d, hd, hc⟩ := List.mem_flatMap.1 h
  split_ifs at hc with hslash
  · subst hslash
    rcases List.mem_cons.1 hc with rfl | hc
    · exact .inr rfl
    · exact .inl (List.mem_singleton.1 hc ▸ hd)
  · exact .inl (List.mem_singleton.1 hc ▸ hd)

/-- What is left of a value after `echo`. -/
def printed (value : Text) : Text := if isEchoOption value then [] else value

theorem configValue_eq (hv : '\n' ∉ v) : configValue v = escapeSlashes (printed v) := by
  unfold configValue echo printed
  split_ifs
  · rfl
  · rfl
  · have happend : escapeSlashes (v ++ ['\n']) = escapeSlashes v ++ ['\n'] :=
      List.flatMap_append
    rw [happend, List.rdropWhile_concat_pos _ _ _ (by decide), List.rdropWhile_eq_self_iff]
    intro hne hlast
    have hmem := List.getLast_mem hne
    rw [of_decide_eq_true hlast] at hmem
    rcases mem_escapeSlashes hmem with hmem | hmem
    · exact hv hmem
    · exact absurd hmem (by decide)

/-- The lines after a call with a value that `sed` takes as it is. -/
def written (k : GlobalKey) (v : Text) (lines : List Text) : List Text :=
  if lines.any (grep k) then lines.map (substitute k fun m g => g ++ ' ' :: expand m v)
  else if lines.isEmpty then [] else lines ++ [k.line v]

theorem mem_expand {c : Char} (h : c ∈ expand m v) : c ∈ m ∨ c ∈ v := by
  obtain ⟨d, hd, hc⟩ := List.mem_flatMap.1 h
  split_ifs at hc
  · exact .inl hc
  · exact .inr (List.mem_singleton.1 hc ▸ hd)

theorem newline_notMem_line (hv : '\n' ∉ v) : '\n' ∉ k.line v := by
  have hkey : '\n' ∉ k.text := fun h => absurd (k.plain _ h) (by decide)
  simp [GlobalKey.line, GlobalKey.mark, hkey, hv]

theorem newline_notMem_written (file : GlobalsFile) (hv : '\n' ∉ v) {l : Text} (hl : l ∈ written k v file.lines) :
    '\n' ∉ l := by
  unfold written at hl
  split_ifs at hl
  · obtain ⟨l₀, hl₀, rfl⟩ := List.mem_map.1 hl
    have hbroken := file.broken l₀ hl₀
    unfold substitute
    cases hcut : cutMark k l₀ with
    | none => exact hbroken
    | some p =>
      obtain ⟨hparts, -, -⟩ := cutMark_spec hcut
      rw [hparts, List.mem_append, not_or] at hbroken
      have hline := newline_notMem_line (k := k) hv
      intro hmem
      rcases List.mem_append.1 hmem with hmem | hmem
      · exact hbroken.1 hmem
      · rcases List.mem_append.1 hmem with hmem | hmem
        · exact hline (List.mem_append_left _ hmem)
        · rcases List.mem_cons.1 hmem with hmem | hmem
          · exact absurd hmem (by decide)
          · exact (mem_expand hmem).elim hbroken.2 hv
  · exact absurd hl List.not_mem_nil
  · rcases List.mem_append.1 hl with hl | hl
    · exact file.broken l hl
    · rw [List.mem_singleton.1 hl]
      exact newline_notMem_line hv

theorem flatMap_splitOn {lines : List Text} (h : ∀ l ∈ lines, '\n' ∉ l) :
    lines.flatMap (List.splitOn '\n') = lines := by
  rw [List.flatMap_congr fun l hl => List.splitOn_eq_singleton (h l hl)]
  exact List.flatMap_singleton' lines

theorem setGlobalConfig_literal (sed : Sed) (hback : '\\' ∉ v) (hv : '\n' ∉ v) :
    setGlobalConfig sed k v file = some (written k (printed v) file.lines) := by
  have hprinted {c : Char} (h : c ∉ v) : c ∉ printed v := by
    unfold printed
    split_ifs
    · exact List.not_mem_nil
    · exact h
  have hlines := flatMap_splitOn fun l hl =>
    newline_notMem_written (k := k) file (hprinted hv) (l := l) hl
  rw [setGlobalConfig, configValue_eq hv, sed.replacement_literal _ (hprinted hback) (hprinted hv),
    sed.addition_literal k _ (hprinted hback) (hprinted hv)]
  rw [written] at hlines ⊢
  split_ifs at hlines ⊢ with hany hempty
  · exact congrArg some hlines
  · rw [List.isEmpty_iff.1 hempty]
    rfl
  · rw [Option.map_some, ← hlines]
    simp only [hempty, Bool.false_eq_true, if_false, hlines]

end Literal

/-! ### One call -/

section Call

variable {k : GlobalKey} {v value : Text} {lines : List Text} {file : GlobalsFile}

theorem expand_of_notMem {m : Text} (h : '&' ∉ v) : expand m v = v := by
  induction v with
  | nil => rfl
  | cons c v ih =>
    obtain ⟨hc, hv⟩ := not_or.1 (mt List.mem_cons.2 h)
    have hsplit : expand m (c :: v) = (if c = '&' then m else [c]) ++ expand m v := rfl
    rw [hsplit, if_neg (Ne.symm hc), ih hv]
    rfl

theorem length_le_expand {m : Text} (hm : 2 ≤ m.length) :
    v.length ≤ (expand m v).length ∧ ('&' ∈ v → v.length < (expand m v).length) := by
  induction v with
  | nil => exact ⟨le_rfl, fun h => absurd h List.not_mem_nil⟩
  | cons c v ih =>
    obtain ⟨hle, hlt⟩ := ih
    have hsplit : (expand m (c :: v)).length =
        (if c = '&' then m else [c]).length + (expand m v).length := List.length_append
    rw [hsplit, List.length_cons]
    split_ifs with hc
    · exact ⟨by omega, fun _ => by omega⟩
    · refine ⟨by rw [List.length_singleton]; omega, fun h => ?_⟩
      have := hlt ((List.mem_cons.1 h).resolve_left (Ne.symm hc))
      rw [List.length_singleton]
      omega

theorem substitute_none {f : Text → Text → Text} {l : Text} (h : grep k l = false) :
    substitute k f l = l := by
  rw [substitute, cutMark_eq_none_iff.2 h]

theorem substitute_some {f : Text → Text → Text} {l : Text} {p : Text × Text}
    (h : cutMark k l = some p) : substitute k f l = p.1 ++ f p.2 k.mark := by
  rw [substitute, h]

theorem cutMark_of_startsMark {l : Text} (h : startsMark k l = true) :
    cutMark k l = some ([], l) := by
  cases l with
  | nil =>
    rw [startsMark_nil] at h
    cases h
  | cons c l => rw [cutMark, if_pos h]

/-- A substituted line with the key at its start. -/
theorem substitute_of_mark {l : Text}
    (h : k.mark <+: substitute k (fun m g => g ++ ' ' :: expand m v) l) :
    startsMark k l = true ∧
      substitute k (fun m g => g ++ ' ' :: expand m v) l = k.line (expand l v) := by
  cases hcut : cutMark k l with
  | none =>
    have hgrep := cutMark_eq_none_iff.1 hcut
    rw [substitute_none hgrep] at h
    rw [grep_of_mark h] at hgrep
    cases hgrep
  | some p =>
    rw [substitute_some hcut] at h ⊢
    obtain ⟨hparts, hstart, -⟩ := cutMark_spec hcut
    have hnil := fst_eq_nil hcut h
    rw [hnil, List.nil_append] at hparts ⊢
    exact ⟨hparts ▸ hstart, by rw [hparts]; rfl⟩

/-- A line of the result that has the key with a value. -/
theorem defined_written (h : k.line value ∈ written k v lines) :
    (lines.any (grep k) = false ∧ lines ≠ [] ∧ value = v) ∨
      ∃ l ∈ lines, startsMark k l = true ∧ value = expand l v := by
  unfold written at h
  split_ifs at h with hany hempty
  · obtain ⟨l, hl, heq⟩ := List.mem_map.1 h
    obtain ⟨hstart, hline⟩ := substitute_of_mark (heq ▸ mark_prefix_line k value)
    exact .inr ⟨l, hl, hstart, line_injective (heq.symm.trans hline)⟩
  · exact absurd h List.not_mem_nil
  · rcases List.mem_append.1 h with h | h
    · exact absurd (List.any_eq_true.2 ⟨_, h, grep_of_mark (mark_prefix_line k value)⟩) hany
    · refine .inl ⟨Bool.eq_false_iff.2 hany, fun hnil => hempty (by rw [hnil]; rfl), ?_⟩
      exact line_injective (List.mem_singleton.1 h)

theorem Settable.meets (h : Settable k value file) (sed : Sed) : Meets sed k value file := by
  have hprinted : printed value = value := by
    rw [printed, h.prints]
    rfl
  refine ⟨_, setGlobalConfig_literal sed h.unescaped h.single, ?_⟩
  rw [hprinted]
  rcases h.place with ⟨hne, hnone⟩ | ⟨hsign, ⟨l₀, hl₀, hstart⟩, hothers⟩
  · have hany : ¬file.lines.any (grep k) = true := by
      rw [Bool.not_eq_true, List.any_eq_false]
      exact fun l hl => by rw [hnone l hl]; exact Bool.false_ne_true
    rw [written, if_neg hany, if_neg (by simpa using hne)]
    refine ⟨by simp, fun l hl hmark => ?_, fun i l hl _ => ?_⟩
    · rcases List.mem_append.1 hl with hl | hl
      · have hgrep := grep_of_mark hmark
        rw [hnone l hl] at hgrep
        cases hgrep
      · exact List.mem_singleton.1 hl
    · rw [List.getElem?_append_left (List.getElem?_eq_some_iff.1 hl).1, hl]
  · have hgrep : grep k l₀ = true := by
      by_contra hgrep
      have hcut := cutMark_eq_none_iff.2 ((Bool.not_eq_true _).mp hgrep)
      rw [cutMark_of_startsMark hstart] at hcut
      cases hcut
    rw [written, if_pos (List.any_eq_true.2 ⟨l₀, hl₀, hgrep⟩)]
    refine ⟨List.mem_map.2 ⟨l₀, hl₀, ?_⟩, fun l hl hmark => ?_, fun i l hl hother => ?_⟩
    · rw [substitute_some (cutMark_of_startsMark hstart), expand_of_notMem hsign]
      rfl
    · obtain ⟨l', -, rfl⟩ := List.mem_map.1 hl
      rw [(substitute_of_mark hmark).2, expand_of_notMem hsign]
    · rw [List.getElem?_map, hl, Option.map_some]
      cases hcut : cutMark k l with
      | none => rw [substitute_none (cutMark_eq_none_iff.1 hcut)]
      | some p =>
        have hsame := hothers l (List.mem_of_getElem? hl) hother p hcut
        rw [substitute_some hcut, expand_of_notMem hsign]
        exact congrArg some hsame.symm

theorem newline_notMem_splitOn {t l : Text} (h : l ∈ t.splitOn '\n') : '\n' ∉ l := by
  induction t generalizing l with
  | nil =>
    rw [List.splitOn_nil, List.mem_singleton] at h
    rw [h]
    exact List.not_mem_nil
  | cons c t ih =>
    rw [List.splitOn_cons_eq_if_modifyHead] at h
    split_ifs at h with hc
    · rcases List.mem_cons.1 h with rfl | h
      · exact List.not_mem_nil
      · exact ih h
    · cases hsplit : t.splitOn '\n' with
      | nil => exact absurd hsplit (List.splitOn_ne_nil _ _)
      | cons m ms =>
        rw [hsplit] at h ih
        rcases List.mem_cons.1 h with rfl | h
        · intro hmem
          rcases List.mem_cons.1 hmem with rfl | hmem
          · exact hc (beq_self_eq_true _)
          · exact ih List.mem_cons_self hmem
        · exact ih (List.mem_cons_of_mem m h)

theorem newline_notMem_out {sed : Sed} {out : List Text}
    (h : setGlobalConfig sed k value file = some out) : ∀ l ∈ out, '\n' ∉ l := by
  unfold setGlobalConfig at h
  intro l hl
  split_ifs at h
  all_goals
    obtain ⟨f, -, rfl⟩ := Option.map_eq_some_iff.1 h
    obtain ⟨t, -, ht⟩ := List.mem_flatMap.1 hl
    exact newline_notMem_splitOn ht

theorem Settable.of_meets {sed : Sed} (hback : '\\' ∉ value) (h : Meets sed k value file) :
    Settable k value file := by
  obtain ⟨out, hout, hsets⟩ := h
  have hsingle : '\n' ∉ value := fun hc => newline_notMem_out hout _ hsets.defined
    (List.mem_append_right _ (List.mem_cons_of_mem _ hc))
  rw [setGlobalConfig_literal sed hback hsingle] at hout
  obtain rfl := Option.some.inj hout
  have hdefined := defined_written hsets.defined
  have hprints : isEchoOption value = false := by
    by_contra hoption
    have hnil : printed value = [] := if_pos ((Bool.not_eq_false _).mp hoption)
    rw [hnil] at hdefined
    rcases hdefined with ⟨-, -, rfl⟩ | ⟨l, -, -, rfl⟩ <;> exact hoption rfl
  have hprinted : printed value = value := by
    rw [printed, hprints]
    rfl
  rw [hprinted] at hdefined hsets
  refine ⟨hprints, hback, hsingle, ?_⟩
  rcases hdefined with ⟨hany, hne, -⟩ | ⟨l₀, hl₀, hstart, hexpand⟩
  · exact .inl ⟨hne, fun l hl => Bool.eq_false_iff.2 (List.any_eq_false.1 hany l hl)⟩
  · have hlength := (two_le_length_mark k).trans (length_le_of_startsMark hstart)
    have hsign : '&' ∉ value := fun hc => by
      have := (length_le_expand hlength).2 hc
      rw [← hexpand] at this
      omega
    refine .inr ⟨hsign, ⟨l₀, hl₀, hstart⟩, fun l hl hother p hp => ?_⟩
    obtain ⟨i, hi⟩ := List.getElem?_of_mem hl
    have hgrep : grep k l = true := by
      by_contra hgrep
      rw [cutMark_eq_none_iff.2 ((Bool.not_eq_true _).mp hgrep)] at hp
      cases hp
    have hsame := hsets.others i l hi hother
    rw [written, if_pos (List.any_eq_true.2 ⟨l, hl, hgrep⟩), List.getElem?_map, hi,
      Option.map_some, substitute_some hp, expand_of_notMem hsign] at hsame
    exact (Option.some.inj hsame).symm

/-- A call does what it is for exactly if the value and the file are such, where the value has no
sign whose account is left to `sed`. -/
theorem set_global_config_iff (sed : Sed) (k : GlobalKey) (value : Text) (file : GlobalsFile) :
    (Settable k value file → Meets sed k value file) ∧
      ('\\' ∉ value → (Meets sed k value file ↔ Settable k value file)) :=
  ⟨fun h => h.meets sed, fun hback => ⟨Settable.of_meets hback, fun h => h.meets sed⟩⟩

end Call

/-! ### A key with a longer one in the file -/

def unescapeSlashes : Text → Text
  | '\\' :: '/' :: l => '/' :: unescapeSlashes l
  | c :: l => c :: unescapeSlashes l
  | [] => []

theorem unescapeSlashes_escapeSlashes {r : Text} (h : '\\' ∉ r) :
    unescapeSlashes (escapeSlashes r) = r := by
  induction r with
  | nil => rfl
  | cons c r ih =>
    obtain ⟨hc, hr⟩ := not_or.1 (mt List.mem_cons.2 h)
    have hsplit : escapeSlashes (c :: r) =
        (if c = '/' then ['\\', '/'] else [c]) ++ escapeSlashes r := rfl
    rw [hsplit]
    split_ifs with hslash
    · rw [hslash]
      exact congrArg ('/' :: ·) (ih hr)
    · have hplain : unescapeSlashes (c :: escapeSlashes r) =
          c :: unescapeSlashes (escapeSlashes r) :=
        unescapeSlashes.eq_2 _ _ fun _ heq _ => hc heq.symm
      exact hplain.trans (congrArg (c :: ·) (ih hr))

theorem escapeSlashes_of_notMem {t : Text} (h : '/' ∉ t) : escapeSlashes t = t := by
  have hsingle : escapeSlashes t = t.flatMap ([·]) :=
    List.flatMap_congr fun c hc => if_neg fun heq : c = '/' => h (heq ▸ hc)
  rw [hsingle]
  exact List.flatMap_singleton' t

theorem unescapeSlashes_line (k : GlobalKey) {r : Text} (h : '\\' ∉ r) :
    unescapeSlashes (k.mark ++ ' ' :: escapeSlashes r) = k.line r := by
  have hother (c : Char) (hc : isKeyChar c = false) (hcolon : c ≠ ':') : c ∉ k.mark := by
    intro hmem
    rcases List.mem_append.1 hmem with hmem | hmem
    · rw [k.plain c hmem] at hc
      cases hc
    · exact hcolon (List.mem_singleton.1 hmem)
  have hline : '\\' ∉ k.line r := by
    have hmark := hother '\\' (by decide) (by decide)
    simp [GlobalKey.line, hmark, h]
  have hescape : escapeSlashes (k.line r) = k.mark ++ ' ' :: escapeSlashes r := by
    have happend : escapeSlashes (k.line r) = escapeSlashes k.mark ++ escapeSlashes (' ' :: r) :=
      List.flatMap_append
    rw [happend, escapeSlashes_of_notMem (hother '/' (by decide) (by decide))]
    rfl
  rw [← hescape, unescapeSlashes_escapeSlashes hline]

/-- A `sed` that gives a slash for an escaped one and takes everything else as it is. -/
def slashSed : Sed where
  replacement script := some fun m g =>
    g ++ ' ' :: expand m (unescapeSlashes ((script.drop 3).rdrop 2))
  addition script := some fun lines =>
    if lines.isEmpty then [] else lines ++ [unescapeSlashes script]
  replacement_literal r hr _ := by
    have hdrop : (('\\' :: '1' :: ' ' :: (escapeSlashes r ++ ['/', 'g'])).drop 3).rdrop 2 =
        escapeSlashes r := by simp [List.rdrop]
    rw [hdrop, unescapeSlashes_escapeSlashes hr]
  addition_literal k r hr _ := by rw [unescapeSlashes_line k hr]

def vipAddress : GlobalKey where
  text := "vip_address".toList
  nonempty := by decide +kernel
  plain := List.all_eq_true.1 (by decide +kernel)

def addressFile : GlobalsFile where
  lines := ["#vip_address: 10.0.0.5".toList]
  broken := by decide +kernel

/-- The address of the internal network, whose key ends with the other one. -/
def internalFile : GlobalsFile where
  lines := ["kolla_internal_vip_address: 10.0.0.5".toList]
  broken := by decide +kernel

theorem set_global_config_address :
    Meets slashSed vipAddress "10.1.0.9/16".toList addressFile := by
  have hkey : keyOf "#vip_address: 10.0.0.5".toList = some vipAddress.text := by decide +kernel
  refine (set_global_config_iff slashSed vipAddress _ addressFile).1
    ⟨by decide +kernel, by decide +kernel, by decide +kernel, .inr ⟨by decide +kernel,
      ⟨_, List.mem_singleton.2 rfl, by decide +kernel⟩, fun l hl hother => ?_⟩⟩
  obtain ⟨name, hname, hne⟩ := hother
  rw [List.mem_singleton.1 hl, hkey] at hname
  exact absurd (Option.some.inj hname).symm hne

/-- The call changes the other address, and its own key is nowhere. -/
theorem not_set_global_config_internal :
    setGlobalConfig slashSed vipAddress "10.1.0.9".toList internalFile =
        some ["kolla_internal_vip_address: 10.1.0.9".toList] ∧
      ¬Meets slashSed vipAddress "10.1.0.9".toList internalFile := by
  have hcall : setGlobalConfig slashSed vipAddress "10.1.0.9".toList internalFile =
      some ["kolla_internal_vip_address: 10.1.0.9".toList] := by decide +kernel
  refine ⟨hcall, ?_⟩
  rintro ⟨out, hout, hsets⟩
  rw [hcall] at hout
  have hdefined := hsets.defined
  rw [← Option.some.inj hout] at hdefined
  exact absurd hdefined (by decide +kernel)

end Yggdrasil.Kolla.Globals
