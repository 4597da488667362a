import Yggdrasil.Library.Backtrack
import Yggdrasil.Python.Number

/-! The edit of a containerd configuration: the plugins of the CRI are taken off the list of
disabled ones, and Kata gets a section as a runtime handler. The text is read with regular
expressions, whose spaces cross the ends of lines. -/

namespace Yggdrasil.Containerd

open Backtrack Python

abbrev Text := List Char

def criPluginIds : List String :=
  ["cri", "io.containerd.grpc.v1.cri", "io.containerd.cri.v1.images",
    "io.containerd.cri.v1.runtime"]

/-- A list of strings. -/
abbrev names (l : List String) : Value := .list (l.map .str)

/-- `ast.literal_eval`, which reads what `repr` writes. -/
structure LiteralEval where
  eval : Text → Option Value
  eval_repr : ∀ l, eval (names l).repr.toList = some (names l)

def allStrings : List Value → Option (List String)
  | [] => some []
  | .str s :: vs => (allStrings vs).map (s :: ·)
  | _ :: _ => none

/-- The strings of a list that has nothing else in it. -/
def strings : Value → Option (List String)
  | .seq .list items => allStrings items
  | _ => none

/-! ### Patterns -/

section Patterns

def isDigit (c : Char) : Bool := (digitValue c).isSome

def isBlank (c : Char) : Bool := c = ' ' || c = '\t'

def isQuote (c : Char) : Bool := c = '"' || c = '\''

/-- `\s*`. -/
def spaces : Pattern Char Text := many isSpace

/-- `[ \t]*`. -/
def blanks : Pattern Char Text := many isBlank

/-- `#.*`. -/
def comment : Pattern Char Unit := do
  word ['#']
  let _ ← many (· ≠ '\n')

/-- `\s*(?:#.*)?$`. -/
def trailing : Pattern Char Unit := do
  let _ ← spaces
  optional comment
  lineEnd '\n'

/-- `\s*$`. -/
def blankEnd : Pattern Char Unit := do
  let _ ← spaces
  lineEnd '\n'

/-- `disabled_plugins\s*=\s*(\[[^\n]*\])`, with what the spaces match. -/
def arrayHead : Pattern Char (Text × Text × Text) := do
  word "disabled_plugins".toList
  let gap₁ ← spaces
  word ['=']
  let gap₂ ← spaces
  word ['[']
  let inner ← many (· ≠ '\n')
  word [']']
  pure (gap₁, gap₂, '[' :: (inner ++ [']']))

def disabledArray : Pattern Char (Text × Text × Text) := do
  let d ← arrayHead
  trailing
  pure d

/-- `version\s*=\s*(\d+)`. -/
def versionHead : Pattern Char Text := do
  word "version".toList
  let _ ← spaces
  word ['=']
  let _ ← spaces
  many1 isDigit

def versionNumber : Pattern Char Text := do
  let v ← versionHead
  blankEnd
  pure v

/-- `[ \t]*\[plugins\.(?:"|')?ID(?:"|')?\.containerd\.runtimes\.kata\]`. -/
def handlerHead (id : Text) : Pattern Char Unit := do
  let _ ← blanks
  word "[plugins.".toList
  optional (oneOf isQuote)
  word id
  optional (oneOf isQuote)
  word ".containerd.runtimes.kata]".toList

def handlerHeader (id : Text) : Pattern Char Unit := do
  let u ← handlerHead id
  blankEnd
  pure u

/-- `[ \t]*\[`. -/
def tableStart : Pattern Char Unit := do
  let _ ← blanks
  word ['[']

/-- `[ \t]*runtime_type\s*=\s*(['"])(.*?)\1`. -/
def runtimeHead : Pattern Char Text := do
  let _ ← blanks
  word "runtime_type".toList
  let _ ← spaces
  word ['=']
  let _ ← spaces
  let quote ← oneOf isQuote
  let value ← few (· ≠ '\n')
  word [quote]
  pure value

def runtimeType : Pattern Char Text := do
  let value ← runtimeHead
  trailing
  pure value

end Patterns

/-! ### The edit -/

section Edit

def kataRuntime : Text := "io.containerd.kata.v2".toList

def pluginId (version : ℕ) : Text :=
  if 3 ≤ version then "io.containerd.cri.v1.runtime".toList else "io.containerd.grpc.v1.cri".toList

/-- The line of the array after the edit. -/
def replacement (l : List String) : Text :=
  "disabled_plugins = ".toList ++ (names l).repr.toList

def enabled (l : List String) : List String := l.filter fun plugin => !criPluginIds.contains plugin

/-- The text of a section after its header, up to the next table. -/
def sectionBody (rest : Text) : Text :=
  match search '\n' tableStart rest with
  | some (body, _) => body
  | none => rest

/-- The runtime type that a section sets. -/
def runtimeOf (body : Text) : Option Text := (search '\n' runtimeType body).map fun m => m.2.1

def separator (configuration : Text) : Text :=
  if ['\n', '\n'].isSuffixOf configuration then [] else ['\n']

def headerLine (id : Text) : Text :=
  "[plugins.'".toList ++ (id ++ "'.containerd.runtimes.kata]".toList)

def runtimeLine : Text := "  runtime_type = 'io.containerd.kata.v2'".toList

def kataSection (id : Text) : Text := headerLine id ++ '\n' :: (runtimeLine ++ ['\n'])

/-- The plugin that the version of a configuration stands for. -/
def pluginOf (configuration : Text) : Option Text :=
  (search '\n' versionNumber configuration).map fun m => pluginId ((natOfDigits m.2.1).getD 0)

/-- The part of `configure_cri` after the array. -/
def register (configuration : Text) : Except String Text :=
  match pluginOf configuration with
  | none => .error "migrated containerd config has no version header"
  | some id =>
    match findAll '\n' (handlerHeader id) configuration with
    | [] => .ok (configuration ++ separator configuration ++ kataSection id)
    | [(_, rest)] =>
      if runtimeOf (sectionBody rest) = some kataRuntime then .ok configuration
      else .error "containerd Kata handler exists but does not use io.containerd.kata.v2"
    | _ => .error "containerd config has multiple Kata runtime handler sections"

def configureCri (literals : LiteralEval) (configuration : Text) : Except String Text :=
  match search '\n' disabledArray configuration with
  | none => .error "migrated containerd config has no disabled_plugins array"
  | some (before, d, rest) =>
    match literals.eval d.2.2 with
    | none => .error "cannot parse containerd disabled_plugins array"
    | some v =>
      match strings v with
      | none => .error "containerd disabled_plugins must be an array of strings"
      | some l => register (before ++ replacement (enabled l) ++ rest)

end Edit

end Yggdrasil.Containerd
