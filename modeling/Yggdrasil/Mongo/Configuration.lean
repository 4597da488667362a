import Yggdrasil.Library.Tree
import Yggdrasil.Mongo.Container
import Yggdrasil.Python.Number

/-! The configuration file of MongoDB. Options come as nested mappings, some of them under
dotted keys; the guest agent brings them into a nested form, drops what MongoDB no longer
knows and lays them over defaults of its own. -/

namespace Yggdrasil.Mongo

open Python

/-- A value of the configuration that is not a mapping. -/
inductive Scalar where
  | none
  | bool (b : Bool)
  | int (i : ℤ)
  | float (q : ℚ)
  | str (s : String)
  | other (text : String)
  deriving DecidableEq

abbrev Config := Tree Key Scalar

abbrev Entries := List (Key × Config)

/-- An options mapping: as in every dictionary, the keys of each mapping are distinct. -/
structure Options where
  entries : Entries
  distinct : Tree.Distinct (.node entries)

/-! ### Normalisation -/

/-- A string with a dot in it. -/
def dotted : Key → Bool
  | .str s => s.toList.contains '.'
  | _ => false

/-- `[part for part in key.split(".") if part]`. -/
def parts (s : String) : List Key :=
  ((s.toList.splitOn '.').filter (!·.isEmpty)).map fun part => .str (String.ofList part)

/-- Where the value of a key goes. -/
def location : Key → List Key
  | .str s => if s.toList.contains '.' then parts s else [.str s]
  | key => [key]

mutual

def normalizeValue : Config → Except Error Config
  | .leaf a => .ok (.leaf a)
  | .node options => (normalizeEntries options []).map .node

/-- The loop of `_normalize`. Only the value of a key without a dot is normalised itself. -/
def normalizeEntries : Entries → Entries → Except Error Entries
  | [], normalized => .ok normalized
  | (key, value) :: options, normalized =>
    if dotted key then
      match location key with
      | [] => .error (.failed "list index out of range")
      | part :: parts => normalizeEntries options (Tree.put normalized part parts value)
    else
      match normalizeValue value with
      | .ok value => normalizeEntries options (Dict.set normalized key value)
      | .error e => .error e

end

/-! ### Obsolete options -/

/-- `options.pop(name, None)`. -/
def pop (options : Entries) (name : String) : Entries :=
  options.filter fun e => e.1 != .str name

/-- The mapping of the name becomes `m`; an empty one is removed. -/
def replace (options : Entries) (name : String) (m : Entries) : Entries :=
  if m.isEmpty then pop options name else Dict.set options (.str name) (.node m)

/-- A change of the mapping that the name has, if it has one. -/
def within (options : Entries) (name : String) (change : Entries → Entries) : Entries :=
  match Dict.get? options (.str name) with
  | some (.node m) => replace options name (change m)
  | _ => options

/-- Journaling is always on; the switch is gone. -/
def sanitizeJournal (storage : Entries) : Entries :=
  within storage "journal" fun journal => pop journal "enabled"

def sanitizeStorage (options : Entries) : Entries :=
  within options "storage" fun storage => sanitizeJournal (pop storage "mmapv1")

def isStderr : Option Config → Bool
  | some (.leaf (.str s)) => s == "stderr"
  | _ => false

def sanitizeSystemLog (options : Entries) : Entries :=
  match Dict.get? options (.str "systemLog") with
  | some (.node systemLog) =>
    if isStderr (Dict.get? systemLog (.str "destination")) then
      replace options "systemLog" (pop systemLog "destination")
    else options
  | _ => options

def sanitize (options : Entries) : Entries := sanitizeSystemLog (sanitizeStorage options)

def normalize (options : Entries) : Except Error Entries :=
  (normalizeEntries options []).map sanitize

/-! ### The contents of the file -/

/-- What a caller gives as the memory of the instance; it may give nothing. -/
inductive Memory where
  | none
  | int (i : ℤ)
  | str (s : String)

def maxStrDigits : ℕ := 4300

/-- `int(memory)`: a text with too many digits is refused like one without any. -/
def Memory.toInt : Memory → Except NumberError ℤ
  | .none => .error .type
  | .int i => .ok i
  | .str s =>
    if maxStrDigits < (s.toList.filter fun c => (digitValue c).isSome).length then .error .value
    else intOf (.str s)

def Memory.truthy : Memory → Bool
  | .none => false
  | .int i => i != 0
  | .str s => s != ""

/-- Only a true value is converted. -/
def Memory.coerce (memory : Memory) : Memory :=
  if memory.truthy then
    match memory.toInt with
    | .ok i => .int i
    | .error _ => .int 0
  else memory

/-- From here on an integer rounds to no float. -/
def floatBound : ℤ := 2 ^ 1024 - 2 ^ 970

def cacheSizeGb (memory : ℤ) : ℚ := min (max (memory * (1 / 4) / 1024) (256 / 1000)) 2

/-- The cache size for an instance with this memory, none where it is not positive. What has
not been converted cannot be compared with a number. -/
def Memory.cacheSize : Memory → Except Error (Option ℚ)
  | .none => .error (.failed "'>' not supported between instances of 'NoneType' and 'int'")
  | .str _ => .error (.failed "'>' not supported between instances of 'str' and 'int'")
  | .int i =>
    if 0 < i then
      if floatBound ≤ i then .error (.failed "int too large to convert to float")
      else .ok (some (cacheSizeGb i))
    else .ok .none

def defaults (cacheSize : Option ℚ) : Entries :=
  let storage : Entries := [(.str "dbPath", .leaf (.str mongodbDataDir))]
  [(.str "storage", .node (match cacheSize with
    | some q => Dict.set storage (.str "wiredTiger")
        (.node [(.str "engineConfig", .node [(.str "cacheSizeGB", .leaf (.float q))])])
    | .none => storage))]

def configurationContents (contents : Entries) (memory : Memory) : Except Error Entries :=
  match memory.coerce.cacheSize with
  | .error e => .error e
  | .ok cacheSize => (normalize contents).map fun options => Tree.merge options (defaults cacheSize)

/-- What is written to the file: `reset_configuration` normalises once more. -/
def prepareConfiguration (contents : Entries) (memory : Memory) : Except Error Entries :=
  match configurationContents contents memory with
  | .error e => .error e
  | .ok options => normalize options

end Yggdrasil.Mongo
