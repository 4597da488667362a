import Yggdrasil.Library.Dict
import Yggdrasil.Python.Text

/-! Python values as the scripts meet them: the JSON values of a report and the
objects of a service response. A float is its `repr`, which determines it. An
object is what the code can ask of it: its attributes, the mappings its `to_dict`,
`_info` and `__dict__` give, its `isoformat` and its `str`. -/

namespace Yggdrasil.Python

/-- A mapping key; a key that is not a string is its `str` and its truth value. -/
inductive Key where
  | str (s : String)
  | other (text : String) (truthy : Bool)
  deriving DecidableEq

inductive SeqKind where
  | list | tuple | set
  deriving DecidableEq

inductive Value where
  | none
  | bool (b : Bool)
  | int (i : ℤ)
  | float (repr : String)
  | str (s : String)
  | seq (kind : SeqKind) (items : List Value)
  | dict (items : List (Key × Value))
  | object (attrs : List (String × Value)) (toDict info vars : Option (List (Key × Value)))
      (isoformat : Option String) (text : String)

instance : Inhabited Value := ⟨.none⟩

/-- The items of a mapping, in order. -/
abbrev Mapping := List (Key × Value)

def Key.text : Key → String
  | .str s => s
  | .other text _ => text

namespace Value

/-- A JSON array and a JSON object with string keys. -/
abbrev list (items : List Value) : Value := .seq .list items

abbrev record (items : List (String × Value)) : Value :=
  .dict (items.map fun p => (.str p.1, p.2))

def isNone : Value → Bool
  | .none => true
  | _ => false

def truthy : Value → Bool
  | .none => false
  | .bool b => b
  | .int i => i != 0
  | .float r => r != "0.0" && r != "-0.0"
  | .str s => s != ""
  | .seq _ items => !items.isEmpty
  | .dict items => !items.isEmpty
  | .object .. => true

/-- `a or b`. -/
def orElse (a b : Value) : Value := if a.truthy then a else b

def seqText : SeqKind → List String → String
  | .list, items => "[" ++ ", ".intercalate items ++ "]"
  | .tuple, [item] => "(" ++ item ++ ",)"
  | .tuple, items => "(" ++ ", ".intercalate items ++ ")"
  | .set, [] => "set()"
  | .set, items => "\x7b" ++ ", ".intercalate items ++ "\x7d"

mutual

def repr : Value → String
  | .none => "None"
  | .bool b => if b then "True" else "False"
  | .int i => toString i
  | .float r => r
  | .str s => reprStr s
  | .seq kind items => seqText kind (reprItems items)
  | .dict items => "\x7b" ++ ", ".intercalate (reprEntries items) ++ "\x7d"
  | .object _ _ _ _ _ text => text

def reprItems : List Value → List String
  | [] => []
  | v :: vs => v.repr :: reprItems vs

def reprEntries : List (Key × Value) → List String
  | [] => []
  | (.str s, v) :: es => (reprStr s ++ ": " ++ v.repr) :: reprEntries es
  | (.other text _, v) :: es => (text ++ ": " ++ v.repr) :: reprEntries es

end

/-- `str(value)`. -/
def toStr : Value → String
  | .str s => s
  | v => v.repr

end Value

/-- `mapping.get(key)`, with `None` for an absent key. -/
def Mapping.get (m : Mapping) (key : String) : Value := (Dict.get? m (.str key)).getD .none

end Yggdrasil.Python
