import LongHorizonOS.KeyedRows
import Mathlib.Data.Rat.Defs

/-! The JSON values that `metadata`, `execution_spec` and `obligation` carry,
and the few string operations the runtime applies to them. The models are
persisted as JSON, so a callable never occurs as a value. -/
namespace LongHorizonOS.PythonValues
open KeyedRows

mutual
/-- A value decoded from JSON. A finite float is the rational number it denotes. -/
inductive Json where
  | null
  | bool (b : Bool)
  | int (n : Int)
  | float (q : Rat)
  | infinity (negative : Bool)
  | nan
  | str (s : String)
  | arr (items : JsonItems)
  | obj (fields : JsonFields)
  deriving DecidableEq

inductive JsonItems where
  | nil
  | cons (head : Json) (tail : JsonItems)
  deriving DecidableEq

inductive JsonFields where
  | nil
  | cons (name : String) (value : Json) (rest : JsonFields)
  deriving DecidableEq
end

/-- A `dict[str, Any]` in insertion order. -/
abbrev Dict := List (String × Json)

namespace Dict

/-- `d.get(name)` -/
def get (d : Dict) (name : String) : Option Json :=
  (lookup Prod.fst d name).map Prod.snd

/-- `d[name] = value` -/
def set (d : Dict) (name : String) (value : Json) : Dict :=
  upsert Prod.fst (name, value) d

/-- `d.setdefault(name, value)` -/
def setDefault (d : Dict) (name : String) (value : Json) : Dict :=
  if (d.get name).isSome then d else d.set name value

/-- `{**d, **more}` -/
def merge (d more : Dict) : Dict := more.foldl (fun merged entry => merged.set entry.1 entry.2) d

/-- `d.pop(name, None)` -/
def pop (d : Dict) (name : String) : Dict :=
  d.filter fun entry => decide (entry.1 ≠ name)

theorem get_set : (set d name value).get other = if other = name then some value else d.get other := by
  rw [get, set, lookup_upsert]
  by_cases hit : other = name <;> simp [hit, get]

end Dict

namespace Json

/-- Python truth value. -/
def truthy : Json → Bool
  | .null => false
  | .bool b => b
  | .int n => decide (n ≠ 0)
  | .float q => decide (q ≠ 0)
  | .infinity _ | .nan => true
  | .str s => decide (s ≠ "")
  | .arr items => decide (items ≠ .nil)
  | .obj fields => decide (fields ≠ .nil)

/-- `isinstance(value, int)`; a `bool` is an `int`. -/
def asInt : Json → Option Int
  | .bool b => some (if b then 1 else 0)
  | .int n => some n
  | _ => none

/-- `int(value) if isinstance(value, (int, float)) else 0`, which cuts a finite
float towards zero and raises for the others. -/
def truncate : Json → Option Int
  | .bool b => some (if b then 1 else 0)
  | .int n => some n
  | .float q => some (q.num.tdiv q.den)
  | .infinity _ | .nan => none
  | _ => some 0

def asStr : Json → Option String
  | .str s => some s
  | _ => none

def findField (name : String) : JsonFields → Option Json
  | .nil => none
  | .cons key value rest => if key = name then some value else findField name rest

/-- `value.get(name)` of a `dict`. -/
def field (value : Json) (name : String) : Option Json :=
  match value with
  | .obj fields => findField name fields
  | _ => none

def itemList : JsonItems → List Json
  | .nil => []
  | .cons head tail => head :: itemList tail

def ofList : List Json → JsonItems
  | [] => .nil
  | head :: tail => .cons head (ofList tail)

/-- A `dict` as a value. -/
def ofDict (d : Dict) : Json := .obj (d.foldr (fun entry rest => .cons entry.1 entry.2 rest) .nil)

def ofTexts (texts : List String) : Json := .arr (ofList (texts.map .str))

@[simp] theorem itemList_ofList (values : List Json) : itemList (ofList values) = values := by
  induction values with
  | nil => rfl
  | cons head tail ih => rw [ofList, itemList, ih]

end Json

/-- The characters `str.strip()` removes. -/
def isSpace (c : Char) : Bool :=
  decide (c.toNat ∈ [0x20, 0x85, 0xa0, 0x1680, 0x2028, 0x2029, 0x202f, 0x205f, 0x3000]) ||
    decide (0x09 ≤ c.toNat ∧ c.toNat ≤ 0x0d) || decide (0x1c ≤ c.toNat ∧ c.toNat ≤ 0x1f) ||
    decide (0x2000 ≤ c.toNat ∧ c.toNat ≤ 0x200a)

/-- `text.strip()` -/
def strip (text : String) : String :=
  String.ofList ((text.toList.dropWhile isSpace).reverse.dropWhile isSpace).reverse

/-- `text.lower()` as far as a comparison with an ASCII text can tell: besides
the capital letters only the Kelvin sign turns into an ASCII character. -/
def lower (text : String) : String :=
  String.ofList (text.toList.map fun c => if c.toNat = 0x212a then 'k' else c.toLower)

/-- `text.removeprefix(lead)` -/
def removeLead (text lead : String) : String :=
  if lead.toList.isPrefixOf text.toList then String.ofList (text.toList.drop lead.length) else text

/-- `repr(text)` for printable text: single quotes unless only they occur. -/
def quoted (text : String) : String :=
  let mark := if text.toList.contains '\'' && !text.toList.contains '"' then "\"" else "'"
  mark ++ text ++ mark

/-- `repr` of a tuple of texts. -/
def quotedTuple : List String → String
  | [single] => "(" ++ quoted single ++ ",)"
  | texts => "(" ++ ", ".intercalate (texts.map quoted) ++ ")"

end LongHorizonOS.PythonValues
