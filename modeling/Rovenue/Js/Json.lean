import Rovenue.Txn.Table

/-! JSON values as a script reads them: property access, truthiness, the name a value has as a
property key, and the properties that every object inherits. -/

namespace Rovenue.Js
open Txn (Table)

structure NumberLiteral where
  negative : Bool := false
  whole : ℕ
  fraction : List (Fin 10) := []
  exponent : Option ℤ := none
  deriving DecidableEq

namespace NumberLiteral

def exponentText (e : ℤ) : String := (if e < 0 then "-" else "+") ++ toString e.natAbs

def exponentSuffix : Option ℤ → String
  | none => ""
  | some e => "e" ++ exponentText e

def toText (x : NumberLiteral) : String :=
  (if x.negative then "-" else "") ++ toString x.whole
    ++ (if x.fraction = [] then "" else
      "." ++ String.ofList (x.fraction.map fun d => Nat.digitChar d.val))
    ++ exponentSuffix x.exponent

def value (x : NumberLiteral) : ℚ :=
  let digits := x.fraction.foldl (fun n d => 10 * n + d.val) x.whole
  let scale := x.exponent.getD 0 - x.fraction.length
  (if x.negative then -1 else 1) * digits * (10 : ℚ) ^ scale

def ofNat (n : ℕ) : NumberLiteral := { whole := n }

end NumberLiteral

inductive Json where
  | null
  | bool (b : Bool)
  | num (x : NumberLiteral)
  | str (s : String)
  | arr (elements : List Json)
  | obj (fields : List (String × Json))

abbrev Value := Option Json

namespace Json

def get (value : Json) (name : String) : Value :=
  match value with
  | .obj fields => fields.lookup name
  | _ => none

def elements : Value → List Json
  | some (.arr es) => es
  | _ => []

def text? : Value → Option String
  | some (.str s) => some s
  | _ => none

def number? : Value → Option NumberLiteral
  | some (.num x) => some x
  | _ => none

def bool? : Value → Option Bool
  | some (.bool b) => some b
  | _ => none

def truthy : Value → Bool
  | none | some .null | some (.bool false) => false
  | some (.num x) => x.value ≠ 0
  | some (.str s) => s ≠ ""
  | _ => true

mutual

def toText : Json → Option String
  -- `String(value)`. Nothing comes of a record with a `toString` of its own: no value of JSON can
  -- be called, and the `valueOf` that is tried next gives the record back.
  | .null => some "null"
  | .bool b => some (toString b)
  | .num x => some x.toText
  | .str s => some s
  | .arr es => (joinedTexts es).map fun texts => ",".intercalate texts
  | .obj fields => if fields.any fun f => f.1 = "toString" then none else some "[object Object]"

def joinedTexts : List Json → Option (List String)
  | [] => some []
  | .null :: es => (joinedTexts es).map fun texts => "" :: texts
  | e :: es => (toText e).bind fun text => (joinedTexts es).map fun texts => text :: texts

end

def propertyKey : Value → Option String
  | none => some "undefined"
  | some value => value.toText

@[simp] theorem propertyKey_str (s : String) : propertyKey (some (.str s)) = some s := by
  rw [propertyKey, toText]

end Json

inductive Found where
  | undefined
  | null
  | text (s : String)
  | builtin
  | thrown
  deriving DecidableEq

def isWhiteSpace (c : Char) : Bool :=
  c.toNat ∈ [0x09, 0x0a, 0x0b, 0x0c, 0x0d, 0x20, 0xa0, 0x1680, 0x2028, 0x2029, 0x202f, 0x205f,
    0x3000, 0xfeff] || (0x2000 ≤ c.toNat && c.toNat ≤ 0x200a)

def isBlank (s : String) : Bool := s.toList.all isWhiteSpace

def Found.isWritten : Found → Bool
  | .text s => !isBlank s
  | _ => false

def objectPrototypeKeys : List String :=
  ["constructor", "__defineGetter__", "__defineSetter__", "hasOwnProperty", "__lookupGetter__",
    "__lookupSetter__", "isPrototypeOf", "propertyIsEnumerable", "toString", "valueOf",
    "__proto__", "toLocaleString"]

def objectConstructorKeys : List String :=
  -- the properties of the function `Object` that other functions lack
  ["prototype", "assign", "getOwnPropertyDescriptor", "getOwnPropertyDescriptors",
    "getOwnPropertyNames", "getOwnPropertySymbols", "hasOwn", "is", "preventExtensions", "seal",
    "create", "defineProperties", "defineProperty", "freeze", "getPrototypeOf", "setPrototypeOf",
    "isExtensible", "isFrozen", "isSealed", "keys", "entries", "fromEntries", "values", "groupBy"]

def inheritedProperty (key : String) : Found :=
  if key ∈ objectPrototypeKeys then .builtin else .undefined

def builtinProperty (name key : String) : Found :=
  -- property `key` of the value that a plain object inherits under `name`: `Object.prototype`
  -- itself under `__proto__`, a function under every other name
  if name = "__proto__" then
    if key = "__proto__" then .null else inheritedProperty key
  else if key = "name" then .text (if name = "constructor" then "Object" else name)
  else if key ∈ ["arguments", "caller"] then .thrown
  else if key ∈ ["length", "apply", "bind", "call"] then .builtin
  else if name = "constructor" ∧ key ∈ objectConstructorKeys then .builtin
  else inheritedProperty key

def builtinHasOwn (name key : String) : Bool :=
  if name = "__proto__" then decide (key ∈ objectPrototypeKeys)
  else decide (key ∈ ["length", "name"])
    || (decide (name = "constructor") && decide (key ∈ objectConstructorKeys))

inductive TextRecord where
  | own (table : Table String String)
  | builtin (name : String)

namespace TextRecord

def readName (record : TextRecord) (name : Option String) : Found :=
  match name, record with
  | none, _ => .thrown
  | some name, .own table => (table.get? name).elim (inheritedProperty name) .text
  | some name, .builtin record => builtinProperty record name

def read (record : TextRecord) (key : Value) : Found := record.readName (Json.propertyKey key)

def hasOwn (record : TextRecord) (name : String) : Bool :=
  match record with
  | .own table => (table.get? name).isSome
  | .builtin record => builtinHasOwn record name

def empty : TextRecord := .own Table.empty

end TextRecord

def recordAt (records : Table String (Table String String)) (name : String) : Option TextRecord :=
  match records.get? name with
  | some table => some (.own table)
  | none => if name ∈ objectPrototypeKeys then some (.builtin name) else none

end Rovenue.Js
