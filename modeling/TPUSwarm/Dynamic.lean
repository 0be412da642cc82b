import TPUSwarm.Types

/-!
# JSON values in Python code

The built-in handlers read JSON payloads without a schema. What an operation of Python does
depends on the type of the value it meets, and most raise for values of other types.
-/

namespace TPUSwarm

open Common

namespace Json

/-- `type(value).__name__`. -/
def typeName (value : Json) : String :=
  match value.view with
  | .null => "NoneType"
  | .bool _ => "bool"
  | .int _ => "int"
  | .float _ | .inf _ => "float"
  | .str _ => "str"
  | .arr _ => "list"
  | .obj _ => "dict"

/-- `bool(value)`. -/
def truthy (value : Json) : Bool :=
  match value.view with
  | .null => false
  | .bool b => b
  | .int n => n ≠ 0
  | .float x => x ≠ 0
  | .inf _ => true
  | .str s => s ≠ ""
  | .arr items => !items.isEmpty
  | .obj d => !d.entries.isEmpty

/-- `str(value)` of a scalar; floats and containers are shown by their type. -/
def format (value : Json) : String :=
  match value.view with
  | .null => "None"
  | .bool b => if b then "True" else "False"
  | .int n => toString n
  | .str s => s
  | _ => value.typeName

/-- `repr(value)`, as far as `format` shows the value. -/
def repr (value : Json) : String :=
  match value.view with
  | .str s => reprText s
  | _ => value.format

/-- `value[key]`. -/
def subscript (value : Json) (key : String) : Except PyError Json :=
  match value.view with
  | .obj d => (d.get? key).elim (.error ⟨.key, key⟩) .ok
  | .str _ => .error ⟨.type, "string indices must be integers, not 'str'"⟩
  | .arr _ => .error ⟨.type, "list indices must be integers or slices, not str"⟩
  | _ => .error ⟨.type, "'" ++ value.typeName ++ "' object is not subscriptable"⟩

/-- The error of an attribute that values of a type do not have. -/
def attributeError (value : Json) (name : String) : PyError :=
  ⟨.other "AttributeError", "'" ++ value.typeName ++ "' object has no attribute '" ++ name ++ "'"⟩

/-- `value.get(key, default)`. -/
def getOr (value : Json) (key : String) (default : Json) : Except PyError Json :=
  match value.view with
  | .obj d => .ok ((d.get? key).getD default)
  | _ => .error (value.attributeError "get")

/-- A value that is used as a text. -/
def text (value : Json) : Except PyError String :=
  match value.view with
  | .str s => .ok s
  | _ => .error (value.attributeError "strip")

/-- A value that is used as a text or as `None`. -/
def optionalText (value : Json) : Except PyError (Option String) :=
  match value.view with
  | .null => .ok none
  | _ => value.text.map some

/-- The elements that `for item in value` goes through. -/
def items (value : Json) : Except PyError (List Json) :=
  match value.view with
  | .arr items => .ok items
  | .str s => .ok (s.toList.map fun c => .str (String.singleton c))
  | .obj d => .ok (d.keys.map .str)
  | _ => .error ⟨.type, "'" ++ value.typeName ++ "' object is not iterable"⟩

/-- The entry that an element of a sequence stands for in `dict(sequence)`. -/
def entry? (value : Json) : Option (String × Json) :=
  match value.view with
  | .arr [key, item] => match key.view with
    | .str s => some (s, item)
    | _ => none
  | .str s => match s.toList with
    | [a, b] => some (String.singleton a, .str (String.singleton b))
    | _ => none
  | _ => none

/-- `dict(value)`, where all keys are texts. -/
def toDict (value : Json) : Except PyError Mapping :=
  match value.view with
  | .obj d => .ok d
  | _ => do
    match (← value.items).mapM entry? with
    | some entries => return Dict.ofList entries
    | none => throw ⟨.value, "dictionary update sequence element has no length 2"⟩

end Json

/-- The zeros of the scripts that have decimal digits, as of Unicode 14; nine digits follow each. -/
def decimalZeros : List ℕ :=
  [0x30, 0x660, 0x6f0, 0x7c0, 0x966, 0x9e6, 0xa66, 0xae6, 0xb66, 0xbe6, 0xc66, 0xce6, 0xd66, 0xde6,
    0xe50, 0xed0, 0xf20, 0x1040, 0x1090, 0x17e0, 0x1810, 0x1946, 0x19d0, 0x1a80, 0x1a90, 0x1b50,
    0x1bb0, 0x1c40, 0x1c50, 0xa620, 0xa8d0, 0xa900, 0xa9d0, 0xa9f0, 0xaa50, 0xabf0, 0xff10, 0x104a0,
    0x10d30, 0x11066, 0x110f0, 0x11136, 0x111d0, 0x112f0, 0x11450, 0x114d0, 0x11650, 0x116c0,
    0x11730, 0x118e0, 0x11950, 0x11c50, 0x11d50, 0x11da0, 0x16a60, 0x16ac0, 0x16b50, 0x1d7ce,
    0x1d7d8, 0x1d7e2, 0x1d7ec, 0x1d7f6, 0x1e140, 0x1e2f0, 0x1e950, 0x1fbf0]

/-- `unicodedata.decimal`. -/
def decimal? (c : Char) : Option ℕ :=
  (decimalZeros.find? fun first => first ≤ c.toNat && c.toNat ≤ first + 9).map (c.toNat - ·)

/-- The value of a decimal numeral; an underscore may stand between two digits. -/
def numeral (value : ℕ) (afterDigit : Bool) : List Char → Option ℕ
  | [] => if afterDigit then some value else none
  | c :: rest =>
    match decimal? c with
    | some digit => numeral (10 * value + digit) true rest
    | none => if c = '_' && afterDigit then numeral value false rest else none

/-- `sys.get_int_max_str_digits()`. -/
def maxStrDigits : ℕ := 4300

/-- The white space around a number that `int` allows; `str.strip` removes four more separators. -/
def isIntSpace (c : Char) : Bool := isSpace c && !(0x1c ≤ c.toNat && c.toNat ≤ 0x1f)

/-- Whether a text begins with a minus sign, and what follows the sign, without the white space around it. -/
def signedDigits (s : String) : Bool × List Char :=
  match (((s.toList.dropWhile isIntSpace).reverse).dropWhile isIntSpace).reverse with
  | '-' :: digits => (true, digits)
  | '+' :: digits => (false, digits)
  | digits => (false, digits)

/-- The number of digits of the numeral that a text begins with. -/
def digitCount (s : String) : ℕ :=
  ((signedDigits s).2.takeWhile fun c => (decimal? c).isSome || c = '_').countP fun c => (decimal? c).isSome

/-- The integer that a text spells, with white space around it and a sign. -/
def spelledInt (s : String) : Option ℤ :=
  if digitCount s > maxStrDigits then none
  else (numeral 0 false (signedDigits s).2).map fun n => if (signedDigits s).1 then -(n : ℤ) else n

/-- What `int(s)` raises for a text that spells no integer, or one that is too long. -/
def intError (s : String) : PyError :=
  if digitCount s > maxStrDigits then
    ⟨.value, "Exceeds the limit (4300 digits) for integer string conversion: value has " ++
      toString (digitCount s) ++
      " digits; use sys.set_int_max_str_digits() to increase the limit"⟩
  else ⟨.value, "invalid literal for int() with base 10: " ++ reprText s⟩

namespace Json

/-- `int(value)`. -/
def toInt (value : Json) : Except PyError ℤ :=
  match value.view with
  | .bool b => .ok (if b then 1 else 0)
  | .int n => .ok n
  | .float x => .ok (x.num.tdiv x.den)
  | .inf _ => .error ⟨.other "OverflowError", "cannot convert float infinity to integer"⟩
  | .str s => (spelledInt s).elim (.error (intError s)) .ok
  | _ => .error ⟨.type, "int() argument must be a string, a bytes-like object or a real number, not '" ++
      value.typeName ++ "'"⟩

/-- `Priority(value)`: the member whose value is equal, also as a boolean or a float. -/
def toPriority (value : Json) : Except PyError Priority :=
  let member := match value.view with
    | .int n => Priority.ofInt? n
    | .float x => if x.den = 1 then Priority.ofInt? x.num else none
    | .bool b => Priority.ofInt? (if b then 1 else 0)
    | _ => none
  member.elim (.error ⟨.value, value.repr ++ " is not a valid Priority"⟩) .ok

end Json

end TPUSwarm
