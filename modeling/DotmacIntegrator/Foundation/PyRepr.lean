import DotmacIntegrator.Foundation.JsonEncode

/-!
# `repr` and `str`

What Python prints for a value. A character is left as it is when it is `printable`, a property of
the Unicode database that is kept as a parameter. An integer is printed however long it is: the
values printed here were read with at most `Json.maxDigits` digits.

## Main definitions

* `PyRepr.string`, `PyRepr.strings`: `repr` of a string, and of a list of strings
* `PyRepr.json`, `PyRepr.str`: `repr` and `str` of a value
-/

namespace PyRepr

/-- A number in `width` hexadecimal digits at least. -/
def hexDigits (width n : ℕ) : List Char :=
  List.replicate (width - (Nat.toDigits 16 n).length) '0' ++ Nat.toDigits 16 n

variable (printable : Char → Bool)

/-- One character inside the quotes. -/
def char (quote c : Char) : List Char :=
  if c = quote ∨ c = '\\' then ['\\', c]
  else if c = '\t' then ['\\', 't']
  else if c = '\n' then ['\\', 'n']
  else if c = '\r' then ['\\', 'r']
  else if c.toNat < 32 ∨ c.toNat = 127 then '\\' :: 'x' :: hexDigits 2 c.toNat
  else if c.toNat < 127 ∨ printable c then [c]
  else if c.toNat ≤ 0xff then '\\' :: 'x' :: hexDigits 2 c.toNat
  else if c.toNat ≤ 0xffff then '\\' :: 'u' :: hexDigits 4 c.toNat
  else '\\' :: 'U' :: hexDigits 8 c.toNat

/-- `repr` of a string: in double quotes if it has single ones and no double ones. -/
def string (s : String) : String :=
  let quote := if '\'' ∈ s.toList ∧ '"' ∉ s.toList then '"' else '\''
  String.ofList (quote :: s.toList.flatMap (char printable quote) ++ [quote])

/-- `repr` of a list of strings. -/
def strings (xs : List String) : String :=
  "[" ++ ", ".intercalate (xs.map (string printable)) ++ "]"

variable (F : FloatText)

/-- `repr` of a float. -/
def float : PyFloat → String
  | .nan => "nan"
  | .posInf => "inf"
  | .negInf => "-inf"
  | x => String.ofList (F.repr x)

mutual

/-- `repr` of a value. -/
def json : Json → String
  | .null => "None"
  | .bool true => "True"
  | .bool false => "False"
  | .int n => toString n
  | .float x => float F x
  | .str s => string printable s
  | .arr xs => "[" ++ ", ".intercalate (items xs) ++ "]"
  | .obj ms => "\x7b" ++ ", ".intercalate (members ms) ++ "\x7d"

/-- `repr` of the items of a list. -/
def items : List Json → List String
  | [] => []
  | x :: xs => json x :: items xs

/-- `repr` of the members of a dictionary. -/
def members : List (String × Json) → List String
  | [] => []
  | (k, v) :: ms => (string printable k ++ ": " ++ json v) :: members ms

end

/-- `str(value)`: a string is itself. -/
def str : Json → String
  | .str s => s
  | v => json printable F v

end PyRepr
