import DotmacIntegrator.Foundation.PyDigits
import DotmacIntegrator.Foundation.Text
import DotmacIntegrator.Foundation.PyRepr
import DotmacIntegrator.Foundation.TextReplace

/-!
# Identifiers

`uuid.UUID` reads a text of 32 hexadecimal digits, however it is hyphenated, and prints it in one
way.

## Main definitions

* `Uuid`: a number of 128 bits
* `Uuid.parse`, `Uuid.str`: `UUID(hex)` and `str(uuid)`
-/

/-- An identifier. -/
structure Uuid where
  int : ℕ
  int_lt : int < 2 ^ 128
  deriving DecidableEq

namespace Uuid

variable (U : UnicodeDigits)

/-- A digit of `int(text, 16)`. -/
def hexDigit (c : Char) : Option ℕ :=
  if 'a' ≤ c ∧ c ≤ 'f' then some (c.toNat - 'a'.toNat + 10)
  else if 'A' ≤ c ∧ c ≤ 'F' then some (c.toNat - 'A'.toNat + 10)
  else U.decimal c

/-- The digits of `int(text, 16)`: groups that a single underscore separates. -/
def hexGroups (cs : List Char) : Option ℕ := do
  let groups := cs.splitOn '_'
  if groups.any (· = []) then none
  else
    let ds ← groups.flatten.mapM (hexDigit U)
    return ds.foldl (fun n d => 16 * n + d) 0

/-- `int(text, 16)`, of a text without a minus; none is its `ValueError`. -/
def hexInt (text : String) : Option ℕ :=
  let unsigned := match (Text.strip text).toList with
    | '+' :: cs => cs
    | cs => cs
  match unsigned with
  | '0' :: 'x' :: '_' :: cs => hexGroups U cs
  | '0' :: 'X' :: '_' :: cs => hexGroups U cs
  | '0' :: 'x' :: cs => hexGroups U cs
  | '0' :: 'X' :: cs => hexGroups U cs
  | cs => hexGroups U cs

/-- `UUID(hex)`; none is its `ValueError`. -/
def parse (hex : String) : Option Uuid :=
  let bare := Text.replace "uuid:" "" (Text.replace "urn:" "" hex)
  let digits := Text.replace "-" ""
    (String.ofList (Text.stripChars (fun c => c = '\x7b' || c = '\x7d') bare.toList))
  if digits.length ≠ 32 then none
  else (hexInt U digits).bind fun n => if h : n < 2 ^ 128 then some ⟨n, h⟩ else none

/-- `str(uuid)`. -/
def str (uuid : Uuid) : String :=
  let hex := PyRepr.hexDigits 32 uuid.int
  "-".intercalate [String.ofList (hex.take 8), String.ofList ((hex.drop 8).take 4),
    String.ofList ((hex.drop 12).take 4), String.ofList ((hex.drop 16).take 4),
    String.ofList (hex.drop 20)]

end Uuid
