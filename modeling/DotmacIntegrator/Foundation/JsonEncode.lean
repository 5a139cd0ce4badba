import DotmacIntegrator.Foundation.Json
import Mathlib.Data.List.Sort
import Mathlib.Data.String.Basic

/-!
# Writing JSON

The compact, ASCII-only text of a value: no whitespace, every character outside the printable
ASCII range escaped, characters beyond the basic plane as a surrogate pair. An integer of more
than `maxDigits` digits has no text. The canonical text sorts the keys of every object first.

## Main definitions

* `FloatText`: how floats are written and read
* `Json.encode`: the compact text of a value, with keys in insertion order
* `Json.sortKeys`: the value with the keys of every object sorted
* `Json.dumps`, `Json.dumpsSorted`: the texts, unless an integer is too long
-/

/-- How floats are written and read back. -/
structure FloatText where
  repr : PyFloat → List Char
  read : List Char → PyFloat

namespace Json

/-- The most digits an integer may be written or read with. -/
def maxDigits : ℕ := 4300

/-- A lower-case hexadecimal digit. -/
def hexChar (n : ℕ) : Char := Nat.digitChar n

/-- Four hexadecimal digits of a number below `0x10000`. -/
def hexChars (n : ℕ) : List Char :=
  [hexChar (n / 4096 % 16), hexChar (n / 256 % 16), hexChar (n / 16 % 16), hexChar (n % 16)]

/-- One character inside a JSON string. -/
def escapeChar (c : Char) : List Char :=
  if c = '"' then ['\\', '"']
  else if c = '\\' then ['\\', '\\']
  else if c = '\n' then ['\\', 'n']
  else if c = '\r' then ['\\', 'r']
  else if c = '\t' then ['\\', 't']
  else if c = '\x0c' then ['\\', 'f']
  else if c = '\x08' then ['\\', 'b']
  else if 32 ≤ c.toNat ∧ c.toNat ≤ 126 then [c]
  else if c.toNat < 0x10000 then '\\' :: 'u' :: hexChars c.toNat
  else
    '\\' :: 'u' :: hexChars (0xd800 + (c.toNat - 0x10000) / 1024) ++
      '\\' :: 'u' :: hexChars (0xdc00 + (c.toNat - 0x10000) % 1024)

/-- The characters inside a JSON string. -/
def escape (cs : List Char) : List Char := cs.flatMap escapeChar

@[simp] theorem escape_nil : escape [] = [] := rfl

@[simp] theorem escape_cons (c : Char) (cs : List Char) :
    escape (c :: cs) = escapeChar c ++ escape cs := rfl

/-- A JSON string. -/
def encodeString (s : String) : List Char := '"' :: escape s.toList ++ ['"']

/-- An integer, in decimal. -/
def encodeInt (n : ℤ) : List Char :=
  if n < 0 then '-' :: Nat.toDigits 10 n.natAbs else Nat.toDigits 10 n.natAbs

variable (F : FloatText)

/-- A float; the three that are no numbers by name. -/
def encodeFloat : PyFloat → List Char
  | .nan => "NaN".toList
  | .posInf => "Infinity".toList
  | .negInf => "-Infinity".toList
  | x => F.repr x

mutual

/-- The compact text of a value. -/
def encode : Json → List Char
  | null => "null".toList
  | bool true => "true".toList
  | bool false => "false".toList
  | int n => encodeInt n
  | float x => encodeFloat F x
  | str s => encodeString s
  | arr [] => ['[', ']']
  | arr (x :: xs) => '[' :: (encode x ++ encodeItems xs)
  | obj [] => ['{', '}']
  | obj ((k, v) :: ms) => '{' :: (encodeString k ++ ':' :: (encode v ++ encodeMembers ms))

/-- The items behind the first, and the closing bracket. -/
def encodeItems : List Json → List Char
  | [] => [']']
  | x :: xs => ',' :: (encode x ++ encodeItems xs)

/-- The members behind the first, and the closing brace. -/
def encodeMembers : List (String × Json) → List Char
  | [] => ['}']
  | (k, v) :: ms => ',' :: (encodeString k ++ ':' :: (encode v ++ encodeMembers ms))

end

mutual

/-- The value with the keys of every object sorted. -/
def sortKeys : Json → Json
  | arr xs => arr (sortItems xs)
  | obj ms => obj ((sortMembers ms).mergeSort fun p q => p.1 ≤ q.1)
  | v => v

/-- The items of an array, each with its keys sorted. -/
def sortItems : List Json → List Json
  | [] => []
  | x :: xs => sortKeys x :: sortItems xs

/-- The members of an object, the value of each with its keys sorted. -/
def sortMembers : List (String × Json) → List (String × Json)
  | [] => []
  | (k, v) :: ms => (k, sortKeys v) :: sortMembers ms

end

/-- Every integer in the value has at most `maxDigits` digits. -/
def Printable (v : Json) : Prop := ∀ n ∈ v.ints, (Nat.toDigits 10 n.natAbs).length ≤ maxDigits

instance (v : Json) : Decidable v.Printable := inferInstanceAs (Decidable (∀ _ ∈ _, _))

theorem Printable.str (s : String) : (str s).Printable := by simp [Printable, ints]

theorem Printable.obj {ms : List (String × Json)} (h : ∀ p ∈ ms, p.2.Printable) :
    (Json.obj ms).Printable := by
  intro n hn
  obtain ⟨p, hp, hpn⟩ := mem_intsMembers.mp hn
  exact h p hp n hpn

theorem Printable.member {ms : List (String × Json)} (h : (Json.obj ms).Printable)
    {p : String × Json} (hp : p ∈ ms) : p.2.Printable :=
  fun n hn => h n (mem_intsMembers.mpr ⟨p, hp, hn⟩)

/-- `json.dumps(v, separators=(",", ":"))`; none where an integer is too long. -/
def dumps (v : Json) : Option String :=
  if v.Printable then some (String.ofList (encode F v)) else none

/-- `json.dumps(v, sort_keys=True, separators=(",", ":"))`. -/
def dumpsSorted (v : Json) : Option String :=
  if v.Printable then some (String.ofList (encode F v.sortKeys)) else none

theorem dumps_eq_some {v : Json} {s : String} :
    dumps F v = some s ↔ v.Printable ∧ s = String.ofList (encode F v) := by
  unfold dumps
  split_ifs with h
  · simp [h, eq_comm]
  · simp [h]

theorem dumpsSorted_eq_some {v : Json} {s : String} :
    dumpsSorted F v = some s ↔ v.Printable ∧ s = String.ofList (encode F v.sortKeys) := by
  unfold dumpsSorted
  split_ifs with h
  · simp [h, eq_comm]
  · simp [h]

/-! ### Integer texts -/

theorem isDigit_of_mem_toDigits {n : ℕ} {c : Char} (h : c ∈ Nat.toDigits 10 n) : c.isDigit :=
  Nat.isDigit_of_mem_toDigits (by decide) (by decide) h

/-- Only zero is written with a leading zero. -/
theorem toDigits_head_ne_zero {n : ℕ} (hn : n ≠ 0) :
    ∃ c cs, Nat.toDigits 10 n = c :: cs ∧ c ≠ '0' := by
  -- Induction on the number of digits: the first digit is that of `n / 10`.
  induction n using Nat.strong_induction_on with
  | _ n ih =>
    by_cases hlt : n < 10
    · exact ⟨_, [], Nat.toDigits_of_lt_base hlt, by simpa using hn⟩
    · obtain ⟨c, cs, hc, hne⟩ := ih (n / 10) (by omega) (by omega)
      exact ⟨c, cs ++ [Nat.digitChar (n % 10)], by
        rw [Nat.toDigits_of_base_le (by decide) (by omega), hc, List.cons_append], hne⟩

end Json
