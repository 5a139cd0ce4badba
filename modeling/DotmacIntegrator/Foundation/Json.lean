import DotmacIntegrator.Foundation.Dict
import Mathlib.Data.Rat.Defs
import Mathlib.Algebra.Order.Ring.Rat

/-!
# JSON values, as Python holds them

Integers and floats are different types, `bool` is not a number, and an object is an
insertion-ordered dictionary. Floats are the rationals, a negative zero, the two infinities and
NaN; every order comparison with NaN is false.

## Main definitions

* `PyFloat`, `PyFloat.value?`, `PyFloat.lt`, `PyFloat.gt`: floats and their comparisons
* `Json`: values; `Json.truthy`: Python's truth of a value
* `Json.floats`, `Json.ints`, `Json.texts`: the numbers and the texts occurring in a value
* `Json.DistinctKeys`: every object in the value has distinct keys

## Main results

* `Json.induction`: structural induction through arrays and objects
-/

/-- A Python float. -/
inductive PyFloat
  | finite (q : ℚ)
  | negZero
  | posInf
  | negInf
  | nan
  deriving DecidableEq, Repr

namespace PyFloat

/-- The number a finite float is. -/
def value? : PyFloat → Option ℚ
  | finite q => some q
  | negZero => some 0
  | _ => none

/-- Not NaN and not an infinity. -/
def IsFinite (x : PyFloat) : Prop := x.value?.isSome

instance (x : PyFloat) : Decidable x.IsFinite := inferInstanceAs (Decidable (_ = true))

/-- `x < bound`. -/
def lt : PyFloat → ℚ → Bool
  | finite q, bound => q < bound
  | negZero, bound => 0 < bound
  | posInf, _ => false
  | negInf, _ => true
  | nan, _ => false

/-- `x > bound`. -/
def gt : PyFloat → ℚ → Bool
  | finite q, bound => bound < q
  | negZero, bound => bound < 0
  | posInf, _ => true
  | negInf, _ => false
  | nan, _ => false

end PyFloat

/-- A JSON value. -/
inductive Json
  | null
  | bool (b : Bool)
  | int (n : ℤ)
  | float (x : PyFloat)
  | str (s : String)
  | arr (items : List Json)
  | obj (members : List (String × Json))
  deriving Repr

namespace Json

mutual

/-- Equality of values is decidable. -/
def decEq : (v w : Json) → Decidable (v = w)
  | null, null => isTrue rfl
  | bool b, bool c => decidable_of_iff (b = c) (by simp)
  | int m, int n => decidable_of_iff (m = n) (by simp)
  | float x, float y => decidable_of_iff (x = y) (by simp)
  | str s, str t => decidable_of_iff (s = t) (by simp)
  | arr xs, arr ys =>
    match decEqItems xs ys with
    | isTrue h => isTrue (by rw [h])
    | isFalse h => isFalse (by simpa using h)
  | obj ms, obj ns =>
    match decEqMembers ms ns with
    | isTrue h => isTrue (by rw [h])
    | isFalse h => isFalse (by simpa using h)
  | null, bool _ | null, int _ | null, float _ | null, str _ | null, arr _ | null, obj _
  | bool _, null | bool _, int _ | bool _, float _ | bool _, str _ | bool _, arr _ | bool _, obj _
  | int _, null | int _, bool _ | int _, float _ | int _, str _ | int _, arr _ | int _, obj _
  | float _, null | float _, bool _ | float _, int _ | float _, str _ | float _, arr _
  | float _, obj _
  | str _, null | str _, bool _ | str _, int _ | str _, float _ | str _, arr _ | str _, obj _
  | arr _, null | arr _, bool _ | arr _, int _ | arr _, float _ | arr _, str _ | arr _, obj _
  | obj _, null | obj _, bool _ | obj _, int _ | obj _, float _ | obj _, str _ | obj _, arr _ =>
    isFalse (by simp)

/-- Equality of the items of two arrays. -/
def decEqItems : (xs ys : List Json) → Decidable (xs = ys)
  | [], [] => isTrue rfl
  | [], _ :: _ | _ :: _, [] => isFalse (by simp)
  | x :: xs, y :: ys =>
    match decEq x y, decEqItems xs ys with
    | isTrue h, isTrue h' => isTrue (by rw [h, h'])
    | isFalse h, _ => isFalse fun e => h (List.cons.inj e).1
    | _, isFalse h => isFalse fun e => h (List.cons.inj e).2

/-- Equality of the members of two objects. -/
def decEqMembers : (ms ns : List (String × Json)) → Decidable (ms = ns)
  | [], [] => isTrue rfl
  | [], _ :: _ | _ :: _, [] => isFalse (by simp)
  | (k, v) :: ms, (l, w) :: ns =>
    match decEq v w, decEqMembers ms ns, (inferInstance : Decidable (k = l)) with
    | isTrue h, isTrue h', isTrue h'' => isTrue (by rw [h, h', h''])
    | isFalse h, _, _ => isFalse fun e => h (Prod.mk.inj (List.cons.inj e).1).2
    | _, isFalse h, _ => isFalse fun e => h (List.cons.inj e).2
    | _, _, isFalse h => isFalse fun e => h (Prod.mk.inj (List.cons.inj e).1).1

end

instance : DecidableEq Json := decEq

/-- Structural induction through arrays and objects. -/
@[induction_eliminator]
theorem induction {P : Json → Prop} (null : P null) (bool : ∀ b, P (bool b))
    (int : ∀ n, P (int n)) (float : ∀ x, P (float x)) (str : ∀ s, P (str s))
    (arr : ∀ xs, (∀ x ∈ xs, P x) → P (arr xs))
    (obj : ∀ ms, (∀ p ∈ ms, P p.2) → P (obj ms)) : ∀ v, P v :=
  @Json.rec P (fun xs => ∀ x ∈ xs, P x) (fun ms => ∀ p ∈ ms, P p.2) (fun p => P p.2)
    null bool int float str arr obj
    (by simp) (by simp +contextual)
    (by simp) (by simp +contextual)
    (fun _ _ h => h)

/-- Python's `bool(value)`. -/
def truthy : Json → Bool
  | null => false
  | bool b => b
  | int n => n ≠ 0
  | float x => x.value? ≠ some 0
  | str s => s ≠ ""
  | arr xs => xs ≠ []
  | obj ms => ms ≠ []

mutual

/-- The floats occurring in a value. -/
def floats : Json → List PyFloat
  | float x => [x]
  | arr xs => floatsItems xs
  | obj ms => floatsMembers ms
  | _ => []

/-- The floats occurring in the items of an array. -/
def floatsItems : List Json → List PyFloat
  | [] => []
  | x :: xs => floats x ++ floatsItems xs

/-- The floats occurring in the members of an object. -/
def floatsMembers : List (String × Json) → List PyFloat
  | [] => []
  | (_, v) :: ms => floats v ++ floatsMembers ms

end

mutual

/-- The integers occurring in a value. -/
def ints : Json → List ℤ
  | int n => [n]
  | arr xs => intsItems xs
  | obj ms => intsMembers ms
  | _ => []

/-- The integers occurring in the items of an array. -/
def intsItems : List Json → List ℤ
  | [] => []
  | x :: xs => ints x ++ intsItems xs

/-- The integers occurring in the members of an object. -/
def intsMembers : List (String × Json) → List ℤ
  | [] => []
  | (_, v) :: ms => ints v ++ intsMembers ms

end

mutual

/-- The texts occurring in a value, the keys of its objects among them. -/
def texts : Json → List String
  | str s => [s]
  | arr xs => textsItems xs
  | obj ms => textsMembers ms
  | _ => []

/-- The texts occurring in the items of an array. -/
def textsItems : List Json → List String
  | [] => []
  | x :: xs => texts x ++ textsItems xs

/-- The texts occurring in the members of an object. -/
def textsMembers : List (String × Json) → List String
  | [] => []
  | (k, v) :: ms => k :: texts v ++ textsMembers ms

end

mutual

/-- Every object in the value has distinct keys. -/
def DistinctKeys : Json → Prop
  | arr xs => DistinctKeysItems xs
  | obj ms => (Dict.keys ms).Nodup ∧ DistinctKeysMembers ms
  | _ => True

/-- Every object in the items of an array has distinct keys. -/
def DistinctKeysItems : List Json → Prop
  | [] => True
  | x :: xs => DistinctKeys x ∧ DistinctKeysItems xs

/-- Every object in the members of an object has distinct keys. -/
def DistinctKeysMembers : List (String × Json) → Prop
  | [] => True
  | (_, v) :: ms => DistinctKeys v ∧ DistinctKeysMembers ms

end

/-! ### Numbers and keys of arrays and objects -/

theorem mem_floatsItems {x : PyFloat} {xs : List Json} :
    x ∈ floatsItems xs ↔ ∃ v ∈ xs, x ∈ v.floats := by
  induction xs with
  | nil => simp [floatsItems]
  | cons v xs ih => simp [floatsItems, ih]

theorem mem_floatsMembers {x : PyFloat} {ms : List (String × Json)} :
    x ∈ floatsMembers ms ↔ ∃ p ∈ ms, x ∈ p.2.floats := by
  induction ms with
  | nil => simp [floatsMembers]
  | cons p ms ih => simp [floatsMembers, ih]

theorem mem_textsItems {t : String} {xs : List Json} :
    t ∈ textsItems xs ↔ ∃ v ∈ xs, t ∈ v.texts := by
  induction xs with
  | nil => simp [textsItems]
  | cons v xs ih => simp [textsItems, ih]

theorem mem_textsMembers {t : String} {ms : List (String × Json)} :
    t ∈ textsMembers ms ↔ ∃ p ∈ ms, t = p.1 ∨ t ∈ p.2.texts := by
  induction ms with
  | nil => simp [textsMembers]
  | cons p ms ih => simp [textsMembers, ih, or_assoc]

/-- Every float occurring in the value meets `P`. -/
def AllFloats (P : PyFloat → Prop) (v : Json) : Prop := ∀ x ∈ v.floats, P x

theorem AllFloats.item {P : PyFloat → Prop} {xs : List Json} (h : AllFloats P (arr xs)) {v : Json}
    (hv : v ∈ xs) : AllFloats P v :=
  fun x hx => h x (mem_floatsItems.mpr ⟨v, hv, hx⟩)

theorem AllFloats.member {P : PyFloat → Prop} {ms : List (String × Json)}
    (h : AllFloats P (obj ms)) {p : String × Json} (hp : p ∈ ms) : AllFloats P p.2 :=
  fun x hx => h x (mem_floatsMembers.mpr ⟨p, hp, hx⟩)

theorem AllFloats.obj {P : PyFloat → Prop} {ms : List (String × Json)}
    (h : ∀ p ∈ ms, AllFloats P p.2) : AllFloats P (obj ms) := by
  intro x hx
  obtain ⟨p, hp, hxp⟩ := mem_floatsMembers.mp hx
  exact h p hp x hxp

theorem AllFloats.arr {P : PyFloat → Prop} {xs : List Json} (h : ∀ v ∈ xs, AllFloats P v) :
    AllFloats P (arr xs) := by
  intro x hx
  obtain ⟨v, hv, hxv⟩ := mem_floatsItems.mp hx
  exact h v hv x hxv

theorem mem_intsItems {n : ℤ} {xs : List Json} :
    n ∈ intsItems xs ↔ ∃ v ∈ xs, n ∈ v.ints := by
  induction xs with
  | nil => simp [intsItems]
  | cons v xs ih => simp [intsItems, ih]

theorem mem_intsMembers {n : ℤ} {ms : List (String × Json)} :
    n ∈ intsMembers ms ↔ ∃ p ∈ ms, n ∈ p.2.ints := by
  induction ms with
  | nil => simp [intsMembers]
  | cons p ms ih => simp [intsMembers, ih]

theorem distinctKeysItems_iff {xs : List Json} :
    DistinctKeysItems xs ↔ ∀ v ∈ xs, v.DistinctKeys := by
  induction xs with
  | nil => simp [DistinctKeysItems]
  | cons v xs ih => simp [DistinctKeysItems, ih]

theorem distinctKeysMembers_iff {ms : List (String × Json)} :
    DistinctKeysMembers ms ↔ ∀ p ∈ ms, p.2.DistinctKeys := by
  induction ms with
  | nil => simp [DistinctKeysMembers]
  | cons p ms ih => simp [DistinctKeysMembers, ih]

end Json
