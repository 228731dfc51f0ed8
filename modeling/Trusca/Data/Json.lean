import Mathlib.Algebra.Group.Int.Defs
import Mathlib.Data.List.Basic

/-! JSON values as the services read and write them. -/

namespace Trusca

/-- From here on an integer is too large to become a floating-point number. -/
def floatOverflow : Int := 2 ^ 1024 - 2 ^ 970

/-- A JSON value; the fields of an object stand in document order. -/
inductive Json where
  | null
  | bool (value : Bool)
  | num (value : Rat)
  | str (value : String)
  | arr (items : List Json)
  | obj (fields : List (String × Json))
  deriving Repr

mutual

/-- Equality of values is found by comparing them structurally. -/
def Json.decEq : (first second : Json) → Decidable (first = second)
  | .null, .null => .isTrue rfl
  | .bool a, .bool b => decidable_of_iff (a = b) (by simp)
  | .num a, .num b => decidable_of_iff (a = b) (by simp)
  | .str a, .str b => decidable_of_iff (a = b) (by simp)
  | .arr a, .arr b =>
      letI := Json.decEqList a b
      decidable_of_iff (a = b) (by simp)
  | .obj a, .obj b =>
      letI := Json.decEqFields a b
      decidable_of_iff (a = b) (by simp)
  -- Two different constructors.
  | .null, .bool _ | .null, .num _ | .null, .str _ | .null, .arr _ | .null, .obj _
  | .bool _, .null | .bool _, .num _ | .bool _, .str _ | .bool _, .arr _ | .bool _, .obj _
  | .num _, .null | .num _, .bool _ | .num _, .str _ | .num _, .arr _ | .num _, .obj _
  | .str _, .null | .str _, .bool _ | .str _, .num _ | .str _, .arr _ | .str _, .obj _
  | .arr _, .null | .arr _, .bool _ | .arr _, .num _ | .arr _, .str _ | .arr _, .obj _
  | .obj _, .null | .obj _, .bool _ | .obj _, .num _ | .obj _, .str _ | .obj _, .arr _ =>
      .isFalse (by simp)

/-- Equality of arrays, item by item. -/
def Json.decEqList : (first second : List Json) → Decidable (first = second)
  | [], [] => .isTrue rfl
  | a :: as, b :: bs =>
      letI := Json.decEq a b
      letI := Json.decEqList as bs
      decidable_of_iff (a = b ∧ as = bs) (by simp)
  | [], _ :: _ => .isFalse (by simp)
  | _ :: _, [] => .isFalse (by simp)

/-- Equality of objects, field by field. -/
def Json.decEqFields : (first second : List (String × Json)) → Decidable (first = second)
  | [], [] => .isTrue rfl
  | (key, a) :: as, (other, b) :: bs =>
      letI := Json.decEq a b
      letI := Json.decEqFields as bs
      decidable_of_iff (key = other ∧ a = b ∧ as = bs) (by simp [and_assoc])
  | [], _ :: _ => .isFalse (by simp)
  | _ :: _, [] => .isFalse (by simp)

end

instance : DecidableEq Json := Json.decEq

namespace Json

/-- The value under a key; absent for other values than objects. -/
def get? : Json → String → Option Json
  | .obj fields, key => (fields.find? fun field => field.1 == key).map Prod.snd
  | _, _ => none

end Json

end Trusca
