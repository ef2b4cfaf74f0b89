import Gamebook.Table
import Gamebook.Number.Binary64

/-!
# JSON values

Whole numbers and binary64 numbers are kept apart; object fields keep their order.

* `Json`            : the values.
* `Json.same`       : the same value: kinds are told apart except that a whole number equals a
  binary64 number of the same size; fields in any order.
* `Json.finiteOnly` : numbers that are not finite replaced by null, as story documents are written.
* `Json.allFinite`  : every number in the fields looked at is finite.
* `Json.isWithin`   : the value is nested no deeper than a number of levels.
* `Json.get?`, `Json.field` : look-up in an object.

`Json.same` models `_json_equal`.
-/

set_option autoImplicit false

namespace Gamebook

/-- A JSON value. -/
inductive Json where
  | null
  | bool (b : Bool)
  | int (n : Int)
  | float (x : Binary64)
  | str (s : String)
  | arr (items : List Json)
  | obj (fields : List (String × Json))

namespace Json

instance : Inhabited Json := ⟨.null⟩

/-- The value of a field; `none` when it is absent or the value is no object. -/
def get? : Json → String → Option Json
  | .obj fields, key => Table.get? fields key
  | _, _ => none

/-- The value of a field, null when it is absent. -/
def field (v : Json) (key : String) : Json := (v.get? key).getD .null

def isNull : Json → Bool
  | .null => true
  | _ => false

def asStr? : Json → Option String
  | .str s => some s
  | _ => none

def asObj? : Json → Option (Table Json)
  | .obj fields => some fields
  | _ => none

def asArr? : Json → Option (List Json)
  | .arr items => some items
  | _ => none

/-- Nothing: null, false, zero, the empty text, list or object. -/
def isEmpty : Json → Bool
  | .null => true
  | .bool b => !b
  | .int n => n == 0
  | .float x => x.same (.zero false)
  | .str s => s.isEmpty
  | .arr items => items.isEmpty
  | .obj fields => fields.isEmpty

/-! ## Numbers that are not finite -/

mutual
/-- The value with every number that is not finite replaced by null. -/
def finiteOnly : Json → Json
  | .float x => if x.isFinite then .float x else .null
  | .arr items => .arr (finiteItems items)
  | .obj fields => .obj (finiteFields fields)
  | v => v

def finiteItems : List Json → List Json
  | [] => []
  | v :: rest => finiteOnly v :: finiteItems rest

def finiteFields : List (String × Json) → List (String × Json)
  | [] => []
  | (k, v) :: rest => (k, finiteOnly v) :: finiteFields rest
end

mutual
/-- Every number in the value is finite, the fields left aside that are not looked at. -/
def allFinite (isSeen : String → Bool) : Json → Bool
  | .float x => x.isFinite
  | .arr items => allFiniteItems isSeen items
  | .obj fields => allFiniteFields isSeen fields
  | _ => true

def allFiniteItems (isSeen : String → Bool) : List Json → Bool
  | [] => true
  | v :: rest => allFinite isSeen v && allFiniteItems isSeen rest

def allFiniteFields (isSeen : String → Bool) : List (String × Json) → Bool
  | [] => true
  | (k, v) :: rest => (!isSeen k || allFinite isSeen v) && allFiniteFields isSeen rest
end

/-! ## Nesting -/

mutual
/-- The value is nested no deeper than a number of levels; every list and every object is a level,
and so is the value that holds nothing further. -/
def isWithin (levels : Nat) : Json → Bool
  | .arr items => decide (0 < levels) && areItemsWithin (levels - 1) items
  | .obj fields => decide (0 < levels) && areFieldsWithin (levels - 1) fields
  | _ => decide (0 < levels)

def areItemsWithin (levels : Nat) : List Json → Bool
  | [] => true
  | v :: rest => isWithin levels v && areItemsWithin levels rest

def areFieldsWithin (levels : Nat) : List (String × Json) → Bool
  | [] => true
  | (_, v) :: rest => isWithin levels v && areFieldsWithin levels rest
end

/-! ## Sameness -/

mutual
/-- The same value.  Truth values equal only truth values; numbers compare by size, whole or not. -/
def same : Json → Json → Bool
  | .null, .null => true
  | .bool a, .bool b => a == b
  | .int a, .int b => a == b
  | .int a, .float x => x.toInt? == some a
  | .float x, .int b => x.toInt? == some b
  | .float x, .float y => x.same y
  | .str a, .str b => a == b
  | .arr xs, .arr ys => sameItems xs ys
  | .obj xs, .obj ys => xs.length == ys.length && sameFields xs ys
  | _, _ => false

/-- Equal length, and the same item by item. -/
def sameItems : List Json → List Json → Bool
  | [], [] => true
  | x :: xs, y :: ys => same x y && sameItems xs ys
  | _, _ => false

/-- Each field of the first object is the same in the second. -/
def sameFields : List (String × Json) → List (String × Json) → Bool
  | [], _ => true
  | (k, x) :: rest, ys =>
    (match Table.get? ys k with
      | some y => same x y
      | none => false) && sameFields rest ys
end

end Json

end Gamebook
