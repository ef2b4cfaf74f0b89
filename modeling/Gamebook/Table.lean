/-!
# Tables in insertion order

A table is a list of keys with values.  A key keeps the place where it first appeared; putting it
again replaces its value there.

* `Table.get?`, `Table.has`, `Table.keys` : look-up.
* `Table.put`, `Table.modify`, `Table.erase` : one key changed, all others as before.
* `Table.ofList` : reads a list of pairs from the left, later values replacing earlier ones.
-/

set_option autoImplicit false

namespace Gamebook

universe u v

/-- Keys with values, in the order in which the keys first appeared. -/
abbrev Table (α : Type u) := List (String × α)

namespace Table

variable {α : Type u} {β : Type v}

def get? (t : Table α) (key : String) : Option α := List.lookup key t

def has (t : Table α) (key : String) : Bool := (t.get? key).isSome

def keys (t : Table α) : List String := t.map Prod.fst

def values (t : Table α) : List α := t.map Prod.snd

/-- Puts a value under a key: in the key's place if it has one, else at the end. -/
def put (t : Table α) (key : String) (value : α) : Table α :=
  match t with
  | [] => [(key, value)]
  | (k, x) :: rest => if k == key then (k, value) :: rest else (k, x) :: put rest key value

/-- Changes the value under a key, if there is one. -/
def modify (t : Table α) (key : String) (f : α → α) : Table α :=
  match t with
  | [] => []
  | (k, x) :: rest => if k == key then (k, f x) :: rest else (k, x) :: modify rest key f

def erase (t : Table α) (key : String) : Table α :=
  match t with
  | [] => []
  | (k, x) :: rest => if k == key then rest else (k, x) :: erase rest key

/-- Keeps the entries whose key satisfies a test. -/
def filterKeys (t : Table α) (p : String → Bool) : Table α := t.filter fun e => p e.1

/-- Puts all entries of the second table into the first, in order. -/
def merge (t more : Table α) : Table α := more.foldl (fun acc e => acc.put e.1 e.2) t

/-- The table of a list of pairs: a repeated key keeps its first place and its last value. -/
def ofList (entries : List (String × α)) : Table α := merge [] entries

def mapValues (t : Table α) (f : α → β) : Table β := t.map fun e => (e.1, f e.2)

/-! ## Look-up after a change -/

@[simp] theorem get?_nil (key : String) : get? ([] : Table α) key = none := rfl

theorem get?_cons (k : String) (x : α) (t : Table α) (key : String) :
    get? ((k, x) :: t) key = if key == k then some x else get? t key := by
  rw [get?, List.lookup_cons]
  by_cases h : key == k <;> simp [h, get?]

theorem get?_put (t : Table α) (key : String) (value : α) (other : String) :
    get? (put t key value) other = if other = key then some value else get? t other := by
  induction t with
  | nil => by_cases h : other = key <;> simp [put, get?_cons, h]
  | cons e t ih =>
    obtain ⟨k, x⟩ := e
    by_cases hk : k = key
    · subst hk
      by_cases ho : other = k <;> simp [put, get?_cons, ho]
    · by_cases ho : other = k
      · subst ho; simp [put, hk, get?_cons]
      · simp [put, hk, get?_cons, ho, ih]

/-- A put key stays in its place or comes last. -/
theorem keys_put (t : Table α) (key : String) (value : α) :
    keys (put t key value) = if key ∈ keys t then keys t else keys t ++ [key] := by
  induction t with
  | nil => simp [put, keys]
  | cons e t ih =>
    obtain ⟨k, x⟩ := e
    by_cases hk : k = key
    · subst hk; simp [put, keys]
    · simp only [keys] at ih
      have hk' : ¬ key = k := fun h => hk h.symm
      by_cases hm : key ∈ List.map Prod.fst t <;> simp_all [put, keys]

/-- Changing a value keeps the keys and their order. -/
@[simp] theorem keys_modify (t : Table α) (key : String) (f : α → α) :
    keys (modify t key f) = keys t := by
  induction t with
  | nil => rfl
  | cons e t ih =>
    obtain ⟨k, x⟩ := e
    by_cases hk : k = key <;> simp_all [modify, keys]

/-- A changed key has the changed value, every other key its old one. -/
theorem get?_modify (t : Table α) (key : String) (f : α → α) (other : String) :
    get? (modify t key f) other = if other = key then (get? t other).map f else get? t other := by
  induction t with
  | nil => simp [modify]
  | cons e t ih =>
    obtain ⟨k, x⟩ := e
    by_cases hk : k = key
    · subst hk
      by_cases ho : other = k <;> simp [modify, get?_cons, ho]
    · by_cases ho : other = k
      · subst ho; simp [modify, hk, get?_cons]
      · simp [modify, hk, get?_cons, ho, ih]

end Table

end Gamebook
