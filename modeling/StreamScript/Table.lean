/-!
# Maps in insertion order

A map of the language remembers the order in which its keys first came. It is
a list of entries, and its keys are texts, numbers or truth values: arrays and
maps cannot be keys, so they have no place in `Key`.

Two keys are one when they are of one kind and equal. For numbers that is
equality of floats – `0` and `-0` are one key, and what is not a number is
never the key it is compared with, so each such key opens an entry of its own.

Every change goes through `Table.alter`: the value of the first entry of a key
is changed in place, and a key that has none gets one at the end. `insert` is
the special case that forgets the old value.
-/

namespace StreamScript

/-- **A key of a map.** -/
inductive Key where
  | text (s : String)
  | number (x : Float)
  | truth (b : Bool)
deriving DecidableEq

/-- Whether two keys are one: of one kind, and equal. -/
def Key.same : Key → Key → Bool
  | .text a, .text b => a == b
  | .number a, .number b => a == b
  | .truth a, .truth b => a == b
  | _, _ => false

/-- **A map**, as its entries in the order in which the keys first came. -/
abbrev Table (V : Type) : Type := List (Key × V)

namespace Table

variable {V : Type}

/-- The value of the first entry of a key. -/
def get? (t : Table V) (k : Key) : Option V :=
  (t.find? fun entry => entry.1.same k).map Prod.snd

/-- Whether a key has an entry. -/
def contains (t : Table V) (k : Key) : Bool :=
  (get? t k).isSome

/-- The keys, in order. -/
def keys (t : Table V) : List Key :=
  t.map Prod.fst

/-- The values, in the order of their keys. -/
def values (t : Table V) : List V :=
  t.map Prod.snd

/-- **Changes the value of a key**: in place if the key has an entry, else in a
new entry at the end. -/
def alter (change : Option V → V) (k : Key) : Table V → Table V
  | [] => [(k, change none)]
  | (k', v) :: rest =>
    if k'.same k then (k', change (some v)) :: rest
        else (k', v) :: alter change k rest

/-- Sets the value of a key. -/
def insert (t : Table V) (k : Key) (v : V) : Table V :=
  alter (fun _ => v) k t

/-- A changed key reads as the change of what it was, provided it equals
itself. -/
theorem get?_alter_self (change : Option V → V) {k : Key} (hk : k.same k = true)
    (t : Table V) : get? (alter change k t) k = some (change (get? t k)) := by
  induction t with
  | nil => simp [alter, get?, hk]
  | cons entry rest ih =>
    obtain ⟨k', v⟩ := entry
    by_cases h : k'.same k = true
    · simp [alter, get?, h]
    · simp only [alter, h, if_false, Bool.false_eq_true]
      simpa [get?, h] using ih

/-- A change leaves the keys as they are, but for a new one at the end. -/
theorem keys_alter (change : Option V → V) (k : Key) (t : Table V) :
    keys (alter change k t) = if contains t k then keys t
      else keys t ++ [k] := by
  induction t with
  | nil => simp [alter, keys, contains, get?]
  | cons entry rest ih =>
    obtain ⟨k', v⟩ := entry
    by_cases h : k'.same k = true
    · simp [alter, keys, contains, get?, h]
    · have hc : contains ((k', v) :: rest) k = contains rest k := by
        simp [contains, get?, h]
      rw [hc]
      simp only [alter, h, if_false, Bool.false_eq_true]
      show k' :: keys (alter change k rest) = _
      rw [ih]
      by_cases hr : contains rest k = true <;> simp [hr, keys]

end Table

end StreamScript
