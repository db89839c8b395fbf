/-!
# The kinds of values

A value of the language is a text, a number, a truth value, an array or a map.
The kind is what error messages name, and what decides where casts are allowed
and how values of different kinds are ordered.
-/

namespace StreamScript

/-- **The kind of a value.** -/
inductive Kind where
  | text
  | number
  | truth
  | array
  | map
deriving DecidableEq, Repr, Inhabited

namespace Kind

/-- The word for a kind in messages. -/
def name : Kind → String
  | .text => "text"
  | .number => "number"
  | .truth => "boolean"
  | .array => "array"
  | .map => "map"

/-- The place of a kind among the others when values are sorted. Arrays and
maps share the last one. -/
def rank : Kind → Nat
  | .number => 3
  | .text => 2
  | .truth => 1
  | .array => 0
  | .map => 0

end Kind

end StreamScript
