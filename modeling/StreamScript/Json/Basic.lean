/-!
# JSON values

A JSON value keeps its integers apart from its other numbers: an integer is
exact and is written without a point, any other number is a float. Objects are
lists of members in document order.

A member written twice keeps the place of its first mention and takes the value
of its last: members are bindings.
-/

namespace StreamScript

/-- **A JSON value.** -/
inductive Json where
  | null
  | bool (b : Bool)
  | integer (n : Int)
  | decimal (x : Float)
  | string (s : String)
  | array (items : List Json)
  | object (members : List (String × Json))

end StreamScript
