/-!
# The six scopes

A scope statement runs the indented block below it once per element of a value
and folds what the block leaves behind. Its keyword says how.
-/

namespace StreamScript

/-- **How the results of a block are folded.** -/
inductive ScopeKind where
  /-- The results, in order. -/
  | map
  /-- The elements whose result is true. -/
  | filter
  /-- The elements, ordered by their results. -/
  | sortBy
  /-- The sum of the results. -/
  | sumBy
  /-- The elements, grouped by their results. -/
  | pivot
  /-- The result for the value as a whole. -/
  | «do»
deriving DecidableEq, Repr, Inhabited

namespace ScopeKind

/-- The keyword of a scope. -/
def keyword : ScopeKind → String
  | .map => "map"
  | .filter => "filter"
  | .sortBy => "sortBy"
  | .sumBy => "sumBy"
  | .pivot => "pivot"
  | .do => "do"

/-- All scopes. -/
def all : List ScopeKind :=
  [.map, .filter, .sortBy, .sumBy, .pivot, .do]

/-- The keywords of all scopes. -/
def keywords : List String :=
  all.map keyword

/-- The scope of a keyword. -/
def ofKeyword? (word : String) : Option ScopeKind :=
  all.find? fun kind => kind.keyword == word

/-- A keyword names its own scope. -/
theorem ofKeyword?_keyword (kind : ScopeKind) :
    ofKeyword? kind.keyword = some kind := by
  cases kind <;> decide

/-- What a keyword names has that keyword. -/
theorem keyword_of_ofKeyword? {word : String} {kind : ScopeKind}
    (h : ofKeyword? word = some kind) : kind.keyword = word := by
  simpa using List.find?_some h

end ScopeKind

end StreamScript
