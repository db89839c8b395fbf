import StreamScript.Run.Arena
import StreamScript.Builtin.Call

/-!
# What operations fail with

Two kinds of errors have a place of their own in a run. A line that fits no
form is an error when a run gets to it, and a branch that is not there would be
one. No operation on values makes either of them: its errors tell of kinds, of
keys and places, of texts that do not read as something
(`RunError.isOrdinary`).

This is seen by going through the operations, and `FailsOnly` is what is kept
on the way.
-/

namespace StreamScript

namespace RunError

/-- An error that remembers a line that fits no form. -/
def isInvalid : RunError → Bool
  | .invalid _ => true
  | _ => false

/-- **An error that an operation on values can make.** A line without a form is
remembered in a step, and a branch is looked up by the run; neither is at hand
where values are computed. -/
def isOrdinary : RunError → Bool
  | .invalid _ | .task _ => false
  | _ => true

theorem isInvalid_eq_false_of_isOrdinary {e : RunError}
    (h : e.isOrdinary = true) :
    e.isInvalid = false := by
  cases e with
  | invalid => cases h
  | _ => rfl

end RunError

/-! ## Results

A result is an error or a value, and `FailsOnly` speaks of the error. It is
kept by everything that results are put together with: by sequences, by going
through a list, by folding one. So to see what an operation fails with is to
look at the errors that stand in its text, and the lemmas below do no more than
that. -/

variable {ε α β : Type} {P : ε → Prop}

/-- **A result whose error, if it is one, has a property.** -/
def FailsOnly (P : ε → Prop) (r : Except ε α) : Prop :=
  ∀ e, r = .error e → P e

namespace FailsOnly

/-- A success fails with nothing, -/
theorem ok (a : α) : FailsOnly P (.ok a : Except ε α) :=
  nofun

/-- and an error with itself. -/
theorem error {e : ε} (h : P e) : FailsOnly P (.error e : Except ε α) := by
  rintro _ ⟨⟩
  exact h

/-- What has a property has any weaker one. -/
theorem mono {Q : ε → Prop} {r : Except ε α} (h : FailsOnly P r)
    (hPQ : ∀ e, P e → Q e) :
    FailsOnly Q r :=
  fun e he => hPQ e (h e he)

/-- What is done in sequence fails with what its parts fail with. -/
theorem bind {r : Except ε α} {f : α → Except ε β} (h : FailsOnly P r)
    (hf : ∀ a, FailsOnly P (f a)) : FailsOnly P (r >>= f) := by
  cases r with
  | error e => exact error (h e rfl)
  | ok a => exact hf a

/-- A result is changed, and its error stays what it is. -/
theorem map {r : Except ε α} (h : FailsOnly P r) (f : α → β) :
    FailsOnly P (r.map f) := by
  cases r with
  | error e => exact error (h e rfl)
  | ok a => exact ok (f a)

/-- Going through a list fails with what going through one of its members fails
with. -/
theorem mapM {f : α → Except ε β} (l : List α) (h : ∀ a, FailsOnly P (f a)) :
    FailsOnly P (l.mapM f) := by
  induction l with
  | nil => exact ok []
  | cons a l ih =>
    rw [List.mapM_cons]
    exact (h a).bind fun b => ih.bind fun bs => ok (b :: bs)

/-- Folding a list fails with what one of the steps fails with, whatever had
come together by then. -/
theorem foldlM {f : β → α → Except ε β} (h : ∀ b a, FailsOnly P (f b a))
    (l : List α) (b : β) :
    FailsOnly P (l.foldlM f b) := by
  induction l generalizing b with
  | nil => exact ok b
  | cons a l ih =>
    rw [List.foldlM_cons]
    exact (h b a).bind ih

end FailsOnly

/-- **A result that no line without a form and no missing branch has
spoilt.** -/
abbrev Ordinary (r : Except RunError α) : Prop :=
  FailsOnly (fun e => e.isOrdinary = true) r

/-- A result that no line without a form has spoilt. This is less than being
ordinary: what is looked up among branches may fail for a branch that is
missing, and fits nevertheless. -/
abbrev Fits (r : Except RunError α) : Prop :=
  FailsOnly (fun e => e.isInvalid = false) r

/-- An ordinary error is none of a line that fits no form. -/
theorem Ordinary.fits {r : Except RunError α} (h : Ordinary r) : Fits r :=
  h.mono fun _ => RunError.isInvalid_eq_false_of_isOrdinary

/-! ## Values

Operators refuse operands of kinds that they do not go with, keys have to be of
certain kinds, and conversions say what they have found instead. There is one
lemma for each function of values. -/

namespace Value

theorem ordinary_refuse (symbol : String) (l r : Value) :
    Ordinary (refuse (α := α) symbol l r) :=
  .error rfl

theorem ordinary_toKey (v : Value) : Ordinary v.toKey := by
  unfold toKey
  split
  · exact .ok _
  · exact .error rfl

theorem ordinary_asText (v : Value) : Ordinary v.asText := by
  cases v <;> first | exact .ok _ | exact .error rfl

theorem ordinary_asNumber (v : Value) : Ordinary v.asNumber := by
  cases v <;> first | exact .ok _ | exact .error rfl

theorem ordinary_asTruth (v : Value) : Ordinary v.asTruth := by
  cases v <;> first | exact .ok _ | exact .error rfl

theorem ordinary_add (l r : Value) : Ordinary (l.add r) := by
  unfold add
  split <;> first | exact .ok _ | exact ordinary_refuse _ _ _

theorem ordinary_arith (symbol : String) (l r : Value) :
    Ordinary (l.arith symbol r) := by
  unfold arith
  split
  · exact .ok _
  · exact ordinary_refuse symbol _ _

theorem ordinary_relate (symbol : String) (l r : Value) :
    Ordinary (l.relate symbol r) := by
  unfold relate
  split
  · exact .ok _
  · exact ordinary_refuse symbol _ _

theorem ordinary_equals (l r : Value) : Ordinary (l.equals r) := by
  unfold equals
  split <;> first | exact .ok _ | exact ordinary_refuse _ _ _

theorem ordinary_member (container key : Value) :
    Ordinary (container.member key) := by
  unfold member
  split
  · split
    · exact .ok _
    · exact .error rfl
  · dsimp only
    split
    · exact .ok _
    · exact .error rfl
  · exact ordinary_refuse "." container key

mutual

/-- Arrays are compared element by element, so the comparison of values and
that of lists go hand in hand. -/
theorem ordinary_compare : ∀ l r : Value, Ordinary (l.compare r)
  | .map entries, r => by
    rw [compare]
    exact ordinary_refuse "compare" (.map entries) r
  | .array xs, r => by
    cases r with
    | array ys =>
      rw [compare]
      exact ordinary_compareLists xs ys
    | map ys =>
      rw [compare]
      · exact ordinary_refuse _ _ _
      · nofun
    | _ =>
      rw [compare]
      · exact .ok _
      all_goals nofun
  | .text _, r | .number _, r | .truth _, r => by
    cases r with
    | map ys =>
      rw [compare]
      · exact ordinary_refuse _ _ _
      · nofun
    | _ =>
      rw [compare]
      · exact .ok _
      all_goals nofun

/-- Arrays fail to compare where two of their elements do. -/
theorem ordinary_compareLists :
    ∀ xs ys : List Value, Ordinary (compareLists xs ys)
  | [], [] | [], _ :: _ | _ :: _, [] => by
    rw [compareLists]
    exact .ok _
  | x :: xs, y :: ys => by
    rw [compareLists]
    split
    · exact ordinary_compareLists xs ys
    · exact .ok _
    · next e h => exact .error (ordinary_compare x y e h)

end

end Value

theorem Expr.ordinary_applyBinary (op : BinaryOp) (l r : Value) :
    Ordinary (applyBinary op l r) := by
  cases op with
  | add => exact l.ordinary_add r
  | eq | ne => exact (l.ordinary_equals r).map _
  | lt | gt | le | ge => exact (l.ordinary_relate _ r).map _
  | member => exact l.ordinary_member r
  | _ => exact l.ordinary_arith _ r

theorem Expr.ordinary_applyUnary (op : UnaryOp) (v : Value) :
    Ordinary (applyUnary op v) := by
  cases op with
  | negate => cases v <;> first | exact .ok _ | exact .error rfl
  | not =>
    unfold applyUnary Value.not
    dsimp only
    split
    · exact .ok _
    · exact .error rfl

theorem ScopeKind.ordinary_elements (kind : ScopeKind) (v : Value) :
    Ordinary (kind.elements v) := by
  unfold ScopeKind.elements
  split <;> first | exact .ok _ | exact .error rfl

/-! ## Branches

What an arena is asked for is a branch, what a branch sees, or the results of a
block. All three fail only for a branch that does not exist, and that error
belongs to tasks. It is not ordinary, but it is no line without a form either.
-/

namespace Arena

/-- Looking up a branch fails with an error of its own, if there is no such
branch. A run never meets it, which is proved elsewhere; here it is enough that
it is not mistaken for a line that fits no form. -/
theorem fits_branch (a : Arena) (id : Nat) : Fits (a.branch id) := by
  unfold branch
  split
  · exact .ok _
  · exact .error rfl

theorem fits_scopeOf (a : Arena) (id : Nat) : Fits (a.scopeOf id) :=
  (a.fits_branch id).map _

theorem fits_yieldsOf (a : Arena) (id : Nat) : Fits (a.yieldsOf id) :=
  (a.fits_branch id).bind fun _ => .mapM _ fun child =>
    (a.fits_branch child).map _

end Arena

/-! ## Built-in functions

A built-in function checks its arguments and then computes. The arguments fail
with their kind, or with the text that does not read as a number, a place or a
pattern; the number of arguments is checked before the function is called. -/

/-- Too few or too many arguments are an ordinary error. -/
theorem ordinary_checkArity (name : String) (least most given : Nat) :
    Ordinary (checkArity name least most given) := by
  unfold checkArity
  split <;> first | exact .ok _ | exact .error rfl

namespace Builtin

open Value

variable {target : Value} {arguments : List Value}

theorem ordinary_textArgument (arguments : List Value) (i : Nat) :
    Ordinary (textArgument arguments i) := by
  unfold textArgument
  split
  · exact ordinary_asText _
  · exact .ok _

theorem ordinary_numberArgument (arguments : List Value) (i : Nat) :
    Ordinary (numberArgument arguments i) := by
  unfold numberArgument
  split
  · exact ordinary_asNumber _
  · exact .ok _

theorem ordinary_itemsOf (b : Builtin) (v : Value) :
    Ordinary (itemsOf b v) := by
  cases v <;> first | exact .ok _ | exact .error rfl

theorem ordinary_entriesOf (b : Builtin) (v : Value) :
    Ordinary (entriesOf b v) := by
  cases v <;> first | exact .ok _ | exact .error rfl

theorem ordinary_onText (f : List Char → List Char) (target : Value) :
    Ordinary (onText f target) :=
  (ordinary_asText target).bind fun _ => .ok _

theorem ordinary_testText (test : List Char → List Char → Bool) (target : Value)
    (arguments : List Value) : Ordinary (testText test target arguments) :=
  (ordinary_asText target).bind fun _ =>
    (ordinary_textArgument arguments 0).bind fun _ => .ok _

theorem ordinary_rangeFrom (start stop : Float) :
    Ordinary (rangeFrom start stop) := by
  unfold rangeFrom
  split
  · split
    · exact .ok _
    · exact .error rfl
  · exact .error rfl

theorem ordinary_rangeOf (arguments : List Value) :
    Ordinary (rangeOf arguments) := by
  unfold rangeOf
  split
  · exact (ordinary_numberArgument arguments 0).bind fun _ =>
      (ordinary_asNumber _).bind fun _ => ordinary_rangeFrom _ _
  · exact (ordinary_numberArgument arguments 0).bind fun _ =>
      ordinary_rangeFrom _ _

theorem ordinary_elementOf (target : Value) (arguments : List Value) :
    Ordinary (elementOf target arguments) := by
  unfold elementOf
  dsimp only
  split
  · split
    · exact .ok _
    · exact .error rfl
  · refine (ordinary_asNumber _).bind fun _ => ?_
    split
    · exact .ok _
    · exact .error rfl
  · refine (ordinary_asText _).bind fun _ => (ordinary_asNumber _).bind
      fun _ => ?_
    split
    · exact .ok _
    · exact .error rfl

theorem ordinary_sliceValue (target : Value) (arguments : List Value) :
    Ordinary (sliceValue target arguments) := by
  refine (ordinary_numberArgument arguments 0).bind fun _ => ?_
  have hstop : Ordinary ((arguments[1]?).mapM Value.asNumber) := by
    cases arguments[1]? with
    | none => exact .ok none
    | some v => exact (ordinary_asNumber v).map some
  refine hstop.bind fun _ => ?_
  split
  · exact .ok _
  · exact ordinary_onText _ _

theorem ordinary_regexArgument (arguments : List Value) (i : Nat) :
    Ordinary (regexArgument arguments i) := by
  refine (ordinary_textArgument arguments i).bind fun _ => ?_
  split
  · exact .ok _
  · exact .error rfl

theorem ordinary_concatenate (target : Value) (arguments : List Value) :
    Ordinary (concatenate target arguments) := by
  unfold concatenate
  split
  · exact .ok _
  · exact (ordinary_asText _).bind fun _ =>
      (FailsOnly.mapM _ ordinary_asText).bind fun _ => .ok _

/-- A text that is no JSON is an ordinary error as well. -/
theorem ordinary_readJson (target : Value) : Ordinary (readJson target) := by
  refine (ordinary_asText target).bind fun _ => ?_
  split
  · exact .ok _
  · exact .error rfl

/-- **What built-in functions of values fail with.** There is a case for every
function, and most are an argument or two followed by something that cannot
fail. -/
theorem ordinary_apply (b : Builtin) (target : Value) (arguments : List Value) :
    Ordinary (b.apply target arguments) := by
  have htext := ordinary_asText target
  have htextAt := ordinary_textArgument arguments
  have hnumberAt := ordinary_numberArgument arguments
  cases b with
  | split => exact htext.bind fun _ => (htextAt 0).bind fun _ => .ok _
  | join =>
    exact (htextAt 0).bind fun _ => (ordinary_itemsOf .join target).bind
      fun _ =>
      (FailsOnly.mapM _ ordinary_asText).bind fun _ => .ok _
  | concat => exact ordinary_concatenate target arguments
  | replace => exact htext.bind fun _ => (htextAt 0).bind fun _ =>
    (htextAt 1).bind fun _ => .ok _
  | piece => exact htext.bind fun _ => (htextAt 0).bind fun _ =>
    (hnumberAt 1).bind fun _ => .ok _
  | «at» => exact ordinary_elementOf target arguments
  | length =>
    cases target <;> exact .ok _
  | contains =>
    cases target <;> first
      | exact .ok _
      | exact ordinary_testText Text.occurs _ arguments
  | startsWith | endsWith => exact ordinary_testText _ target arguments
  | trim | trimStart | trimEnd | toUpper | toLower | toText =>
    exact ordinary_onText _ target
  | modulo => exact (ordinary_asNumber target).bind fun _ =>
    (hnumberAt 0).bind fun _ => .ok _
  | range => exact ordinary_rangeOf arguments
  | slice => exact ordinary_sliceValue target arguments
  | flatten => exact (ordinary_itemsOf .flatten target).bind fun _ => .ok _
  | keys => exact (ordinary_entriesOf .keys target).bind fun _ => .ok _
  | values => exact (ordinary_entriesOf .values target).bind fun _ => .ok _
  | iif => exact (ordinary_asTruth _).bind fun _ => .ok _
  | parseJson => exact ordinary_readJson target
  | isMatch =>
    exact (ordinary_regexArgument arguments 0).bind fun _ =>
      htext.bind fun _ => .ok _
  | regexReplace =>
    exact (ordinary_regexArgument arguments 0).bind fun _ =>
      (htextAt 1).bind fun _ =>
      htext.bind fun _ => .ok _
  | tryParseNum | toJson => exact .ok _
  | sideOutput | getFiles | loadFile => exact .error rfl

end Builtin

end StreamScript
