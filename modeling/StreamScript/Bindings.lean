/-!
# Names and what they are bound to

Variables, the members of a JSON object and the settings of a configuration
file are all the same thing: names in the order in which they were first bound,
each with the last thing it was bound to.
-/

namespace StreamScript

/-- **Names bound to things**, in the order of their first binding. -/
abbrev Bindings (α : Type) : Type := List (String × α)

namespace Bindings

variable {α : Type}

/-- What a name is bound to. -/
def get? (b : Bindings α) (name : String) : Option α :=
  b.lookup name

/-- **Binds a name**: in place if it is bound already, else at the end. -/
def set (name : String) (value : α) : Bindings α → Bindings α
  | [] => [(name, value)]
  | (n, v) :: rest =>
    if n = name then (n, value) :: rest else (n, v) :: set name value rest

/-- Binds several names, one after the other. -/
def setAll (b : Bindings α) (more : List (String × α)) : Bindings α :=
  more.foldl (fun b (name, value) => set name value b) b

/-- A name reads as what it was bound to last. -/
theorem get?_set (name : String) (value : α) (b : Bindings α) (n : String) :
    get? (set name value b) n = if n = name then some value else get? b n := by
  induction b with
  | nil =>
    by_cases h : n = name
    · simp [set, get?, h]
    · have hb : (n == name) = false := beq_eq_false_iff_ne.2 h
      simp [set, get?, List.lookup_cons, hb, h]
  | cons entry rest ih =>
    obtain ⟨m, v⟩ := entry
    simp only [get?] at ih ⊢
    by_cases hm : m = name
    · subst hm
      by_cases h : n = m
      · simp [set, h]
      · have hb : (n == m) = false := beq_eq_false_iff_ne.2 h
        simp [set, List.lookup_cons, hb, h]
    · by_cases h : n = m
      · subst h
        simp [set, hm]
      · have hb : (n == m) = false := beq_eq_false_iff_ne.2 h
        simp [set, hm, List.lookup_cons, hb, ih]

/-- Binding a name leaves the names as they are, but for a new one at the
end. -/
theorem map_fst_set (name : String) (value : α) (b : Bindings α) :
    (set name value b).map Prod.fst
      = if name ∈ b.map Prod.fst then b.map Prod.fst
      else b.map Prod.fst ++ [name] := by
  induction b with
  | nil => simp [set]
  | cons m rest ih =>
    obtain ⟨n, v⟩ := m
    by_cases h : n = name
    · simp [set, h]
    · have h' : ¬ name = n := fun e => h e.symm
      simp only [set, h, if_false, List.map_cons, ih, List.mem_cons, h',
        false_or]
      split <;> simp

end Bindings

end StreamScript
