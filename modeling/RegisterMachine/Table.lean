import RegisterMachine.Text.Basic

/-!
# Tables

Names are bound to values in the order of their first binding: a later binding
of the same name keeps the name's place and replaces its value.

**Contents.**
* `Table.get?` and `Table.put`: look-up and binding.
* `Table.ordered`: the entries by name, in the order of code points.

**Results.**
* `Table.get?_put`: what is found after a binding.
* `Table.names_put`: a binding adds at most its own name, at the end.
-/

namespace RegisterMachine

/-- An ordered table from names to values. -/
abbrev Table (α : Type) := List (Text × α)

namespace Table

variable {α : Type}

/-- The value bound to a name. -/
def get? (t : Table α) (name : Text) : Option α :=
  t.lookup name

/-- The names of a table, in order. -/
def names (t : Table α) : List Text :=
  t.map Prod.fst

/-- Binds a name: in its place if it is already bound, at the end otherwise. -/
def put (name : Text) (value : α) : Table α → Table α
  | [] => [(name, value)]
  | entry :: rest =>
      if entry.1 = name then (name, value) :: rest
      else entry :: put name value rest

/-- Puts an entry before the first entry whose name is not smaller. -/
def place (entry : Text × α) : Table α → Table α
  | [] => [entry]
  | other :: rest =>
      if entry.1 ≤ other.1 then entry :: other :: rest
      else other :: place entry rest

/-- The entries in the order of their names. -/
def ordered (t : Table α) : Table α :=
  t.foldr place []

@[simp] theorem get?_nil (name : Text) : get? ([] : Table α) name = none := by
  rfl

theorem get?_cons (entry : Text × α) (rest : Table α) (name : Text) :
    get? (entry :: rest) name =
      if entry.1 = name then some entry.2 else get? rest name := by
  obtain ⟨key, value⟩ := entry
  by_cases h : key = name
  · simp [get?, h]
  · have hne : (name == key) = false := by
      simpa using fun heq => h heq.symm
    simp [get?, List.lookup_cons, h, hne]

/-- A binding is found under its own name and changes no other. -/
theorem get?_put (t : Table α) (name other : Text) (value : α) :
    get? (put name value t) other =
      if name = other then some value else get? t other := by
  induction t with
  | nil =>
      simp [put, get?_cons]
  | cons entry rest ih =>
      by_cases h : entry.1 = name
      · by_cases hother : name = other <;> simp [put, get?_cons, h, hother]
      · by_cases hother : entry.1 = other
        · subst hother
          have hname : ¬ name = entry.1 := fun heq => h heq.symm
          simp [put, get?_cons, h, hname]
        · simp [put, get?_cons, h, hother, ih]

/-- A binding adds at most its own name, at the end. -/
theorem names_put (t : Table α) (name : Text) (value : α) :
    names (put name value t) =
      if name ∈ names t then names t else names t ++ [name] := by
  induction t with
  | nil =>
      simp [put, names]
  | cons entry rest ih =>
      by_cases h : entry.1 = name
      · simp [put, names, h]
      · have hne : ¬ name = entry.1 := fun heq => h heq.symm
        simp only [names] at ih
        by_cases hmem : name ∈ rest.map Prod.fst
        · simp [put, names, h, ih, hmem]
        · simp [put, names, h, hne, ih, hmem]

end Table
end RegisterMachine
