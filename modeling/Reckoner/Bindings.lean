set_option autoImplicit false

namespace Reckoner

/-- A list of names with what each is bound to. A name that is bound again keeps its place. -/
structure Bindings (α : Type) where
  entries : List (String × α)

namespace Bindings

variable {α β : Type}

def empty : Bindings α := ⟨[]⟩

def names (b : Bindings α) : List String :=
  b.entries.map Prod.fst

def get? (b : Bindings α) (name : String) : Option α :=
  (b.entries.find? fun entry => entry.1 = name).map Prod.snd

def contains (b : Bindings α) (name : String) : Bool :=
  (b.get? name).isSome

/-- Replaces the entry of a name that is there, and else puts a new one at the end. -/
def insertEntry (name : String) (a : α) : List (String × α) → List (String × α)
  | [] => [(name, a)]
  | entry :: rest =>
    if entry.1 = name then (name, a) :: rest else entry :: insertEntry name a rest

def insert (b : Bindings α) (name : String) (a : α) : Bindings α :=
  ⟨insertEntry name a b.entries⟩

/-- Binds one after the other, so that a repeated name has its first place and its last meaning. -/
def ofList (entries : List (String × α)) : Bindings α :=
  entries.foldl (fun b entry => b.insert entry.1 entry.2) empty

def mapM {ε : Type} (f : α → Except ε β) (b : Bindings α) : Except ε (Bindings β) := do
  let entries ← b.entries.mapM fun entry => (f entry.2).map fun image => (entry.1, image)
  return ⟨entries⟩

@[simp] theorem get?_empty (name : String) : (empty : Bindings α).get? name = none := rfl

private theorem find?_insertEntry (name other : String) (a : α) (entries : List (String × α)) :
    (insertEntry name a entries).find? (fun entry => entry.1 = other) =
      if other = name then some (name, a) else entries.find? fun entry => entry.1 = other := by
  induction entries with
  | nil => by_cases same : other = name <;> simp [insertEntry, same, eq_comm]
  | cons entry rest ih =>
    by_cases here : entry.1 = name <;> by_cases same : other = name
    · simp [insertEntry, here, same]
    · simp [insertEntry, here, same, Ne.symm same]
    · simp [insertEntry, here, same] at ih ⊢
      exact ih
    · simp [insertEntry, here, same, List.find?_cons] at ih ⊢
      rw [ih]

/-- After binding a name, it means the new thing and every other name what it meant before. -/
theorem get?_insert (b : Bindings α) (name other : String) (a : α) :
    (b.insert name a).get? other = if other = name then some a else b.get? other := by
  by_cases same : other = name <;> simp [get?, insert, find?_insertEntry, same]

private theorem names_insertEntry (name : String) (a : α) (entries : List (String × α)) :
    (insertEntry name a entries).map Prod.fst =
      if name ∈ entries.map Prod.fst then entries.map Prod.fst
      else entries.map Prod.fst ++ [name] := by
  induction entries with
  | nil => simp [insertEntry]
  | cons entry rest ih =>
    by_cases here : entry.1 = name
    · simp [insertEntry, here]
    · have other : ¬ name = entry.1 := fun same => here same.symm
      by_cases later : name ∈ rest.map Prod.fst
      · rw [if_pos later] at ih
        rw [if_pos (by simp only [List.map_cons, List.mem_cons, later, or_true])]
        simp only [insertEntry, if_neg here, List.map_cons, ih]
      · rw [if_neg later] at ih
        rw [if_neg (by simp only [List.map_cons, List.mem_cons, other, later, or_self,
          not_false_eq_true])]
        simp only [insertEntry, if_neg here, List.map_cons, ih, List.cons_append]

/-- Binding a name again leaves the names alone; a new name comes last. -/
theorem names_insert (b : Bindings α) (name : String) (a : α) :
    (b.insert name a).names = if name ∈ b.names then b.names else b.names ++ [name] :=
  names_insertEntry name a b.entries

theorem contains_iff_mem_names (b : Bindings α) (name : String) :
    b.contains name = true ↔ name ∈ b.names := by
  simp [contains, get?, names]

end Bindings

end Reckoner
