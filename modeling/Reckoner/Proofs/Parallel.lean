import Reckoner.Run

set_option autoImplicit false

namespace Reckoner

variable {ε δ α β : Type} {faults : ε → δ → Prop} {machines : Machine → Machine → Prop}
  {good : α → Prop} {better : β → Prop}

/-- The same `good` result or faults that belong together, and machines that do. -/
inductive Ends (faults : ε → δ → Prop) (machines : Machine → Machine → Prop) (good : α → Prop) :
    EStateM.Result ε Machine α → EStateM.Result δ Machine α → Prop
  | ok {a : α} {left right : Machine} :
      good a → machines left right → Ends faults machines good (.ok a left) (.ok a right)
  | error {fault : ε} {other : δ} {left right : Machine} :
      faults fault other → machines left right →
        Ends faults machines good (.error fault left) (.error other right)

theorem Ends.mono {lenient : ε → δ → Prop} {weaker : α → Prop}
    {outcome : EStateM.Result ε Machine α} {other : EStateM.Result δ Machine α}
    (ends : Ends faults machines good outcome other)
    (relax : ∀ fault other, faults fault other → lenient fault other)
    (weaken : ∀ a, good a → weaker a) : Ends lenient machines weaker outcome other := by
  cases ends with
  | ok holds related => exact .ok (weaken _ holds) related
  | error together related => exact .error (relax _ _ together) related

/-- The computations end alike from machines that belong together. -/
def Parallel (faults : ε → δ → Prop) (machines : Machine → Machine → Prop) (good : α → Prop)
    (x : EStateM ε Machine α) (y : EStateM δ Machine α) : Prop :=
  ∀ left right, machines left right → Ends faults machines good (x left) (y right)

namespace Parallel

variable {x : EStateM ε Machine α} {y : EStateM δ Machine α}

theorem pure {a : α} (holds : good a) : Parallel faults machines good (Pure.pure a) (Pure.pure a) :=
  fun _ _ related => .ok holds related

theorem throw {fault : ε} {other : δ} (together : faults fault other) :
    Parallel faults machines good (throw fault : EStateM ε Machine α)
      (throw other : EStateM δ Machine α) :=
  fun _ _ related => .error together related

theorem bind {f : α → EStateM ε Machine β} {g : α → EStateM δ Machine β}
    (first : Parallel faults machines good x y)
    (next : ∀ a, good a → Parallel faults machines better (f a) (g a)) :
    Parallel faults machines better (x >>= f) (y >>= g) := by
  intro left right related
  have ends := first left right related
  simp only [Bind.bind, EStateM.bind]
  generalize x left = outcome, y right = other at ends ⊢
  cases ends with
  | ok holds related => exact next _ holds _ _ related
  | error together related => exact .error together related

theorem mono {lenient : ε → δ → Prop} {weaker : α → Prop}
    (parallel : Parallel faults machines good x y)
    (relax : ∀ fault other, faults fault other → lenient fault other)
    (weaken : ∀ a, good a → weaker a) : Parallel lenient machines weaker x y :=
  fun left right related => (parallel left right related).mono relax weaken

end Parallel

end Reckoner
