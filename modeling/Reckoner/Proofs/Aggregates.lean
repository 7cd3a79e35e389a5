import Reckoner.Proofs.Contract
import Reckoner.Proofs.Order

set_option autoImplicit false

namespace Reckoner

namespace Builtin

/-- The best number so far gives way to one that comes before it. In the end it is one of the
numbers, and none has an earlier place. -/
theorem foldl_select {L : Type} [LinearOrder L] {place : Float → L}
    {before : Float → Float → Prop} [DecidableRel before] (rest : List Float) (first : Float)
    (placed : ∀ x ∈ first :: rest, ∀ y ∈ first :: rest, before x y ↔ place x < place y) :
    rest.foldl (fun best x => if before x best then x else best) first ∈ first :: rest ∧
      ∀ x ∈ first :: rest,
        place (rest.foldl (fun best x => if before x best then x else best) first) ≤ place x := by
  induction rest generalizing first with
  | nil => simp
  | cons x rest ih =>
      have order := placed x (by simp) first (by simp)
      rw [List.foldl_cons]
      -- The better of the first two is one of them, and neither has an earlier place.
      have better : ∃ next ∈ [first, x], (if before x first then x else first) = next ∧
          place next ≤ place first ∧ place next ≤ place x := by
        split
        · rename_i earlier
          exact ⟨x, by simp, rfl, (order.mp earlier).le, le_rfl⟩
        · rename_i later
          exact ⟨first, by simp, rfl, le_rfl, not_lt.mp (mt order.mpr later)⟩
      obtain ⟨next, either, same, notFirst, notSecond⟩ := better
      have inside : ∀ y ∈ next :: rest, y ∈ first :: x :: rest := by
        intro y member
        simp only [List.mem_cons, List.not_mem_nil, or_false] at either member ⊢
        grind
      obtain ⟨found, least⟩ := ih next fun y hy z hz => placed y (inside y hy) z (inside z hz)
      rw [same]
      refine ⟨inside _ found, fun y member => ?_⟩
      have start := least next List.mem_cons_self
      rcases List.mem_cons.mp member with rfl | later
      · exact start.trans notFirst
      · rcases List.mem_cons.mp later with rfl | further
        · exact start.trans notSecond
        · exact least y (List.mem_cons_of_mem next further)

/-- Of numbers, the selected one is among them and none comes before it; where none of two comes
before the other they are equal. -/
structure Selects (before : Float → Float → Prop) (select : List Float → Float) : Prop where
  selected : ∀ xs, xs ≠ [] → (∀ x ∈ xs, x.isNaN = false) →
    select xs ∈ xs ∧ ∀ x ∈ xs, ¬ before x (select xs)
  tied : ∀ x y, x.isNaN = false → y.isNaN = false → ¬ before x y → ¬ before y x → (x == y) = true

/-- A fold that goes by a linear order of the numbers. -/
theorem Selects.of_place {L : Type} [LinearOrder L] {place : Float → L}
    {before : Float → Float → Prop} [DecidableRel before] {select : List Float → Float}
    (placed : ∀ x y, x.isNaN = false → y.isNaN = false → (before x y ↔ place x < place y))
    (tied : ∀ x y, x.isNaN = false → y.isNaN = false → place x = place y → (x == y) = true)
    (folds : ∀ first rest, select (first :: rest) =
      rest.foldl (fun best x => if before x best then x else best) first) :
    Selects before select where
  selected xs nonempty numbers := by
    obtain ⟨first, rest, rfl⟩ := List.exists_cons_of_ne_nil nonempty
    obtain ⟨found, least⟩ := foldl_select rest first fun x hx y hy =>
      placed x y (numbers x hx) (numbers y hy)
    rw [← folds] at found least
    refine ⟨found, fun x inside => ?_⟩
    rw [placed x _ (numbers x inside) (numbers _ found), not_lt]
    exact least x inside
  tied x y numberX numberY notBefore notAfter := by
    rw [placed x y numberX numberY, not_lt] at notBefore
    rw [placed y x numberY numberX, not_lt] at notAfter
    exact tied x y numberX numberY (le_antisymm notAfter notBefore)

theorem selects_least : Selects (fun x y => x < y) least :=
  .of_place (fun _ _ => Number.lt_iff_rank) (fun _ _ => Number.beq_of_rank_eq) fun _ _ => rfl

/-- The greatest number is the least in the opposite order. -/
theorem selects_greatest : Selects (fun x y => y < x) greatest := by
  have opposite (x y : Float) (numberX : x.isNaN = false) (numberY : y.isNaN = false) :
      y < x ↔ OrderDual.toDual (Number.rank x) < OrderDual.toDual (Number.rank y) :=
    Number.lt_iff_rank numberY numberX
  exact .of_place opposite (fun _ _ => Number.beq_of_rank_eq) fun _ _ => rfl

/-- All operands are real numbers, and none is NaN. -/
def AreNumbers (t : Tolerance) (operands : List Value) : Prop :=
  ∀ v ∈ operands, ∃ x, v.real? t = some x ∧ x.isNaN = false

/-- The number that an operand is taken for, if no other operand is taken for one before it. -/
structure IsExtreme (t : Tolerance) (before : Float → Float → Prop) (operands : List Value)
    (x : Float) : Prop where
  attained : ∃ v ∈ operands, v.real? t = some x
  unsurpassed : ∀ v ∈ operands, ∀ y, v.real? t = some y → ¬ before y x

/-- The function gives an extreme operand, also if the operands are in a list; in another order it
gives an equal number. -/
def Determines (t : Tolerance) (f : Builtin) (before : Float → Float → Prop)
    (operands : List Value) : Prop :=
  ∃ x, IsExtreme t before operands x ∧ f.apply t operands = .ok (.number x) ∧
    f.apply t [.list operands] = .ok (.number x) ∧
    ∀ permuted, permuted.Perm operands → ∃ y, (y == x) = true ∧
      f.apply t permuted = .ok (.number y) ∧ f.apply t [.list permuted] = .ok (.number y)

variable {t : Tolerance}

/-- Arguments are the operands, unless a list is the only one. -/
theorem operands_of_ne_list {arguments : List Value}
    (several : ∀ elements, arguments ≠ [.list elements]) : operands arguments = arguments := by
  unfold operands
  split
  · exact absurd rfl (several _)
  · rfl

theorem AreNumbers.ne_list {values : List Value} (numbers : AreNumbers t values)
    (elements : List Value) : values ≠ [.list elements] := by
  rintro rfl
  obtain ⟨x, real, -⟩ := numbers _ List.mem_cons_self
  cases real

theorem realOperands_of_numbers {arguments values : List Value} (given : arguments ≠ [])
    (meant : operands arguments = values) (numbers : AreNumbers t values) (f : Builtin) :
    realOperands t f arguments = .ok (values.filterMap (Value.real? t)) := by
  have real : ∀ v ∈ values, v.real? t ≠ none := by
    intro v inside
    obtain ⟨x, taken, -⟩ := numbers v inside
    rw [taken]
    exact Option.some_ne_none x
  rw [realOperands, if_neg (by simpa using given), meant, Arith.mapM_toReal_of_real real]

theorem isExtreme_select {before : Float → Float → Prop} {select : List Float → Float}
    (selects : Selects before select) {values : List Value} (nonempty : values ≠ [])
    (numbers : AreNumbers t values) :
    (select (values.filterMap (Value.real? t))).isNaN = false ∧
      IsExtreme t before values (select (values.filterMap (Value.real? t))) := by
  have number : ∀ x ∈ values.filterMap (Value.real? t), x.isNaN = false := by
    intro x member
    obtain ⟨v, inside, taken⟩ := List.mem_filterMap.mp member
    obtain ⟨x', taken', number⟩ := numbers v inside
    cases taken.symm.trans taken'
    exact number
  have some : values.filterMap (Value.real? t) ≠ [] := by
    obtain ⟨v, inside⟩ := List.exists_mem_of_ne_nil values nonempty
    obtain ⟨x, taken, -⟩ := numbers v inside
    exact List.ne_nil_of_mem (List.mem_filterMap.mpr ⟨v, inside, taken⟩)
  obtain ⟨found, none⟩ := selects.selected _ some number
  refine ⟨number _ found, List.mem_filterMap.mp found, fun v inside y taken => ?_⟩
  exact none y (List.mem_filterMap.mpr ⟨v, inside, taken⟩)

/-- The extremes of the same operands in two orders are tied. -/
theorem IsExtreme.tied_of_perm {before : Float → Float → Prop} {values permuted : List Value}
    {x y : Float} (extremeX : IsExtreme t before values x)
    (extremeY : IsExtreme t before permuted y) (perm : permuted.Perm values) :
    ¬ before x y ∧ ¬ before y x := by
  obtain ⟨v, insideV, takenX⟩ := extremeX.attained
  obtain ⟨w, insideW, takenY⟩ := extremeY.attained
  exact ⟨extremeY.unsurpassed v (perm.mem_iff.mpr insideV) x takenX,
    extremeX.unsurpassed w (perm.mem_iff.mp insideW) y takenY⟩

theorem determines_of_selects {f : Builtin} {before : Float → Float → Prop}
    {select : List Float → Float} (selects : Selects before select)
    (applies : ∀ arguments, f.apply t arguments =
      realOperands t f arguments >>= fun xs => return .number (select xs))
    {values : List Value} (nonempty : values ≠ []) (numbers : AreNumbers t values) :
    Determines t f before values := by
  have gives {given : List Value} (some : given ≠ []) (all : AreNumbers t given) :
      f.apply t given = .ok (.number (select (given.filterMap (Value.real? t)))) ∧
        f.apply t [.list given] = .ok (.number (select (given.filterMap (Value.real? t)))) := by
    rw [applies, applies, realOperands_of_numbers some (operands_of_ne_list all.ne_list) all,
      realOperands_of_numbers (List.cons_ne_nil _ _) rfl all]
    exact ⟨rfl, rfl⟩
  obtain ⟨number, extreme⟩ := isExtreme_select selects nonempty numbers
  obtain ⟨asArguments, inList⟩ := gives nonempty numbers
  refine ⟨_, extreme, asArguments, inList, fun permuted perm => ?_⟩
  have some : permuted ≠ [] := by
    rintro rfl
    exact nonempty (List.nil_perm.mp perm)
  have all : AreNumbers t permuted := fun v inside => numbers v (perm.mem_iff.mp inside)
  obtain ⟨number', extreme'⟩ := isExtreme_select selects some all
  obtain ⟨notBefore, notAfter⟩ := extreme.tied_of_perm extreme' perm
  exact ⟨_, selects.tied _ _ number' number notAfter notBefore, gives some all⟩

/-- The least and the greatest of real operands do not depend on the order of the operands, and a
sum is the left fold of the addition; both take one list for its elements. -/
theorem aggregates_of_operands (t : Tolerance) :
    (∀ operands, operands ≠ [] → AreNumbers t operands →
      Determines t .min (fun x y => x < y) operands ∧
      Determines t .max (fun x y => y < x) operands) ∧
    ∀ operands, (∀ elements, operands ≠ [.list elements]) →
      apply t .sum operands = operands.foldlM (Arith.add t) (.number 0) ∧
      apply t .sum [.list operands] = operands.foldlM (Arith.add t) (.number 0) ∧
      ((∀ v ∈ operands, v.isNumeric = true) → ∃ total, apply t .sum operands = .ok total) ∧
      ∀ before item after, operands = before ++ item :: after →
        (∀ v ∈ before, v.isNumeric = true) → item.isNumeric = false →
        ∃ cause, apply t .sum operands = .error (.ofCause cause) ∧ cause.kind = .typeMismatch ∧
          cause.diagnostic.received = some item.typeName := by
  refine ⟨fun values nonempty numbers => ⟨?_, ?_⟩, fun values several => ?_⟩
  · exact determines_of_selects selects_least (fun _ => rfl) nonempty numbers
  · exact determines_of_selects selects_greatest (fun _ => rfl) nonempty numbers
  · have begins : (Value.number 0).isNumeric = true := rfl
    have folds : apply t .sum values = values.foldlM (Arith.add t) (.number 0) := by
      change List.foldlM (Arith.add t) (.number 0) (operands values) = _
      rw [operands_of_ne_list several]
    refine ⟨folds, rfl, fun numeric => ?_, ?_⟩
    · obtain ⟨total, success, -⟩ := Arith.foldlM_add_of_isNumeric (t := t) numeric begins
      exact ⟨total, folds.trans success⟩
    · rintro before item after rfl numeric foreign
      have failed := Arith.foldlM_add_of_not_isNumeric (t := t) numeric foreign after begins
      exact ⟨_, folds.trans failed, rfl, rfl⟩

/-- Truth values and complex numbers without an imaginary part are operands like numbers. -/
theorem aggregates_of_operands_mixed :
    let t : Tolerance := ⟨0.5⟩
    let operands : List Value := [.boolean true, .number (-0), .complex ⟨0, 0.25⟩, .number 7]
    operands ≠ [] ∧ AreNumbers t operands ∧ Determines t .min (fun x y => x < y) operands ∧
      apply t .sum [.list [.number 1, .text "a"]] = apply t .sum [.number 1, .text "a"] := by
  intro t operands
  have numbers : AreNumbers t operands := by
    intro v inside
    simp only [operands, List.mem_cons, List.not_mem_nil, or_false] at inside
    rcases inside with rfl | rfl | rfl | rfl
    · exact ⟨1, rfl, by decide +kernel⟩
    · exact ⟨-0, rfl, by decide +kernel⟩
    · exact ⟨0, by decide +kernel, by decide +kernel⟩
    · exact ⟨7, rfl, by decide +kernel⟩
  obtain ⟨extremes, sums⟩ := aggregates_of_operands t
  obtain ⟨folds, listed, -⟩ := sums [.number 1, .text "a"] nofun
  exact ⟨by decide, numbers, (extremes operands nofun numbers).1, listed.trans folds.symm⟩

end Builtin

end Reckoner
