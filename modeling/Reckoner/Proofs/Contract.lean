import Reckoner.Proofs.Equality
import Reckoner.Proofs.Operations

set_option autoImplicit false

namespace Reckoner

def FailsWith {α : Type} (kind : Kind) (result : Except Fault α) : Prop :=
  ∃ cause, result = .error (.ofCause cause) ∧ cause.kind = kind

namespace FailsWith

variable {α β : Type} {kind other : Kind} {result : Except Fault α}

theorem bind (failed : FailsWith kind result) (next : α → Except Fault β) :
    FailsWith kind (result >>= next) := by
  obtain ⟨cause, rfl, same⟩ := failed
  exact ⟨cause, rfl, same⟩

/-- There is one kind of refusal for one computation. -/
theorem unique (first : FailsWith kind result) (second : FailsWith other result) :
    kind = other := by
  obtain ⟨cause, rfl, rfl⟩ := first
  obtain ⟨cause', same, rfl⟩ := second
  cases same
  rfl

end FailsWith

/-- The real number that a value is taken for: a number, a truth value, or the real part of a
complex number whose imaginary part counts as zero. -/
def Value.real? (t : Tolerance) : Value → Option Float
  | .number x => some x
  | .boolean b => some (indicator b)
  | .complex z => if z.im.abs ≤ t.bound then some z.re else none
  | .text _ | .list _ => none

namespace Arith

variable {t : Tolerance} {v : Value}

theorem toReal_of_real {x : Float} (real : v.real? t = some x) (operation : String) :
    toReal t operation v = .ok x := by
  cases v with
  | complex z =>
      by_cases small : z.im.abs ≤ t.bound
      · simp_all [Value.real?, toReal, Tolerance.isZero]
      · simp [Value.real?, small] at real
  | text s => cases real
  | list elements => cases real
  | _ =>
      cases real
      rfl

theorem toReal_of_not_real (foreign : v.real? t = none) (operation : String) :
    FailsWith .typeMismatch (toReal t operation v) := by
  cases v with
  | complex z =>
      by_cases small : z.im.abs ≤ t.bound
      · simp [Value.real?, small] at foreign
      · refine ⟨.hasImaginaryPart operation z.im, ?_, rfl⟩
        simp [toReal, Tolerance.isZero, small]
  | text s => exact ⟨.notReal operation "string", rfl, rfl⟩
  | list elements => exact ⟨.notReal operation "list", rfl, rfl⟩
  | number x => cases foreign
  | boolean b => cases foreign

/-- Values that are all real are taken for their real numbers, one by one. -/
theorem mapM_toReal_of_real {values : List Value} (real : ∀ v ∈ values, v.real? t ≠ none)
    (operation : String) :
    values.mapM (toReal t operation) = .ok (values.filterMap (Value.real? t)) := by
  induction values with
  | nil => rfl
  | cons v rest ih =>
      obtain ⟨x, taken⟩ := Option.ne_none_iff_exists'.mp (real v List.mem_cons_self)
      rw [List.mapM_cons, toReal_of_real taken, List.filterMap_cons_some taken]
      rw [ih fun w inside => real w (List.mem_cons_of_mem v inside)]
      rfl

theorem mapM_toReal_of_not_real {values : List Value} (inside : v ∈ values)
    (foreign : v.real? t = none) (operation : String) :
    FailsWith .typeMismatch (values.mapM (toReal t operation)) := by
  induction values with
  | nil => cases inside
  | cons w rest ih =>
      rw [List.mapM_cons]
      cases taken : w.real? t with
      | none => exact (toReal_of_not_real taken operation).bind _
      | some x =>
          rw [toReal_of_real taken]
          refine (ih ?_).bind _
          refine (List.mem_cons.mp inside).resolve_left ?_
          rintro rfl
          cases foreign.symm.trans taken

theorem isNumeric_collapse (t : Tolerance) (z : Complex) : (t.collapse z).isNumeric = true := by
  unfold Tolerance.collapse
  dsimp only
  split <;> rfl

theorem add_of_isNumeric {w : Value} (numericV : v.isNumeric = true)
    (numericW : w.isNumeric = true) : ∃ sum, add t v w = .ok sum ∧ sum.isNumeric = true := by
  obtain ⟨a, first⟩ := toComplex_of_isNumeric numericV "addition"
  obtain ⟨b, second⟩ := toComplex_of_isNumeric numericW "addition"
  refine ⟨t.collapse (a.add b), ?_, isNumeric_collapse t _⟩
  rw [add, first, second]
  rfl

theorem add_of_not_isNumeric {w : Value} (numeric : v.isNumeric = true)
    (foreign : w.isNumeric = false) :
    add t v w = .error (.ofCause (.notComplex "addition" w.typeName)) := by
  obtain ⟨a, first⟩ := toComplex_of_isNumeric numeric "addition"
  rw [add, first, toComplex_of_not_isNumeric foreign]
  rfl

/-- Numbers have a sum. -/
theorem foldlM_add_of_isNumeric {items : List Value} (numeric : ∀ w ∈ items, w.isNumeric = true)
    {start : Value} (begins : start.isNumeric = true) :
    ∃ sum, items.foldlM (add t) start = .ok sum ∧ sum.isNumeric = true := by
  induction items generalizing start with
  | nil => exact ⟨start, rfl, begins⟩
  | cons item rest ih =>
      have here := numeric item List.mem_cons_self
      have later : ∀ w ∈ rest, w.isNumeric = true :=
        fun w inside => numeric w (List.mem_cons_of_mem item inside)
      obtain ⟨next, added, number⟩ := add_of_isNumeric (t := t) begins here
      obtain ⟨sum, folded, last⟩ := ih later number
      refine ⟨sum, ?_, last⟩
      rw [List.foldlM_cons, added]
      exact folded

/-- The first item that is no number is reported. -/
theorem foldlM_add_of_not_isNumeric {before : List Value} {item : Value}
    (numeric : ∀ w ∈ before, w.isNumeric = true) (foreign : item.isNumeric = false)
    (after : List Value) {start : Value} (begins : start.isNumeric = true) :
    (before ++ item :: after).foldlM (add t) start =
      .error (.ofCause (.notComplex "addition" item.typeName)) := by
  obtain ⟨sum, folded, number⟩ := foldlM_add_of_isNumeric (t := t) numeric begins
  rw [List.foldlM_append, folded]
  change List.foldlM (add t) sum (item :: after) = _
  rw [List.foldlM_cons, add_of_not_isNumeric number foreign]
  rfl

end Arith

namespace Builtin

variable {t : Tolerance} {f : Builtin} {arguments : List Value}

def takes (f : Builtin) (count : Nat) : Bool :=
  match f with
  | .log => count == 1 || count == 2
  | .min | .max => 1 ≤ count
  | .sum => true
  | .abs | .ceil | .floor | .round | .sin | .cos | .tan | .exp | .sqrt | .len => count == 1

/-- The values whose kinds a function checks: its arguments, or the elements if it is a function
over many operands and a list is the only argument. -/
def checked (f : Builtin) (arguments : List Value) : List Value :=
  match f, arguments with
  | .min, [.list elements] | .max, [.list elements] | .sum, [.list elements] => elements
  | _, arguments => arguments

/-- Whether a value is of a kind that a function works on. -/
def suits (t : Tolerance) (f : Builtin) (v : Value) : Bool :=
  match f with
  | .abs | .sum => v.isNumeric
  | .len => !v.isNumeric
  | .ceil | .floor | .round | .sin | .cos | .tan | .exp | .sqrt | .log | .min | .max =>
    (v.real? t).isSome

/-- Whether the call is a logarithm to a base that there is none to. -/
def hasInvalidBase (t : Tolerance) (f : Builtin) (arguments : List Value) : Bool :=
  match f, arguments with
  | .log, [_, base] => (base.real? t).any fun b => b ≤ 0 || b == 1
  | _, _ => false

/-- The kind of error that a call is refused with, if it is. -/
def refusal? (t : Tolerance) (f : Builtin) (arguments : List Value) : Option Kind :=
  if !f.takes arguments.length then
    some .arityMismatch
  else if !(f.checked arguments).all (f.suits t) then
    some .typeMismatch
  else if f.hasInvalidBase t arguments then
    some .invalidLogBase
  else
    none

/-- The call gives a value, which is a number but for roots and sums; it breaks down at most if the
platform is not what it should be. -/
def Returns (f : Builtin) (platform : Prop) : Except Fault Value → Prop :=
  Computes (fun v => f ≠ .sqrt → f ≠ .sum → v.IsNumber)
    fun fault => (∃ b, fault = .breakdown b) ∧ ¬ platform

/-- What a call relies on below the language. Only a logarithm to a base relies on anything. -/
def Relies (f : Builtin) (arguments : List Value) : Prop :=
  f = .log → arguments.length = 2 → LogVanishesOnlyAtOne

/-- The call is refused as it has to be, and else gives a value. -/
def Meets (t : Tolerance) (f : Builtin) (arguments : List Value) (result : Except Fault Value) :
    Prop :=
  match f.refusal? t arguments with
  | some kind => FailsWith kind result
  | none => f.Returns (f.Relies arguments) result

theorem meets_of_refused {kind : Kind} {result : Except Fault Value}
    (refused : f.refusal? t arguments = some kind) (failed : FailsWith kind result) :
    f.Meets t arguments result := by
  rw [Meets, refused]
  exact failed

theorem meets_of_accepted {result : Except Fault Value}
    (accepted : f.refusal? t arguments = none)
    (returns : f.Returns (f.Relies arguments) result) :
    f.Meets t arguments result := by
  rw [Meets, accepted]
  exact returns

theorem singleArgument_of_length_ne (count : arguments.length ≠ 1) (f : Builtin) :
    FailsWith .arityMismatch (singleArgument f arguments) := by
  unfold singleArgument
  split
  · exact absurd rfl count
  · exact ⟨_, rfl, rfl⟩

/-- A function of one argument refuses it by its kind alone. -/
theorem meets_single {next : Value → Except Fault Value} (arguments : List Value)
    (single : ∀ count, f.takes count = (count == 1))
    (direct : f.checked arguments = arguments) (baseless : f.hasInvalidBase t arguments = false)
    (refuses : ∀ v, f.suits t v = false → FailsWith .typeMismatch (next v))
    (returns : ∀ platform v, f.suits t v = true → f.Returns platform (next v)) :
    f.Meets t arguments (singleArgument f arguments >>= next) := by
  by_cases count : arguments.length = 1
  · obtain ⟨v, rfl⟩ := List.length_eq_one_iff.mp count
    cases suited : f.suits t v with
    | true =>
        refine meets_of_accepted ?_ (returns _ v suited)
        simp [refusal?, single, direct, suited, baseless]
    | false =>
        refine meets_of_refused ?_ (refuses v suited)
        simp [refusal?, single, direct, suited]
  · refine meets_of_refused ?_ ((singleArgument_of_length_ne count f).bind next)
    simp [refusal?, single, count]

/-- A function of one real number. -/
theorem meets_real {next : Float → Except Fault Value} (arguments : List Value)
    (single : ∀ count, f.takes count = (count == 1))
    (direct : f.checked arguments = arguments) (baseless : f.hasInvalidBase t arguments = false)
    (real : ∀ v, f.suits t v = (v.real? t).isSome)
    (returns : ∀ platform x, f.Returns platform (next x)) :
    f.Meets t arguments (realArgument t f arguments >>= next) := by
  rw [realArgument, bind_assoc]
  refine meets_single arguments single direct baseless (fun v unsuited => ?_) fun _ v suited => ?_
  · rw [real, Option.isSome_eq_false_iff, Option.isNone_iff_eq_none] at unsuited
    exact (Arith.toReal_of_not_real unsuited f.name).bind next
  · rw [real, Option.isSome_iff_exists] at suited
    obtain ⟨x, taken⟩ := suited
    rw [Arith.toReal_of_real taken]
    exact returns _ x

theorem returns_logarithm (platform : Prop) (x : Float) :
    Returns .log platform (logarithm x >>= fun y => return .number y) :=
  (logarithm_computes _ x).bind fun y _ _ _ => ⟨y, rfl⟩

/-- The logarithm of an admitted base is not zero, so there is a quotient. -/
theorem returns_quotient (x : Float) {base : Float} (admitted : ¬ (base == 1) = true) :
    Returns .log LogVanishesOnlyAtOne (logarithm x >>= fun a => logarithm base >>= fun b =>
      Platform.quotient a b >>= fun y => return .number y) := by
  apply (logarithm_computes _ x).bind
  intro a _
  apply (logarithm_computes _ base).bind
  intro b vanishing
  unfold Platform.quotient
  split
  · rename_i zero
    exact ⟨⟨_, rfl⟩, fun vanishes => admitted (vanishing vanishes zero)⟩
  · exact fun _ _ => ⟨_, rfl⟩

theorem meets_log (t : Tolerance) (arguments : List Value) :
    Meets t .log arguments (applyLog t arguments) := by
  match arguments with
  | [] => exact meets_of_refused rfl ⟨_, rfl, rfl⟩
  | [operand] =>
      cases real : operand.real? t with
      | none =>
          refine meets_of_refused ?_ ((Arith.toReal_of_not_real real log.name).bind _)
          simp [refusal?, takes, checked, suits, real]
      | some x =>
          rw [applyLog, Arith.toReal_of_real real]
          refine meets_of_accepted ?_ (returns_logarithm _ x)
          simp [refusal?, takes, checked, suits, hasInvalidBase, real]
  | [operand, base] =>
      cases realX : operand.real? t with
      | none =>
          refine meets_of_refused ?_ ((Arith.toReal_of_not_real realX log.name).bind _)
          simp [refusal?, takes, checked, suits, realX]
      | some x =>
          rw [applyLog, Arith.toReal_of_real realX]
          cases realB : base.real? t with
          | none =>
              refine meets_of_refused ?_ ((Arith.toReal_of_not_real realB log.name).bind _)
              simp [refusal?, takes, checked, suits, realX, realB]
          | some b =>
              rw [Arith.toReal_of_real realB]
              change Meets t .log [operand, base] (if b ≤ 0 || b == 1 then _ else _)
              split
              · rename_i invalid
                have refused : refusal? t .log [operand, base] = some .invalidLogBase := by
                  simp_all [refusal?, takes, checked, suits, hasInvalidBase]
                exact meets_of_refused refused ⟨.invalidLogBase b, rfl, rfl⟩
              · rename_i valid
                have accepted : refusal? t .log [operand, base] = none := by
                  simp_all [refusal?, takes, checked, suits, hasInvalidBase]
                simp only [Bool.or_eq_true, not_or] at valid
                refine meets_of_accepted accepted ((returns_quotient x valid.2).mono ?_ ?_)
                · exact fun _ number => number
                · exact fun _ broken => ⟨broken.1, fun relies => broken.2 (relies rfl rfl)⟩
  | _ :: _ :: _ :: _ => exact meets_of_refused rfl ⟨_, rfl, rfl⟩

theorem checked_eq_operands (many : f = .min ∨ f = .max ∨ f = .sum) (arguments : List Value) :
    f.checked arguments = operands arguments := by
  rcases many with rfl | rfl | rfl <;> simp only [checked, operands] <;> split <;> simp_all

/-- The least and the greatest number need an argument, and real operands. -/
theorem meets_extreme (extreme : f = .min ∨ f = .max) (select : List Float → Float)
    (arguments : List Value) :
    f.Meets t arguments (realOperands t f arguments >>= fun xs => return .number (select xs)) := by
  have many : f = .min ∨ f = .max ∨ f = .sum := extreme.elim Or.inl fun max => Or.inr (Or.inl max)
  have taken : f.takes arguments.length = !arguments.isEmpty := by
    rcases extreme with rfl | rfl <;> cases arguments <;> simp [takes]
  have real (v : Value) : f.suits t v = (v.real? t).isSome := by
    rcases extreme with rfl | rfl <;> rfl
  have baseless : f.hasInvalidBase t arguments = false := by
    rcases extreme with rfl | rfl <;> rfl
  unfold realOperands
  cases empty : arguments.isEmpty with
  | true =>
      have refused : f.refusal? t arguments = some .arityMismatch := by
        simp [refusal?, taken, empty]
      exact meets_of_refused refused ⟨.arityMismatch f .atLeastOne 0, rfl, rfl⟩
  | false =>
      by_cases all : ∀ v ∈ operands arguments, v.real? t ≠ none
      · have accepted : f.refusal? t arguments = none := by
          simpa [refusal?, taken, empty, checked_eq_operands many, real, baseless] using all
        refine meets_of_accepted accepted ?_
        rw [if_neg Bool.false_ne_true, Arith.mapM_toReal_of_real all]
        exact fun _ _ => ⟨_, rfl⟩
      · have refused : f.refusal? t arguments = some .typeMismatch := by
          simpa [refusal?, taken, empty, checked_eq_operands many, real] using all
        push Not at all
        obtain ⟨v, inside, foreign⟩ := all
        have failed := Arith.mapM_toReal_of_not_real inside foreign f.name
        exact meets_of_refused refused (failed.bind _)

theorem meets_sum (t : Tolerance) (arguments : List Value) :
    Meets t .sum arguments (sumOf t arguments) := by
  have checked := checked_eq_operands (f := .sum) (Or.inr (Or.inr rfl)) arguments
  have begins : (Value.number 0).isNumeric = true := rfl
  unfold sumOf
  cases found : (operands arguments).find? fun v => !v.isNumeric with
  | none =>
      have numeric : ∀ v ∈ operands arguments, v.isNumeric = true := by
        simpa using found
      have accepted : refusal? t .sum arguments = none := by
        simpa [refusal?, takes, checked, suits, hasInvalidBase] using numeric
      obtain ⟨sum, folded, -⟩ := Arith.foldlM_add_of_isNumeric (t := t) numeric begins
      refine meets_of_accepted accepted ?_
      rw [folded]
      exact fun _ other => absurd rfl other
  | some item =>
      obtain ⟨foreign, before, after, split, numeric⟩ := List.find?_eq_some_iff_append.mp found
      have refused : refusal? t .sum arguments = some .typeMismatch := by
        have some : ∃ v ∈ operands arguments, v.isNumeric = false :=
          ⟨item, by simp [split], by simpa using foreign⟩
        simpa [refusal?, takes, checked, suits] using some
      refine meets_of_refused refused ⟨.notComplex "addition" item.typeName, ?_, rfl⟩
      rw [split]
      exact Arith.foldlM_add_of_not_isNumeric (by simpa using numeric) (by simpa using foreign)
        after begins

theorem magnitude_meets (v : Value) :
    (suits t .abs v = false → FailsWith .typeMismatch (magnitude t v)) ∧
      (suits t .abs v = true → ∃ x, magnitude t v = .ok x) := by
  cases v with
  | text | list => exact ⟨fun _ => ⟨_, rfl, rfl⟩, nofun⟩
  | number | boolean | complex => exact ⟨nofun, fun _ => ⟨_, rfl⟩⟩

theorem lengthOf_meets (v : Value) :
    (suits t .len v = false → FailsWith .typeMismatch (lengthOf v)) ∧
      (suits t .len v = true → ∃ n, lengthOf v = .ok n) := by
  cases v with
  | text | list => exact ⟨nofun, fun _ => ⟨_, rfl⟩⟩
  | number | boolean | complex => exact ⟨fun _ => ⟨_, rfl, rfl⟩, nofun⟩

/-- Every function refuses what it has to refuse, and nothing else. -/
theorem meets_apply (t : Tolerance) (f : Builtin) (arguments : List Value) :
    f.Meets t arguments (f.apply t arguments) := by
  cases f with
  | abs =>
      refine meets_single arguments (fun _ => rfl) rfl rfl (fun v unsuited => ?_)
        fun _ v suited => ?_
      · exact ((magnitude_meets v).1 unsuited).bind _
      · obtain ⟨x, success⟩ := (magnitude_meets v).2 suited
        rw [success]
        exact fun _ _ => ⟨x, rfl⟩
  | len =>
      refine meets_single arguments (fun _ => rfl) rfl rfl (fun v unsuited => ?_)
        fun _ v suited => ?_
      · exact ((lengthOf_meets (t := t) v).1 unsuited).bind _
      · obtain ⟨n, success⟩ := (lengthOf_meets (t := t) v).2 suited
        rw [success]
        exact fun _ _ => ⟨_, rfl⟩
  | sqrt =>
      refine meets_real arguments (fun _ => rfl) rfl rfl (fun _ => rfl) fun _ x => ?_
      exact (squareRoot_computes t _ x).mono (fun _ _ other => absurd rfl other) fun _ fair => fair
  | sin | cos | tan =>
      refine meets_real arguments (fun _ => rfl) rfl rfl (fun _ => rfl) fun _ x => ?_
      exact (ofAngle_computes _ _ x).bind fun y _ _ _ => ⟨y, rfl⟩
  | exp =>
      refine meets_real arguments (fun _ => rfl) rfl rfl (fun _ => rfl) fun _ x => ?_
      exact (exponential_computes _ x).bind fun y _ _ _ => ⟨y, rfl⟩
  | ceil | floor | round =>
      exact meets_real arguments (fun _ => rfl) rfl rfl (fun _ => rfl) fun _ x _ _ => ⟨_, rfl⟩
  | log => exact meets_log t arguments
  | min => exact meets_extreme (Or.inl rfl) least arguments
  | max => exact meets_extreme (Or.inr rfl) greatest arguments
  | sum => exact meets_sum t arguments

/-- A call is refused with an error of some kind exactly if the contract says so. -/
theorem failsWith_apply_iff {kind : Kind} :
    FailsWith kind (f.apply t arguments) ↔ f.refusal? t arguments = some kind := by
  have meets := meets_apply t f arguments
  unfold Meets at meets
  cases refused : f.refusal? t arguments with
  | some other =>
      rw [refused] at meets
      rw [Option.some.injEq]
      constructor
      · intro failed
        exact meets.unique failed
      · rintro rfl
        exact meets
  | none =>
      rw [refused] at meets
      refine iff_of_false ?_ nofun
      rintro ⟨cause, failed, -⟩
      obtain ⟨⟨b, broken⟩, -⟩ := meets.error_fair failed
      cases broken

/-- A call is refused for the number of its arguments, whatever they are; else for the kind of an
operand; else for the base of a logarithm; and else it gives a value, which is a number but for
roots and sums. That the logarithm of the platform vanishes only at one matters only for a logarithm
to a base. -/
theorem apply_refuses_exactly (t : Tolerance) (f : Builtin) (arguments : List Value) :
    let result := f.apply t arguments
    let taken := f.takes arguments.length = true
    let suited := ∀ v ∈ f.checked arguments, f.suits t v = true
    let invalid := f.hasInvalidBase t arguments = true
    (FailsWith .arityMismatch result ↔ ¬ taken) ∧
    (taken → (FailsWith .typeMismatch result ↔ ¬ suited)) ∧
    (taken → suited → (FailsWith .invalidLogBase result ↔ invalid)) ∧
    (taken → suited → ¬ invalid →
      (f = .log → arguments.length = 2 → LogVanishesOnlyAtOne) →
      ∃ v, result = .ok v ∧ (f ≠ .sqrt → f ≠ .sum → v.IsNumber)) := by
  intro result taken suited invalid
  have kinds : suited ↔ (f.checked arguments).all (f.suits t) = true := List.all_eq_true.symm
  have refusal : f.refusal? t arguments = if ¬ taken then some .arityMismatch
      else if ¬ suited then some .typeMismatch
      else if invalid then some .invalidLogBase else none := by
    simp only [refusal?, Bool.not_eq_eq_eq_not, Bool.not_true, ← Bool.not_eq_true, ← kinds, taken,
      invalid]
  refine ⟨?_, fun count => ?_, fun count kinds => ?_, fun count kinds base relies => ?_⟩
  · rw [failsWith_apply_iff, refusal]
    split_ifs <;> simp_all
  · rw [failsWith_apply_iff, refusal]
    split_ifs <;> simp_all
  · rw [failsWith_apply_iff, refusal]
    split_ifs <;> simp_all
  · have accepted : f.refusal? t arguments = none := by
      rw [refusal, if_neg (not_not.mpr count), if_neg (not_not.mpr kinds), if_neg base]
    have returns := meets_apply t f arguments
    rw [Meets, accepted] at returns
    cases outcome : f.apply t arguments with
    | ok v => exact ⟨v, outcome, returns.ok_good outcome⟩
    | error fault => exact absurd relies (returns.error_fair outcome).2

/-- A wrong number of arguments comes before wrong kinds, the elements of a list count one by one,
and an imaginary part of `1e-10` counts as none. -/
theorem apply_refuses_exactly_nested :
    let t := Tolerance.standard
    let i : Value := .complex ⟨0, 1⟩
    FailsWith .arityMismatch (apply t .abs [.text "a", .text "b"]) ∧
      FailsWith .typeMismatch (apply t .max [.list [.number 1, .list []]]) ∧
      FailsWith .invalidLogBase (apply t .log [.number 8, .complex ⟨1, 1e-10⟩]) ∧
      (∃ v, apply t .sum [.list [.boolean true, i]] = .ok v) ∧
      ∃ v, apply t .log [.boolean true] = .ok v ∧ v.IsNumber := by
  intro t i
  have many := apply_refuses_exactly t .abs [.text "a", .text "b"]
  have nested := apply_refuses_exactly t .max [.list [.number 1, .list []]]
  have base := apply_refuses_exactly t .log [.number 8, .complex ⟨1, 1e-10⟩]
  have sum := apply_refuses_exactly t .sum [.list [.boolean true, i]]
  have natural := apply_refuses_exactly t .log [.boolean true]
  refine ⟨many.1.mpr (by decide), (nested.2.1 (by decide)).mpr (by decide +kernel),
    (base.2.2.1 (by decide) (by decide +kernel)).mpr (by decide +kernel), ?_, ?_⟩
  · obtain ⟨v, success, -⟩ := sum.2.2.2 (by decide) (by decide +kernel) (by decide) nofun
    exact ⟨v, success⟩
  · obtain ⟨v, success, number⟩ := natural.2.2.2 (by decide) (by decide +kernel) (by decide)
      (fun _ two => by cases two)
    exact ⟨v, success, number (by decide) (by decide)⟩

end Builtin

end Reckoner
