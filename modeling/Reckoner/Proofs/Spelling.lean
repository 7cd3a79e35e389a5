import Reckoner.Literal
import Reckoner.Proofs.Digits

set_option autoImplicit false

namespace Reckoner

namespace Numeral

/-- A decimal numeral has no mark of another base. -/
theorem splitMark?_of_decimalChars {text : List Char}
    (chars : ∀ c ∈ text, isDecimalChar c = true) : splitMark? text = none := by
  unfold splitMark?
  split
  · rename_i letter rest
    have unmarked : Base.ofMark? letter = none := by
      rcases Bool.or_eq_true_iff.mp (chars letter (by simp)) with digit | other
      · have unmarked (base : Base) : base.mark ≠ letter := by
          rintro rfl
          cases base <;> cases digit
        simp [Base.ofMark?, toLower_of_isDigit digit, unmarked]
      · simp only [List.contains_iff_mem, List.mem_cons, List.not_mem_nil, or_false] at other
        rcases other with rfl | rfl | rfl | rfl <;> decide
    rw [unmarked, Option.map_none]
  · rfl

/-- A digit of a base is the character of its value. -/
theorem exists_digitChar {base : Base} {n : Nat} {c : Char}
    (found : c ∈ Nat.toDigits base.radix n) : ∃ d < base.radix, c = d.digitChar := by
  have wide : 1 < base.radix := by cases base <;> decide
  induction n using Nat.strong_induction_on with
  | _ n ih =>
      rcases Nat.lt_or_ge n base.radix with short | long
      · rw [Nat.toDigits_of_lt_base short, List.mem_singleton] at found
        exact ⟨n, short, found⟩
      · rw [Nat.toDigits_of_base_le wide long, List.mem_append, List.mem_singleton] at found
        rcases found with inner | last
        · exact ih (n / base.radix) (Nat.div_lt_self (by omega) wide) inner
        · exact ⟨n % base.radix, Nat.mod_lt _ (by omega), last⟩

theorem digitValue?_digitChar (base : Base) {d : Nat} (small : d < base.radix) :
    digitValue? d.digitChar = some d := by
  have table : ∀ d < 16, digitValue? d.digitChar = some d := by decide
  exact table d (by cases base <;> simp only [Base.radix] at small <;> omega)

theorem isDigit_of_isAlpha {c : Char} (letter : c.isAlpha = true) : c.isDigit = false := by
  by_contra digit
  rw [Bool.not_eq_false, Char.isDigit_iff_toNat] at digit
  simp [Char.isAlpha, Char.isUpper, Char.isLower, UInt32.le_iff_toNat_le] at letter digit
  omega

theorem digitValue?_toLower (c : Char) : digitValue? c.toLower = digitValue? c := by
  by_cases letter : c.isAlpha = true
  · have lower : c.toLower.isAlpha = true := by rw [Char.isAlpha_toLower_eq_isAlpha, letter]
    simp [digitValue?, letter, isDigit_of_isAlpha letter, isDigit_of_isAlpha lower]
  · have upper : ¬ c.isUpper = true := fun upper => letter (by simp [Char.isAlpha, upper])
    rw [Char.toLower_eq_of_not_isUpper upper]

theorem valueOf_map_toLower (base : Base) (digits : List Char) :
    valueOf base (digits.map Char.toLower) = valueOf base digits := by
  simp only [valueOf, List.foldl_map, digitValue?_toLower]

theorem valueOf_toDigits (base : Base) (n : Nat) :
    valueOf base (Nat.toDigits base.radix n) = n := by
  have wide : 1 < base.radix := by cases base <;> decide
  induction n using Nat.strong_induction_on with
  | _ n ih =>
      rcases Nat.lt_or_ge n base.radix with short | long
      · rw [Nat.toDigits_of_lt_base short]
        simp [valueOf, digitValue?_digitChar base short]
      · have inner := ih (n / base.radix) (Nat.div_lt_self (by omega) wide)
        have last := digitValue?_digitChar base (Nat.mod_lt n (by omega))
        rw [Nat.toDigits_of_base_le wide long]
        simp only [valueOf] at inner ⊢
        rw [List.foldl_append, inner]
        simp [last, Nat.div_add_mod]

theorem isPlain_of_digitValue? {c : Char} {d : Nat} (value : digitValue? c = some d) :
    Text.isPlain c = true := by
  unfold digitValue? at value
  split at value
  · rename_i digit
    exact Text.isPlain_of_isDigit digit
  · split at value
    · rename_i letter
      exact Text.isPlain_of_isAlpha letter
    · cases value

/-- No base has its mark among its digits. -/
theorem skipMark_of_digits {base : Base} {digits : List Char}
    (valued : ∀ c ∈ digits, ∃ d < base.radix, digitValue? c = some d) :
    skipMark base digits = digits := by
  unfold skipMark
  split
  · rename_i letter rest
    obtain ⟨d, small, value⟩ := valued letter (by simp)
    have unmarked : letter.toLower ≠ base.mark := by
      intro marked
      rw [← digitValue?_toLower, marked] at value
      cases base <;> cases value <;> exact absurd small (by decide)
    rw [if_neg unmarked]
  · rfl

/-- The value of an integer numeral whose digits, in either case, are those of a number. -/
theorem readInteger_toDigits {base : Base} {digits : List Char} {n : Nat}
    (spelled : digits.map Char.toLower = Nat.toDigits base.radix n) :
    readInteger base digits = some (n : Int) := by
  have valued : ∀ c ∈ digits, ∃ d < base.radix, digitValue? c = some d := by
    intro c found
    have lower : c.toLower ∈ Nat.toDigits base.radix n := by
      rw [← spelled]
      exact List.mem_map_of_mem found
    obtain ⟨d, small, char⟩ := exists_digitChar lower
    refine ⟨d, small, ?_⟩
    rw [← digitValue?_toLower, char, digitValue?_digitChar base small]
  have plain : ∀ c ∈ digits, Text.isPlain c = true := by
    intro c found
    obtain ⟨d, -, value⟩ := valued c found
    exact isPlain_of_digitValue? value
  have all : ∀ c ∈ digits, isDigitOf base c = true := by
    intro c found
    obtain ⟨d, small, value⟩ := valued c found
    simp [isDigitOf, value, small]
  have value : valueOf base digits = n := by
    rw [← valueOf_map_toLower, spelled, valueOf_toDigits]
  have nonempty : digits ≠ [] := by
    rintro rfl
    exact Nat.toDigits_ne_nil spelled.symm
  have unsigned : splitSign digits = (false, digits) := by
    cases digits with
    | nil => exact absurd rfl nonempty
    | cons c rest =>
        obtain ⟨d, -, value⟩ := valued c List.mem_cons_self
        exact splitSign_of_digitValue? value rest
  simp [readInteger, Text.map_foldDigit plain, Text.strip_of_plain plain, unsigned,
    skipMark_of_digits valued, dropUnderscores_of_plain _ plain, nonempty, value]
  exact all

end Numeral

theorem Number.nearest_eq_infinity {num : Nat} (large : overflowThreshold ≤ num) :
    nearest num 1 = infinity :=
  nearest_of_isInf (isInf_nearest_iff.mpr large)

namespace Literal

/-- A decimal numeral with its sign is a literal. -/
theorem number_withSign {text : List Char} {d : Decimal} (reads : Numeral.Reads text d)
    (negative : Bool) :
    number (Number.withSign negative text) = .ok (Number.signed negative d.toFloat) := by
  have chars : ∀ c ∈ if negative then '-' :: text else text, Numeral.isDecimalChar c = true := by
    intro c found
    split at found
    · rcases List.mem_cons.mp found with rfl | later
      · rfl
      · exact reads.chars c later
    · exact reads.chars c found
  have unmarked : Numeral.splitMark? (Number.withSign negative text).toList = none := by
    rw [Number.withSign, String.toList_ofList]
    exact Numeral.splitMark?_of_decimalChars chars
  simp only [number, Numeral.read, unmarked, reads.readFloat_withSign negative]

theorem number_of_toDigits (n : Nat) :
    number (String.ofList (Nat.toDigits 10 n)) = .ok (Number.nearest n 1) := by
  rw [← Decimal.toFloat_integer]
  exact number_withSign (Numeral.reads_toDigits n) false

theorem ofMark?_eq {base : Numeral.Base} {letter : Char} (marked : letter.toLower = base.mark) :
    Numeral.Base.ofMark? letter = some base := by
  unfold Numeral.Base.ofMark?
  rw [marked]
  cases base <;> rfl

/-- A numeral with a mark reads as the nearest double or breaks off. -/
theorem number_of_mark {base : Numeral.Base} {letter : Char} {digits : List Char} {n : Nat}
    (marked : letter.toLower = base.mark)
    (spelled : digits.map Char.toLower = Nat.toDigits base.radix n) :
    number (String.ofList ('0' :: letter :: digits)) =
      if n < Number.overflowThreshold then .ok (Number.nearest n 1)
      else .error (.breakdown .overflow) := by
  have split : Numeral.splitMark? ('0' :: letter :: digits) = some (base, digits) := by
    rw [Numeral.splitMark?, ofMark?_eq marked, Option.map_some]
  have positive : Number.ofInt n = Number.nearest n 1 := by
    simp [Number.ofInt, Number.signed]
  simp only [number, Numeral.read, String.toList_ofList, split,
    Numeral.readInteger_toDigits spelled]
  split_ifs with small
  · have finite : Number.ofInt? n = some (Number.nearest n 1) := by
      rw [Number.ofInt?, positive, Number.isInf_nearest small, if_neg Bool.false_ne_true]
    rw [finite, Option.elim_some]
  · have infinite : Number.ofInt? n = none :=
      Number.ofInt?_eq_none_iff.mpr (by rw [Int.natAbs_natCast]; exact Nat.le_of_not_lt small)
    rw [infinite, Option.elim_none]

/-- All spellings of a natural number agree on the nearest double while that is finite; beyond the
range only the decimal digits give infinity. -/
theorem number_spellings (n : Nat) :
    number (String.ofList (Nat.toDigits 10 n)) = .ok (Number.nearest n 1) ∧
    (∀ (base : Numeral.Base) (letter : Char) (digits : List Char), letter.toLower = base.mark →
      digits.map Char.toLower = Nat.toDigits base.radix n →
      number (String.ofList ('0' :: letter :: digits)) =
        if n < Number.overflowThreshold then .ok (Number.nearest n 1)
        else .error (.breakdown .overflow)) ∧
    (n < Number.overflowThreshold →
      ∃ b, Binary.ofFloat? (Number.nearest n 1) = some b ∧ Number.IsNearest n b) ∧
    (Number.overflowThreshold ≤ n → Number.nearest n 1 = Number.infinity) := by
  refine ⟨number_of_toDigits n, fun base letter digits marked spelled =>
    number_of_mark marked spelled, fun small => ?_, Number.nearest_eq_infinity⟩
  obtain ⟨b, exact, -, rounded⟩ :=
    Number.nearest_isNearest n Nat.one_pos (Number.isInf_nearest small)
  rw [Nat.cast_one, div_one] at rounded
  exact ⟨b, exact, rounded⟩

theorem number_spellings_hexadecimal :
    number (String.ofList ('0' :: 'X' :: ['f', 'F'])) = .ok (Number.nearest 255 1) ∧
    (∃ b, Binary.ofFloat? (Number.nearest 255 1) = some b ∧ Number.IsNearest (255 : Nat) b) ∧
    number (String.ofList ('0' :: 'x' :: '1' :: List.replicate 256 '0')) =
      .error (.breakdown .overflow) ∧
    Number.nearest (2 ^ 1024) 1 = Number.infinity := by
  have small : 255 < Number.overflowThreshold := by decide +kernel
  have large : Number.overflowThreshold ≤ 2 ^ 1024 := by decide +kernel
  obtain ⟨-, marked, rounded, -⟩ := number_spellings 255
  obtain ⟨-, markedLarge, -, infinite⟩ := number_spellings (2 ^ 1024)
  refine ⟨?_, rounded small, ?_, infinite large⟩
  · rw [marked .hexadecimal 'X' ['f', 'F'] (by decide) (by decide +kernel), if_pos small]
  · rw [markedLarge .hexadecimal 'x' _ (by decide) (by decide +kernel),
      if_neg (Nat.not_lt.mpr large)]

/-- Of two spellings of one number the marked one breaks off where the other is infinity. -/
theorem hexadecimal_overflow_breaks :
    number (String.ofList ('0' :: 'x' :: '1' :: List.replicate 256 '0')) =
      .error (.breakdown .overflow) ∧
    ('1' :: List.replicate 256 '0').map Char.toLower = Nat.toDigits 16 (2 ^ 1024) ∧
    number (String.ofList (Nat.toDigits 10 (2 ^ 1024))) = .ok Number.infinity := by
  have large : Number.overflowThreshold ≤ 2 ^ 1024 := by decide +kernel
  have digits : ('1' :: List.replicate 256 '0').map Char.toLower =
      Nat.toDigits Numeral.Base.hexadecimal.radix (2 ^ 1024) := by decide +kernel
  have marked : 'x'.toLower = Numeral.Base.hexadecimal.mark := by decide
  refine ⟨?_, digits, ?_⟩
  · rw [number_of_mark marked digits, if_neg (Nat.not_lt.mpr large)]
  · rw [number_of_toDigits, Number.nearest_eq_infinity large]

end Literal
end Reckoner
