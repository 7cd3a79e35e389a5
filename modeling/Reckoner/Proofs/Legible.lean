import Reckoner.Display
import Reckoner.Proofs.Canonical
import Reckoner.Proofs.ReadBack

set_option autoImplicit false

namespace Reckoner

open Float.Model (UnpackedFloat)

namespace Number

/-- Equal as numbers, or both NaN. -/
def Same (x y : Float) : Prop :=
  (x == y) = true ∨ x.isNaN = true ∧ y.isNaN = true

theorem Same.refl (x : Float) : Same x x := by
  by_cases nan : x = Float.nan
  · have notNumber : x.isNaN = true := by rw [Float.isNaN_eq_decide_eq_nan, decide_eq_true nan]
    exact Or.inr ⟨notNumber, notNumber⟩
  · exact Or.inl (Float.beq_self_iff.mpr nan)

theorem Same.of_zeros {x y : Float} (zeroX : (x == 0) = true) (zeroY : (y == 0) = true) :
    Same x y :=
  Or.inl (PartialEquivBEq.trans zeroX (PartialEquivBEq.symm zeroY))

/-- The same numbers are one number, but for the two zeros. -/
theorem Same.eq_or_zeros {x y : Float} (same : Same x y) :
    x = y ∨ (x == 0) = true ∧ (y == 0) = true := by
  have zero : ((0 : Float) == 0) = true ∧ ((-0 : Float) == 0) = true := by decide +kernel
  rcases same with equal | ⟨nanX, nanY⟩
  · obtain ⟨_, _, one | ⟨rfl, rfl⟩ | ⟨rfl, rfl⟩⟩ := Float.beq_iff_ne_nan_and_eq.mp equal
    · exact Or.inl one
    · exact Or.inr zero
    · exact Or.inr zero.symm
  · rw [Float.isNaN_eq_decide_eq_nan, decide_eq_true_eq] at nanX nanY
    exact Or.inl (nanX.trans nanY.symm)

/-- Numbers that are printed alike are the same. -/
theorem same_of_displayText_eq {x y : Float} (alike : displayText x = displayText y) :
    Same x y := by
  have read := readFloat_displayText x
  rw [alike, readFloat_displayText y] at read
  have same : unsignedZero y = unsignedZero x := Option.some.inj read
  unfold unsignedZero at same
  by_cases zeroX : (x == 0) = true <;> by_cases zeroY : (y == 0) = true
  · exact Same.of_zeros zeroX zeroY
  · rw [if_pos zeroX, if_neg zeroY] at same
    exact absurd (by rw [same]; decide +kernel) zeroY
  · rw [if_neg zeroX, if_pos zeroY] at same
    exact absurd (by rw [← same]; decide +kernel) zeroX
  · rw [if_neg zeroX, if_neg zeroY] at same
    rw [same]
    exact Same.refl x

theorem eq_zero_iff (x : Float) : (x == 0) = true ↔ ∃ sign, x.toModel.unpack = .zero sign := by
  constructor
  · intro zero
    rcases eq_zero_or_neg_zero zero with rfl | rfl
    · exact ⟨.positive, rfl⟩
    · exact ⟨.negative, rfl⟩
  · rintro ⟨sign, form⟩
    change UnpackedFloat.beq x.toModel.unpack (0 : Float).toModel.unpack = true
    rw [form]
    rfl

theorem eq_zero_of_abs {x : Float} (zero : (x.abs == 0) = true) : (x == 0) = true := by
  rw [eq_zero_iff, unpack_abs] at zero
  rw [eq_zero_iff]
  obtain ⟨sign, magnitude⟩ := zero
  cases form : x.toModel.unpack with
  | zero sign => exact ⟨sign, rfl⟩
  | _ =>
      rw [form] at magnitude
      cases magnitude

/-- What is not zero is given by its magnitude and its side of zero. -/
theorem unpacked_eq_or_zeros {u v : UnpackedFloat} (magnitude : u.abs = v.abs)
    (side : UnpackedFloat.le (.zero .positive) u = true ↔
      UnpackedFloat.le (.zero .positive) v = true) :
    u = v ∨ (∃ sign, u = .zero sign) ∧ ∃ sign, v = .zero sign := by
  cases u with
  | notANumber =>
      cases v <;> cases magnitude
      exact Or.inl rfl
  | infinity sign =>
      cases v with
      | infinity sign' =>
          cases sign <;> cases sign' <;> simp [UnpackedFloat.le, UnpackedFloat.compare] at side ⊢
      | _ => cases magnitude
  | zero sign =>
      cases v with
      | zero sign' => exact Or.inr ⟨⟨sign, rfl⟩, sign', rfl⟩
      | _ => cases magnitude
  | finite sign mantissa exponent positive =>
      cases v with
      | finite sign' mantissa' exponent' positive' =>
          cases magnitude
          cases sign <;> cases sign' <;> simp [UnpackedFloat.le, UnpackedFloat.compare] at side ⊢
      | _ => cases magnitude

/-- Numbers on the same side of zero whose magnitudes are printed alike are the same. -/
theorem same_of_displayText_abs_eq {x y : Float} (side : 0 ≤ x ↔ 0 ≤ y)
    (alike : displayText x.abs = displayText y.abs) : Same x y := by
  rcases (same_of_displayText_eq alike).eq_or_zeros with magnitude | ⟨zeroX, zeroY⟩
  · have unpacked := congrArg (fun z : Float => z.toModel.unpack) magnitude
    rw [unpack_abs, unpack_abs] at unpacked
    rw [le_iff, le_iff, unpack_zero] at side
    rcases unpacked_eq_or_zeros unpacked side with one | ⟨zeroX, zeroY⟩
    · rw [eq_of_unpack_eq one]
      exact Same.refl y
    · exact Same.of_zeros ((eq_zero_iff x).mpr zeroX) ((eq_zero_iff y).mpr zeroY)
  · exact Same.of_zeros (eq_zero_of_abs zeroX) (eq_zero_of_abs zeroY)

/-- The same numbers are printed alike. -/
theorem Same.displayText_eq {x y : Float} (same : Same x y) : displayText x = displayText y := by
  have printed {x : Float} (zero : (x == 0) = true) : displayText x = "0" := by
    rcases eq_zero_or_neg_zero zero with rfl | rfl
    · decide +kernel
    · decide +kernel
  rcases same.eq_or_zeros with rfl | ⟨zeroX, zeroY⟩
  · rfl
  · rw [printed zeroX, printed zeroY]

/-- Whether a character is none of those that stand between numbers. -/
def isInner (c : Char) : Bool :=
  !([' ', ',', '[', ']'].contains c)

/-- What tells the text of a number from its surroundings, from a truth value and from an imaginary
number. -/
structure IsText (text : List Char) : Prop where
  nonempty : text ≠ []
  inner : ∀ c ∈ text, isInner c = true
  first : text.head? ≠ some 't' ∧ text.head? ≠ some 'f'
  last : text.getLast? ≠ some 'i'

theorem isDecimalChar_ne {c : Char} (decimal : Numeral.isDecimalChar c = true) :
    isInner c = true ∧ c ≠ 't' ∧ c ≠ 'f' ∧ c ≠ 'i' := by
  refine ⟨?_, ?_, ?_, ?_⟩
  · by_contra outer
    simp only [isInner, Bool.not_eq_true, Bool.not_eq_false', List.contains_iff_mem, List.mem_cons,
      List.not_mem_nil, or_false] at outer
    rcases outer with rfl | rfl | rfl | rfl <;> cases decimal
  all_goals
    rintro rfl
    cases decimal

theorem isText_of_decimalChars {text : List Char} (nonempty : text ≠ [])
    (chars : ∀ c ∈ text, Numeral.isDecimalChar c = true) : IsText text where
  nonempty := nonempty
  inner c found := (isDecimalChar_ne (chars c found)).1
  first := ⟨fun same => (isDecimalChar_ne (chars _ (List.mem_of_mem_head? same))).2.1 rfl,
    fun same => (isDecimalChar_ne (chars _ (List.mem_of_mem_head? same))).2.2.1 rfl⟩
  last same := (isDecimalChar_ne (chars _ (List.mem_of_mem_getLast? same))).2.2.2 rfl

theorem isText_word {text : String} (word : text ∈ ["NaN", "Infinity", "-Infinity"]) :
    IsText text.toList := by
  simp only [List.mem_cons, List.not_mem_nil, or_false] at word
  rcases word with rfl | rfl | rfl <;>
    exact ⟨by decide, List.all_eq_true.mp (by decide), by decide, by decide⟩

theorem isText_displayText (x : Float) : IsText (displayText x).toList := by
  cases shows x with
  | nan value text =>
      rw [text]
      exact isText_word (by decide)
  | infinity value text =>
      rw [text]
      exact isText_word (by decide)
  | negative value text =>
      rw [text]
      exact isText_word (by decide)
  | numeral negative text d form reads value =>
      rw [form, withSign, String.toList_ofList]
      split
      · apply isText_of_decimalChars (List.cons_ne_nil _ _)
        intro c found
        rcases List.mem_cons.mp found with rfl | later
        · rfl
        · exact reads.chars c later
      · exact isText_of_decimalChars reads.nonempty reads.chars

end Number

/-- A complex number that is printed with its imaginary part, and with its real part unless that is
zero. -/
structure Tolerance.Resolves (t : Tolerance) (z : Complex) : Prop where
  im_not_within : ¬ z.im.abs ≤ t.bound
  re_zero_or_not_within : (z.re == 0) = true ∨ ¬ z.re.abs ≤ t.bound

instance (t : Tolerance) (z : Complex) : Decidable (t.Resolves z) :=
  decidable_of_iff (¬ z.im.abs ≤ t.bound ∧ ((z.re == 0) = true ∨ ¬ z.re.abs ≤ t.bound))
    ⟨fun ⟨im, re⟩ => ⟨im, re⟩, fun ⟨im, re⟩ => ⟨im, re⟩⟩

namespace Display

variable {t : Tolerance}

theorem snap_of_not_within {x : Float} (outside : ¬ x.abs ≤ t.bound) : t.snap x = x := by
  rw [Tolerance.snap, Tolerance.isZero, decide_eq_false outside, if_neg Bool.false_ne_true]

theorem ne_zero_of_not_within (regular : 0 ≤ t.bound) {x : Float} (outside : ¬ x.abs ≤ t.bound) :
    ¬ (x == 0) = true :=
  fun zero => outside (of_decide_eq_true (Tolerance.isZero_of_eq_zero regular zero))

/-- The text of a complex number with both of its parts as they are. -/
theorem complexText_eq (regular : 0 ≤ t.bound) {z : Complex} (resolves : t.Resolves z) :
    complexText t z =
      if z.re == 0 then Number.displayText z.im ++ "i"
      else Number.displayText z.re ++ (if 0 ≤ z.im then " + " else " - ") ++
        Number.displayText z.im.abs ++ "i" := by
  obtain ⟨im, re⟩ := resolves
  have imNonzero := ne_zero_of_not_within regular im
  simp only [complexText, snap_of_not_within im]
  rw [if_neg imNonzero]
  rcases re with zero | outside
  · have snapped : t.snap z.re = 0 := by
      rw [Tolerance.snap, Tolerance.isZero_of_eq_zero regular zero, if_pos rfl]
    rw [snapped, if_pos zero, if_pos (by decide)]
  · rw [snap_of_not_within outside]

/-- Two texts of characters that belong, each followed by one that does not or by nothing, are the
same if the whole is. -/
theorem append_inj_of_stops {belongs : Char → Bool} {first second rest rest' : List Char}
    (allFirst : ∀ c ∈ first, belongs c = true) (allSecond : ∀ c ∈ second, belongs c = true)
    (stops : ∀ c ∈ rest.head?, belongs c = false) (stops' : ∀ c ∈ rest'.head?, belongs c = false)
    (same : first ++ rest = second ++ rest') : first = second ∧ rest = rest' := by
  obtain ⟨taken, left⟩ := Text.span_append allFirst stops
  obtain ⟨taken', left'⟩ := Text.span_append allSecond stops'
  rw [same] at taken left
  exact ⟨taken.symm.trans taken', left.symm.trans left'⟩

/-- The parts of a complex number with the sign of the imaginary part between them. -/
def bothParts (z : Complex) : List Char :=
  (Number.displayText z.re).toList ++ ' ' :: (if 0 ≤ z.im then '+' else '-') :: ' ' ::
    (Number.displayText z.im.abs).toList

theorem toList_complexText (regular : 0 ≤ t.bound) {z : Complex} (resolves : t.Resolves z) :
    (complexText t z).toList =
      (if z.re == 0 then (Number.displayText z.im).toList else bothParts z) ++ ['i'] := by
  rw [complexText_eq regular resolves]
  split
  · rw [String.toList_append]
    rfl
  · rw [bothParts]
    split <;> simp [String.toList_append]

theorem blank_not_mem (x : Float) : ' ' ∉ (Number.displayText x).toList :=
  fun found => absurd ((Number.isText_displayText x).inner ' ' found) (by decide)

theorem blank_mem (z : Complex) : ' ' ∈ bothParts z :=
  List.mem_append_right _ List.mem_cons_self

/-- Both parts can be told from the text that joins them. -/
theorem same_of_bothParts_eq {z w : Complex} (same : bothParts z = bothParts w) :
    Number.Same z.re w.re ∧ Number.Same z.im w.im := by
  have stops (rest : List Char) : ∀ c ∈ (' ' :: rest).head?, Number.isInner c = false := by
    intro c found
    cases found
    rfl
  obtain ⟨re, rest⟩ := append_inj_of_stops (Number.isText_displayText z.re).inner
    (Number.isText_displayText w.re).inner (stops _) (stops _) same
  simp only [List.cons.injEq, true_and] at rest
  obtain ⟨sign, im⟩ := rest
  have side : 0 ≤ z.im ↔ 0 ≤ w.im := by
    by_cases positiveZ : 0 ≤ z.im <;> by_cases positiveW : 0 ≤ w.im <;>
      simp [positiveZ, positiveW] at sign ⊢
  exact ⟨Number.same_of_displayText_eq (String.toList_inj.mp re),
    Number.same_of_displayText_abs_eq side (String.toList_inj.mp im)⟩

/-- The text of a complex number determines both of its parts. -/
theorem same_of_complexText_eq (regular : 0 ≤ t.bound) {z w : Complex} (resolvesZ : t.Resolves z)
    (resolvesW : t.Resolves w) (same : complexText t z = complexText t w) :
    Number.Same z.re w.re ∧ Number.Same z.im w.im := by
  have chars := congrArg String.toList same
  rw [toList_complexText regular resolvesZ, toList_complexText regular resolvesW] at chars
  have parts := List.append_cancel_right chars
  by_cases zeroZ : (z.re == 0) = true <;> by_cases zeroW : (w.re == 0) = true
  · rw [if_pos zeroZ, if_pos zeroW] at parts
    exact ⟨Number.Same.of_zeros zeroZ zeroW,
      Number.same_of_displayText_eq (String.toList_inj.mp parts)⟩
  · rw [if_pos zeroZ, if_neg zeroW] at parts
    exact absurd (parts ▸ blank_mem w) (blank_not_mem z.im)
  · rw [if_neg zeroZ, if_pos zeroW] at parts
    exact absurd (parts ▸ blank_mem z) (blank_not_mem w.im)
  · rw [if_neg zeroZ, if_neg zeroW] at parts
    exact same_of_bothParts_eq parts

end Display

namespace Value

mutual

/-- Values of one kind and shape with the same contents. -/
def Alike : Value → Value → Prop
  | .number x, .number y => Number.Same x y
  | .boolean a, .boolean b => a = b
  | .text s, .text s' => s = s'
  | .complex z, .complex w => Number.Same z.re w.re ∧ Number.Same z.im w.im
  | .list elements, .list others => AlikeAll elements others
  | _, _ => False

def AlikeAll : List Value → List Value → Prop
  | [], [] => True
  | value :: rest, other :: others => value.Alike other ∧ AlikeAll rest others
  | _, _ => False

end

mutual

/-- Whether a text occurs in the value, in lists of any depth. -/
def hasText : Value → Bool
  | .text _ => true
  | .list elements => haveText elements
  | .number _ | .boolean _ | .complex _ => false

def haveText : List Value → Bool
  | [] => false
  | value :: rest => value.hasText || haveText rest

end

/-- A value without texts, whose complex numbers are printed with both parts that they have. -/
structure Legible (t : Tolerance) (v : Value) : Prop where
  textless : v.hasText = false
  resolves : v.AllComplexes t.Resolves

instance (t : Tolerance) (v : Value) : Decidable (v.Legible t) :=
  decidable_of_iff (v.hasText = false ∧ ∀ z ∈ v.complexes, t.Resolves z)
    ⟨fun ⟨textless, resolves⟩ => ⟨textless, resolves⟩,
      fun ⟨textless, resolves⟩ => ⟨textless, resolves⟩⟩

theorem Legible.complex {t : Tolerance} {z : Complex} (legible : (Value.complex z).Legible t) :
    t.Resolves z :=
  legible.resolves z List.mem_cons_self

theorem Legible.elements {t : Tolerance} {elements : List Value}
    (legible : (Value.list elements).Legible t) : ∀ v ∈ elements, v.Legible t := by
  have textless : haveText elements = false := legible.textless
  intro v inside
  refine ⟨?_, legible.resolves.element inside⟩
  clear legible
  induction elements with
  | nil => cases inside
  | cons first rest ih =>
      obtain ⟨firstTextless, restTextless⟩ := Bool.or_eq_false_iff.mp textless
      rcases List.mem_cons.mp inside with rfl | later
      · exact firstTextless
      · exact ih restTextless later

end Value

namespace Display

variable {t : Tolerance}

/-- What starts with the text of a number is no truth value. -/
theorem displayText_append_ne_boolean (x : Float) (rest : List Char) (b : Bool) :
    (Number.displayText x).toList ++ rest ≠ (text t (.boolean b)).toList := by
  intro same
  have isText := Number.isText_displayText x
  have head := congrArg List.head? same
  rw [List.head?_append_of_ne_nil _ isText.nonempty, text] at head
  cases b with
  | true => exact isText.first.1 head
  | false => exact isText.first.2 head

theorem number_ne_boolean (x : Float) (b : Bool) : text t (.number x) ≠ text t (.boolean b) := by
  intro same
  apply displayText_append_ne_boolean x [] b
  rw [← same, List.append_nil, text]

theorem complex_ne_boolean (regular : 0 ≤ t.bound) {z : Complex} (resolves : t.Resolves z)
    (b : Bool) : text t (.complex z) ≠ text t (.boolean b) := by
  intro same
  have chars : (complexText t z).toList = (text t (.boolean b)).toList :=
    congrArg String.toList same
  rw [toList_complexText regular resolves] at chars
  split at chars
  · exact displayText_append_ne_boolean z.im _ b chars
  · rw [bothParts, List.append_assoc] at chars
    exact displayText_append_ne_boolean z.re _ b chars

theorem number_ne_complex (regular : 0 ≤ t.bound) (x : Float) {z : Complex}
    (resolves : t.Resolves z) : text t (.number x) ≠ text t (.complex z) := by
  intro same
  have last : (complexText t z).toList.getLast? = some 'i' := by
    rw [toList_complexText regular resolves, List.getLast?_append, List.getLast?_singleton,
      Option.some_or]
  rw [text, text] at same
  rw [← same] at last
  exact (Number.isText_displayText x).last last

/-- Numbers, truth values and complex numbers are alike if they are printed alike. -/
theorem alike_of_text_eq (regular : 0 ≤ t.bound) {v w : Value} (legibleV : v.Legible t)
    (legibleW : w.Legible t) (numericV : v.isNumeric = true) (numericW : w.isNumeric = true)
    (same : text t v = text t w) : v.Alike w := by
  cases v with
  | text s | list elements => cases numericV
  | boolean a =>
      cases w with
      | boolean b =>
          rw [text, text] at same
          cases a <;> cases b <;> first | rfl | exact absurd same (by decide)
      | number y => exact absurd same.symm (number_ne_boolean y a)
      | complex w => exact absurd same.symm (complex_ne_boolean regular legibleW.complex a)
      | text s | list elements => cases numericW
  | number x =>
      cases w with
      | boolean b => exact absurd same (number_ne_boolean x b)
      | number y => exact Number.same_of_displayText_eq same
      | complex w => exact absurd same (number_ne_complex regular x legibleW.complex)
      | text s | list elements => cases numericW
  | complex z =>
      cases w with
      | boolean b => exact absurd same (complex_ne_boolean regular legibleV.complex b)
      | number y => exact absurd same.symm (number_ne_complex regular y legibleV.complex)
      | complex w => exact same_of_complexText_eq regular legibleV.complex legibleW.complex same
      | text s | list elements => cases numericW

/-- Whether a character is none of those that stand around the elements of a list. -/
def isLeafChar (c : Char) : Bool :=
  !([',', '[', ']'].contains c)

theorem isLeafChar_of_isInner {c : Char} (inner : Number.isInner c = true) :
    isLeafChar c = true := by
  simp [Number.isInner, isLeafChar] at inner ⊢
  exact inner.2

theorem isLeafChar_displayText (x : Float) :
    ∀ c ∈ (Number.displayText x).toList, isLeafChar c = true :=
  fun c found => isLeafChar_of_isInner ((Number.isText_displayText x).inner c found)

theorem isLeafChar_bothParts (z : Complex) : ∀ c ∈ bothParts z, isLeafChar c = true := by
  intro c found
  simp only [bothParts, List.mem_append, List.mem_cons] at found
  rcases found with re | rfl | rfl | rfl | im
  · exact isLeafChar_displayText z.re c re
  · rfl
  · split <;> rfl
  · rfl
  · exact isLeafChar_displayText z.im.abs c im

theorem isLeafChar_text (regular : 0 ≤ t.bound) {v : Value} (legible : v.Legible t)
    (numeric : v.isNumeric = true) : ∀ c ∈ (text t v).toList, isLeafChar c = true := by
  cases v with
  | number x => exact isLeafChar_displayText x
  | boolean b =>
      rw [text]
      cases b
      · exact List.all_eq_true.mp (by decide)
      · exact List.all_eq_true.mp (by decide)
  | complex z =>
      rw [text, toList_complexText regular legible.complex]
      intro c found
      rcases List.mem_append.mp found with part | last
      · split at part
        · exact isLeafChar_displayText z.im c part
        · exact isLeafChar_bothParts z c part
      · rw [List.mem_singleton.mp last]
        rfl
  | text s | list elements => cases numeric

/-- The elements of a list after the first, each with the separator before it. -/
def following (t : Tolerance) : List Value → List Char
  | [] => []
  | value :: rest => ',' :: ' ' :: ((text t value).toList ++ following t rest)

theorem toList_intercalate_texts (t : Tolerance) (value : Value) (rest : List Value) :
    (", ".intercalate (texts t (value :: rest))).toList =
      (text t value).toList ++ following t rest := by
  induction rest generalizing value with
  | nil => simp [texts, following]
  | cons next rest ih =>
      have later := ih next
      have joined : ", ".intercalate (texts t (value :: next :: rest)) =
          text t value ++ ", " ++ ", ".intercalate (texts t (next :: rest)) := by
        simp only [texts, String.intercalate_cons_cons]
      rw [joined, String.toList_append, String.toList_append, later, following, List.append_assoc]
      rfl

theorem toList_text_nil (t : Tolerance) : (text t (.list [])).toList = ['[', ']'] := by
  rw [text, texts]
  rfl

theorem toList_text_cons (t : Tolerance) (value : Value) (rest : List Value) :
    (text t (.list (value :: rest))).toList =
      '[' :: ((text t value).toList ++ (following t rest ++ [']'])) := by
  rw [text, String.toList_append, String.toList_append, toList_intercalate_texts, List.append_assoc,
    List.append_assoc]
  rfl

/-- What stands after an element: nothing, a separator or the end of the list. -/
def Stops (rest : List Char) : Prop :=
  ∀ c ∈ rest.head?, isLeafChar c = false

theorem stops_following (t : Tolerance) (values : List Value) (rest : List Char) :
    Stops (following t values ++ ']' :: rest) := by
  intro c found
  cases values with
  | nil =>
      cases found
      rfl
  | cons value later =>
      cases found
      rfl

theorem exists_cons_of_numeric (regular : 0 ≤ t.bound) {v : Value} (legible : v.Legible t)
    (numeric : v.isNumeric = true) :
    ∃ c more, (text t v).toList = c :: more ∧ isLeafChar c = true := by
  have chars := isLeafChar_text regular legible numeric
  cases form : (text t v).toList with
  | cons c more =>
      rw [form] at chars
      exact ⟨c, more, rfl, chars c List.mem_cons_self⟩
  | nil =>
      cases v with
      | boolean b =>
          rw [text] at form
          cases b <;> exact absurd form (by decide)
      | number x => exact absurd form (Number.isText_displayText x).nonempty
      | complex z =>
          rw [text, toList_complexText regular legible.complex] at form
          simp at form
      | text s | list elements => cases numeric

theorem exists_cons_of_list (t : Tolerance) (elements : List Value) :
    ∃ more, (text t (.list elements)).toList = '[' :: more := by
  cases elements with
  | nil => exact ⟨_, toList_text_nil t⟩
  | cons value rest => exact ⟨_, toList_text_cons t value rest⟩

/-- No text starts with the end of a list. -/
theorem text_append_ne (regular : 0 ≤ t.bound) {v : Value} (legible : v.Legible t)
    (rest rest' : List Char) : (text t v).toList ++ rest ≠ ']' :: rest' := by
  intro same
  cases v with
  | text s => cases legible.textless
  | list elements =>
      obtain ⟨more, form⟩ := exists_cons_of_list t elements
      rw [form] at same
      cases same
  | number x | boolean b | complex z =>
      obtain ⟨c, more, form, leaf⟩ := exists_cons_of_numeric regular legible rfl
      rw [form] at same
      cases same
      cases leaf

/-- Nor does the text of a list start like that of another value. -/
theorem list_append_ne (regular : 0 ≤ t.bound) (elements : List Value) {v : Value}
    (legible : v.Legible t) (numeric : v.isNumeric = true) (rest rest' : List Char) :
    (text t (.list elements)).toList ++ rest ≠ (text t v).toList ++ rest' := by
  intro same
  obtain ⟨more, form⟩ := exists_cons_of_list t elements
  obtain ⟨c, others, formV, leaf⟩ := exists_cons_of_numeric regular legible numeric
  rw [form, formV] at same
  have bracket : '[' = c := (List.cons.inj same).1
  subst bracket
  cases leaf

/-- The text of a number, truth value or complex number with what follows it determines the value
and what follows. -/
theorem numeric_append_inj (regular : 0 ≤ t.bound) {v w : Value} (legibleV : v.Legible t)
    (numericV : v.isNumeric = true) (legibleW : w.Legible t) {rest rest' : List Char}
    (stops : Stops rest) (stops' : Stops rest')
    (same : (text t v).toList ++ rest = (text t w).toList ++ rest') :
    v.Alike w ∧ rest = rest' := by
  by_cases numericW : w.isNumeric = true
  · obtain ⟨texts, equal⟩ := append_inj_of_stops (isLeafChar_text regular legibleV numericV)
      (isLeafChar_text regular legibleW numericW) stops stops' same
    have alike := alike_of_text_eq regular legibleV legibleW numericV numericW
      (String.toList_inj.mp texts)
    exact ⟨alike, equal⟩
  · cases w with
    | text s => cases legibleW.textless
    | list elements =>
        exact absurd same.symm (list_append_ne regular elements legibleV numericV rest' rest)
    | number x | boolean b | complex z => exact absurd rfl numericW

/-- If two lists are printed alike, so are their elements with a separator before each. -/
theorem following_eq_of_list_eq (regular : 0 ≤ t.bound) {elements others : List Value}
    (legible : ∀ v ∈ elements, v.Legible t) (legible' : ∀ v ∈ others, v.Legible t)
    {rest rest' : List Char}
    (same : (text t (.list elements)).toList ++ rest = (text t (.list others)).toList ++ rest') :
    following t elements ++ ']' :: rest = following t others ++ ']' :: rest' := by
  cases elements with
  | nil =>
      cases others with
      | nil =>
          have equal : rest = rest' := List.append_cancel_left same
          rw [equal]
      | cons other later =>
          simp only [toList_text_nil, toList_text_cons, List.cons_append, List.nil_append,
            List.append_assoc, List.cons.injEq, true_and] at same
          exact absurd same.symm (text_append_ne regular (legible' other List.mem_cons_self) _ _)
  | cons value values =>
      cases others with
      | nil =>
          simp only [toList_text_nil, toList_text_cons, List.cons_append, List.nil_append,
            List.append_assoc, List.cons.injEq, true_and] at same
          exact absurd same (text_append_ne regular (legible value List.mem_cons_self) _ _)
      | cons other later =>
          simp only [toList_text_cons, List.cons_append, List.nil_append, List.append_assoc,
            List.cons.injEq, true_and] at same
          simp only [following, List.cons_append, List.append_assoc, same]

mutual

/-- A text with what follows it determines the value and what follows. -/
theorem text_append_inj (regular : 0 ≤ t.bound) : (v : Value) → v.Legible t →
    ∀ {w : Value}, w.Legible t → ∀ {rest rest' : List Char}, Stops rest → Stops rest' →
      (text t v).toList ++ rest = (text t w).toList ++ rest' → v.Alike w ∧ rest = rest'
  | .text _, legible, _, _, _, _, _, _, _ => nomatch legible.textless
  | .number _, legible, _, legible', _, _, stops, stops', same =>
      numeric_append_inj regular legible rfl legible' stops stops' same
  | .boolean _, legible, _, legible', _, _, stops, stops', same =>
      numeric_append_inj regular legible rfl legible' stops stops' same
  | .complex _, legible, _, legible', _, _, stops, stops', same =>
      numeric_append_inj regular legible rfl legible' stops stops' same
  | .list elements, legible, w, legible', rest, rest', _, _, same => by
      cases w with
      | text s => cases legible'.textless
      | number x | boolean b | complex z =>
          exact absurd same (list_append_ne regular elements legible' rfl rest rest')
      | list others =>
          exact following_append_inj regular elements legible.elements legible'.elements
            (following_eq_of_list_eq regular legible.elements legible'.elements same)

theorem following_append_inj (regular : 0 ≤ t.bound) : (values : List Value) →
    (∀ v ∈ values, v.Legible t) → ∀ {others : List Value}, (∀ v ∈ others, v.Legible t) →
    ∀ {rest rest' : List Char},
      following t values ++ ']' :: rest = following t others ++ ']' :: rest' →
      Value.AlikeAll values others ∧ rest = rest'
  | [], _, [], _, _, _, same => ⟨trivial, List.tail_eq_of_cons_eq same⟩
  | [], _, _ :: _, _, _, _, same => by cases same
  | _ :: _, _, [], _, _, _, same => by cases same
  | value :: values, legible, other :: others, legible', rest, rest', same => by
      rw [following, following, List.cons_append, List.cons_append, List.cons_append,
        List.cons_append, List.append_assoc, List.append_assoc] at same
      have tails := List.tail_eq_of_cons_eq (List.tail_eq_of_cons_eq same)
      obtain ⟨alike, later⟩ := text_append_inj regular value (legible value List.mem_cons_self)
        (legible' other List.mem_cons_self) (stops_following t values rest)
        (stops_following t others rest') tails
      obtain ⟨alikeAll, equal⟩ := following_append_inj regular values
        (fun v inside => legible v (List.mem_cons_of_mem value inside))
        (fun v inside => legible' v (List.mem_cons_of_mem other inside)) later
      exact ⟨⟨alike, alikeAll⟩, equal⟩

end

theorem complexText_eq_of_same (regular : 0 ≤ t.bound) {z w : Complex} (resolvesZ : t.Resolves z)
    (resolvesW : t.Resolves w) (re : Number.Same z.re w.re) (im : Number.Same z.im w.im) :
    complexText t z = complexText t w := by
  have imaginary : z.im = w.im := by
    refine im.eq_or_zeros.resolve_right fun zeros => ?_
    exact ne_zero_of_not_within regular resolvesZ.im_not_within zeros.1
  rw [complexText_eq regular resolvesZ, complexText_eq regular resolvesW, imaginary]
  rcases re.eq_or_zeros with real | ⟨zeroZ, zeroW⟩
  · rw [real]
  · rw [if_pos zeroZ, if_pos zeroW]

mutual

theorem text_eq_of_alike (regular : 0 ≤ t.bound) : (v : Value) → v.Legible t →
    ∀ {w : Value}, w.Legible t → v.Alike w → text t v = text t w
  | .number _, _, .number _, _, alike => Number.Same.displayText_eq alike
  | .boolean _, _, .boolean _, _, alike => congrArg (fun b => text t (.boolean b)) alike
  | .text _, _, .text _, _, alike => congrArg (fun s => text t (.text s)) alike
  | .complex _, legible, .complex _, legible', alike =>
      complexText_eq_of_same regular legible.complex legible'.complex alike.1 alike.2
  | .list elements, legible, .list others, legible', alike => by
      rw [text, text,
        texts_eq_of_alike regular elements legible.elements legible'.elements alike]

theorem texts_eq_of_alike (regular : 0 ≤ t.bound) : (values : List Value) →
    (∀ v ∈ values, v.Legible t) → ∀ {others : List Value}, (∀ v ∈ others, v.Legible t) →
      Value.AlikeAll values others → texts t values = texts t others
  | [], _, [], _, _ => rfl
  | value :: values, legible, other :: others, legible', alike => by
      rw [texts, texts, text_eq_of_alike regular value (legible value List.mem_cons_self)
        (legible' other List.mem_cons_self) alike.1, texts_eq_of_alike regular values
        (fun v inside => legible v (List.mem_cons_of_mem value inside))
        (fun v inside => legible' v (List.mem_cons_of_mem other inside)) alike.2]

end

/-- Values without texts are printed alike exactly if they are alike. -/
theorem text_identifies (regular : 0 ≤ t.bound) {v w : Value} (legibleV : v.Legible t)
    (legibleW : w.Legible t) : text t v = text t w ↔ v.Alike w := by
  constructor
  · intro same
    have chars : (text t v).toList ++ [] = (text t w).toList ++ [] := by rw [same]
    have stops : Stops [] := by
      intro c found
      cases found
    exact (text_append_inj regular v legibleV legibleW stops stops chars).1
  · exact text_eq_of_alike regular v legibleV legibleW

theorem text_identifies_nested :
    let half : Tolerance := ⟨0.5⟩
    let v : Value := .list [.number 0, .list [.complex ⟨3, -4⟩, .boolean true], .complex ⟨0, 1e21⟩]
    let w : Value := .list [.number (-0), .list [.complex ⟨3, -4⟩, .boolean true],
      .complex ⟨-0, 1e21⟩]
    v.Legible half ∧ w.Legible half ∧ text half v = text half w ∧ v.Alike w := by
  intro half v w
  have regular : 0 ≤ half.bound := by decide +kernel
  have legibleV : v.Legible half := by decide +kernel
  have legibleW : w.Legible half := by decide +kernel
  have same : text half v = text half w := by decide +kernel
  exact ⟨legibleV, legibleW, same, (text_identifies regular legibleV legibleW).mp same⟩

end Display

end Reckoner
