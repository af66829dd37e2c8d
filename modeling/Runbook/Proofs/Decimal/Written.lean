import Mathlib.Data.Nat.Digits.Defs
import Mathlib.Tactic.Ring
import Runbook.Decimal.Layout

namespace Runbook.Decimal

/-!
# Doubles in writing

What JSON text has for a double is a number as JSON spells it, or `null` for what is no number.
Such a number is a row of digits that begins with a zero only if that is all of it, and perhaps
places behind a point and an exponent.  The shortest digits of a double that is not zero are not
zero either, so no zero comes to stand in front of them.
-/

/-- A row of digits. -/
def AreDigits (text : List Char) : Prop := text ≠ [] ∧ ∀ c ∈ text, c.isDigit = true

/-- Whole digits, which begin with a zero only if there is nothing else. -/
structure IsWhole (text : List Char) : Prop where
  digits :
    AreDigits text
  zero :
    text.head? = some '0' → text = ['0']

/-- Nothing, or a point and the places behind it. -/
inductive IsPlaces : List Char → Prop where
  | nothing : IsPlaces []
  | places {text : List Char} (areDigits : AreDigits text) : IsPlaces ('.' :: text)

/-- Nothing, or the mark of an exponent with its sign and digits. -/
inductive IsPower : List Char → Prop where
  | nothing : IsPower []
  | power {sign : Char} {text : List Char} (isSign : sign = '+' ∨ sign = '-')
      (areDigits : AreDigits text) : IsPower ('e' :: sign :: text)

/-- A number without a sign, as JSON spells it. -/
inductive IsNumber : List Char → Prop where
  | parts {whole places power : List Char} (isWhole : IsWhole whole)
      (arePlaces : IsPlaces places) (isPower : IsPower power) :
      IsNumber (whole ++ places ++ power)

/-! ## Digits that are not zero -/

theorem digitCount_pos (n : Nat) : 0 < digitCount n := Nat.length_toDigits_pos

theorem lt_pow_digitCount (n : Nat) : n < 10 ^ digitCount n :=
  (Nat.length_toDigits_le_iff (by decide) (digitCount_pos n)).mp (Nat.le_refl _)

theorem pow_le_of_pos
    {n : Nat}
    (isPositive : 0 < n) :
    10 ^ (digitCount n - 1) ≤ n := by
  by_contra isLess
  have isBelow : n < 10 ^ (digitCount n - 1) := Nat.lt_of_not_le isLess
  have isCount := digitCount_pos n
  by_cases isOne : digitCount n = 1
  · rw [isOne] at isBelow
    simp at isBelow
    omega
  · have isShort : digitCount n ≤ digitCount n - 1 :=
      (Nat.length_toDigits_le_iff (by decide) (by omega)).mpr isBelow
    omega

/-- One digit below its magnitude a quotient has a digit. -/
theorem floorAt_ne_zero
    {value : Ratio}
    {exponent : Int}
    (isPositive : 0 < value.numerator)
    (isFraction : 0 < value.denominator)
    (isBelow : exponent < value.magnitude) :
    value.floorAt exponent ≠ 0 := by
  have atLeast := pow_le_of_pos isPositive
  have atMost := lt_pow_digitCount value.denominator
  have isNumerator := digitCount_pos value.numerator
  have isGuess :
      exponent + 1 ≤ (digitCount value.numerator : Int) - digitCount value.denominator := by
    simp only [Ratio.magnitude] at isBelow
    split at isBelow <;> omega
  rw [Ratio.floorAt]
  split
  case isTrue isWhole =>
    have bounded :
        value.denominator * Nat.pow 10 exponent.toNat ≤ value.numerator := by
      calc value.denominator * 10 ^ exponent.toNat
          ≤ 10 ^ digitCount value.denominator * 10 ^ exponent.toNat :=
            Nat.mul_le_mul_right _ atMost.le
        _ = 10 ^ (digitCount value.denominator + exponent.toNat) := (Nat.pow_add ..).symm
        _ ≤ 10 ^ (digitCount value.numerator - 1) := Nat.pow_le_pow_right (by decide) (by omega)
        _ ≤ value.numerator := atLeast
    have isSome : 0 < value.denominator * Nat.pow 10 exponent.toNat :=
      Nat.mul_pos isFraction (Nat.pow_pos (by decide))
    exact (Nat.div_pos bounded isSome).ne'
  case isFalse isNegative =>
    have bounded : value.denominator ≤ value.numerator * Nat.pow 10 (-exponent).toNat := by
      calc value.denominator
          ≤ 10 ^ digitCount value.denominator := atMost.le
        _ ≤ 10 ^ (digitCount value.numerator - 1 + (-exponent).toNat) :=
            Nat.pow_le_pow_right (by decide) (by omega)
        _ = 10 ^ (digitCount value.numerator - 1) * 10 ^ (-exponent).toNat := Nat.pow_add ..
        _ ≤ value.numerator * 10 ^ (-exponent).toNat := Nat.mul_le_mul_right _ atLeast
    exact (Nat.div_pos bounded isFraction).ne'

variable {around : Neighbourhood} {decimal : Digits}

/-- A neighbourhood that begins above zero does not hold zero. -/
theorem holds_zero
    (isAbove : 0 < around.low.numerator)
    (exponent : Int) :
    around.holds ⟨0, exponent⟩ = false := by
  have isZero : (Ratio.scaledByTen 0 exponent).numerator = 0 := by
    rw [Ratio.scaledByTen]
    split <;> simp
  have isFraction : 0 < (Ratio.scaledByTen 0 exponent).denominator := by
    rw [Ratio.scaledByTen]
    split
    · exact Nat.one_pos
    · exact Nat.pow_pos (by decide)
  have isLess : 0 < around.low.numerator * (Ratio.scaledByTen 0 exponent).denominator :=
    Nat.mul_pos isAbove isFraction
  simp only [Neighbourhood.holds, Ratio.le, Ratio.lt, isZero, Nat.zero_mul]
  split
  · simp
    omega
  · simp

theorem onGrid?_ne_zero
    {exponent : Int}
    (isAbove : 0 < around.low.numerator)
    (isOnGrid : around.onGrid? exponent = some decimal) :
    decimal.digits ≠ 0 := by
  have leftHolds :
      around.holds ⟨around.value.floorAt exponent, exponent⟩ = true →
        around.value.floorAt exponent ≠ 0 := by
    intro holds isZero
    rw [isZero, holds_zero isAbove] at holds
    cases holds
  simp only [Neighbourhood.onGrid?] at isOnGrid
  split at isOnGrid
  case h_1 => cases isOnGrid
  case h_2 holds _ =>
    cases isOnGrid
    exact leftHolds holds
  case h_3 =>
    cases isOnGrid
    exact Nat.succ_ne_zero _
  case h_4 holds _ =>
    split at isOnGrid
    · cases isOnGrid
      exact leftHolds holds
    · split at isOnGrid
      · cases isOnGrid
        exact Nat.succ_ne_zero _
      · split at isOnGrid
        · cases isOnGrid
          exact leftHolds holds
        · cases isOnGrid
          exact Nat.succ_ne_zero _

theorem firstGrid_ne_zero
    (isAbove : 0 < around.low.numerator)
    (isPositive : 0 < around.value.numerator)
    (isFraction : 0 < around.value.denominator)
    {count remaining : Nat}
    (isFine : 2 ≤ count + remaining) :
    (around.firstGrid around.value.magnitude count remaining).digits ≠ 0 := by
  induction remaining generalizing count with
  | zero =>
      exact floorAt_ne_zero isPositive isFraction (by omega)
  | succ remaining inductionHypothesis =>
      rw [Neighbourhood.firstGrid]
      split
      case h_1 isOnGrid =>
        exact onGrid?_ne_zero isAbove isOnGrid
      case h_2 =>
        exact inductionHypothesis (by omega)

theorem strip_ne_zero
    (isSome : decimal.digits ≠ 0)
    (fuel : Nat) :
    (decimal.strip fuel).digits ≠ 0 := by
  induction fuel generalizing decimal with
  | zero =>
      exact isSome
  | succ fuel inductionHypothesis =>
      rw [Digits.strip]
      split
      · exact inductionHypothesis (show decimal.digits / 10 ≠ 0 by omega)
      · exact isSome

/-- The digits of a number that is not zero are not zero. -/
theorem digits_shortest_ne_zero
    {number : Double}
    (notZero : ¬ (number.exponentField = 0 ∧ number.fractionField = 0)) :
    (shortest number).digits ≠ 0 := by
  have scaled_pos (n : Nat) (isSome : 0 < n) (q : Int) :
      0 < (Ratio.scaledByTwo n q).numerator ∧ 0 < (Ratio.scaledByTwo n q).denominator := by
    rw [Ratio.scaledByTwo]
    split
    · exact ⟨Nat.mul_pos isSome (Nat.pow_pos (by decide)), Nat.one_pos⟩
    · exact ⟨isSome, Nat.pow_pos (by decide)⟩
  have isMantissa :
      0 < if number.exponentField = 0 then number.fractionField
          else number.fractionField + Nat.pow 2 52 := by
    split
    · omega
    · exact Nat.add_pos_right _ (Nat.pow_pos (by decide))
  have isStep : (if number.fractionField = 0 ∧ 1 < number.exponentField then 1 else 2) ≤ 2 := by
    split <;> decide
  refine strip_ne_zero (firstGrid_ne_zero ?_ ?_ ?_ (by decide)) 20
  · exact (scaled_pos _ (by omega) _).1
  · exact (scaled_pos _ (by omega) _).1
  · exact (scaled_pos _ (by omega) _).2

/-! ## The text -/

theorem areDigits_toDigits (n : Nat) : AreDigits (Nat.toDigits 10 n) :=
  ⟨Nat.toDigits_ne_nil, fun _ isPart =>
    Nat.isDigit_of_mem_toDigits (by decide) (by decide) isPart⟩

/-- Only zero is written with a zero in front. -/
theorem isWhole_toDigits (n : Nat) : IsWhole (Nat.toDigits 10 n) := by
  refine ⟨areDigits_toDigits n, fun isZero => ?_⟩
  induction n using Nat.strongRecOn with
  | _ n inductionHypothesis =>
      rw [Nat.toDigits_eq_if (by decide)] at isZero ⊢
      split at isZero
      case isTrue isSmall =>
        rw [if_pos isSmall]
        exact congrArg (fun c => [c]) (Option.some.inj isZero)
      case isFalse isLarge =>
        obtain ⟨first, rest, isText⟩ :=
          List.exists_cons_of_ne_nil (@Nat.toDigits_ne_nil (n / 10) 10)
        rw [isText, List.cons_append, List.head?_cons] at isZero
        have isRest := inductionHypothesis (n / 10) (by omega) (by rw [isText]; exact isZero)
        have sameNumber := @Nat.ofDigitChars_ten_toDigits (n / 10)
        rw [isRest] at sameNumber
        have isNone : n / 10 = 0 := sameNumber.symm
        omega

theorem areDigits_zero : AreDigits ['0'] := ⟨List.cons_ne_nil _ _, by simp⟩

theorem isWhole_zero : IsWhole ['0'] := ⟨areDigits_zero, fun _ => rfl⟩

section

variable {text : List Char}

theorem toList_zeros (count : Nat) : (zeros count).toList = List.replicate count '0' :=
  String.toList_ofList

theorem areDigits_replicate (count : Nat) :
    ∀ c ∈ List.replicate count '0', c.isDigit = true := by
  intro c isPart
  rw [(List.mem_replicate.mp isPart).2]
  decide

/-- Digits that do not begin with a zero do not do so with others behind them. -/
theorem isWhole_append
    (areDigits : AreDigits text)
    (notZero : text.head? ≠ some '0')
    {more : List Char}
    (areMore : ∀ c ∈ more, c.isDigit = true) :
    IsWhole (text ++ more) := by
  obtain ⟨first, rest, rfl⟩ := List.exists_cons_of_ne_nil areDigits.1
  refine ⟨⟨List.cons_ne_nil _ _, List.forall_mem_append.mpr ⟨areDigits.2, areMore⟩⟩, ?_⟩
  exact fun isZero => absurd isZero notZero

/-- The first digits of a row that does not begin with a zero do not either. -/
theorem isWhole_take
    (areDigits : AreDigits text)
    (notZero : text.head? ≠ some '0')
    {count : Nat}
    (isSome : 0 < count) :
    IsWhole (text.take count) := by
  obtain ⟨first, rest, rfl⟩ := List.exists_cons_of_ne_nil areDigits.1
  obtain ⟨more, rfl⟩ := Nat.exists_eq_add_one.mpr isSome
  refine ⟨⟨List.cons_ne_nil _ _, fun c isPart => ?_⟩, fun isZero => absurd isZero notZero⟩
  exact areDigits.2 c (List.mem_of_mem_take isPart)

theorem areDigits_drop
    (areDigits : AreDigits text)
    {count : Nat}
    (isLess : count < text.length) :
    AreDigits (text.drop count) :=
  ⟨by simpa using isLess, fun c isPart => areDigits.2 c (List.mem_of_mem_drop isPart)⟩

theorem isPower_exponentText (exponent : Int) : IsPower (exponentText exponent).toList := by
  have isText : (toString exponent.natAbs).toList = Nat.toDigits 10 exponent.natAbs := by simp
  rw [exponentText]
  split <;> rw [String.toList_append, isText]
  · exact .power (Or.inr rfl) (areDigits_toDigits _)
  · exact .power (Or.inl rfl) (areDigits_toDigits _)

/-- Digits that are not zero are laid out as a number. -/
theorem isNumber_digits
    (isSome : decimal.digits ≠ 0) :
    IsNumber (Layout.json.digits decimal).toList := by
  have isText : (toString decimal.digits).toList = Nat.toDigits 10 decimal.digits := by simp
  have isCount : (toString decimal.digits).length = (Nat.toDigits 10 decimal.digits).length := by
    rw [← String.length_toList, isText]
  have areDigits := areDigits_toDigits decimal.digits
  have notZero : (Nat.toDigits 10 decimal.digits).head? ≠ some '0' := by
    intro isZero
    have sameNumber := @Nat.ofDigitChars_ten_toDigits decimal.digits
    rw [(isWhole_toDigits decimal.digits).zero isZero] at sameNumber
    exact isSome sameNumber.symm
  simp only [Layout.digits, isCount]
  split
  case isTrue isWritten =>
    split
    case isTrue =>
      rw [String.toList_append, String.toList_append, isText, toList_zeros]
      rw [← List.append_nil (_ ++ _)]
      exact .parts (isWhole_append areDigits notZero (areDigits_replicate _))
        (.places areDigits_zero) .nothing
    case isFalse isSplit =>
      simp only [String.toList_append, String.Slice.toString_eq, String.toList_copy_take,
        String.toList_copy_drop, isText]
      have isWhole := isWhole_take areDigits notZero (Int.lt_toNat.mpr isWritten.1)
      have areRest := areDigits_drop areDigits (Nat.lt_of_not_le isSplit)
      rw [← List.append_nil (_ ++ _), List.append_assoc (List.take _ _)]
      exact .parts isWhole (.places areRest) .nothing
  case isFalse =>
    split
    case isTrue =>
      rw [String.toList_append, String.toList_append, isText, toList_zeros]
      have arePlaces (count : Nat) :
          AreDigits (List.replicate count '0' ++ Nat.toDigits 10 decimal.digits) :=
        ⟨List.append_ne_nil_of_right_ne_nil _ areDigits.1,
          List.forall_mem_append.mpr ⟨areDigits_replicate _, areDigits.2⟩⟩
      have isPoint : "0.".toList = ['0'] ++ ['.'] := rfl
      rw [isPoint, List.append_assoc, List.append_assoc, ← List.append_nil (_ ++ _)]
      exact .parts isWhole_zero (.places (arePlaces _)) .nothing
    case isFalse =>
      simp only [String.toList_append, String.Slice.toString_eq, String.toList_copy_take, isText]
      have isWhole := isWhole_take areDigits notZero Nat.one_pos
      refine .parts isWhole ?_ (isPower_exponentText _)
      split
      case isTrue =>
        exact .nothing
      case isFalse isLong =>
        rw [String.toList_append, String.toList_copy_drop, isText]
        have isCounted := digitCount_pos decimal.digits
        rw [digitCount] at isCounted
        exact .places (areDigits_drop areDigits (by omega))

end

/-- A double is written as a number, perhaps with a sign, or as what stands for no number. -/
theorem isNumber_write (number : Double) :
    (Layout.json.write number).toList = "null".toList ∨
      ∃ text, IsNumber text ∧
        ((Layout.json.write number).toList = text ∨
          (Layout.json.write number).toList = '-' :: text) := by
  rw [Layout.write]
  split
  case isTrue =>
    refine Or.inr ?_
    split
    case isTrue =>
      have isNumber := IsNumber.parts isWhole_zero (.places areDigits_zero) .nothing
      refine ⟨_, isNumber, ?_⟩
      cases number.isNegative <;> simp [Layout.json]
    case isFalse notZero =>
      refine ⟨_, isNumber_digits (digits_shortest_ne_zero notZero), ?_⟩
      cases number.isNegative <;> simp
  case isFalse =>
    refine Or.inl ?_
    split
    · split <;> rfl
    · rfl

end Runbook.Decimal
