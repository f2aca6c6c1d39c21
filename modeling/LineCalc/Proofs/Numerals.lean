import LineCalc.Decimal.Text
import LineCalc.WholeNumber
import LineCalc.Proofs.Rounding

/-!
# Numbers as they are written

A `Numeral` is what a text shows of a number: a sign, digits, perhaps a point and digits, perhaps
an exponent. Each is one exact number, and from its characters it is read again
(`Numeral.read?_unsigned`): digits end where something else begins, and what begins there says
what it is. A text is then a double as well, the one nearest to its number (`Double.ofText?`).

Zeros at the end of a fraction do not change the number (`Numeral.value_append_zeros`). Zeros in
front of the point do, as the digits there are its whole part (`Numeral.floor_value`).
-/

namespace LineCalc

/-! ## Digits -/

theorem isDigit_of_mem_zeros {k : Nat} {c : Char} (h : c ∈ Decimal.zeros k) : c.isDigit = true := by
  rw [List.eq_of_mem_replicate h]
  rfl

theorem ofDigitChars_append_zeros (cs : List Char) (k : Nat) :
    Nat.ofDigitChars 10 (cs ++ Decimal.zeros k) 0 = Nat.ofDigitChars 10 cs 0 * 10 ^ k := by
  rw [Nat.ofDigitChars_append, Decimal.zeros, Nat.ofDigitChars_replicate_zero, Nat.mul_comm]

theorem ofDigitChars_zeros_append (k : Nat) (cs : List Char) :
    Nat.ofDigitChars 10 (Decimal.zeros k ++ cs) 0 = Nat.ofDigitChars 10 cs 0 := by
  rw [Nat.ofDigitChars_append, Decimal.zeros, Nat.ofDigitChars_replicate_zero, Nat.mul_zero]

/-- Digits spell less than one with as many zeros. -/
theorem ofDigitChars_lt {cs : List Char} (h : ∀ c ∈ cs, c.isDigit = true) :
    Nat.ofDigitChars 10 cs 0 < 10 ^ cs.length := by
  induction cs with
  | nil => simp
  | cons c cs ih =>
      have hrest := ih fun x hx => h x (List.mem_cons_of_mem _ hx)
      have hdigit : c.toNat - '0'.toNat ≤ 9 := by
        have hc := h c List.mem_cons_self
        rw [Char.isDigit_iff_toNat] at hc
        have hbounds : '0'.toNat = 48 ∧ '9'.toNat = 57 := ⟨rfl, rfl⟩
        omega
      rw [Nat.ofDigitChars_cons, Nat.ofDigitChars_eq_ofDigitChars_zero, List.length_cons,
        Nat.pow_succ, Nat.mul_zero, Nat.zero_add]
      have hmul := Nat.mul_le_mul_left (10 ^ cs.length) hdigit
      omega

/-! ## Numerals -/

/-- A number as it is written, with a point and an exponent or without. -/
structure Numeral where
  negative : Bool
  whole : List Char
  fraction : List Char
  exponent : Option Int
deriving DecidableEq, Repr

namespace Numeral

/-- A fraction as it is written. -/
def pointChars : List Char → List Char
  | [] => []
  | fraction => '.' :: fraction

/-- An exponent as it is written: always with a sign, and with two digits at least. -/
def exponentChars : Option Int → List Char
  | none => []
  | some e =>
    let power := Nat.toDigits 10 e.natAbs
    'e' :: (if e < 0 then '-' else '+') :: (Decimal.zeros (2 - power.length) ++ power)

/-- The characters of a number without its sign. -/
def unsigned (m : Numeral) : List Char :=
  m.whole ++ (pointChars m.fraction ++ exponentChars m.exponent)

/-- The characters of a number. -/
def chars (m : Numeral) : List Char := Double.signChars m.negative ++ m.unsigned

/-- The decimal that a number is, apart from its sign. -/
def decimal (m : Numeral) : Decimal :=
  ⟨Nat.ofDigitChars 10 (m.whole ++ m.fraction) 0, m.exponent.getD 0 - m.fraction.length⟩

/-- The exact number that is written. -/
def value (m : Numeral) : ℚ := if m.negative then -m.decimal.value else m.decimal.value

/-- The double nearest to the number that is written. -/
def toDouble (m : Numeral) : Double := m.decimal.toDouble m.negative

/-- There are digits where digits have to be. -/
structure WellFormed (m : Numeral) : Prop where
  whole : ∀ c ∈ m.whole, c.isDigit = true
  fraction : ∀ c ∈ m.fraction, c.isDigit = true
  whole_ne_nil : m.whole ≠ []

/-- There is no exponent, and there are no zeros that could be left out. -/
structure Plain (m : Numeral) : Prop extends WellFormed m where
  whole_zero : m.whole.head? = some '0' → m.whole = ['0']
  fraction_end : m.fraction.getLast? ≠ some '0'
  exponent : m.exponent = none

/-! ## Reading -/

/-- A point and the digits after it, if there is a point, and what follows. -/
def readFraction : List Char → List Char × List Char
  | '.' :: rest => (rest.takeWhile Char.isDigit, rest.dropWhile Char.isDigit)
  | cs => ([], cs)

/-- An exponent that ends a number, if there is one. -/
def readExponent? : List Char → Option (Option Int)
  | [] => some none
  | 'e' :: mark :: digits =>
    if digits = [] ∨ ¬ digits.all Char.isDigit then none
    else if mark = '-' then some (some (-Nat.ofDigitChars 10 digits 0))
    else if mark = '+' then some (some (Nat.ofDigitChars 10 digits 0))
    else none
  | _ => none

/-- The number that characters without a sign are, when the sign is known. -/
def read? (negative : Bool) (cs : List Char) : Option Numeral :=
  let whole := cs.takeWhile Char.isDigit
  let (fraction, rest) := readFraction (cs.dropWhile Char.isDigit)
  if whole = [] then none else (readExponent? rest).map (⟨negative, whole, fraction, ·⟩)

/-- Digits end where something else begins. -/
theorem digits_append {ds rest : List Char} (hds : ∀ c ∈ ds, c.isDigit = true)
    (hrest : ∀ c ∈ rest.head?, c.isDigit = false) :
    (ds ++ rest).takeWhile Char.isDigit = ds ∧ (ds ++ rest).dropWhile Char.isDigit = rest := by
  rw [List.takeWhile_append_of_pos hds, List.dropWhile_append_of_pos hds]
  cases rest with
  | nil => simp
  | cons c rest =>
      have hc : ¬ c.isDigit = true := by simp [hrest c rfl]
      rw [List.takeWhile_cons_of_neg hc, List.dropWhile_cons_of_neg hc, List.append_nil]
      exact ⟨rfl, rfl⟩

theorem readExponent?_exponentChars (e : Option Int) :
    readExponent? (exponentChars e) = some e := by
  cases e with
  | none => rfl
  | some e =>
      have hne : Decimal.zeros (2 - (Nat.toDigits 10 e.natAbs).length) ++
          Nat.toDigits 10 e.natAbs ≠ [] := List.append_ne_nil_of_right_ne_nil _ Nat.toDigits_ne_nil
      have hdigits : (Decimal.zeros (2 - (Nat.toDigits 10 e.natAbs).length) ++
          Nat.toDigits 10 e.natAbs).all Char.isDigit = true := by
        rw [List.all_eq_true]
        intro c hc
        rcases List.mem_append.mp hc with hc | hc
        · exact isDigit_of_mem_zeros hc
        · exact Nat.isDigit_of_mem_toDigits (by decide) (by decide) hc
      rw [exponentChars, readExponent?, if_neg (by simp [hne, hdigits]),
        ofDigitChars_zeros_append, Nat.ofDigitChars_ten_toDigits]
      by_cases hneg : e < 0
      · rw [if_pos hneg, if_pos rfl]
        congr 2
        omega
      · rw [if_neg hneg, if_neg (by decide), if_pos rfl]
        congr 2
        omega

theorem not_isDigit_head_exponentChars (e : Option Int) :
    ∀ c ∈ (exponentChars e).head?, c.isDigit = false := by
  cases e with
  | none => simp [exponentChars]
  | some e =>
      rintro c ⟨⟩
      rfl

theorem readFraction_append {fraction rest : List Char} (h : ∀ c ∈ fraction, c.isDigit = true)
    (hdigit : ∀ c ∈ rest.head?, c.isDigit = false) (hpoint : rest.head? ≠ some '.') :
    readFraction (pointChars fraction ++ rest) = (fraction, rest) := by
  cases fraction with
  | nil =>
      rw [pointChars, List.nil_append]
      unfold readFraction
      split
      · exact absurd rfl hpoint
      · rfl
  | cons c cs =>
      have hrest := digits_append h hdigit
      rw [pointChars, List.cons_append, readFraction, hrest.1, hrest.2]
      simp

/-- **A number is read from its characters.** -/
theorem read?_unsigned {m : Numeral} (hm : m.WellFormed) :
    read? m.negative m.unsigned = some m := by
  have hexponent := not_isDigit_head_exponentChars m.exponent
  have hfraction := readFraction_append hm.fraction hexponent (by
    cases m.exponent <;> simp [exponentChars])
  have hrest : ∀ c ∈ (pointChars m.fraction ++ exponentChars m.exponent).head?,
      c.isDigit = false := by
    cases hf : m.fraction with
    | nil => exact hexponent
    | cons c cs =>
        rintro c ⟨⟩
        rfl
  have hwhole := digits_append hm.whole hrest
  rw [read?, unsigned, hwhole.1, hwhole.2, hfraction]
  dsimp only
  rw [if_neg hm.whole_ne_nil, readExponent?_exponentChars]
  rfl

/-! ## Zeros -/

/-- Zeros at the end of a fraction do not count. -/
theorem value_append_zeros (m : Numeral) (k : Nat) :
    { m with fraction := m.fraction ++ Decimal.zeros k }.decimal.value = m.decimal.value := by
  have hten : (10 : ℚ) ^ k ≠ 0 := by positivity
  have hlength : (Decimal.zeros k).length = k := List.length_replicate
  rw [decimal, decimal, Decimal.value, Decimal.value, ← List.append_assoc,
    ofDigitChars_append_zeros, List.length_append, hlength]
  push_cast
  rw [← sub_sub, zpow_sub₀ (by norm_num) _ (k : Int), zpow_natCast, mul_assoc,
    mul_div_cancel₀ _ hten]

theorem abs_value (m : Numeral) : |m.value| = m.decimal.value := by
  have hnonneg : 0 ≤ m.decimal.value :=
    mul_nonneg (Nat.cast_nonneg _) (zpow_pos (by norm_num) _).le
  rw [value]
  split
  · rw [abs_neg, abs_of_nonneg hnonneg]
  · exact abs_of_nonneg hnonneg

/-- The digits in front of the point are the number without its fraction. -/
theorem floor_value {m : Numeral} (hm : m.WellFormed) (hexponent : m.exponent = none) :
    ⌊m.decimal.value⌋₊ = Nat.ofDigitChars 10 m.whole 0 := by
  have hvalue : m.decimal.value =
      (Nat.ofDigitChars 10 (m.whole ++ m.fraction) 0 : Nat) / (10 ^ m.fraction.length : Nat) := by
    rw [decimal, Decimal.value, hexponent, Option.getD_none, zero_sub, zpow_neg, zpow_natCast,
      div_eq_mul_inv]
    push_cast
    rfl
  rw [hvalue, Nat.floor_div_eq_div, Nat.ofDigitChars_append, Nat.ofDigitChars_eq_ofDigitChars_zero,
    Nat.mul_add_div (Nat.pow_pos (by decide)), Nat.div_eq_of_lt (ofDigitChars_lt hm.fraction),
    Nat.add_zero]

/-! ## The double that a text is -/

theorem minus_append (negative : Bool) {cs : List Char} (h : cs.head? ≠ some '-') :
    WholeNumber.minus (Double.signChars negative ++ cs) = (negative, cs) := by
  cases negative with
  | true => rfl
  | false =>
      rw [Double.signChars, if_neg Bool.false_ne_true, List.nil_append]
      unfold WholeNumber.minus
      split
      · exact absurd rfl h
      · rfl

/-- A number begins with a digit. -/
theorem exists_digit {m : Numeral} (hm : m.WellFormed) :
    ∃ c cs, m.unsigned = c :: cs ∧ c.isDigit = true := by
  obtain ⟨c, cs, hwhole⟩ := List.exists_cons_of_ne_nil hm.whole_ne_nil
  refine ⟨c, cs ++ (pointChars m.fraction ++ exponentChars m.exponent), ?_, hm.whole c ?_⟩
  · rw [unsigned, hwhole, List.cons_append]
  · rw [hwhole]
    exact List.mem_cons_self

end Numeral

namespace Double

/-- The double that a text is, if it is that of a number. -/
def ofText? (s : String) : Option Double :=
  let (negative, cs) := WholeNumber.minus s.toList
  if cs = ['i', 'n', 'f'] then some (.infinity negative)
  else (Numeral.read? negative cs).map Numeral.toDouble

theorem ofText?_chars {m : Numeral} (hm : m.WellFormed) :
    ofText? (String.ofList m.chars) = some m.toDouble := by
  obtain ⟨c, cs, hunsigned, hdigit⟩ := m.exists_digit hm
  have hsign : m.unsigned.head? ≠ some '-' := by
    rintro hhead
    rw [hunsigned, List.head?_cons, Option.some.injEq] at hhead
    rw [hhead] at hdigit
    cases hdigit
  have hinf : m.unsigned ≠ ['i', 'n', 'f'] := by
    rintro heq
    rw [hunsigned, List.cons.injEq] at heq
    rw [heq.1] at hdigit
    cases hdigit
  rw [ofText?, String.toList_ofList, Numeral.chars, Numeral.minus_append _ hsign]
  dsimp only
  rw [if_neg hinf, Numeral.read?_unsigned hm]
  rfl

end Double

end LineCalc
