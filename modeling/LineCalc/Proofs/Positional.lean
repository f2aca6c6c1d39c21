import LineCalc.Proofs.Interchange
import LineCalc.Proofs.Literals
import LineCalc.Proofs.Numerals
import LineCalc.Proofs.Shortest

/-!
# Results are positional and lose nothing

The text of a result and that of a log line are two numerals for one decimal, the shortest that
reads as the double. The log line may have it with an exponent, and the result never has. That
this changes nothing is a matter of zeros: those that fill up to the point belong to the number
(`Decimal.value_full`), and those at the end of the places are left out without changing it
(`Decimal.value_plain`). Where the point is there are three cases, and everything about the digits
on its two sides follows from them (`Decimal.places_cases`). Leaving zeros out at the end is the
same as stripping the whole text of them, as long as there is a point (`Decimal.stripped_full`).

Since the shortest decimal reads back, so does the text, and no two doubles share one.
-/

namespace LineCalc

/-! ## The decimal, positionally -/

namespace Decimal

variable {d : Decimal}

/-- All the digits after the point, also zeros at the end. -/
def places (d : Decimal) : List Char :=
  let n := (-d.exponent).toNat
  let cs := zeros (n - d.digitChars.length) ++ d.digitChars
  cs.drop (cs.length - n)

theorem fractionChars_eq (d : Decimal) : d.fractionChars = d.places.rdropWhile (· == '0') := rfl

theorem length_places (d : Decimal) : d.places.length = (-d.exponent).toNat := by
  rw [places, List.length_drop, List.length_append, zeros, List.length_replicate]
  omega

theorem digitChars_ne_nil (d : Decimal) : d.digitChars ≠ [] := Nat.toDigits_ne_nil

/-- The point is behind the digits, and zeros fill up to it. -/
theorem wholeChars_of_nonneg (h : 0 ≤ d.exponent) :
    d.wholeChars = d.digitChars ++ zeros d.exponent.toNat := by
  have hpos := List.length_pos_iff.mpr d.digitChars_ne_nil
  have hzero : (-d.exponent).toNat = 0 := by omega
  rw [wholeChars, hzero, List.length_append, if_pos (by omega), Nat.sub_zero, ← List.length_append,
    List.take_length]

theorem places_of_nonneg (h : 0 ≤ d.exponent) : d.places = [] := by
  rw [← List.length_eq_zero_iff, length_places]
  omega

theorem wholeChars_of_neg (h : d.exponent < 0) :
    d.wholeChars = if (-d.exponent).toNat < d.digitChars.length then
      d.digitChars.take (d.digitChars.length - (-d.exponent).toNat) else ['0'] := by
  have hzeros : zeros d.exponent.toNat = [] := by
    rw [Int.toNat_of_nonpos h.le]
    rfl
  rw [wholeChars, hzeros, List.append_nil]

/-- The point is between two digits. -/
theorem wholeChars_append_places (h : d.exponent < 0)
    (hinside : (-d.exponent).toNat < d.digitChars.length) :
    d.wholeChars ++ d.places = d.digitChars ∧ d.wholeChars ≠ [] := by
  have hwhole := wholeChars_of_neg h
  rw [if_pos hinside] at hwhole
  have hplaces : d.places = d.digitChars.drop (d.digitChars.length - (-d.exponent).toNat) := by
    rw [places, Nat.sub_eq_zero_of_le hinside.le]
    rfl
  constructor
  · rw [hwhole, hplaces, List.take_append_drop]
  · rw [hwhole, ← List.length_pos_iff, List.length_take]
    omega

/-- The point is in front of the digits, and zeros are on both of its sides. -/
theorem places_of_length_le (hfront : d.digitChars.length ≤ (-d.exponent).toNat) :
    d.places = zeros ((-d.exponent).toNat - d.digitChars.length) ++ d.digitChars := by
  rw [places, List.length_append, zeros, List.length_replicate, ← zeros,
    Nat.sub_eq_zero_of_le (by omega), List.drop_zero]

/-- The three places where the point can be. -/
theorem places_cases (d : Decimal) :
    0 ≤ d.exponent ∧ d.wholeChars = d.digitChars ++ zeros d.exponent.toNat ∧ d.places = [] ∨
    d.exponent = -d.places.length ∧ d.wholeChars ++ d.places = d.digitChars ∧
      d.wholeChars ≠ [] ∧ d.places ≠ [] ∨
    d.exponent = -d.places.length ∧ d.wholeChars = ['0'] ∧
      ∃ k, d.places = zeros k ++ d.digitChars := by
  rcases Int.lt_or_le d.exponent 0 with hneg | hnonneg
  · have hlength := length_places d
    by_cases hinside : (-d.exponent).toNat < d.digitChars.length
    · obtain ⟨hdigits, hne⟩ := wholeChars_append_places hneg hinside
      refine .inr (.inl ⟨by omega, hdigits, hne, ?_⟩)
      rw [← List.length_pos_iff]
      omega
    · have hwhole := wholeChars_of_neg hneg
      rw [if_neg hinside] at hwhole
      exact .inr (.inr ⟨by omega, hwhole, _, places_of_length_le (Nat.not_lt.mp hinside)⟩)
  · exact .inl ⟨hnonneg, wholeChars_of_nonneg hnonneg, places_of_nonneg hnonneg⟩

theorem ofDigitChars_digitChars (d : Decimal) : Nat.ofDigitChars 10 d.digitChars 0 = d.digits :=
  Nat.ofDigitChars_ten_toDigits

theorem isDigit_of_mem_digitChars {c : Char} (h : c ∈ d.digitChars) : c.isDigit = true :=
  Nat.isDigit_of_mem_toDigits (by decide) (by decide) h

/-- The decimal with all its places, zeros at the end among them. -/
def full (negative : Bool) (d : Decimal) : Numeral := ⟨negative, d.wholeChars, d.places, none⟩

theorem wellFormed_full (negative : Bool) (d : Decimal) : (d.full negative).WellFormed := by
  rcases places_cases d with ⟨-, hwhole, hplaces⟩ | ⟨-, hdigits, hne, -⟩ | ⟨-, hwhole, k, hplaces⟩
  · refine ⟨fun c hc => ?_, fun c hc => ?_, ?_⟩
    · rw [full, hwhole, List.mem_append] at hc
      exact hc.elim isDigit_of_mem_digitChars isDigit_of_mem_zeros
    · rw [full, hplaces] at hc
      cases hc
    · rw [full, hwhole]
      exact List.append_ne_nil_of_left_ne_nil d.digitChars_ne_nil _
  · refine ⟨fun c hc => ?_, fun c hc => ?_, hne⟩
    · exact isDigit_of_mem_digitChars (hdigits ▸ List.mem_append_left _ hc)
    · exact isDigit_of_mem_digitChars (hdigits ▸ List.mem_append_right _ hc)
  · refine ⟨fun c hc => ?_, fun c hc => ?_, ?_⟩
    · rw [full, hwhole] at hc
      exact isDigit_of_mem_zeros (k := 1) hc
    · rw [full, hplaces, List.mem_append] at hc
      exact hc.elim isDigit_of_mem_zeros isDigit_of_mem_digitChars
    · rw [full, hwhole]
      exact List.cons_ne_nil _ _

/-- A whole decimal is the number that its digits and zeros up to the point spell. -/
theorem value_mul_pow (h : 0 ≤ d.exponent) :
    (⟨d.digits * 10 ^ d.exponent.toNat, 0⟩ : Decimal).value = d.value := by
  have hpow := zpow_mul_pow_toNat d.exponent
  rw [Int.toNat_of_nonpos (by omega), pow_zero, mul_one] at hpow
  rw [value, value, hpow]
  push_cast
  rw [mul_one]

/-- With all its places a decimal is the number that it was. -/
theorem value_full (negative : Bool) (d : Decimal) : (d.full negative).decimal.value = d.value := by
  rcases places_cases d with ⟨hexp, hwhole, hplaces⟩ | ⟨hexp, hdigits, -, -⟩ |
    ⟨hexp, hwhole, k, hplaces⟩
  · rw [full, Numeral.decimal, hwhole, hplaces, List.append_nil, ofDigitChars_append_zeros,
      ofDigitChars_digitChars]
    exact value_mul_pow hexp
  · rw [full, Numeral.decimal, hdigits, ofDigitChars_digitChars, value, value, hexp]
    simp
  · -- zeros in front of the digits spell nothing
    have hzeros : ['0'] ++ d.places = zeros (k + 1) ++ d.digitChars := by
      rw [hplaces]
      rfl
    rw [full, Numeral.decimal, hwhole, hzeros, ofDigitChars_zeros_append, ofDigitChars_digitChars,
      value, value, hexp]
    simp

/-- No zero is in front of other digits. -/
theorem wholeChars_eq_zero (hd : d.digits = 0 → d.exponent = 0)
    (h : d.wholeChars.head? = some '0') : d.wholeChars = ['0'] := by
  have hzero (hhead : d.digitChars.head? = some '0') : d.digits = 0 := by
    by_contra hne
    exact Literal.head?_toDigits hne hhead
  rcases places_cases d with ⟨-, hwhole, -⟩ | ⟨hexp, hdigits, hne, hplaces⟩ | ⟨-, hwhole, -⟩
  · rw [hwhole, List.head?_append_of_ne_nil _ d.digitChars_ne_nil] at h
    rw [hwhole, digitChars, hzero h, hd (hzero h)]
    rfl
  · -- a zero alone has no places
    have hhead : d.digitChars.head? = some '0' := by
      rw [← hdigits, List.head?_append_of_ne_nil _ hne, h]
    have hlength := List.length_pos_iff.mpr hplaces
    have hexponent := hd (hzero hhead)
    omega
  · exact hwhole

/-- The decimal as a result shows it. -/
def plain (negative : Bool) (d : Decimal) : Numeral :=
  ⟨negative, d.wholeChars, d.fractionChars, none⟩

theorem unsigned_plain (negative : Bool) (d : Decimal) :
    (d.plain negative).unsigned = d.positional := by
  rw [Numeral.unsigned, plain, positional, Numeral.exponentChars, List.append_nil]
  cases d.fractionChars with
  | nil => exact List.append_nil _
  | cons c cs => rfl

/-- Of the places, zeros at the end are left out. -/
theorem places_eq (d : Decimal) : ∃ k, d.places = d.fractionChars ++ zeros k := by
  have hzeros : d.places.rtakeWhile (· == '0') =
      zeros (d.places.rtakeWhile (· == '0')).length :=
    List.eq_replicate_of_mem fun c hc => by simpa using List.mem_rtakeWhile_imp hc
  refine ⟨(d.places.rtakeWhile (· == '0')).length, ?_⟩
  rw [fractionChars_eq, ← hzeros, List.rdropWhile_append_rtakeWhile]

/-- Zeros that are left out at the end change nothing. -/
theorem value_plain (negative : Bool) (d : Decimal) :
    (d.plain negative).decimal.value = d.value := by
  obtain ⟨k, hk⟩ := places_eq d
  rw [← value_full negative d, full, hk, ← Numeral.value_append_zeros (d.plain negative) k]
  rfl

theorem wellFormed_plain (negative : Bool) (d : Decimal) : (d.plain negative).WellFormed := by
  obtain ⟨k, hk⟩ := places_eq d
  have hfull := wellFormed_full negative d
  refine ⟨hfull.whole, fun c hc => hfull.fraction c ?_, hfull.whole_ne_nil⟩
  rw [full, hk]
  exact List.mem_append_left _ hc

theorem plain_plain (negative : Bool) (hd : d.digits = 0 → d.exponent = 0) :
    (d.plain negative).Plain := by
  refine ⟨wellFormed_plain negative d, wholeChars_eq_zero hd, fun hlast => ?_, rfl⟩
  obtain ⟨hne, hzero⟩ := List.mem_getLast?_eq_getLast (Option.mem_def.mpr hlast)
  exact List.rdropWhile_last_not (· == '0') d.places hne (beq_iff_eq.mpr hzero.symm)

/-! ## Stripped of zeros and of the point -/

/--
A text without the zeros at its end, and then without a point there. Without a point it is left
alone, since the zeros at its end count.
-/
def stripped (cs : List Char) : List Char :=
  if '.' ∈ cs then (cs.rdropWhile (· == '0')).rdropWhile (· == '.') else cs

theorem rdropWhile_append_zeros (cs : List Char) (k : Nat) :
    (cs ++ zeros k).rdropWhile (· == '0') = cs.rdropWhile (· == '0') := by
  have hzeros : ∀ c ∈ (zeros k).reverse, (c == '0') = true := fun c hc => by
    simp [List.eq_of_mem_replicate (List.mem_reverse.mp hc)]
  rw [List.rdropWhile, List.reverse_append, List.dropWhile_append_of_pos hzeros, List.rdropWhile]

/-- The last of the places that stay is not a zero. -/
theorem getLast_fractionChars {cs : List Char} {c : Char} (h : d.fractionChars = cs ++ [c]) :
    c.isDigit = true ∧ c ≠ '0' := by
  have hmem : c ∈ d.fractionChars := h ▸ List.mem_append_right _ List.mem_cons_self
  refine ⟨(wellFormed_plain false d).fraction c hmem, fun hzero => ?_⟩
  have hlast := List.rdropWhile_last_not (· == '0') d.places (by simp [← fractionChars_eq, h])
  simp [← fractionChars_eq, h, hzero] at hlast

/--
**A result is the decimal with all its places, stripped.** It does not matter how many zeros the
places are written with, so the number may be one whose only place is a zero.
-/
theorem stripped_full (negative : Bool) (d : Decimal) (k : Nat) :
    stripped { d.full negative with fraction := d.places ++ zeros k }.unsigned =
      d.positional := by
  have hdigit := (wellFormed_full negative d).whole
  have hpoint : '.' ∉ d.wholeChars := fun hmem => absurd (hdigit _ hmem) (by decide)
  have hwhole : d.wholeChars.rdropWhile (· == '.') = d.wholeChars := by
    rw [List.rdropWhile_eq_self_iff]
    intro hne hlast
    exact hpoint (beq_iff_eq.mp hlast ▸ List.getLast_mem hne)
  obtain ⟨j, hj⟩ := places_eq d
  have hfraction : d.places ++ zeros k = d.fractionChars ++ zeros (j + k) := by
    rw [hj, List.append_assoc, zeros, zeros, zeros, ← List.replicate_add]
  rw [Numeral.unsigned, full, Numeral.exponentChars, List.append_nil, hfraction]
  dsimp only
  cases hplaces : d.fractionChars ++ zeros (j + k) with
  | nil =>
      rw [positional, (List.append_eq_nil_iff.mp hplaces).1, Numeral.pointChars, List.append_nil]
      exact if_neg hpoint
  | cons c cs =>
      have hchars : d.wholeChars ++ Numeral.pointChars (c :: cs) =
          d.wholeChars ++ '.' :: d.fractionChars ++ zeros (j + k) := by
        rw [Numeral.pointChars, ← hplaces, List.append_assoc, List.cons_append]
        exact List.cons_ne_nil c cs
      rw [hchars, stripped, if_pos (by simp), rdropWhile_append_zeros, positional]
      -- Zeros are dropped up to the last digit that is none, or up to the point.
      obtain hnil | ⟨front, last, hlast⟩ := d.fractionChars.eq_nil_or_concat
      · rw [hnil, List.rdropWhile_concat_neg _ _ _ (by decide),
          List.rdropWhile_concat_pos _ _ _ rfl, hwhole]
      · rw [List.concat_eq_append] at hlast
        obtain ⟨hisDigit, hzero⟩ := getLast_fractionChars hlast
        have hlastPoint : last ≠ '.' := fun heq => absurd (heq ▸ hisDigit) (by decide)
        have hassoc : d.wholeChars ++ '.' :: (front ++ [last]) =
            (d.wholeChars ++ '.' :: front) ++ [last] := by
          rw [List.append_assoc, List.cons_append]
        rw [hlast, hassoc, List.rdropWhile_concat_neg _ _ _ (by simpa using hzero),
          List.rdropWhile_concat_neg _ _ _ (by simpa using hlastPoint), ← hassoc]
        cases hfront : front ++ [last] with
        | nil => exact absurd hfront (by simp)
        | cons c cs => rfl

/-! ## The decimal in a log line -/

/-- The decimal with its first digit in front of the point. -/
def scaled (negative : Bool) (d : Decimal) : Numeral :=
  ⟨negative, d.digitChars.take 1, d.digitChars.drop 1, some d.magnitude⟩

theorem wellFormed_scaled (negative : Bool) (d : Decimal) : (d.scaled negative).WellFormed := by
  refine ⟨fun c hc => ?_, fun c hc => ?_, ?_⟩
  · exact isDigit_of_mem_digitChars (List.mem_of_mem_take hc)
  · exact isDigit_of_mem_digitChars (List.mem_of_mem_drop hc)
  · have hpos := List.length_pos_iff.mpr d.digitChars_ne_nil
    rw [scaled, ← List.length_pos_iff, List.length_take]
    omega

theorem unsigned_scaled (negative : Bool) (d : Decimal) :
    (d.scaled negative).unsigned = d.scientific := by
  obtain ⟨c, cs, hdigits⟩ := List.exists_cons_of_ne_nil d.digitChars_ne_nil
  rw [scientific, Numeral.unsigned, scaled, Numeral.exponentChars, hdigits]
  cases cs <;> simp [Numeral.pointChars]

theorem decimal_scaled (negative : Bool) (d : Decimal) : (d.scaled negative).decimal = d := by
  have hpos := List.length_pos_iff.mpr d.digitChars_ne_nil
  have hexponent : d.magnitude - (d.digitChars.drop 1).length = d.exponent := by
    rw [magnitude, List.length_drop]
    omega
  rw [Numeral.decimal, scaled, List.take_append_drop, ofDigitChars_digitChars, Option.getD_some,
    hexponent]

/-- A log line shows the decimal with an exponent, with its places, or with a zero for a place. -/
theorem exists_logged (negative : Bool) (d : Decimal) : ∃ r : Numeral, r.WellFormed ∧
    r.negative = negative ∧ r.unsigned = d.logged ∧ r.decimal.value = d.value := by
  have hplain := wellFormed_plain negative d
  have hvalue := value_plain negative d
  rw [logged]
  split
  · exact ⟨d.scaled negative, wellFormed_scaled negative d, rfl, unsigned_scaled negative d,
      congrArg value (decimal_scaled negative d)⟩
  · split
    · next hfraction =>
      -- a zero for a place counts as little as one that is left out
      refine ⟨{ d.plain negative with fraction := d.fractionChars ++ zeros 1 },
        ⟨hplain.whole, fun c hc => ?_, hplain.whole_ne_nil⟩, rfl, ?_, ?_⟩
      · exact (List.mem_append.mp hc).elim (hplain.fraction c) isDigit_of_mem_zeros
      · rw [Numeral.unsigned, positional, hfraction]
        rfl
      · exact (Numeral.value_append_zeros (d.plain negative) 1).trans hvalue
    · exact ⟨d.plain negative, hplain, rfl, unsigned_plain negative d, hvalue⟩

end Decimal

/-! ## Doubles -/

namespace Double

variable {n : Nat} {d : Decimal}

theorem toDouble_eq_iff (negative : Bool) (hn : Representable n) :
    d.toDouble negative = finite negative n hn ↔ d.units = n := by
  rw [Decimal.toDouble, ofUnits, Decimal.units]
  split
  · rw [finite.injEq]
    exact and_iff_right rfl
  · next hlarge =>
    constructor
    · intro h
      cases h
    · intro h
      rw [h] at hlarge
      exact absurd hn.1 hlarge

theorem shortest_zero (hn : Representable n) (h : (Decimal.shortest n).digits = 0) :
    (Decimal.shortest n).exponent = 0 := by
  have hzero : n = 0 := by
    by_contra hne
    have hpos := Decimal.digits_pos_of_units (Decimal.units_shortest hn) hne
    omega
  rw [Decimal.shortest, if_pos hzero]

/-- The number that the text of a finite double is. -/
def numeral (negative : Bool) (n : Nat) : Numeral := (Decimal.shortest n).plain negative

theorem text_finite (negative : Bool) (hn : Representable n) :
    (finite negative n hn).text = String.ofList (numeral negative n).chars := by
  rw [text, Numeral.chars, numeral, Decimal.unsigned_plain]
  rfl

theorem toDouble_numeral (negative : Bool) (hn : Representable n) :
    (numeral negative n).toDouble = finite negative n hn := by
  rw [Numeral.toDouble]
  refine (toDouble_eq_iff negative hn).mpr ?_
  rw [numeral, Decimal.units_eq_units (Decimal.value_plain negative _)]
  exact Decimal.units_shortest hn

theorem wellFormed_numeral (negative : Bool) (n : Nat) : (numeral negative n).WellFormed :=
  Decimal.wellFormed_plain negative _

/-- **A double is read from its text.** -/
theorem ofText?_text {x : Double} (hx : x ≠ nan) : ofText? x.text = some x := by
  cases x with
  | nan => exact absurd rfl hx
  | infinity negative => cases negative <;> rfl
  | finite negative n hn =>
      rw [text_finite, ofText?_chars (wellFormed_numeral negative n), toDouble_numeral]

theorem text_injective {x y : Double} (hx : x ≠ nan) (hy : y ≠ nan) (h : x.text = y.text) :
    x = y := by
  have hread := ofText?_text hx
  rw [h, ofText?_text hy] at hread
  exact (Option.some.inj hread).symm

/--
**The text of a double is positional, without needless zeros, and loses nothing.**

Log lines have the shortest decimal that reads as the double, perhaps with an exponent. The text
has none, and is the same number. A minus is the sign bit. Digits in front of the point are those
of the whole part, so no zero among them is lost. Then what is read from the text is the double,
bit for bit, and so two patterns of bits share a text only if they are not numbers.
-/
theorem text_positional :
    (∀ (negative : Bool) (n : Nat) (hn : Representable n), ∃ m r : Numeral,
      (finite negative n hn).text = String.ofList m.chars ∧ m.Plain ∧
      (finite negative n hn).logText = String.ofList r.chars ∧ r.WellFormed ∧
      m.value = r.value ∧ r.decimal.value = (Decimal.shortest n).value ∧
      r.toDouble = finite negative n hn ∧
      (∀ d : Decimal, d.toDouble negative = finite negative n hn →
        (Decimal.shortest n).length ≤ d.length) ∧
      m.negative.toNat = (finite negative n hn).toBits.toNat / 2 ^ 63 ∧
      Nat.ofDigitChars 10 m.whole 0 = ⌊|m.value|⌋₊) ∧
    (∀ b : UInt64, ofBits b ≠ nan → (ofText? (ofBits b).text).map toBits = some b) ∧
    ∀ b c : UInt64, ofBits b ≠ nan → ofBits c ≠ nan →
      (ofBits b).text = (ofBits c).text → b = c := by
  refine ⟨fun negative n hn => ?_, fun b hb => ?_, fun b c hb hc h => ?_⟩
  · have hplain := (Decimal.shortest n).plain_plain negative (shortest_zero hn)
    obtain ⟨r, hr, hsign, hlogged, hvalue⟩ := (Decimal.shortest n).exists_logged negative
    have hsame : (numeral negative n).decimal.value = r.decimal.value :=
      (Decimal.value_plain negative _).trans hvalue.symm
    refine ⟨numeral negative n, r, text_finite negative hn, hplain, ?_, hr, ?_, hvalue, ?_, ?_,
      (toBits_div negative hn).symm, ?_⟩
    · rw [logText, Numeral.chars, hsign, hlogged]
    · rw [Numeral.value, Numeral.value, hsame, hsign]
      rfl
    · rw [Numeral.toDouble, hsign]
      refine (toDouble_eq_iff negative hn).mpr ?_
      rw [Decimal.units_eq_units hvalue]
      exact Decimal.units_shortest hn
    · exact fun d hd => Decimal.length_shortest_le hn ((toDouble_eq_iff negative hn).mp hd)
    · rw [Numeral.abs_value]
      exact (Numeral.floor_value hplain.toWellFormed rfl).symm
  · rw [ofText?_text hb, Option.map_some, toBits_ofBits hb]
  · have heq := text_injective hb hc h
    rw [← toBits_ofBits hb, heq, toBits_ofBits hc]

/-- Zero and minus zero have different bits and different texts. -/
theorem text_positional_zeros :
    (ofBits 0 ≠ nan ∧ ofBits 0x8000000000000000 ≠ nan) ∧
      (ofBits 0).text ≠ (ofBits 0x8000000000000000).text :=
  have hzero : ofBits 0 ≠ nan := by decide
  have hminus : ofBits 0x8000000000000000 ≠ nan := by decide
  ⟨⟨hzero, hminus⟩, fun h => absurd (text_positional.2.2 _ _ hzero hminus h) (by decide)⟩

end Double

end LineCalc
