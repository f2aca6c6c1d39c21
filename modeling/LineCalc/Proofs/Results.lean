import LineCalc.Proofs.FirstError
import LineCalc.Proofs.Outcomes
import LineCalc.Proofs.Positional

/-!
# Results read back as expressions

A whole number is printed as digits with a sign in front. On a line of its own such a text is a
literal, or a literal behind a unary minus, and it is one as long as the digits spell less than
`2 ^ 64`. So an integer comes back unless it is larger than any literal
(`evaluate_text_integer`), and integers can be, since results have 128 bits.

For a double the digits are those of the shortest decimal, filled up with zeros. They spell
another number in general, but one that reads as the same double. It is below `2 ^ 64` as well,
since `2 ^ 64` is a double itself and rounding keeps the order of numbers
(`Double.lt_of_units_lt`).
-/

namespace LineCalc

/-! ## A line with nothing but a number -/

/-- Digits with a sign in front. -/
def wholeText (negative : Bool) (n : Nat) : String :=
  String.ofList (Double.signChars negative ++ Nat.toDigits 10 n)

namespace Expr

/-- A literal, with a minus or without. -/
def signed (negative : Bool) (v : UInt64) : Expr :=
  if negative then .negate (.number v) else .number v

theorem render_signed (negative : Bool) (v : UInt64) :
    (signed negative v).render = wholeText negative v.toNat := by
  cases negative with
  | false => exact Nat.toString_eq_ofList_toDigits
  | true =>
      have hdigits : (Expr.number v).render = String.ofList (Nat.toDigits 10 v.toNat) :=
        Nat.toString_eq_ofList_toDigits
      rw [signed, if_pos rfl, render, hdigits, wholeText, Double.signChars, if_pos rfl,
        String.ofList_append]

theorem canonical_signed (negative : Bool) (v : UInt64) : (signed negative v).Canonical := by
  cases negative with
  | false => trivial
  | true => exact ⟨rfl, trivial⟩

/-- A number with its sign is one level deep at most. -/
theorem nestingDepth_signed {negative : Bool} {v : UInt64} {ts : List Token}
    (h : (signed negative v).SpelledBy ts) : Token.nestingDepth ts ≤ 1 := by
  cases negative with
  | false =>
      obtain ⟨t, rfl, hk, -⟩ := spelledBy_number.mp h
      simp [Token.nestingDepth, hk, Nesting.step, Nesting.shift, Nesting.level]
  | true =>
      obtain ⟨t, ts, rfl, hk, hspell⟩ := spelledBy_negate.mp h
      obtain ⟨u, rfl, hk', -⟩ := spelledBy_number.mp hspell
      simp [Token.nestingDepth, hk, hk', Nesting.step, Nesting.shift, Nesting.level,
        Nesting.awaitsOperand]

end Expr

variable {cap : Option Int} {n : Nat}

/-- A number that fits is read as a literal with its sign. -/
theorem evaluate_wholeText (mode : Mode) (hcap : ∀ k, cap = some k → 1 ≤ k) (negative : Bool)
    (v : UInt64) :
    (evaluate mode cap (wholeText negative v.toNat)).outcome =
        ((Expr.signed negative v).evaluateIn mode).outcome.mapError .fault ∧
      (evaluate mode cap (wholeText negative v.toNat)).warnings =
        ((Expr.signed negative v).evaluateIn mode).warnings := by
  obtain ⟨ts, hscan, hspell⟩ := scan_render (Expr.signed negative v)
  have hparse := parse_of_canonical (Expr.canonical_signed negative v) hspell
  have hdepth := Expr.nestingDepth_signed hspell
  have hexceeds : exceeds cap ts = false := by
    cases cap with
    | none => rfl
    | some k =>
        have hk : 1 ≤ k := hcap k rfl
        exact decide_eq_false (by omega)
  rw [Expr.render_signed] at hscan
  exact evaluate_of_parse mode hscan hexceeds hparse

theorem longestAt_ofNat (n : Nat) : (Literal.ofNat n).LongestAt (Nat.toDigits 10 n) := by
  have hend : Literal.EndsAt [] := by simp [Literal.EndsAt]
  have htake := Literal.take?_ofNat n hend
  rw [List.append_nil] at htake
  exact Literal.longestAt_of_take? htake

/-- A number that does not fit is refused where its digits begin. -/
theorem scan_wholeText_of_le (negative : Bool) (h : 2 ^ 64 ≤ n) :
    Token.scan (wholeText negative n) =
      .error (.literalTooLarge negative.toNat (Nat.toDigits 10 n)) := by
  have hl := longestAt_ofNat n
  have hlarge : 2 ^ 64 - 1 < (Literal.ofNat n).positional := by
    rw [← Literal.value_eq_positional hl.wellFormed, Literal.value_ofNat]
    omega
  have hdigits (start : Nat) : Token.scanFrom start (Nat.toDigits 10 n) =
      .error (.literalTooLarge start (Nat.toDigits 10 n)) :=
    Token.scanFrom_of_tooLarge hl hlarge start
  rw [Token.scan, wholeText, String.toList_ofList]
  cases negative with
  | false => exact hdigits 0
  | true =>
      rw [Double.signChars, if_pos rfl, List.singleton_append,
        Token.scanFrom_symbol (k := .minus) rfl, hdigits]
      rfl

/-! ## Integers -/

theorem text_integer (v : Int) : (Value.integer v).text = wholeText (decide (v < 0)) v.natAbs := by
  cases v with
  | ofNat n =>
      have htext : (Value.integer (.ofNat n)).text = toString n := rfl
      rw [htext, Nat.toString_eq_ofList_toDigits]
      rfl
  | negSucc n =>
      have htext : (Value.integer (.negSucc n)).text = "-" ++ toString (n + 1) := rfl
      rw [htext, Nat.toString_eq_ofList_toDigits, wholeText, decide_eq_true (Int.negSucc_lt_zero n),
        Double.signChars, if_pos rfl, String.ofList_append]
      rfl

theorem evaluateIn_integer_signed (negative : Bool) (v : UInt64) :
    (Expr.signed negative v).evaluateIn .integer =
      ⟨[], .ok (.integer (if negative then -v.toNat else v.toNat))⟩ := by
  cases negative with
  | false => rfl
  | true =>
      have hlt : (v.toNat : Int) < 2 ^ 64 := by exact_mod_cast v.toNat_lt
      have hrange : Integer.InRange (-(v.toNat : Int)) := Expr.inRange_iff.mpr (by omega)
      have hneg : (Expr.signed true v).toRaw.evaluate Integer.arithmetic =
          Integer.checked (-v.toNat) := rfl
      rw [Expr.evaluateIn, RawExpr.evaluateIn, hneg, Integer.checked, if_pos hrange]
      rfl

/-- **An integer that a literal can be comes back.** -/
theorem evaluate_text_integer (hcap : ∀ k, cap = some k → 1 ≤ k) {v : Int} (h : v.natAbs < 2 ^ 64) :
    (evaluate .integer cap (Value.integer v).text).outcome = .ok (.integer v) ∧
      (evaluate .integer cap (Value.integer v).text).warnings = [] := by
  have hline := evaluate_wholeText .integer hcap (decide (v < 0)) (UInt64.ofNat v.natAbs)
  rw [UInt64.toNat_ofNat_of_lt' h, ← text_integer, evaluateIn_integer_signed,
    UInt64.toNat_ofNat_of_lt' h] at hline
  have hvalue : (if decide (v < 0) = true then -(v.natAbs : Int) else v.natAbs) = v := by
    by_cases hneg : v < 0
    · rw [decide_eq_true hneg, if_pos rfl]
      omega
    · rw [decide_eq_false hneg, if_neg Bool.false_ne_true]
      omega
  rw [hvalue] at hline
  exact hline

/-! ## Doubles -/

/-- Zeros behind a number multiply it. -/
theorem toDigits_mul_pow (hn : 0 < n) (k : Nat) :
    Nat.toDigits 10 (n * 10 ^ k) = Nat.toDigits 10 n ++ Decimal.zeros k := by
  induction k with
  | zero => simp [Decimal.zeros]
  | succ k ih =>
      have hpos : 0 < n * 10 ^ k := Nat.mul_pos hn (Nat.pow_pos (by decide))
      have hlast := Nat.toDigits_append_toDigits (b := 10) (by decide) hpos (by decide : 0 < 10)
      have hpow : 10 * (n * 10 ^ k) + 0 = n * 10 ^ (k + 1) := by
        rw [Nat.add_zero, Nat.mul_left_comm, Nat.pow_succ, Nat.mul_comm 10]
      rw [hpow, Nat.toDigits_zero, ih] at hlast
      rw [← hlast, Decimal.zeros, Decimal.zeros, List.replicate_succ', List.append_assoc]

namespace Decimal

variable {d : Decimal}

/-- A whole decimal as a result shows it: its digits, and zeros up to the point. -/
theorem positional_of_nonneg (h : 0 ≤ d.exponent) :
    d.positional = d.digitChars ++ zeros d.exponent.toNat := by
  rw [positional, fractionChars_eq, places_of_nonneg h, List.rdropWhile_nil]
  exact wholeChars_of_nonneg h

/-- A whole decimal is written like the number it is. -/
theorem digitChars_append_zeros (hd : d.digits = 0 → d.exponent = 0) :
    d.digitChars ++ zeros d.exponent.toNat =
      Nat.toDigits 10 (d.digits * 10 ^ d.exponent.toNat) := by
  by_cases hzero : d.digits = 0
  · rw [digitChars, hzero, hd hzero]
    rfl
  · exact (toDigits_mul_pow (Nat.pos_of_ne_zero hzero) _).symm

end Decimal

namespace Double

/-- The text of a whole double: the digits of a number that reads as the double. -/
theorem text_whole (negative : Bool) (hn : Representable n) {m : Nat} (hm : n = m * unitsPerOne) :
    ∃ k : Nat, (finite negative n hn).text = wholeText negative k ∧
      (⟨k, 0⟩ : Decimal).units = n := by
  have hexponent := Decimal.exponent_shortest_nonneg hn hm
  refine ⟨(Decimal.shortest n).digits * 10 ^ (Decimal.shortest n).exponent.toNat, ?_, ?_⟩
  · rw [text, Decimal.positional_of_nonneg hexponent,
      Decimal.digitChars_append_zeros (shortest_zero hn), wholeText]
  · rw [Decimal.units_eq_units (Decimal.value_mul_pow hexponent)]
    exact Decimal.units_shortest hn

/-- A number that reads as less than a power of two is less. -/
theorem lt_of_units_lt {k : Nat} (h : (⟨k, 0⟩ : Decimal).units < 2 ^ 64 * unitsPerOne) :
    k < 2 ^ 64 := by
  by_contra hle
  have hpower : Representable (2 ^ 64 * unitsPerOne) := by
    have hshift : 2 ^ 64 * unitsPerOne = 1 <<< (onePlace + 64) := by
      rw [unitsPerOne, Nat.shiftLeft_add, Nat.shiftLeft_eq _ 64, Nat.mul_comm]
    rw [hshift]
    exact representable_shiftLeft (by decide) (by decide)
  have hunits : (⟨2 ^ 64, 0⟩ : Decimal).units = 2 ^ 64 * unitsPerOne :=
    Decimal.units_eq_of_value_eq hpower (Decimal.value_whole _)
  have hmono := Decimal.units_le_units (Decimal.value_mono (not_lt.mp hle) 0)
  rw [hunits] at hmono
  omega

/-- An integer is converted to the double that it reads as. -/
theorem ofInt_of_units {k : Nat} (hn : Representable n) (h : (⟨k, 0⟩ : Decimal).units = n) :
    ofInt k = finite false n hn := by
  have hnum : (⟨k, 0⟩ : Decimal).num = k := Nat.mul_one k
  have hden : (⟨k, 0⟩ : Decimal).den = 1 := rfl
  rw [← (toDouble_eq_iff false hn).mpr h, ofInt, Decimal.toDouble, hnum, hden, Int.natAbs_natCast,
    decide_eq_false (by omega)]

end Double

theorem evaluateIn_floating_signed (negative : Bool) {v : UInt64} {hn : Double.Representable n}
    (h : Double.ofInt v.toNat = .finite false n hn) :
    (Expr.signed negative v).evaluateIn .floating =
      ⟨[], .ok (.double (.finite negative n hn))⟩ := by
  have hliteral : Floating.literal v.toNat = (pure (.finite false n hn) : Run Double) := by
    unfold Floating.literal
    rw [h]
  cases negative with
  | false =>
      have hnumber : (Expr.signed false v).toRaw.evaluate Floating.arithmetic =
          Floating.literal v.toNat := rfl
      rw [Expr.evaluateIn, RawExpr.evaluateIn, hnumber, hliteral]
      rfl
  | true =>
      have hneg : (Expr.signed true v).toRaw.evaluate Floating.arithmetic =
          Floating.literal v.toNat >>= fun x => pure (-x) := rfl
      rw [Expr.evaluateIn, RawExpr.evaluateIn, hneg, hliteral]
      rfl

/-- **A whole double that a literal can be comes back**, and zero with its sign. -/
theorem evaluate_text_double (hcap : ∀ k, cap = some k → 1 ≤ k) {x : Double} {v : Int}
    (hx : x.Equals v) (hv : v.natAbs < 2 ^ 64) :
    (evaluate .floating cap (Value.double x).text).outcome = .ok (.double x) ∧
      (evaluate .floating cap (Value.double x).text).warnings = [] := by
  obtain ⟨negative, n, hn, rfl, hunits, -, -⟩ := hx.exists_finite
  obtain ⟨k, htext, hk⟩ := Double.text_whole negative hn hunits
  have hlt : k < 2 ^ 64 := by
    apply Double.lt_of_units_lt
    rw [hk, hunits]
    exact Nat.mul_lt_mul_of_pos_right hv Double.unitsPerOne_pos
  have hround : Double.ofInt (UInt64.ofNat k).toNat = .finite false n hn := by
    rw [UInt64.toNat_ofNat_of_lt' hlt]
    exact Double.ofInt_of_units hn hk
  have hline := evaluate_wholeText .floating hcap negative (UInt64.ofNat k)
  rw [UInt64.toNat_ofNat_of_lt' hlt, ← htext, evaluateIn_floating_signed negative hround] at hline
  exact hline

/--
**Results read back.** With any cap that a configuration can set, or none, the text of an integer
is evaluated to this integer in integer mode, without a warning, if it is `2 ^ 64 - 1` at most,
and otherwise its digits are too large a literal. The text of a double that is an integer of that
size is evaluated to the same double in floating mode, bit for bit, whatever its sign.
-/
theorem results_read_back (hcap : ∀ k, cap = some k → 1 ≤ k) :
    (∀ v : Int, v.natAbs ≤ 2 ^ 64 - 1 →
      (evaluate .integer cap (Value.integer v).text).outcome = .ok (.integer v) ∧
      (evaluate .integer cap (Value.integer v).text).warnings = []) ∧
    (∀ v : Int, 2 ^ 64 - 1 < v.natAbs →
      (evaluate .integer cap (Value.integer v).text).outcome =
        .error (.lex (.literalTooLarge (if v < 0 then 1 else 0) (Nat.toDigits 10 v.natAbs)))) ∧
    ∀ (b : UInt64) (v : Int), (Double.ofBits b).Equals v → v.natAbs < 2 ^ 64 →
      ∃ y, (evaluate .floating cap (Value.double (Double.ofBits b)).text).outcome =
          .ok (.double y) ∧ y.toBits = b ∧
        (evaluate .floating cap (Value.double (Double.ofBits b)).text).warnings = [] := by
  refine ⟨fun v hv => evaluate_text_integer hcap (by omega), fun v hv => ?_, fun b v hb hv => ?_⟩
  · have hlarge : 2 ^ 64 ≤ v.natAbs := by omega
    have hscan := scan_wholeText_of_le (decide (v < 0)) hlarge
    rw [evaluate, text_integer, hscan]
    by_cases hneg : v < 0
    · rw [decide_eq_true hneg, if_pos hneg]
      rfl
    · rw [decide_eq_false hneg, if_neg hneg]
      rfl
  · obtain ⟨houtcome, hwarnings⟩ := evaluate_text_double hcap hb hv
    refine ⟨_, houtcome, Double.toBits_ofBits fun hnan => ?_, hwarnings⟩
    obtain ⟨negative, n, hn, hfinite, -⟩ := hb
    rw [hnan] at hfinite
    cases hfinite

/-- Under the least cap, minus five comes back, and so does a zero with a minus. -/
theorem results_read_back_negative :
    (∀ k : Int, some 1 = some k → 1 ≤ k) ∧
      (evaluate .integer (some 1) (Value.integer (-5)).text).outcome = .ok (.integer (-5)) ∧
      ∃ y, (evaluate .floating (some 1)
        (Value.double (Double.ofBits 0x8000000000000000)).text).outcome = .ok (.double y) ∧
        y.toBits = 0x8000000000000000 := by
  have hcap : ∀ k : Int, some 1 = some k → 1 ≤ k := by
    rintro k ⟨⟩
    exact le_refl 1
  have hzero : (Double.ofBits 0x8000000000000000).Equals 0 :=
    ⟨true, 0, by decide, by decide, by decide⟩
  obtain ⟨hinteger, -, hdouble⟩ := results_read_back hcap
  obtain ⟨y, houtcome, hbits, -⟩ := hdouble _ 0 hzero (by decide)
  exact ⟨hcap, (hinteger (-5) (by decide)).1, y, houtcome, hbits⟩

end LineCalc
