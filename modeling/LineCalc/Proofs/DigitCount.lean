import LineCalc.Proofs.FirstError

/-!
# How many digits a literal may have

A literal with more significant digits than `Radix.maxDigits` is refused before its value is
computed. Whether this is right is a question about numbers and not about texts, because the
significant digits of a literal are the digits of its value (`significant_eq_digits`). So a
literal is refused for its length exactly if its value is a certain power of the radix at
least (`maxDigits_lt_length_iff`). That power is `2 ^ 64` in binary and hexadecimal, and more
in octal and decimal, where the value still has to be looked at.
-/

namespace LineCalc

namespace Radix

theorem one_lt_base (r : Radix) : 1 < r.base := by cases r <;> decide

theorem pow_maxDigits_eq_iff (r : Radix) :
    r.base ^ r.maxDigits = 2 ^ 64 ↔ r = .binary ∨ r = .hexadecimal := by
  cases r <;> decide

end Radix

namespace Literal

variable {l : Literal}

/-- The digits of a literal behind its zeros are those of its value. -/
theorem significant_eq_digits (hl : l.WellFormed) :
    l.significant = (l.radix.base.digits l.positional).reverse := by
  obtain ⟨-, zeros, hdigits⟩ := spells_positional hl
  rw [significant, digits, filterMap_digit?_of_mem hl.1, hdigits,
    List.dropWhile_append_of_pos (by simp)]
  -- the first digit of a number is not zero
  refine List.dropWhile_eq_self_iff.mpr fun hpos => ?_
  have hne : l.radix.base.digits l.positional ≠ [] := by
    exact List.ne_nil_of_length_pos (by simpa using hpos)
  have hvalue : l.positional ≠ 0 := Nat.digits_ne_nil_iff_ne_zero.mp hne
  have hlast := Nat.getLast_digit_ne_zero l.radix.base hvalue
  simpa [List.getElem_reverse, List.getLast_eq_getElem] using hlast

/-- **Counting digits compares the value** with a power of the radix. -/
theorem maxDigits_lt_length_iff (hl : l.WellFormed) :
    l.radix.maxDigits < l.significant.length ↔
      l.radix.base ^ l.radix.maxDigits ≤ l.positional := by
  rw [significant_eq_digits hl, List.length_reverse,
    Nat.lt_digits_length_iff l.radix.one_lt_base]

theorem toUInt64?_eq_some_iff (hl : l.WellFormed) {v : UInt64} :
    l.toUInt64? = some v ↔ l.positional = v.toNat := by
  rw [toUInt64?_eq, value_eq_positional hl]
  constructor
  · intro h
    split at h
    · next hlt => rw [← Option.some.inj h, UInt64.toNat_ofNat_of_lt' hlt]
    · cases h
  · intro h
    rw [h, if_pos v.toNat_lt, UInt64.ofNat_toNat]

end Literal

namespace Token

/-- The token of a literal at a position, or the error that it does not fit. -/
def ofLiteral (start : Nat) (l : Literal) : Except LexError Token :=
  match l.toUInt64? with
  | none => .error (.literalTooLarge start l.text)
  | some v => .ok ⟨.number, some v.toNat, ⟨start, start + l.text.length⟩⟩

variable {l : Literal} {start : Nat}

/-- Where a literal stands, a scan reads it and goes on behind it. -/
theorem scanFrom_eq_ofLiteral {cs : List Char} (h : l.LongestAt cs) :
    scanFrom start cs = (ofLiteral start l).bind fun t =>
      (scanFrom (start + l.text.length) (cs.drop l.text.length)).map (t :: ·) := by
  unfold ofLiteral
  cases hv : l.toUInt64? with
  | none => exact scanFrom_of_tooLarge h ((Literal.toUInt64?_eq_none_iff h.wellFormed).mp hv) start
  | some v =>
      have htake := h.take?_eq
      obtain ⟨c, tail, hcons, hdigit⟩ := h.exists_isDigit
      obtain ⟨hline, hblank, hsymbol⟩ := of_isDigit hdigit
      rw [hcons] at htake ⊢
      exact scanFrom_literal hline hblank hsymbol htake hv start

theorem ofLiteral_eq_ok_iff (hl : l.WellFormed) :
    ofLiteral start l = .ok ⟨.number, some l.positional, ⟨start, start + l.text.length⟩⟩ ↔
      l.positional ≤ 2 ^ 64 - 1 := by
  unfold ofLiteral
  cases hv : l.toUInt64? with
  | none =>
      have hlarge := (Literal.toUInt64?_eq_none_iff hl).mp hv
      exact iff_of_false nofun (by omega)
  | some v =>
      have hvalue := (Literal.toUInt64?_eq_some_iff hl).mp hv
      have hlt := v.toNat_lt
      rw [hvalue]
      exact iff_of_true rfl (by omega)

theorem ofLiteral_eq_error_iff (hl : l.WellFormed) :
    ofLiteral start l = .error (.literalTooLarge start l.text) ↔ 2 ^ 64 - 1 < l.positional := by
  rw [← Literal.toUInt64?_eq_none_iff hl]
  unfold ofLiteral
  cases l.toUInt64? <;> simp

/--
**Counting digits decides nothing that the value does not.** Wherever it stands, a literal of
any radix and length is read as its whole value exactly if that is at most `2 ^ 64 - 1`, and is
refused otherwise. It is refused for the number of its digits exactly from a power of its
radix on, which is at least `2 ^ 64`, and just that in binary and hexadecimal. What the scan
of a text comes to where the literal stands is what reading the literal comes to.
-/
theorem ofLiteral_by_value (hl : l.WellFormed) (start : Nat) :
    (ofLiteral start l = .ok ⟨.number, some l.positional, ⟨start, start + l.text.length⟩⟩ ↔
      l.positional ≤ 2 ^ 64 - 1) ∧
    (ofLiteral start l = .error (.literalTooLarge start l.text) ↔ 2 ^ 64 - 1 < l.positional) ∧
    (l.radix.maxDigits < l.significant.length ↔
      l.radix.base ^ l.radix.maxDigits ≤ l.positional) ∧
    2 ^ 64 ≤ l.radix.base ^ l.radix.maxDigits ∧
    (l.radix.base ^ l.radix.maxDigits = 2 ^ 64 ↔
      l.radix = .binary ∨ l.radix = .hexadecimal) ∧
    ∀ cs, l.LongestAt cs → scanFrom start cs = (ofLiteral start l).bind fun t =>
      (scanFrom (start + l.text.length) (cs.drop l.text.length)).map (t :: ·) :=
  ⟨ofLiteral_eq_ok_iff hl, ofLiteral_eq_error_iff hl, Literal.maxDigits_lt_length_iff hl,
    l.radix.size_le_pow_maxDigits, l.radix.pow_maxDigits_eq_iff, fun _ => scanFrom_eq_ofLiteral⟩

/-- In octal, `2 ^ 64` has no more digits than `2 ^ 64 - 1`, and is refused for its value. -/
theorem ofLiteral_by_value_octal :
    let l : Literal := ⟨.octal, '0' :: '_' :: '2' :: List.replicate 21 '0'⟩
    l.WellFormed ∧ ¬ l.radix.maxDigits < l.significant.length ∧
      ofLiteral 3 l = .error (.literalTooLarge 3 l.text) := by
  intro l
  have hl : l.WellFormed := ⟨by simp [l, Radix.alphabet], nofun⟩
  obtain ⟨-, hrefused, hlength, -⟩ := ofLiteral_by_value hl 3
  exact ⟨hl, fun hlong => absurd (hlength.mp hlong) (by decide), hrefused.mpr (by decide)⟩

end Token

end LineCalc
