import Mathlib
import LineCalc.Token.Scan

/-!
# What literals are worth

`Literal.toUInt64?` refuses a run by the number of its significant digits before it
computes anything. That is only a short cut: a run with more digits than `maxDigits`
and a digit other than zero in front is worth `2 ^ 64` or more, so the answer is the
value of the literal whenever that fits, and nothing otherwise (`toUInt64?_eq`).

The other half is about numbers that are written out in decimal. Their digits are
read back as the literal they are, wherever the next character cannot belong to them.
-/

namespace LineCalc

/-! ## Digits and their value -/

namespace Radix

theorem base_pos (r : Radix) : 0 < r.base := by cases r <;> decide

theorem foldl_ofDigits (r : Radix) (ds : List Nat) (n : Nat) :
    ds.foldl (fun n d => n * r.base + d) n = n * r.base ^ ds.length + r.ofDigits ds := by
  unfold ofDigits
  induction ds generalizing n with
  | nil => simp
  | cons d ds ih =>
      rw [List.foldl_cons, List.foldl_cons, ih, ih (0 * r.base + d), List.length_cons, Nat.pow_succ,
        Nat.zero_mul, Nat.zero_add, Nat.add_mul, Nat.mul_assoc, Nat.mul_comm r.base, Nat.add_assoc]

theorem ofDigits_cons (r : Radix) (d : Nat) (ds : List Nat) :
    r.ofDigits (d :: ds) = d * r.base ^ ds.length + r.ofDigits ds := by
  rw [← foldl_ofDigits, ofDigits, List.foldl_cons, Nat.zero_mul, Nat.zero_add]

theorem ofDigits_dropWhile (r : Radix) (ds : List Nat) :
    r.ofDigits (ds.dropWhile (· == 0)) = r.ofDigits ds := by
  induction ds with
  | nil => rfl
  | cons d ds ih =>
      by_cases hd : d = 0
      · rw [List.dropWhile_cons_of_pos (by simp [hd]), ih, ofDigits_cons, hd]
        omega
      · rw [List.dropWhile_cons_of_neg (by simp [hd])]

/-- A digit other than zero is worth as much as its place. -/
theorem pow_le_ofDigits (r : Radix) {d : Nat} {ds : List Nat} (hd : d ≠ 0) :
    r.base ^ ds.length ≤ r.ofDigits (d :: ds) := by
  have hplace := Nat.le_mul_of_pos_left (r.base ^ ds.length) (Nat.pos_of_ne_zero hd)
  rw [ofDigits_cons]
  omega

/-- More places than `maxDigits` are worth `2 ^ 64` at least. -/
theorem size_le_pow_maxDigits (r : Radix) : 2 ^ 64 ≤ r.base ^ r.maxDigits := by
  cases r <;> decide

end Radix

namespace Literal

theorem value_eq_significant (l : Literal) : l.value = l.radix.ofDigits l.significant :=
  (l.radix.ofDigits_dropWhile l.digits).symm

/-- A literal with more significant digits than its radix needs does not fit. -/
theorem size_le_value {l : Literal} (h : l.radix.maxDigits < l.significant.length) :
    2 ^ 64 ≤ l.value := by
  rw [value_eq_significant]
  cases hs : l.significant with
  | nil => rw [hs] at h; exact absurd h (Nat.not_lt_zero _)
  | cons d ds =>
      have hd : d ≠ 0 := by
        have hhead := List.head?_dropWhile_not (· == 0) l.digits
        rw [show l.digits.dropWhile (· == 0) = d :: ds from hs] at hhead
        simpa using hhead
      rw [hs] at h
      calc 2 ^ 64 ≤ l.radix.base ^ l.radix.maxDigits := l.radix.size_le_pow_maxDigits
        _ ≤ l.radix.base ^ ds.length :=
          Nat.pow_le_pow_right l.radix.base_pos (Nat.le_of_lt_succ h)
        _ ≤ l.radix.ofDigits (d :: ds) := l.radix.pow_le_ofDigits hd

/-- A literal is read as its value, if that is below `2 ^ 64`. -/
theorem toUInt64?_eq (l : Literal) :
    l.toUInt64? = if l.value < 2 ^ 64 then some (UInt64.ofNat l.value) else none := by
  unfold toUInt64?
  split
  · next h => rw [if_neg (Nat.not_lt.mpr (size_le_value h))]
  · rw [← value_eq_significant]
    rfl

theorem value_of_toUInt64? {l : Literal} {v : UInt64} (h : l.toUInt64? = some v) :
    l.value = v.toNat := by
  rw [toUInt64?_eq] at h
  split at h
  · next hlt => rw [← Option.some.inj h, UInt64.toNat_ofNat_of_lt' hlt]
  · cases h

/-! ## Numbers written out in decimal -/

def ofNat (n : Nat) : Literal := ⟨.decimal, Nat.toDigits 10 n⟩

/-- No decimal literal can go on with these characters, whatever its digits are. -/
def EndsAt (rest : List Char) : Prop :=
  ∀ c ∈ rest.head?, Radix.decimal.continues c = false ∧ c ∉ ['b', 'o', 'x']

theorem digit?_of_isDigit {c : Char} (h : c.isDigit = true) :
    Radix.decimal.digit? c = some (c.toNat - '0'.toNat) := by
  have hrange := Char.isDigit_iff_toNat.mp h
  have hle : '0' ≤ c ∧ c ≤ '9' := by
    simpa [Char.le_def, UInt32.le_iff_toNat_le, ← Char.toNat_val] using hrange
  have hten : c.toNat - '0'.toNat < 10 := by
    have hnine : '9'.toNat = '0'.toNat + 9 := rfl
    omega
  rw [Radix.digit?, Radix.digitValue?, if_pos hle]
  exact if_pos (decide_eq_true hten)

theorem isDigit_of_mem {n : Nat} {c : Char} (h : c ∈ Nat.toDigits 10 n) : c.isDigit = true :=
  Nat.isDigit_of_mem_toDigits (by decide) (by decide) h

/-- A number that is not zero does not begin with a zero. -/
theorem head?_toDigits {n : Nat} (h : n ≠ 0) : (Nat.toDigits 10 n).head? ≠ some '0' := by
  induction n using Nat.strong_induction_on with
  | _ n ih =>
      rw [Nat.toDigits_eq_if (by decide)]
      split
      · next hlt =>
        rw [List.head?_cons, ne_eq, Option.some.injEq, Nat.digitChar_eq_zero]
        exact h
      · next hge =>
        rw [List.head?_append_of_ne_nil _ Nat.toDigits_ne_nil]
        exact ih (n / 10) (by omega) (by omega)

theorem filterMap_digit? {cs : List Char} (h : ∀ c ∈ cs, c.isDigit = true) :
    cs.filterMap Radix.decimal.digit? = cs.map fun c => c.toNat - '0'.toNat := by
  induction cs with
  | nil => rfl
  | cons c cs ih =>
      rw [List.filterMap_cons_some (digit?_of_isDigit (h c List.mem_cons_self)),
        ih fun c' hc' => h c' (List.mem_cons_of_mem c hc'), List.map_cons]

theorem value_ofNat (n : Nat) : (ofNat n).value = n := by
  have hdigits : (ofNat n).digits = (Nat.toDigits 10 n).map fun c => c.toNat - '0'.toNat :=
    filterMap_digit? fun _ => isDigit_of_mem
  have hfold := Nat.ofDigitChars_ten_toDigits (n := n)
  rw [Nat.ofDigitChars_eq_foldl] at hfold
  rw [value, hdigits, Radix.ofDigits, List.foldl_map]
  simpa [Radix.base, ofNat, Nat.mul_comm] using hfold

/-- A digit begins a decimal literal, unless it is the zero of a lead. -/
theorem take?_of_digit {c : Char} {cs : List Char} (hc : (Radix.decimal.digit? c).isSome)
    (hcs : ∀ x ∈ cs.head?, x ∉ ['b', 'o', 'x']) :
    take? (c :: cs) = some (ofRun .decimal (c :: cs)) := by
  unfold take?
  split
  · next heq =>
    obtain ⟨-, rfl⟩ := List.cons.inj heq
    exact absurd (hcs 'b' rfl) (by simp)
  · next heq =>
    obtain ⟨-, rfl⟩ := List.cons.inj heq
    exact absurd (hcs 'o' rfl) (by simp)
  · next heq =>
    obtain ⟨-, rfl⟩ := List.cons.inj heq
    exact absurd (hcs 'x' rfl) (by simp)
  · next heq =>
    obtain ⟨rfl, rfl⟩ := List.cons.inj heq
    rw [if_pos hc]
  · next heq => cases heq

theorem not_lead_of_isDigit {c : Char} (h : c.isDigit = true) : c ∉ ['b', 'o', 'x'] := by
  intro hmem
  simp only [List.mem_cons, List.not_mem_nil, or_false] at hmem
  rcases hmem with rfl | rfl | rfl <;> exact absurd h (by decide)

/-- A run is read to its end, if nothing that follows belongs to it. -/
theorem ofRun_append {r : Radix} {run rest : List Char} (hrun : ∀ c ∈ run, r.continues c = true)
    (hrest : ∀ c ∈ rest.head?, r.continues c = false) :
    ofRun r (run ++ rest) = (⟨r, run⟩, rest) := by
  rw [ofRun, List.takeWhile_append_of_pos hrun, List.dropWhile_append_of_pos hrun]
  cases rest with
  | nil => simp
  | cons c rest =>
      have hc := hrest c rfl
      simp [hc]

theorem ofRun_digits {ds rest : List Char} (hds : ∀ c ∈ ds, c.isDigit = true) (h : EndsAt rest) :
    ofRun .decimal (ds ++ rest) = (⟨.decimal, ds⟩, rest) := by
  refine ofRun_append (fun c hc => ?_) fun c hc => (h c hc).1
  simp [Radix.continues, digit?_of_isDigit (hds c hc)]

/-- A number written out is read as its literal, if nothing that follows belongs to it. -/
theorem take?_ofNat (n : Nat) {rest : List Char} (h : EndsAt rest) :
    take? (Nat.toDigits 10 n ++ rest) = some (ofNat n, rest) := by
  obtain ⟨d, ds, hd⟩ := List.exists_cons_of_ne_nil (Nat.toDigits_ne_nil (n := n) (b := 10))
  have hdigits : ∀ c ∈ d :: ds, c.isDigit = true := fun c hc => isDigit_of_mem (n := n) (hd ▸ hc)
  have hnext : ∀ x ∈ (ds ++ rest).head?, x ∉ ['b', 'o', 'x'] := by
    cases ds with
    | nil => exact fun x hx => (h x hx).2
    | cons d' ds =>
        intro x hx
        obtain rfl : d' = x := Option.some.inj hx
        exact not_lead_of_isDigit (hdigits d' (by simp))
  have hfirst : (Radix.decimal.digit? d).isSome = true := by
    rw [digit?_of_isDigit (hdigits d List.mem_cons_self)]
    rfl
  -- a zero in front is not taken for a lead, since no letter of a lead follows it
  rw [ofNat, hd, List.cons_append, take?_of_digit hfirst hnext, ← List.cons_append,
    ofRun_digits hdigits h]

theorem toUInt64?_ofNat (v : UInt64) : (ofNat v.toNat).toUInt64? = some v := by
  rw [toUInt64?_eq, value_ofNat, if_pos v.toNat_lt, UInt64.ofNat_toNat]

end Literal

end LineCalc
