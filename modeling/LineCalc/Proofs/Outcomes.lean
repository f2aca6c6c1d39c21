import Mathlib
import LineCalc.Proofs.ExactValue
import LineCalc.Proofs.Literals
import LineCalc.Proofs.LongestLiteral
import LineCalc.Proofs.Outlook
import LineCalc.Proofs.Scanning

/-!
# Everything that a line of text can come to

The parts of the calculator can fail in more ways than a line of text can make them. The
parser complains about number tokens without a value or with one that is no literal's, and
an evaluation about operators and nodes that nobody knows and about literals that no double
holds. A line never gets there, because each stage promises the next one more than it is
asked for: scanned numbers are below `2 ^ 64`, a parsed tree has no foreign parts, and a
number below `2 ^ 64` is a finite double. `Documented` lists what is left.

Two steps are total here where their usual ways of computing are not. Reading digits as a
number has no answer for an empty text, for a character that is no digit, or for more
decimal digits than `Radix.digitLimit`, and a quotient has none for a divisor of zero. Both
are guarded, and the guards let nothing through for which there is no answer
(`convert?_of_wellFormed`, `guardedQuotient?_eq`).
-/

namespace LineCalc

/-- The outcomes that a line of text may have. -/
inductive Documented : Mode → Except Failure Value → Prop where
  | integer {v : Int} : -2 ^ 127 ≤ v → v ≤ 2 ^ 127 - 1 → Documented .integer (.ok (.integer v))
  | double {x : Double} : Documented .floating (.ok (.double x))
  | lex {mode : Mode} {e : LexError} : Documented mode (.error (.lex e))
  | tooDeep {mode : Mode} : Documented mode (.error .tooDeep)
  /-- Only an error of the grammar, which stands at a place. -/
  | parse {mode : Mode} {e : ParseError} {pos : Nat} :
      e.pos? = some pos → Documented mode (.error (.parse e))
  | divisionByZero : Documented .integer (.error (.fault .divisionByZero))
  | overflow {exact : Int} : ¬ Integer.InRange exact →
      Documented .integer (.error (.fault (.overflow exact)))

/-- Whether a line failed before its expression was evaluated. -/
def Failure.isEarly : Failure → Bool
  | lex _ | parse _ | tooDeep => true
  | fault _ => false

/-! ## What scanning promises to parsing -/

theorem isBad_of_scans {start : Nat} {cs : List Char} {out : Except LexError (List Token)}
    (h : Token.Scans start cs out) : ∀ ts, out = .ok ts → ∀ t ∈ ts, t.isBad = false := by
  induction h with
  | exhausted =>
      intro ts hts
      cases hts
      exact List.forall_mem_nil _
  | lineEnd _ =>
      intro ts hts
      cases hts
      exact List.forall_mem_nil _
  | blank _ _ ih => exact ih
  | @symbol start c cs k out hk _ ih =>
      intro ts hts
      cases out with
      | error e => cases hts
      | ok rest =>
          cases hts
          have hkind : k ≠ .number := by
            rintro rfl
            cases hk
          exact List.forall_mem_cons.mpr ⟨Outlook.isBad_of_kind_ne hkind, ih rest rfl⟩
  | @literal start cs after l v out _ _ _ ih =>
      intro ts hts
      cases out with
      | error e => cases hts
      | ok rest =>
          cases hts
          have hlt : (v.toNat : Int) < 2 ^ 64 := by exact_mod_cast v.toNat_lt
          refine List.forall_mem_cons.mpr ⟨?_, ih rest rfl⟩
          simp only [Token.isBad, beq_self_eq_true, Bool.true_and, Bool.or_eq_false_iff,
            decide_eq_false_iff_not]
          omega
  | tooLarge _ _ =>
      intro ts hts
      cases hts
  | invalid _ _ _ _ =>
      intro ts hts
      cases hts

theorem isBad_of_scan {source : String} {ts : List Token} (h : Token.scan source = .ok ts) :
    ∀ t ∈ ts, t.isBad = false :=
  isBad_of_scans (Token.scans_scanFrom 0 source.toList) ts h

/-! ## What parsing promises to evaluation -/

namespace Double

/-- Rounding at most doubles a number of units beyond the last place. -/
theorem roundUnits_le (n : Nat) : roundUnits n 1 ≤ 2 ^ (53 + lastPlace n) := by
  have hle := roundUnits_significand_le n 1
  rw [Nat.div_one] at hle
  rw [roundUnits, Nat.div_one, Nat.shiftLeft_eq, Nat.pow_add]
  exact Nat.mul_le_mul_right _ (by simpa [Nat.one_shiftLeft] using hle)

/-- A number below `2 ^ 64` is a finite double. -/
theorem ofInt_of_lt {v : Int} (h : v.natAbs < 2 ^ 64) :
    ∃ negative n, ∃ hn : Representable n, ofInt v = .finite negative n hn := by
  have hplace : lastPlace (v.natAbs <<< onePlace) ≤ 1086 := by
    by_cases hzero : v.natAbs <<< onePlace = 0
    · rw [hzero]
      simp [lastPlace]
    · have hlog : (v.natAbs <<< onePlace).log2 < 64 + onePlace := by
        rw [Nat.log2_lt hzero, Nat.shiftLeft_eq, Nat.pow_add]
        exact Nat.mul_lt_mul_of_pos_right h (Nat.two_pow_pos _)
      unfold lastPlace
      unfold onePlace at hlog ⊢
      omega
  have hbelow : 53 + lastPlace (v.natAbs <<< onePlace) < limitPlace := by
    have hlimit : limitPlace = 2098 := rfl
    omega
  have hlimit : roundUnits (v.natAbs <<< onePlace) 1 < limit := by
    rw [limit, Nat.one_shiftLeft]
    exact Nat.lt_of_le_of_lt (roundUnits_le _) (Nat.pow_lt_pow_right Nat.one_lt_two hbelow)
  exact ⟨_, _, _, dif_pos hlimit⟩

end Double

theorem literal_of_lt {v : Int} (h : v.natAbs < 2 ^ 64) :
    ∃ x, Floating.literal v = pure x := by
  obtain ⟨negative, n, hn, hv⟩ := Double.ofInt_of_lt h
  refine ⟨.finite negative n hn, ?_⟩
  unfold Floating.literal
  rw [hv]

/-- A tree of literals and known operators comes to a double, without a remark. -/
theorem evaluate_floating (e : Expr) :
    ∃ x, e.toRaw.evaluate Floating.arithmetic = (pure x : Run Double) := by
  induction e with
  | number v =>
      have hlt : (v.toNat : Int).natAbs < 2 ^ 64 := by
        rw [Int.natAbs_natCast]
        exact v.toNat_lt
      exact literal_of_lt hlt
  | negate e ih =>
      obtain ⟨x, hx⟩ := ih
      exact ⟨-x, by rw [Expr.toRaw, RawExpr.evaluate, hx, pure_bind, Floating.arithmetic]⟩
  | paren e ih => exact ih
  | binary op l r ihl ihr =>
      obtain ⟨a, ha⟩ := ihl
      obtain ⟨b, hb⟩ := ihr
      rw [Expr.toRaw, RawExpr.evaluate, ha, pure_bind, hb, pure_bind, BinaryOp.ofText?_text]
      cases op with
      | add => exact ⟨a + b, rfl⟩
      | sub => exact ⟨a - b, rfl⟩
      | mul => exact ⟨a * b, rfl⟩
      | div => exact ⟨a / b, rfl⟩

theorem evaluateIn_floating (e : Expr) : ∃ x, e.evaluateIn .floating = ⟨[], .ok (.double x)⟩ := by
  obtain ⟨x, hx⟩ := evaluate_floating e
  exact ⟨x, by rw [Expr.evaluateIn, RawExpr.evaluateIn, hx]; rfl⟩

/-- A tree comes to an integer in range, or ends in one of the two faults of integers. -/
theorem documented_integer (e : Expr) :
    Documented .integer ((e.evaluateIn .integer).outcome.mapError .fault) := by
  rw [Expr.evaluateIn_integer_eq]
  cases hfind : e.postorder.find? (fun n => !n.fits) with
  | none =>
      rw [List.find?_eq_none] at hfind
      have hfits : e.fits = true := by simpa using hfind e e.self_mem_postorder
      obtain ⟨v, hv, hrange⟩ := Expr.fits_iff.mp hfits
      rw [hv]
      exact .integer (Expr.inRange_iff.mp hrange).1 (Expr.inRange_iff.mp hrange).2
  | some n =>
      have hfits : ¬ n.fits = true := by simpa using List.find?_some hfind
      simp only [Expr.fault]
      cases hzero : n.dividesByZero with
      | true => exact .divisionByZero
      | false =>
          obtain ⟨v, hv⟩ := Expr.exactValue?_of_first hfind hzero
          rw [hv]
          exact .overflow fun hrange => hfits (Expr.fits_iff.mpr ⟨v, hv, hrange⟩)

/-! ## A line -/

theorem evaluate_of_parse {cap : Option Int} {source : String} {ts : List Token} {e : Expr}
    (mode : Mode) (hscan : Token.scan source = .ok ts) (hcap : exceeds cap ts = false)
    (hparse : Expr.parse ts = .ok e) :
    (evaluate mode cap source).outcome = (e.evaluateIn mode).outcome.mapError .fault ∧
      (evaluate mode cap source).warnings = (e.evaluateIn mode).warnings := by
  rw [evaluate, hscan]
  simp only [hcap, hparse, Bool.false_eq_true, if_false]
  cases (e.evaluateIn mode).outcome <;> exact ⟨rfl, rfl⟩

/-- A line fails early, in the same way in both modes, or it is an expression. -/
theorem early_or_parsed (cap : Option Int) (source : String) :
    (∃ f : Failure, f.isEarly = true ∧ ∀ mode, (evaluate mode cap source).outcome = .error f ∧
      Documented mode (.error f)) ∨
    ∃ ts e, Token.scan source = .ok ts ∧ exceeds cap ts = false ∧ Expr.parse ts = .ok e := by
  cases hscan : Token.scan source with
  | error e => exact .inl ⟨.lex e, rfl, fun mode => ⟨by rw [evaluate, hscan], .lex⟩⟩
  | ok ts =>
      cases hcap : exceeds cap ts with
      | true =>
          exact .inl ⟨.tooDeep, rfl, fun mode => ⟨by rw [evaluate, hscan]; simp [hcap], .tooDeep⟩⟩
      | false =>
          cases hparse : Expr.parse ts with
          | ok e => exact .inr ⟨ts, e, rfl, hcap, hparse⟩
          | error e =>
              obtain ⟨pos, hpos⟩ := pos?_of_parse (isBad_of_scan hscan) hparse
              refine .inl ⟨.parse e, rfl, fun mode => ⟨?_, .parse hpos⟩⟩
              rw [evaluate, hscan]
              simp [hcap, hparse]

/-! ## Two guarded steps -/

namespace Radix

/-- The number that digits spell, if there are any, nothing else, and not too many. -/
def number? (r : Radix) (cs : List Char) : Option Nat :=
  if cs ≠ [] ∧ (∀ c ∈ cs, (r.digit? c).isSome = true) ∧ (r = .decimal → cs.length ≤ digitLimit) then
    some (r.ofDigits (cs.filterMap r.digit?))
  else none

theorem worth_eq_zero_iff {r : Radix} {c : Char} (h : c ∈ r.alphabet) :
    worth c = 0 ↔ c = '0' := by
  cases r <;> fin_cases h <;> decide

end Radix

namespace Literal

/-- The digits of a literal as they are written, from the first one that is not zero. -/
def significantText (l : Literal) : List Char :=
  (l.run.filter (· != '_')).dropWhile (· == '0')

/--
A literal as a number, or nothing if it is too large. Its digits are read as a number where
there are any, and too many of them are not read at all.
-/
def convert? (l : Literal) : Option (Option UInt64) :=
  let tooLong := l.radix.maxDigits < l.significantText.length
  let n? := if l.significantText ≠ [] ∧ ¬ tooLong then l.radix.number? l.significantText else some 0
  n?.map fun n => if tooLong ∨ 2 ^ 64 ≤ n then none else some (UInt64.ofNat n)

variable {l : Literal}

theorem mem_significantText (h : l.WellFormed) {c : Char} (hc : c ∈ l.significantText) :
    c ∈ l.radix.alphabet ∧ c ≠ '_' := by
  have hdigit := List.mem_filter.mp ((List.dropWhile_suffix _).subset hc)
  exact ⟨h.1 c hdigit.1, by simpa using hdigit.2⟩

theorem filterMap_digit?_significantText (h : l.WellFormed) :
    l.significantText.filterMap l.radix.digit? = l.significantText.map Radix.worth := by
  have hself : ∀ c ∈ l.significantText, (c != '_') = true := fun c hc => by
    simpa using (mem_significantText h hc).2
  rw [filterMap_digit?_of_mem fun c hc => (mem_significantText h hc).1,
    List.filter_eq_self.mpr hself]

theorem map_worth_significantText (h : l.WellFormed) :
    l.significantText.map Radix.worth = l.significant := by
  have hdigits : ∀ c ∈ l.run.filter (· != '_'), c ∈ l.radix.alphabet := fun c hc =>
    h.1 c (List.mem_of_mem_filter hc)
  rw [significant, digits, filterMap_digit?_of_mem h.1, significantText]
  -- zeros in front are the same whether they are seen as characters or as digits
  generalize l.run.filter (· != '_') = cs at hdigits ⊢
  induction cs with
  | nil => rfl
  | cons c cs ih =>
      obtain ⟨hc, hcs⟩ := List.forall_mem_cons.mp hdigits
      have hzero := Radix.worth_eq_zero_iff hc
      rw [List.map_cons]
      by_cases hchar : c = '0'
      · rw [List.dropWhile_cons_of_pos (by simpa using hchar),
          List.dropWhile_cons_of_pos (by simpa using hzero.mpr hchar)]
        exact ih hcs
      · rw [List.dropWhile_cons_of_neg (by simpa using hchar),
          List.dropWhile_cons_of_neg (by simpa using fun h => hchar (hzero.mp h)), List.map_cons]

theorem length_significantText (h : l.WellFormed) :
    l.significantText.length = l.significant.length := by
  rw [← map_worth_significantText h, List.length_map]

/-- What is left of a literal is read as a number, if it is neither empty nor too long. -/
theorem number?_significantText (h : l.WellFormed) (hne : l.significantText ≠ [])
    (hshort : ¬ l.radix.maxDigits < l.significantText.length) :
    l.radix.number? l.significantText = some (l.radix.ofDigits l.significant) := by
  have hall : ∀ c ∈ l.significantText, (l.radix.digit? c).isSome = true := by
    intro c hc
    obtain ⟨hmem, hunderscore⟩ := mem_significantText h hc
    rw [Radix.digit?_of_mem hmem hunderscore]
    rfl
  -- the length was checked against far less than what a number may have
  have hlimit : l.radix = .decimal → l.significantText.length ≤ Radix.digitLimit := by
    intro hdecimal
    rw [hdecimal, Radix.maxDigits] at hshort
    rw [Radix.digitLimit]
    omega
  rw [Radix.number?, if_pos ⟨hne, hall, hlimit⟩, filterMap_digit?_significantText h,
    map_worth_significantText h]

/-- **Reading the digits never fails**, since only digits are left and never too many. -/
theorem convert?_of_wellFormed (h : l.WellFormed) : l.convert? = some l.toUInt64? := by
  have hsize : UInt64.size = 2 ^ 64 := rfl
  unfold convert? toUInt64?
  rw [← length_significantText h]
  by_cases hlong : l.radix.maxDigits < l.significantText.length
  · rw [if_pos hlong]
    simp only [hlong, not_true_eq_false, and_false, if_false, Option.map_some, true_or, if_true]
  · have hread : (if l.significantText ≠ [] ∧ ¬ l.radix.maxDigits < l.significantText.length then
        l.radix.number? l.significantText else some 0) =
          some (l.radix.ofDigits l.significant) := by
      by_cases hempty : l.significantText = []
      · rw [if_neg (fun hread => hread.1 hempty), ← map_worth_significantText h, hempty]
        rfl
      · rw [if_pos ⟨hempty, hlong⟩, number?_significantText h hempty hlong]
    simp only [hread, Option.map_some]
    simp only [hlong, false_or, if_false, hsize]
    by_cases hlarge : 2 ^ 64 ≤ l.radix.ofDigits l.significant
    · rw [if_pos hlarge, if_neg (Nat.not_lt.mpr hlarge)]
    · rw [if_neg hlarge, if_pos (Nat.not_le.mp hlarge)]

end Literal

namespace Double

def isZero : Double → Bool
  | finite _ n _ => n == 0
  | _ => false

def isNegative : Double → Bool
  | nan => false
  | infinity negative | finite negative _ _ => negative

/-- The quotient by a number other than zero. -/
def quotient? (x y : Double) : Option Double := if y.isZero then none else some (x / y)

/-- The quotient by any number, where a divisor of zero is dealt with beforehand. -/
def guardedQuotient? (x y : Double) : Option Double :=
  if y.isZero then
    if x.isZero ∨ x = nan then some nan else some (infinity (x.isNegative != y.isNegative))
  else x.quotient? y

/-- **Dividing never fails**, and a divisor of zero gives what it gives without the guard. -/
theorem guardedQuotient?_eq (x y : Double) : x.guardedQuotient? y = some (x / y) := by
  have hdiv : x / y = x.div y := rfl
  rw [guardedQuotient?, quotient?, hdiv]
  cases hy : y.isZero with
  | false => rfl
  | true =>
      cases y with
      | nan => cases hy
      | infinity b => cases hy
      | finite b n hn =>
          obtain rfl : n = 0 := by simpa [isZero] using hy
          cases x with
          | nan => rfl
          | infinity a => rfl
          | finite a m hm => by_cases hm : m = 0 <;> simp [div, isZero, isNegative, hm]

end Double

/--
**A line of text comes to nothing but what is documented.** In either mode, under any cap,
the outcome is one of `Documented`. An expression that is read is a double in floating
mode, without a warning. What fails before the evaluation fails in the same way in every
mode. The last three parts are about steps that could fail on the way and do not: digits
are read as a number, a node is built with an operator, and doubles are divided.
-/
theorem evaluate_documented (mode : Mode) (cap : Option Int) (source : String) :
    Documented mode (evaluate mode cap source).outcome ∧
      (∀ ts e, Token.scan source = .ok ts → exceeds cap ts = false → Expr.parse ts = .ok e →
        ∃ x, (evaluate .floating cap source).outcome = .ok (.double x) ∧
          (evaluate .floating cap source).warnings = []) ∧
      (∀ (f : Failure) (mode' : Mode), f.isEarly = true →
        ((evaluate mode cap source).outcome = .error f ↔
          (evaluate mode' cap source).outcome = .error f)) ∧
      (∀ cs rest l, Literal.take? cs = some (l, rest) → l.convert? = some l.toUInt64?) ∧
      (∀ (op : BinaryOp) (l r : Expr), Expr.ofOperator op.text l r = .ok (.binary op l r)) ∧
      ∀ x y : Double, x.guardedQuotient? y = some (x / y) := by
  refine ⟨?_, ?_, ?_, ?_, ?_, Double.guardedQuotient?_eq⟩
  · rcases early_or_parsed cap source with ⟨f, -, hearly⟩ | ⟨ts, e, hscan, hcap, hparse⟩
    · rw [(hearly mode).1]
      exact (hearly mode).2
    · rw [(evaluate_of_parse mode hscan hcap hparse).1]
      cases mode with
      | integer => exact documented_integer e
      | floating =>
          obtain ⟨x, hx⟩ := evaluateIn_floating e
          rw [hx]
          exact .double
  · intro ts e hscan hcap hparse
    obtain ⟨houtcome, hwarnings⟩ := evaluate_of_parse .floating hscan hcap hparse
    obtain ⟨x, hx⟩ := evaluateIn_floating e
    rw [houtcome, hwarnings, hx]
    exact ⟨x, rfl, rfl⟩
  · intro f mode' hf
    rcases early_or_parsed cap source with ⟨f', -, hearly⟩ | ⟨ts, e, hscan, hcap, hparse⟩
    · rw [(hearly mode).1, (hearly mode').1]
    · -- an expression that was read does not fail early in any mode
      have hlate (m : Mode) : (evaluate m cap source).outcome ≠ .error f := by
        rw [(evaluate_of_parse m hscan hcap hparse).1]
        intro h
        cases hout : (e.evaluateIn m).outcome with
        | ok v => rw [hout] at h; cases h
        | error fault => rw [hout] at h; cases h; cases hf
      exact iff_of_false (hlate mode) (hlate mode')
  · intro cs rest l h
    exact Literal.convert?_of_wellFormed (Literal.longestAt_of_take? h).wellFormed
  · intro op l r
    rw [Expr.ofOperator, BinaryOp.ofText?_text]

end LineCalc
