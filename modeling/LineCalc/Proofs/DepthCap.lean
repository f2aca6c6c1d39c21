import LineCalc.Calculator
import LineCalc.Proofs.Canonical
import LineCalc.Proofs.Recursion

/-!
# What a cap on the nesting changes

A cap is looked at once, after a line was scanned and before its tokens are read. If it does
not cut the line off there, it plays no part any more, and the line comes to what it comes to
without a cap (`evaluate_eq_uncapped`). A looser cap cuts off no more lines than a stricter
one, so two caps that let a line pass cannot be told from each other.

A cap is held against the count of the tokens. If these are an expression, the count is how
deep its tree nests (`nestingDepth_of_parse`), neither more nor less, so the caps that let an
expression pass are those from the level of its tree on.
-/

namespace LineCalc

open Grammar

/-- Caps from the strictest one on. Where there is none, no line is cut off. -/
def CapLe : Option Int → Option Int → Prop
  | _, none => True
  | none, some _ => False
  | some k, some k' => k ≤ k'

variable {mode : Mode} {source : String} {ts : List Token} {cap cap' : Option Int}

theorem exceeds_of_capLe (hle : CapLe cap cap') (h : exceeds cap ts = false) :
    exceeds cap' ts = false := by
  cases cap' with
  | none => rfl
  | some k' =>
      cases cap with
      | none => exact hle.elim
      | some k =>
          have hk : k ≤ k' := hle
          simp only [exceeds, decide_eq_false_iff_not] at h ⊢
          omega

theorem evaluate_of_scan_error {e : LexError} (hscan : Token.scan source = .error e) :
    evaluate mode cap source = { outcome := .error (.lex e) } := by
  rw [evaluate, hscan]

/-- Behind the check, nobody asks for the cap. -/
theorem evaluate_eq_uncapped (hscan : Token.scan source = .ok ts)
    (hcap : exceeds cap ts = false) : evaluate mode cap source = evaluate mode none source := by
  have hnone : exceeds none ts = false := rfl
  rw [evaluate, evaluate, hscan]
  simp only [hcap, hnone]

/-- Behind the check, only the grammar and the arithmetic can fail. -/
theorem failure_uncapped {f : Failure} (hscan : Token.scan source = .ok ts)
    (h : (evaluate mode none source).outcome = .error f) :
    (∃ e, f = .parse e) ∨ ∃ fault, f = .fault fault := by
  have hnone : exceeds none ts = false := rfl
  rw [evaluate, hscan] at h
  simp only [hnone, Bool.false_eq_true, if_false] at h
  cases hparse : Expr.parse ts with
  | error e =>
      rw [hparse] at h
      cases h
      exact .inl ⟨e, rfl⟩
  | ok tree =>
      simp only [hparse] at h
      split at h
      · next fault hfault =>
        cases h
        exact .inr ⟨fault, rfl⟩
      · cases h

/-- A line that can be scanned is cut off exactly if its tokens nest too deep. -/
theorem outcome_eq_tooDeep_iff (hscan : Token.scan source = .ok ts) :
    (evaluate mode cap source).outcome = .error .tooDeep ↔ exceeds cap ts = true := by
  cases hcap : exceeds cap ts with
  | true =>
      rw [evaluate, hscan]
      simp [hcap]
  | false =>
      rw [evaluate_eq_uncapped hscan hcap]
      refine iff_of_false (fun h => ?_) Bool.false_ne_true
      rcases failure_uncapped hscan h with ⟨e, he⟩ | ⟨fault, hfault⟩
      · cases he
      · cases hfault

/-- A line that fails in scanning is one that cannot be scanned. -/
theorem scan_of_outcome {e : LexError} (h : (evaluate mode cap source).outcome = .error (.lex e)) :
    Token.scan source = .error e := by
  cases hscan : Token.scan source with
  | error e' =>
      rw [evaluate_of_scan_error hscan] at h
      cases h
      rfl
  | ok ts =>
      cases hcap : exceeds cap ts with
      | true =>
          rw [(outcome_eq_tooDeep_iff hscan).mpr hcap] at h
          cases h
      | false =>
          rw [evaluate_eq_uncapped hscan hcap] at h
          rcases failure_uncapped hscan h with ⟨e', he⟩ | ⟨fault, hfault⟩
          · cases he
          · cases hfault

/-- The count of the tokens of an expression is the level of its tree. -/
theorem nestingDepth_of_parse {e : Expr} (h : Expr.parse ts = .ok e) :
    Token.nestingDepth ts = e.level := by
  have hreads := parse_eq_ok_iff_reads.mp h
  have hunread : unread? ((Rule.chain .sum).read ts) = some [] := by
    rw [read_of_reads hreads]
    rfl
  have hlevel : e.level + 1 = max 0 ((Rule.chain .sum).reach ts) := level_of_reads hreads rfl
  have hdepth := nestingDepth_of_unread hunread
  rw [List.length_nil, Nat.sub_zero, List.take_length] at hdepth
  omega

/-- A line is not changed by a looser cap than one that lets it pass. -/
theorem evaluate_of_capLe (hle : CapLe cap cap')
    (hpass : (evaluate mode cap source).outcome ≠ .error .tooDeep) :
    evaluate mode cap' source = evaluate mode cap source := by
  cases hscan : Token.scan source with
  | error e => rw [evaluate_of_scan_error hscan, evaluate_of_scan_error hscan]
  | ok ts =>
      have hcap : exceeds cap ts = false := by
        rw [← Bool.not_eq_true, ← outcome_eq_tooDeep_iff hscan]
        exact hpass
      rw [evaluate_eq_uncapped hscan hcap,
        evaluate_eq_uncapped hscan (exceeds_of_capLe hle hcap)]

/--
**Raising the cap never changes an answer, and the cap cuts at the nesting of the tree.** A
line that one cap lets pass comes to the same under every looser cap: value, warnings, or
failure with its place. A line that cannot be scanned comes to the same under all caps. An
expression passes under exactly the caps that are not below the level of its tree.
-/
theorem evaluate_under_caps (mode : Mode) (source : String) :
    (∀ cap cap', CapLe cap cap' → (evaluate mode cap source).outcome ≠ .error .tooDeep →
      evaluate mode cap' source = evaluate mode cap source) ∧
    (∀ cap cap' e, (evaluate mode cap source).outcome = .error (.lex e) →
      evaluate mode cap' source = evaluate mode cap source) ∧
    ∀ ts e, Token.scan source = .ok ts → Expr.parse ts = .ok e → ∀ k : Int,
      ((evaluate mode (some k) source).outcome ≠ .error .tooDeep ↔ (e.level : Int) ≤ k) := by
  refine ⟨fun cap cap' => evaluate_of_capLe, fun cap cap' e h => ?_, ?_⟩
  · have hscan := scan_of_outcome h
    rw [evaluate_of_scan_error hscan, evaluate_of_scan_error hscan]
  · intro ts e hscan hparse k
    have hexceeds : exceeds (some k) ts = true ↔ k < e.level := by
      rw [exceeds, nestingDepth_of_parse hparse, decide_eq_true_iff]
    rw [ne_eq, outcome_eq_tooDeep_iff hscan, hexceeds, not_lt]

/-- The minus in front of a parenthesis waits while the sum in it is read. -/
example : (evaluate .integer (some 1) "-(1+2)").outcome = .error .tooDeep ∧
    (evaluate .integer (some 2) "-(1+2)").outcome = .ok (.integer (-3)) := by
  cbv

end LineCalc
