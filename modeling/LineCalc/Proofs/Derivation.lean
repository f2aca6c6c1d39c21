import Mathlib
import LineCalc.Expr.Parse

/-!
# What the rules of the grammar do, as derivations

The rules of `Grammar` carry a bound on the tokens they leave over, because that is
why reading ends. A statement about what they read does not care. Here the bound is
forgotten: `Rule.read` is a rule's outcome alone, the tree with the tokens left over
or the refusal, and `Reads` is the same thing as an inductive relation, one
constructor for each way in which a rule can end.

Sums and products are read in the same way, a first operand and then a loop over
operators, so both are the rule `chain` with its loop `tail`, taken at one of two
levels. Only `factor` is of its own kind.

The two views agree (`reads_iff`). Everything said about the parser later on is an
induction over `Reads`, and never opens a rule again.
-/

namespace LineCalc

theorem BinaryOp.kind_ne_number (op : BinaryOp) : op.kind ≠ .number := by cases op <;> decide

namespace Grammar

/-- The levels at which operators join operands from left to right. -/
inductive Level where
  | sum
  | product
deriving DecidableEq, Repr

/-- The operator of a level that a kind of token stands for. -/
def Level.operator? : Level → TokenKind → Option BinaryOp
  | sum => BinaryOp.additive?
  | product => BinaryOp.multiplicative?

/-- Each level has two operators of its own. -/
theorem operator?_eq_some {l : Level} {k : TokenKind} {op : BinaryOp}
    (h : l.operator? k = some op) :
    k = op.kind ∧
      (l = .sum ∧ (op = .add ∨ op = .sub) ∨ l = .product ∧ (op = .mul ∨ op = .div)) := by
  cases l with
  | sum =>
      cases k <;> cases h
      · exact ⟨rfl, .inl ⟨rfl, .inl rfl⟩⟩
      · exact ⟨rfl, .inl ⟨rfl, .inr rfl⟩⟩
  | product =>
      cases k <;> cases h
      · exact ⟨rfl, .inr ⟨rfl, .inl rfl⟩⟩
      · exact ⟨rfl, .inr ⟨rfl, .inr rfl⟩⟩

inductive Rule where
  /-- Operands of a level with operators between them. -/
  | chain (level : Level)
  /-- What follows the operands that were read so far. -/
  | tail (level : Level) (left : Expr)
  /-- A number, a negated factor, or an expression in parentheses. -/
  | factor
deriving DecidableEq, Repr

/-- The rule that reads the operands of a level. -/
def Level.operand : Level → Rule
  | sum => .chain .product
  | product => .factor

/-- What a rule comes to: a tree and the tokens left over, or a refusal. -/
abbrev Outcome := Except Refusal (Expr × List Token)

/-- What was read, without the bound on the tokens left over. -/
def Parsed.forget {bound : Nat} (p : Parsed bound) : Expr × List Token := (p.tree, p.rest)

/-- What a rule comes to on a token list. -/
def Rule.read : Rule → List Token → Outcome
  | chain .sum, ts => (expr ts).map Parsed.forget
  | chain .product, ts => (term ts).map Parsed.forget
  | tail .sum left, ts => (exprTail left ts).map Parsed.forget
  | tail .product left, ts => (termTail left ts).map Parsed.forget
  | factor, ts => (Grammar.factor ts).map Parsed.forget

/-- Whether an operand can begin with a token of a kind. -/
def startsOperand : TokenKind → Bool
  | .number | .minus | .leftParen => true
  | .plus | .star | .slash | .rightParen => false

/-- What becomes of an expression after an opening parenthesis. -/
def close (inner : Expr) : List Token → Outcome
  | [] => .error (.closing [])
  | c :: rest =>
    if c.kind = .rightParen then .ok (.paren inner, rest) else .error (.closing (c :: rest))

/-- A number token is read as the number it carries, if that is a literal's. -/
theorem literal_eq_ok_iff {t : Token} {e : Expr} :
    literal t = .ok e ↔ ∃ v : UInt64, t.value = some (v.toNat : Int) ∧ e = .number v := by
  unfold literal
  cases hv : t.value with
  | none => simp
  | some v =>
      simp only [Expr.ofLiteral, Option.some.injEq]
      constructor
      · intro h
        split at h
        · next hrange =>
          refine ⟨UInt64.ofNat v.toNat, ?_, (Except.ok.inj h).symm⟩
          rw [UInt64.toNat_ofNat_of_lt' (by omega)]
          omega
        · cases h
      · rintro ⟨w, rfl, rfl⟩
        have hw : ((w.toNat : Int)) < UInt64.size := by exact_mod_cast w.toNat_lt
        rw [if_pos ⟨by omega, hw⟩]
        simp [Except.mapError]

/-! ## The rules as equations -/

/-- A chain is an operand, and then its loop with that operand on the left. -/
theorem read_chain (l : Level) (ts : List Token) :
    (Rule.chain l).read ts = (l.operand.read ts).bind fun p => (Rule.tail l p.1).read p.2 := by
  cases l with
  | sum =>
      simp only [Rule.read, Level.operand]
      rw [expr]
      cases term ts with
      | error r => rfl
      | ok first =>
          simp only [Except.map, Except.bind, Parsed.forget]
          cases exprTail first.tree first.rest <;> rfl
  | product =>
      simp only [Rule.read, Level.operand]
      rw [term]
      cases Grammar.factor ts with
      | error r => rfl
      | ok first =>
          simp only [Except.map, Except.bind, Parsed.forget]
          cases termTail first.tree first.rest <;> rfl

theorem read_tail_nil (l : Level) (left : Expr) :
    (Rule.tail l left).read [] = .ok (left, []) := by
  cases l <;> simp [Rule.read, exprTail, termTail, Except.map, Parsed.forget]

/-- A loop ends in front of a token that is no operator of its level. -/
theorem read_tail_stop {l : Level} {t : Token} (left : Expr) (ts : List Token)
    (h : l.operator? t.kind = none) :
    (Rule.tail l left).read (t :: ts) = .ok (left, t :: ts) := by
  cases l with
  | sum =>
      simp only [Level.operator?] at h
      simp only [Rule.read]
      rw [exprTail]
      split
      · rfl
      · next op hop => rw [h] at hop; cases hop
  | product =>
      simp only [Level.operator?] at h
      simp only [Rule.read]
      rw [termTail]
      split
      · rfl
      · next op hop => rw [h] at hop; cases hop

/-- A loop takes an operator and an operand, and goes on with both on the left. -/
theorem read_tail {l : Level} {t : Token} {op : BinaryOp} (left : Expr) (ts : List Token)
    (h : l.operator? t.kind = some op) :
    (Rule.tail l left).read (t :: ts) =
      (l.operand.read ts).bind fun p => (Rule.tail l (.binary op left p.1)).read p.2 := by
  cases l with
  | sum =>
      simp only [Level.operator?] at h
      simp only [Rule.read, Level.operand]
      rw [exprTail]
      split
      · next hop => rw [h] at hop; cases hop
      · next op' hop =>
        obtain rfl : op = op' := Option.some.inj (h.symm.trans hop)
        cases term ts with
        | error r => rfl
        | ok right =>
            simp only [Except.map, Except.bind, Parsed.forget]
            cases exprTail (.binary op left right.tree) right.rest <;> rfl
  | product =>
      simp only [Level.operator?] at h
      simp only [Rule.read, Level.operand]
      rw [termTail]
      split
      · next hop => rw [h] at hop; cases hop
      · next op' hop =>
        obtain rfl : op = op' := Option.some.inj (h.symm.trans hop)
        cases Grammar.factor ts with
        | error r => rfl
        | ok right =>
            simp only [Except.map, Except.bind, Parsed.forget]
            cases termTail (.binary op left right.tree) right.rest <;> rfl

theorem read_factor_nil : Rule.factor.read [] = .error (.operand []) := by
  simp [Rule.read, Grammar.factor, Except.map]

/-- A factor begins with a number, a minus or a parenthesis. -/
theorem read_factor_stray {t : Token} (ts : List Token) (h : startsOperand t.kind = false) :
    Rule.factor.read (t :: ts) = .error (.operand (t :: ts)) := by
  simp only [Rule.read]
  rw [Grammar.factor]
  split
  · next hk => rw [hk] at h; cases h
  · next hk => rw [hk] at h; cases h
  · next hk => rw [hk] at h; cases h
  · rfl

theorem read_factor_number {t : Token} (ts : List Token) (h : t.kind = .number) :
    Rule.factor.read (t :: ts) = (literal t).map (·, ts) := by
  simp only [Rule.read]
  rw [Grammar.factor]
  split
  · cases literal t <;> rfl
  all_goals simp_all

theorem read_factor_minus {t : Token} (ts : List Token) (h : t.kind = .minus) :
    Rule.factor.read (t :: ts) = (Rule.factor.read ts).map fun p => (.negate p.1, p.2) := by
  simp only [Rule.read]
  rw [Grammar.factor]
  split
  · simp_all
  · cases Grammar.factor ts <;> rfl
  all_goals simp_all

/-- In parentheses stands a sum, and then they have to be closed. -/
theorem read_factor_paren {t : Token} (ts : List Token) (h : t.kind = .leftParen) :
    Rule.factor.read (t :: ts) = ((Rule.chain .sum).read ts).bind fun p => close p.1 p.2 := by
  simp only [Rule.read]
  rw [Grammar.factor]
  split
  · simp_all
  · simp_all
  · cases expr ts with
    | error r => rfl
    | ok p =>
        obtain ⟨inner, rest, hlt⟩ := p
        cases rest with
        | nil => rfl
        | cons c after =>
            by_cases hc : c.kind = .rightParen <;>
              simp [Except.map, Except.bind, Parsed.forget, close, hc]
  · simp_all

/-- An operand uses up a token. -/
theorem read_operand_length {l : Level} {ts rest : List Token} {e : Expr}
    (h : l.operand.read ts = .ok (e, rest)) : rest.length < ts.length := by
  have of {n : Nat} {x : Except Refusal (Parsed n)} (hx : x.map Parsed.forget = .ok (e, rest)) :
      rest.length < n := by
    cases x with
    | error r => cases hx
    | ok p =>
        have hp : p.forget = (e, rest) := Except.ok.inj hx
        have hrest : p.rest = rest := congrArg Prod.snd hp
        exact hrest ▸ p.fewer
  cases l <;> exact of h

/-! ## Derivations -/

/-- Whether the loop of a level ends in front of these tokens. -/
def Level.StopsAt (l : Level) (ts : List Token) : Prop := ∀ t ∈ ts.head?, l.operator? t.kind = none

/-- How a rule comes to its outcome on a token list. -/
inductive Reads : Rule → List Token → Outcome → Prop where
  | chain_refused {l : Level} {ts : List Token} {r : Refusal} :
      Reads l.operand ts (.error r) → Reads (.chain l) ts (.error r)
  | chain {l : Level} {ts rest : List Token} {first : Expr} {out : Outcome} :
      Reads l.operand ts (.ok (first, rest)) → Reads (.tail l first) rest out →
      Reads (.chain l) ts out
  | tail_stop {l : Level} {ts : List Token} {left : Expr} :
      l.StopsAt ts → Reads (.tail l left) ts (.ok (left, ts))
  | tail_refused {l : Level} {t : Token} {ts : List Token} {op : BinaryOp} {left : Expr}
      {r : Refusal} :
      l.operator? t.kind = some op → Reads l.operand ts (.error r) →
      Reads (.tail l left) (t :: ts) (.error r)
  | tail {l : Level} {t : Token} {ts rest : List Token} {op : BinaryOp} {left right : Expr}
      {out : Outcome} :
      l.operator? t.kind = some op → Reads l.operand ts (.ok (right, rest)) →
      Reads (.tail l (.binary op left right)) rest out → Reads (.tail l left) (t :: ts) out
  | missing : Reads .factor [] (.error (.operand []))
  | stray {t : Token} {ts : List Token} :
      startsOperand t.kind = false → Reads .factor (t :: ts) (.error (.operand (t :: ts)))
  | number {t : Token} {ts : List Token} {e : Expr} :
      t.kind = .number → literal t = .ok e → Reads .factor (t :: ts) (.ok (e, ts))
  | number_refused {t : Token} {ts : List Token} {r : Refusal} :
      t.kind = .number → literal t = .error r → Reads .factor (t :: ts) (.error r)
  | negate {t : Token} {ts rest : List Token} {e : Expr} :
      t.kind = .minus → Reads .factor ts (.ok (e, rest)) →
      Reads .factor (t :: ts) (.ok (.negate e, rest))
  | negate_refused {t : Token} {ts : List Token} {r : Refusal} :
      t.kind = .minus → Reads .factor ts (.error r) → Reads .factor (t :: ts) (.error r)
  | paren {t c : Token} {ts rest : List Token} {e : Expr} :
      t.kind = .leftParen → Reads (.chain .sum) ts (.ok (e, c :: rest)) → c.kind = .rightParen →
      Reads .factor (t :: ts) (.ok (.paren e, rest))
  | paren_refused {t : Token} {ts : List Token} {r : Refusal} :
      t.kind = .leftParen → Reads (.chain .sum) ts (.error r) →
      Reads .factor (t :: ts) (.error r)
  | unclosed {t : Token} {ts rest : List Token} {e : Expr} :
      t.kind = .leftParen → Reads (.chain .sum) ts (.ok (e, rest)) →
      (∀ c ∈ rest.head?, c.kind ≠ .rightParen) →
      Reads .factor (t :: ts) (.error (.closing rest))

/-- **A derivation says what a rule comes to.** -/
theorem read_of_reads {rule : Rule} {ts : List Token} {out : Outcome} (h : Reads rule ts out) :
    rule.read ts = out := by
  induction h with
  | chain_refused _ ih => rw [read_chain, ih]; rfl
  | chain _ _ ihFirst ihTail => rw [read_chain, ihFirst]; exact ihTail
  | @tail_stop l ts left hstop =>
      cases ts with
      | nil => exact read_tail_nil l left
      | cons t ts => exact read_tail_stop left ts (hstop t rfl)
  | tail_refused hop _ ih => rw [read_tail _ _ hop, ih]; rfl
  | tail hop _ _ ihRight ihTail => rw [read_tail _ _ hop, ihRight]; exact ihTail
  | missing => exact read_factor_nil
  | stray hk => exact read_factor_stray _ hk
  | number hk hl => rw [read_factor_number _ hk, hl]; rfl
  | number_refused hk hl => rw [read_factor_number _ hk, hl]; rfl
  | negate hk _ ih => rw [read_factor_minus _ hk, ih]; rfl
  | negate_refused hk _ ih => rw [read_factor_minus _ hk, ih]; rfl
  | paren hk _ hc ih =>
      rw [read_factor_paren _ hk, ih]
      simp [Except.bind, close, hc]
  | paren_refused hk _ ih => rw [read_factor_paren _ hk, ih]; rfl
  | @unclosed t ts rest e hk _ hc ih =>
      rw [read_factor_paren _ hk, ih]
      cases rest with
      | nil => rfl
      | cons c rest => simp [Except.bind, close, hc c rfl]

/-- A rule that calls another on the same tokens stands above it. -/
def Rule.height : Rule → Nat
  | chain .sum => 2
  | chain .product => 1
  | tail .. => 0
  | factor => 0

theorem height_operand_lt (l : Level) : l.operand.height < (Rule.chain l).height := by
  cases l <;> decide

/-- There is a derivation of whatever a rule comes to. -/
theorem reads_read : ∀ (rule : Rule) (ts : List Token), Reads rule ts (rule.read ts)
  | .chain l, ts => by
      -- the operand stands on the same tokens, so only the height gets smaller
      have hheight := height_operand_lt l
      have hoperand := reads_read l.operand ts
      rw [read_chain]
      cases hread : l.operand.read ts with
      | error r => exact .chain_refused (hread ▸ hoperand)
      | ok p =>
          have hshort := read_operand_length hread
          exact .chain (hread ▸ hoperand) (reads_read (.tail l p.1) p.2)
  | .tail l left, [] => by
      rw [read_tail_nil]
      exact .tail_stop (by simp [Level.StopsAt])
  | .tail l left, t :: ts => by
      cases hop : l.operator? t.kind with
      | none =>
          rw [read_tail_stop left ts hop]
          exact .tail_stop (by simpa [Level.StopsAt] using hop)
      | some op =>
          have hoperand := reads_read l.operand ts
          rw [read_tail left ts hop]
          cases hread : l.operand.read ts with
          | error r => exact .tail_refused hop (hread ▸ hoperand)
          | ok p =>
              -- the loop goes on behind the operand, which used up at least one token
              have hshort := read_operand_length hread
              exact .tail hop (hread ▸ hoperand) (reads_read (.tail l (.binary op left p.1)) p.2)
  | .factor, [] => by
      rw [read_factor_nil]
      exact .missing
  | .factor, t :: ts => by
      cases hk : t.kind with
      | number =>
          rw [read_factor_number ts hk]
          cases hl : literal t with
          | error r => exact .number_refused hk hl
          | ok e => exact .number hk hl
      | minus =>
          have hoperand := reads_read .factor ts
          rw [read_factor_minus ts hk]
          cases hread : Rule.factor.read ts with
          | error r => exact .negate_refused hk (hread ▸ hoperand)
          | ok p => exact .negate hk (hread ▸ hoperand)
      | leftParen =>
          have hinner := reads_read (.chain .sum) ts
          rw [read_factor_paren ts hk]
          cases hread : (Rule.chain .sum).read ts with
          | error r => exact .paren_refused hk (hread ▸ hinner)
          | ok p =>
              obtain ⟨inner, rest⟩ := p
              rw [hread] at hinner
              cases rest with
              | nil => exact .unclosed hk hinner (by simp)
              | cons c after =>
                  simp only [Except.bind, close]
                  split
                  · next hc => exact .paren hk hinner hc
                  · next hc => exact .unclosed hk hinner (by simpa using hc)
      | plus => rw [read_factor_stray ts (by rw [hk]; rfl)]; exact .stray (by rw [hk]; rfl)
      | star => rw [read_factor_stray ts (by rw [hk]; rfl)]; exact .stray (by rw [hk]; rfl)
      | slash => rw [read_factor_stray ts (by rw [hk]; rfl)]; exact .stray (by rw [hk]; rfl)
      | rightParen => rw [read_factor_stray ts (by rw [hk]; rfl)]; exact .stray (by rw [hk]; rfl)
termination_by rule ts => (ts.length, rule.height)
decreasing_by all_goals simp_wf; omega

/-- The tokens that a rule can leave over: its loops have stopped in front of them. -/
def Rule.EndsAt : Rule → List Token → Prop
  | chain .sum, ts | tail .sum _, ts => Level.product.StopsAt ts ∧ Level.sum.StopsAt ts
  | chain .product, ts | tail .product _, ts => Level.product.StopsAt ts
  | factor, _ => True

/-- Where a rule may be started: a loop, where an operand of its level ended. -/
def Rule.StartsAt : Rule → List Token → Prop
  | tail l _, ts => l.operand.EndsAt ts
  | _, _ => True

theorem startsAt_operand (l : Level) (ts : List Token) : l.operand.StartsAt ts := by
  cases l <;> trivial

theorem endsAt_tail {l : Level} {left : Expr} {ts : List Token} :
    (Rule.tail l left).EndsAt ts ↔ (Rule.chain l).EndsAt ts := by
  cases l <;> rfl

/-- No operator that a rule could still have used follows what it read. -/
theorem endsAt_of_reads {rule : Rule} {ts : List Token} {out : Outcome} (h : Reads rule ts out) :
    ∀ {e : Expr} {rest : List Token}, out = .ok (e, rest) → rule.StartsAt ts →
      rule.EndsAt rest := by
  induction h with
  | @chain l ts mid first out _ _ ihFirst ihTail =>
      intro e rest hout _
      exact endsAt_tail.mp (ihTail hout (ihFirst rfl (startsAt_operand l ts)))
  | @tail_stop l ts left hstop =>
      intro e rest hout hstart
      cases hout
      -- a sum's loop starts where a product ended, so no operator of either level follows
      cases l with
      | sum => exact ⟨hstart, hstop⟩
      | product => exact hstop
  | @tail l t ts mid op left right out _ _ _ ihRight ihTail =>
      intro e rest hout _
      exact endsAt_tail.mpr (endsAt_tail.mp (ihTail hout (ihRight rfl (startsAt_operand l ts))))
  | _ =>
      -- a factor promises nothing, and a refusal leaves nothing over
      intro e rest hout _
      first
        | exact trivial
        | cases hout

/-- Derivations and the rules as functions are the same. -/
theorem reads_iff {rule : Rule} {ts : List Token} {out : Outcome} :
    Reads rule ts out ↔ rule.read ts = out :=
  ⟨read_of_reads, fun h => h ▸ reads_read rule ts⟩

end Grammar

open Grammar

/-- A whole list is read as a sum, and nothing may be left over. -/
theorem parse_eq_read (ts : List Token) :
    Expr.parse ts =
      match (Rule.chain .sum).read ts with
      | .error r => .error (r.locate ts.length)
      | .ok (e, []) => .ok e
      | .ok (_, t :: rest) => .error (.leftover (ts.length - (t :: rest).length)) := by
  unfold Expr.parse
  simp only [Rule.read]
  cases expr ts with
  | error r => rfl
  | ok p =>
      obtain ⟨e, rest, _⟩ := p
      cases rest <;> rfl

end LineCalc
