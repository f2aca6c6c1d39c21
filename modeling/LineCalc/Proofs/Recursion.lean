import Mathlib
import LineCalc.Proofs.Outlook
import LineCalc.Token.Nesting

/-!
# The nesting of a token list and the recursion of the parser

`Token.nestingDepth` goes through a list once, with a few numbers in its hands, and what it
counts is how deep the rules of the grammar call each other. Every call goes through the
rule `factor`, so `Rule.reach` is the most calls of `factor` that are active at the same
time. It is told along the rule itself: a call counts for itself and for what it calls, and
of calls that come one after the other only the deepest one counts.

The link is `reaches_of_reads`, an induction over derivations. A rule that is started at some
level and reads some tokens brings the count to that level and what it reached beyond, and
if it succeeds it leaves the count where it was. This also holds of a rule that refuses, in
front of the tokens where it does, so the count of the tokens before the error is what the
parser reached before it stopped.
-/

namespace LineCalc

/-- How deep a tree nests: parentheses and minuses are a level each, operators are none. -/
def Expr.level : Expr → Nat
  | number _ => 0
  | negate e => e.level + 1
  | paren e => e.level + 1
  | binary _ l r => max l.level r.level

namespace Grammar

/-! ## What a rule reaches -/

/-- The most calls of `factor` that are active at the same time while a rule reads a list. -/
def Rule.reach : Rule → List Token → Nat
  | .chain l, ts =>
    max (l.operand.reach ts) <|
      match _h : l.operand.read ts with
      | .error _ => 0
      | .ok (first, rest) => (Rule.tail l first).reach rest
  | .tail _ _, [] => 0
  | .tail l left, t :: ts =>
    match l.operator? t.kind with
    | none => 0
    | some op =>
      max (l.operand.reach ts) <|
        match _h : l.operand.read ts with
        | .error _ => 0
        | .ok (right, rest) => (Rule.tail l (.binary op left right)).reach rest
  | .factor, [] => 1
  | .factor, t :: ts =>
    match t.kind with
    | .minus => Rule.factor.reach ts + 1
    | .leftParen => (Rule.chain .sum).reach ts + 1
    | _ => 1
termination_by rule ts => (ts.length, rule.height)
decreasing_by
  all_goals simp_wf
  · exact .right _ (height_operand_lt l)
  · exact .left _ _ (read_operand_length ‹_›)
  · omega
  · have := read_operand_length ‹_›
    omega
  all_goals exact .left _ _ (Nat.lt_succ_self _)

/-- Operands are read one after the other, so of their calls the deeper ones count. -/
theorem reach_chain {l : Level} {ts rest : List Token} {first : Expr}
    (h : l.operand.read ts = .ok (first, rest)) :
    (Rule.chain l).reach ts = max (l.operand.reach ts) ((Rule.tail l first).reach rest) := by
  rw [Rule.reach]
  split
  · next heq => rw [h] at heq; cases heq
  · next heq => rw [h] at heq; cases heq; rfl

/-- Nothing is called behind an operand that was refused. -/
theorem reach_chain_refused {l : Level} {ts : List Token} {r : Refusal}
    (h : l.operand.read ts = .error r) : (Rule.chain l).reach ts = l.operand.reach ts := by
  rw [Rule.reach]
  split
  · exact Nat.max_zero _
  · next heq => rw [h] at heq; cases heq

theorem reach_tail_stop {l : Level} {left : Expr} {ts : List Token} (h : l.StopsAt ts) :
    (Rule.tail l left).reach ts = 0 := by
  cases ts with
  | nil => rw [Rule.reach]
  | cons t ts => rw [Rule.reach, h t rfl]

theorem reach_tail {l : Level} {t : Token} {ts rest : List Token} {op : BinaryOp}
    {left right : Expr} (hop : l.operator? t.kind = some op)
    (h : l.operand.read ts = .ok (right, rest)) :
    (Rule.tail l left).reach (t :: ts) =
      max (l.operand.reach ts) ((Rule.tail l (.binary op left right)).reach rest) := by
  rw [Rule.reach, hop]
  simp only
  split
  · next heq => rw [h] at heq; cases heq
  · next heq => rw [h] at heq; cases heq; rfl

theorem reach_tail_refused {l : Level} {t : Token} {ts : List Token} {op : BinaryOp}
    {left : Expr} {r : Refusal} (hop : l.operator? t.kind = some op)
    (h : l.operand.read ts = .error r) :
    (Rule.tail l left).reach (t :: ts) = l.operand.reach ts := by
  rw [Rule.reach, hop]
  simp only
  split
  · exact Nat.max_zero _
  · next heq => rw [h] at heq; cases heq

/-- A minus and a parenthesis keep a call of `factor` waiting. -/
theorem reach_factor_minus {t : Token} (ts : List Token) (h : t.kind = .minus) :
    Rule.factor.reach (t :: ts) = Rule.factor.reach ts + 1 := by
  rw [Rule.reach, h]

theorem reach_factor_paren {t : Token} (ts : List Token) (h : t.kind = .leftParen) :
    Rule.factor.reach (t :: ts) = (Rule.chain .sum).reach ts + 1 := by
  conv_lhs => rw [Rule.reach, h]

/-- Nothing is called inside a number, nor where no operand begins. -/
theorem reach_factor_last {t : Token} (ts : List Token) (hminus : t.kind ≠ .minus)
    (hparen : t.kind ≠ .leftParen) : Rule.factor.reach (t :: ts) = 1 := by
  rw [Rule.reach]
  split
  · next h => exact absurd h hminus
  · next h => exact absurd h hparen
  · rfl

theorem reach_factor_pos (ts : List Token) : 0 < Rule.factor.reach ts := by
  cases ts with
  | nil => rw [Rule.reach]; exact Nat.one_pos
  | cons t ts =>
      rw [Rule.reach]
      split <;> omega

/-- A rule reaches at least as deep as its first operand. -/
theorem reach_operand_le (l : Level) (ts : List Token) :
    l.operand.reach ts ≤ (Rule.chain l).reach ts := by
  conv_rhs => rw [Rule.reach]
  exact Nat.le_max_left ..

theorem reach_sum_pos (ts : List Token) : 0 < (Rule.chain .sum).reach ts :=
  calc 0 < Rule.factor.reach ts := reach_factor_pos ts
    _ ≤ (Rule.chain .product).reach ts := reach_operand_le .product ts
    _ ≤ (Rule.chain .sum).reach ts := reach_operand_le .sum ts

/-- The level of what was read before a rule was started, and one more for its own call. -/
def Rule.before : Rule → Nat
  | chain _ => 0
  | tail _ left => left.level + 1
  | factor => 0

theorem before_operand (l : Level) : l.operand.before = 0 := by cases l <;> rfl

/-- A rule that succeeds reaches as deep as the tree nests that it read. -/
theorem level_of_reads {rule : Rule} {ts : List Token} {out : Outcome} (h : Reads rule ts out) :
    ∀ {e : Expr} {rest : List Token}, out = .ok (e, rest) →
      e.level + 1 = max rule.before (rule.reach ts) := by
  induction h with
  | @chain l ts mid first out hfirst _ ihFirst ihTail =>
      intro e rest hout
      have hoperand := ihFirst rfl
      rw [before_operand] at hoperand
      rw [ihTail hout, reach_chain (read_of_reads hfirst), Rule.before, Rule.before]
      omega
  | @tail_stop l ts left hstop =>
      intro e rest hout
      cases hout
      rw [reach_tail_stop hstop, Rule.before]
      omega
  | @tail l t ts mid op left right out hop hright _ ihRight ihTail =>
      intro e rest hout
      have hoperand := ihRight rfl
      rw [before_operand] at hoperand
      rw [ihTail hout, reach_tail hop (read_of_reads hright), Rule.before, Rule.before, Expr.level]
      omega
  | @number t ts e hk hl =>
      intro e' rest hout
      cases hout
      obtain ⟨v, -, rfl⟩ := literal_eq_ok_iff.mp hl
      rw [reach_factor_last ts (by simp [hk]) (by simp [hk])]
      rfl
  | @negate t ts rest e hk _ ih =>
      intro e' rest' hout
      cases hout
      have hoperand := ih rfl
      rw [Rule.before] at hoperand ⊢
      rw [reach_factor_minus ts hk, Expr.level]
      omega
  | @paren t c ts rest e hk _ _ ih =>
      intro e' rest' hout
      cases hout
      have hinner := ih rfl
      simp only [Rule.before] at hinner ⊢
      rw [reach_factor_paren ts hk, Expr.level]
      omega
  | _ => exact nofun

end Grammar

/-! ## The count, token by token -/

namespace Nesting

open Grammar

def after (n : Nesting) (ts : List Token) : Nesting := (ts.map Token.kind).foldl step n

variable {n m : Nesting}

theorem after_append (n : Nesting) (ts ts' : List Token) :
    n.after (ts ++ ts') = (n.after ts).after ts' := by
  rw [after, List.map_append, List.foldl_append, after, after]

/-- The deepest level never gets less deep. -/
theorem depth_le_after (n : Nesting) (ts : List Token) : n.depth ≤ (n.after ts).depth := by
  induction ts generalizing n with
  | nil => exact Nat.le_refl _
  | cons t ts ih => exact Nat.le_trans (Nat.le_max_left _ _) (ih (n.step t.kind))

theorem level_le_after (h : n.level ≤ n.depth) (ts : List Token) :
    (n.after ts).level ≤ (n.after ts).depth := by
  induction ts generalizing n with
  | nil => exact h
  | cons t ts ih => exact ih (n := n.step t.kind) (Nat.le_max_right _ _)

/-- One count is another one behind an operand: all that was open still is, and nothing waits. -/
structure Settled (n m : Nesting) : Prop where
  held : m.held = n.held
  heldTotal : m.heldTotal = n.heldTotal
  pending : m.pending = 0
  behind : awaitsOperand m.last = false

/-- Behind an operand the level is the one in front of it, if no minus was waiting there. -/
theorem Settled.level (h : n.Settled m) (hpending : n.pending = 0) : m.level = n.level := by
  rw [Nesting.level, Nesting.level, h.held, h.heldTotal, h.pending, hpending]

theorem Settled.of_same {n' : Nesting} (h : n'.Settled m) (hheld : n'.held = n.held)
    (htotal : n'.heldTotal = n.heldTotal) : n.Settled m :=
  ⟨h.held.trans hheld, h.heldTotal.trans htotal, h.pending, h.behind⟩

/-- A count in front of which a rule may be started. Minuses wait in front of factors only. -/
structure Begins (n : Nesting) (rule : Rule) : Prop where
  expects : awaitsOperand n.last = rule.awaits
  pending : rule ≠ .factor → n.pending = 0
  counted : n.level ≤ n.depth

theorem Begins.operand {l : Level} (h : n.Begins (.chain l)) : n.Begins l.operand :=
  ⟨h.expects.trans (awaits_operand l).symm, fun _ => h.pending (by simp), h.counted⟩

/-- The loop of a level is started where an operand ended, on the same level. -/
theorem Begins.tail {l : Level} {left : Expr} {ts : List Token} (h : n.level ≤ n.depth)
    (hsettled : n.Settled (n.after ts)) : (n.after ts).Begins (.tail l left) :=
  ⟨hsettled.behind, fun _ => hsettled.pending, level_le_after h ts⟩

/-- A minus where an operand is awaited waits with those before it. -/
theorem step_minus (h : awaitsOperand n.last = true) :
    n.step .minus =
      { n with
        pending := n.pending + 1, last := some .minus, depth := max n.depth (n.level + 1) } := by
  rw [step, shift, if_pos h]
  rfl

/-- A parenthesis sets aside the minuses that wait, and its inside begins afresh. -/
theorem step_open :
    n.step .leftParen =
      { held := n.pending :: n.held, heldTotal := n.heldTotal + n.pending, pending := 0,
        last := some .leftParen, depth := max n.depth (n.level + 1) } := by
  simp only [step, shift, level, List.length_cons, mk.injEq, true_and]
  congr 1
  omega

/-- An operator behind an operand opens nothing. -/
theorem step_operator {k : TokenKind} {l : Level} {op : BinaryOp} (hop : l.operator? k = some op)
    (hbehind : awaitsOperand n.last = false) (hcounted : n.level ≤ n.depth) :
    n.step k = { n with last := some k } ∧ awaitsOperand (some k) = true := by
  have hshift : n.shift k = n := by
    obtain ⟨rfl, -⟩ := operator?_eq_some hop
    -- a minus is the only one that could have been taken for a unary one
    cases op with
    | sub => rw [BinaryOp.kind, shift, hbehind]; rfl
    | _ => rfl
  refine ⟨?_, ?_⟩
  · rw [step, hshift, Nat.max_eq_left hcounted]
  · obtain ⟨rfl, -⟩ := operator?_eq_some hop
    cases op <;> rfl

theorem begins_minus (n : Nesting) : (n.step .minus).Begins .factor :=
  ⟨rfl, fun hne => absurd rfl hne, Nat.le_max_right _ _⟩

theorem begins_open (n : Nesting) : (n.step .leftParen).Begins (.chain .sum) :=
  ⟨rfl, fun _ => rfl, Nat.le_max_right _ _⟩

/-- Behind an operator of its level, the loop starts an operand. -/
theorem Begins.operator {l : Level} {left : Expr} {k : TokenKind} {op : BinaryOp}
    (h : n.Begins (.tail l left)) (hop : l.operator? k = some op) :
    Begins { n with last := some k } l.operand :=
  ⟨(step_operator hop h.expects h.counted).2.trans (awaits_operand l).symm,
    fun _ => h.pending (by simp), h.counted⟩

theorem step_number (h : n.level ≤ n.depth) :
    n.Settled (n.step .number) ∧ (n.step .number).depth = n.depth := by
  refine ⟨⟨rfl, rfl, rfl, rfl⟩, Nat.max_eq_left (Nat.le_trans ?_ h)⟩
  exact Nat.add_le_add_left (Nat.zero_le _) _

/-- A closing parenthesis leaves the level that its opening one entered. -/
theorem step_close (h : (n.step .leftParen).Settled m) (hcounted : m.level ≤ m.depth) :
    n.Settled (m.step .rightParen) ∧ (m.step .rightParen).depth = m.depth := by
  have hheld : m.held = n.pending :: n.held := h.held
  have htotal : m.heldTotal = n.heldTotal + n.pending := h.heldTotal
  have hshift : m.shift .rightParen =
      { m with held := n.held, heldTotal := n.heldTotal, pending := 0 } := by
    rw [shift, hheld]
    simp [htotal]
  refine ⟨⟨?_, ?_, ?_, rfl⟩, ?_⟩
  · rw [step, hshift]
  · rw [step, hshift]
  · rw [step, hshift]
  · rw [step, hshift]
    refine Nat.max_eq_left (Nat.le_trans ?_ hcounted)
    simp only [level, hheld, htotal, List.length_cons]
    omega

/--
Over the tokens in front of the rest, the count gets `reach` levels deep, the one it starts
on being the first, and it is settled there if the reading is done.
-/
def Reaches (n : Nesting) (reach : Nat) (ts rest : List Token) (done : Bool) : Prop :=
  ∃ read, ts = read ++ rest ∧ (n.after read).depth = max n.depth (n.level + (reach - 1)) ∧
    (done = true → n.Settled (n.after read))

variable {reach reach' : Nat} {t : Token} {ts mid rest : List Token} {done : Bool}

/-- Where nothing is read, only the level is reached where the count is. -/
theorem Reaches.stop (hcounted : n.level ≤ n.depth) (hreach : reach ≤ 1)
    (hdone : done = true → n.Settled n) : n.Reaches reach ts ts done := by
  refine ⟨[], rfl, ?_, hdone⟩
  have hzero : reach - 1 = 0 := by omega
  rw [hzero, Nat.add_zero, Nat.max_eq_left hcounted]
  rfl

/-- Of what is read one after the other on a level, the deeper part counts. -/
theorem Reaches.append (hpending : n.pending = 0) (hcounted : n.level ≤ n.depth)
    (h : n.Reaches reach ts mid true)
    (h' : ∀ read, n.Settled (n.after read) → (n.after read).Reaches reach' mid rest done) :
    n.Reaches (max reach reach') ts rest done := by
  obtain ⟨read, rfl, hdepth, hsettled⟩ := h
  have hmiddle := hsettled rfl
  obtain ⟨read', rfl, hdepth', hsettled'⟩ := h' read hmiddle
  refine ⟨read ++ read', (List.append_assoc ..).symm, ?_, fun hdone => ?_⟩
  · rw [after_append, hdepth', hdepth, hmiddle.level hpending]
    omega
  · rw [after_append]
    exact (hsettled' hdone).of_same hmiddle.held hmiddle.heldTotal

/-- Behind a minus, everything is one level deeper. -/
theorem Reaches.minus (hk : t.kind = .minus) (hn : awaitsOperand n.last = true)
    (hreach : 0 < reach) (h : (n.step .minus).Reaches reach ts rest done) :
    n.Reaches (reach + 1) (t :: ts) rest done := by
  obtain ⟨read, rfl, hdepth, hsettled⟩ := h
  have hafter : n.after (t :: read) = (n.step .minus).after read := by rw [← hk]; rfl
  refine ⟨t :: read, rfl, ?_, fun hdone => ?_⟩
  · rw [hafter, hdepth, step_minus hn]
    simp only [level]
    omega
  · rw [hafter]
    exact (hsettled hdone).of_same (by rw [step_minus hn]) (by rw [step_minus hn])

/-- What is reached behind an opening parenthesis, if it is not closed. -/
theorem Reaches.opened (hk : t.kind = .leftParen) (hreach : 0 < reach)
    (h : (n.step .leftParen).Reaches reach ts rest done) :
    n.Reaches (reach + 1) (t :: ts) rest false := by
  obtain ⟨read, rfl, hdepth, -⟩ := h
  have hafter : n.after (t :: read) = (n.step .leftParen).after read := by rw [← hk]; rfl
  refine ⟨t :: read, rfl, ?_, nofun⟩
  rw [hafter, hdepth, step_open]
  simp only [level, List.length_cons]
  omega

/-- Inside parentheses, everything is one level deeper, and behind them it is as it was. -/
theorem Reaches.closed {c : Token} (hk : t.kind = .leftParen) (hc : c.kind = .rightParen)
    (hreach : 0 < reach) (h : (n.step .leftParen).Reaches reach ts (c :: rest) true) :
    n.Reaches (reach + 1) (t :: ts) rest true := by
  obtain ⟨read, rfl, hdepth, hsettled⟩ := h
  have hcounted : (n.step .leftParen).level ≤ (n.step .leftParen).depth := Nat.le_max_right _ _
  obtain ⟨hclosed, hsame⟩ := step_close (hsettled rfl) (level_le_after hcounted read)
  have hafter : n.after (t :: (read ++ [c])) =
      ((n.step .leftParen).after read).step .rightParen := by
    rw [← List.cons_append, after_append, ← hk, ← hc]
    rfl
  refine ⟨t :: (read ++ [c]), by simp, ?_, fun _ => hafter ▸ hclosed⟩
  rw [hafter, hsame, hdepth, step_open]
  simp only [level, List.length_cons]
  omega

/-- An operator of the loop adds nothing to what its operand and the rest reach. -/
theorem Reaches.operator {l : Level} {op : BinaryOp} (hop : l.operator? t.kind = some op)
    (hbehind : awaitsOperand n.last = false) (hcounted : n.level ≤ n.depth)
    (h : Reaches { n with last := some t.kind } reach ts rest done) :
    n.Reaches reach (t :: ts) rest done := by
  obtain ⟨read, rfl, hdepth, hsettled⟩ := h
  have hafter : n.after (t :: read) = after { n with last := some t.kind } read := by
    rw [← (step_operator hop hbehind hcounted).1]
    rfl
  refine ⟨t :: read, rfl, ?_, fun hdone => ?_⟩
  · rw [hafter, hdepth]
    rfl
  · rw [hafter]
    exact (hsettled hdone).of_same rfl rfl

end Nesting

/-! ## Rules and the count -/

namespace Grammar

open Nesting

/-- The tokens in front of which a rule ended, unless a number token was in its way. -/
def unread? : Outcome → Option (List Token)
  | .ok (_, rest) | .error (.operand rest) | .error (.closing rest) => some rest
  | .error .valueless | .error (.invalid _) => none

theorem unread?_of_literal {t : Token} {r : Refusal} (h : literal t = .error r) :
    unread? (.error r) = none := by
  unfold literal at h
  split at h
  · cases h
    rfl
  · next v hv =>
    rw [Expr.ofLiteral] at h
    split at h
    · cases h
    · cases h
      rfl

/--
**A rule brings the count as deep as it gets itself.** This holds of the tokens in front of
which it ended, whether it succeeded or refused.
-/
theorem reaches_of_reads {rule : Rule} {ts : List Token} {out : Outcome}
    (h : Reads rule ts out) : ∀ {n : Nesting} {rest : List Token}, n.Begins rule →
      unread? out = some rest → n.Reaches (rule.reach ts) ts rest out.isOk := by
  induction h with
  | @chain_refused l ts r hread ih =>
      intro n rest hn hrest
      rw [reach_chain_refused (read_of_reads hread)]
      exact ih hn.operand hrest
  | @chain l ts mid first out hfirst _ ihFirst ihTail =>
      intro n rest hn hrest
      rw [reach_chain (read_of_reads hfirst)]
      -- the loop starts where the first operand left the count, on the same level
      exact .append (hn.pending (by simp)) hn.counted (ihFirst hn.operand rfl)
        fun read hsettled => ihTail (Begins.tail hn.counted hsettled) hrest
  | @tail_stop l ts left hstop =>
      intro n rest hn hrest
      cases hrest
      rw [reach_tail_stop hstop]
      exact .stop hn.counted (by decide)
        fun _ => ⟨rfl, rfl, hn.pending (by simp), hn.expects⟩
  | @tail_refused l t ts op left r hop hread ih =>
      intro n rest hn hrest
      rw [reach_tail_refused hop (read_of_reads hread)]
      exact .operator hop hn.expects hn.counted (ih (hn.operator hop) hrest)
  | @tail l t ts mid op left right out hop hright _ ihRight ihTail =>
      intro n rest hn hrest
      rw [reach_tail hop (read_of_reads hright)]
      refine .operator hop hn.expects hn.counted ?_
      exact .append (hn.pending (by simp)) hn.counted (ihRight (hn.operator hop) rfl)
        fun read hsettled => ihTail (Begins.tail hn.counted hsettled) hrest
  | missing =>
      intro n rest hn hrest
      cases hrest
      exact .stop hn.counted (by rw [Rule.reach]) nofun
  | @stray t ts hk =>
      intro n rest hn hrest
      cases hrest
      have hminus : t.kind ≠ .minus := fun h => by rw [h] at hk; cases hk
      have hparen : t.kind ≠ .leftParen := fun h => by rw [h] at hk; cases hk
      exact .stop hn.counted (reach_factor_last ts hminus hparen).le nofun
  | @number t ts e hk hl =>
      intro n rest hn hrest
      cases hrest
      obtain ⟨hsettled, hdepth⟩ := step_number hn.counted
      rw [reach_factor_last ts (by simp [hk]) (by simp [hk])]
      rw [← hk] at hsettled hdepth
      refine ⟨[t], rfl, ?_, fun _ => hsettled⟩
      have hcounted := hn.counted
      exact hdepth.trans (by omega)
  | @number_refused t ts r hk hl =>
      intro n rest hn hrest
      -- a bad number is refused by itself, and not in front of any tokens
      rw [unread?_of_literal hl] at hrest
      cases hrest
  | @negate t ts rest e hk _ ih =>
      intro n rest' hn hrest
      rw [reach_factor_minus ts hk]
      exact .minus hk hn.expects (reach_factor_pos ts) (ih n.begins_minus hrest)
  | @negate_refused t ts r hk _ ih =>
      intro n rest hn hrest
      rw [reach_factor_minus ts hk]
      exact .minus hk hn.expects (reach_factor_pos ts) (ih n.begins_minus hrest)
  | @paren t c ts rest e hk _ hc ih =>
      intro n rest' hn hrest
      cases hrest
      rw [reach_factor_paren ts hk]
      -- the sum inside starts with nothing waiting: the minuses before it are held
      exact .closed hk hc (reach_sum_pos ts) (ih n.begins_open rfl)
  | @paren_refused t ts r hk _ ih =>
      intro n rest hn hrest
      rw [reach_factor_paren ts hk]
      exact .opened hk (reach_sum_pos ts) (ih n.begins_open hrest)
  | @unclosed t ts rest e hk _ _ ih =>
      intro n rest' hn hrest
      cases hrest
      rw [reach_factor_paren ts hk]
      exact .opened hk (reach_sum_pos ts) (ih n.begins_open rfl)

end Grammar

open Grammar Nesting

theorem begins_start : Nesting.Begins {} (Rule.chain .sum) := ⟨rfl, fun _ => rfl, Nat.le_refl 0⟩

/-- Until a sum ends, the count gets as deep as the calls for it, the first of them aside. -/
theorem nestingDepth_of_unread {ts rest : List Token}
    (h : unread? ((Rule.chain .sum).read ts) = some rest) :
    Token.nestingDepth (ts.take (ts.length - rest.length)) + 1 = (Rule.chain .sum).reach ts := by
  obtain ⟨read, hts, hdepth, -⟩ := reaches_of_reads (reads_read (.chain .sum) ts) begins_start h
  have htake : ts.take (ts.length - rest.length) = read := by
    rw [hts, List.length_append, Nat.add_sub_cancel, List.take_left]
  have hpos := reach_sum_pos ts
  have hlevel : Nesting.level {} = 0 := rfl
  have hzero : Nesting.depth {} = 0 := rfl
  rw [htake]
  change (Nesting.after {} read).depth + 1 = _
  rw [hdepth, hlevel, hzero]
  omega

/-- Tokens that are cut off only take away from the depth. -/
theorem nestingDepth_take_le (ts : List Token) (p : Nat) :
    Token.nestingDepth (ts.take p) ≤ Token.nestingDepth ts := by
  have hle := depth_le_after (Nesting.after {} (ts.take p)) (ts.drop p)
  rwa [← after_append, List.take_append_drop] at hle

/-- An error of the grammar stands at the number of tokens that were read before it. -/
theorem unread?_of_parse {ts : List Token} {e : ParseError} {p : Nat}
    (h : Expr.parse ts = .error e) (hp : e.pos? = some p) :
    ∃ rest, unread? ((Rule.chain .sum).read ts) = some rest ∧ p = ts.length - rest.length := by
  rw [parse_eq_read] at h
  split at h
  · next r hread =>
    cases h
    rw [hread]
    cases r with
    | operand rest => exact ⟨rest, rfl, (Option.some.inj hp).symm⟩
    | closing rest => exact ⟨rest, rfl, (Option.some.inj hp).symm⟩
    | valueless => cases hp
    | invalid cause => cases hp
  · cases h
  · next t rest hread =>
    cases h
    rw [hread]
    exact ⟨t :: rest, rfl, (Option.some.inj hp).symm⟩

/--
**The nesting of a token list is the recursion of the parser.** For a list that is an
expression it is the level of its tree, and one less than the most calls of `factor` that
are active at the same time. For a list that is refused at a place, this holds of the tokens
before that place, and those behind it can only add to it. Lists without bad numbers are
never refused in any other way.
-/
theorem nestingDepth_eq_reach (ts : List Token) :
    (∀ e, Expr.parse ts = .ok e →
      Token.nestingDepth ts = e.level ∧
        Token.nestingDepth ts + 1 = (Rule.chain .sum).reach ts) ∧
    ∀ e, Expr.parse ts = .error e →
      ((∀ t ∈ ts, t.isBad = false) → ∃ p, e.pos? = some p) ∧
      ∀ p, e.pos? = some p →
        Token.nestingDepth (ts.take p) + 1 = (Rule.chain .sum).reach ts ∧
          Token.nestingDepth (ts.take p) ≤ Token.nestingDepth ts := by
  refine ⟨fun e he => ?_, fun e he => ⟨fun hts => ?_, fun p hp => ?_⟩⟩
  · have hread : (Rule.chain .sum).read ts = .ok (e, []) := by
      rw [parse_eq_read] at he
      split at he <;> cases he
      assumption
    have hreads := reads_iff.mpr hread
    have hlevel : e.level + 1 = max 0 ((Rule.chain .sum).reach ts) := level_of_reads hreads rfl
    have hunread : unread? ((Rule.chain .sum).read ts) = some [] := by rw [hread]; rfl
    have hdepth := nestingDepth_of_unread hunread
    rw [List.length_nil, Nat.sub_zero, List.take_length] at hdepth
    omega
  · exact pos?_of_parse hts he
  · obtain ⟨rest, hrest, rfl⟩ := unread?_of_parse he hp
    exact ⟨nestingDepth_of_unread hrest, nestingDepth_take_le ts _⟩

/-- Two parentheses and two minuses are open at once in `(-(-1))`. -/
example :
    Token.nestingDepth [.ofKind .leftParen, .ofKind .minus, .ofKind .leftParen, .ofKind .minus,
      .ofNumber 1, .ofKind .rightParen, .ofKind .rightParen] = 4 := by
  decide

end LineCalc
