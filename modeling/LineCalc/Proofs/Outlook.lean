import Mathlib
import LineCalc.Proofs.Derivation

/-!
# Where a token list becomes hopeless

Whether a list can still become an expression is seen without any tree. It is enough
to read the list from left to right and to remember two facts: whether an operand is
expected, and how many parentheses are open. That is an `Outlook`, and
`Outlook.scan` reads until a token has no place in it.

The parser refuses a list exactly where the scan halts, and for the reason that the
outlook gives. Its calls of each other do not show: however deep a rule is nested,
the open parentheses are a number and the operators in between leave no trace. This
is `verdict_of_reads`, by induction over derivations: a rule that succeeds moves the
scan from where an operand is expected to where none is, with as many parentheses
open as before, and a rule that refuses was in front of the token at which the scan
halts.

A number token may still be bad, with no value or one that is no literal's. The
parser sees it when it takes it, so a bad number that was consumed comes first.
-/

namespace LineCalc

/-- Whether an operand is expected after some tokens, and how many parentheses are open. -/
structure Outlook where
  operand : Bool
  opened : Nat
deriving DecidableEq, Repr

structure Halt where
  consumed : List Token
  outlook : Outlook
  rest : List Token
deriving DecidableEq, Repr

namespace Outlook

def start : Outlook := ⟨true, 0⟩

/-- The outlook after one more token, if the token has a place there. -/
def step? : Outlook → TokenKind → Option Outlook
  | ⟨true, d⟩, .number => some ⟨false, d⟩
  | ⟨true, d⟩, .minus => some ⟨true, d⟩
  | ⟨true, d⟩, .leftParen => some ⟨true, d + 1⟩
  | ⟨false, d⟩, .plus | ⟨false, d⟩, .minus | ⟨false, d⟩, .star | ⟨false, d⟩, .slash =>
    some ⟨true, d⟩
  | ⟨false, d + 1⟩, .rightParen => some ⟨false, d⟩
  | _, _ => none

/-- Reads tokens as long as they have a place. -/
def scan (o : Outlook) : List Token → Halt
  | [] => ⟨[], o, []⟩
  | t :: ts =>
    match o.step? t.kind with
    | none => ⟨[], o, t :: ts⟩
    | some next => let h := next.scan ts; { h with consumed := t :: h.consumed }

end Outlook

namespace Token

/-- Whether a token is a number without value, or with one that no literal has. -/
def isBad (t : Token) : Bool :=
  t.kind == .number && match t.value with
    | none => true
    | some v => v < 0 || 2 ^ 64 ≤ v

def defect (t : Token) : ParseError :=
  match t.value with
  | none => .valueless
  | some v => .invalidNumber (.literal v)

end Token

namespace Halt

/-- The scan read a whole expression and nothing more. -/
def Complete (h : Halt) : Prop :=
  h.rest = [] ∧ h.outlook.operand = false ∧ h.outlook.opened = 0

/-- No number that was consumed is bad. -/
def Clean (h : Halt) : Prop := ∀ t ∈ h.consumed, t.isBad = false

instance (h : Halt) : Decidable h.Complete :=
  inferInstanceAs (Decidable (h.rest = [] ∧ h.outlook.operand = false ∧ h.outlook.opened = 0))

instance (h : Halt) : Decidable h.Clean :=
  inferInstanceAs (Decidable (∀ t ∈ h.consumed, t.isBad = false))

/-- What the scan missed when it halted. -/
def message (h : Halt) : String :=
  if h.outlook.operand then "Expect number, got " ++ ParseError.foundText h.rest.head?
  else if 0 < h.outlook.opened then "Expect ), got " ++ ParseError.foundText h.rest.head?
  else "Invalid expression"

def refusalOf (t : Token) : Refusal :=
  match t.value with
  | none => .valueless
  | some v => .invalid (.literal v)

/-- What the grammar makes of a halt: a refusal, or the tokens that follow an expression. -/
def verdict (h : Halt) : Except Refusal (List Token) :=
  match h.consumed.find? Token.isBad with
  | some t => .error (refusalOf t)
  | none =>
    if h.outlook.operand then .error (.operand h.rest)
    else if 0 < h.outlook.opened then .error (.closing h.rest)
    else .ok h.rest

end Halt

namespace Outlook

variable {o next : Outlook} {t : Token} {ts : List Token}

theorem scan_append (o : Outlook) (ts : List Token) :
    (o.scan ts).consumed ++ (o.scan ts).rest = ts := by
  induction ts generalizing o with
  | nil => rfl
  | cons t ts ih =>
      rw [scan]
      cases h : o.step? t.kind with
      | none => rfl
      | some next => exact congrArg (t :: ·) (ih next)

/-! ## The verdict, token by token -/

theorem verdict_stuck (h : ∀ t ∈ ts.head?, o.step? t.kind = none) :
    (o.scan ts).verdict = (Halt.mk [] o ts).verdict := by
  cases ts with
  | nil => rfl
  | cons t ts => rw [scan, h t rfl]

/-- A token that can come here and is in order changes what is awaited, and nothing else. -/
theorem verdict_step (h : o.step? t.kind = some next) (hbad : t.isBad = false) :
    (o.scan (t :: ts)).verdict = (next.scan ts).verdict := by
  rw [scan, h]
  simp [Halt.verdict, hbad]

/-- A token that can come here but is bad decides the verdict. -/
theorem verdict_bad (h : o.step? t.kind = some next) (hbad : t.isBad = true) :
    (o.scan (t :: ts)).verdict = .error (Halt.refusalOf t) := by
  rw [scan, h]
  simp [Halt.verdict, hbad]

theorem isBad_of_kind_ne (hk : t.kind ≠ .number) : t.isBad = false := by
  simp [Token.isBad, hk]

theorem verdict_minus (d : Nat) (hk : t.kind = .minus) :
    (Outlook.scan ⟨true, d⟩ (t :: ts)).verdict = (Outlook.scan ⟨true, d⟩ ts).verdict := by
  have hstep : Outlook.step? ⟨true, d⟩ t.kind = some ⟨true, d⟩ := by rw [hk]; rfl
  exact verdict_step hstep (isBad_of_kind_ne (by simp [hk]))

theorem verdict_open (d : Nat) (hk : t.kind = .leftParen) :
    (Outlook.scan ⟨true, d⟩ (t :: ts)).verdict = (Outlook.scan ⟨true, d + 1⟩ ts).verdict := by
  have hstep : Outlook.step? ⟨true, d⟩ t.kind = some ⟨true, d + 1⟩ := by rw [hk]; rfl
  exact verdict_step hstep (isBad_of_kind_ne (by simp [hk]))

theorem verdict_close (d : Nat) (hk : t.kind = .rightParen) :
    (Outlook.scan ⟨false, d + 1⟩ (t :: ts)).verdict = (Outlook.scan ⟨false, d⟩ ts).verdict := by
  have hstep : Outlook.step? ⟨false, d + 1⟩ t.kind = some ⟨false, d⟩ := by rw [hk]; rfl
  exact verdict_step hstep (isBad_of_kind_ne (by simp [hk]))

theorem verdict_binary {op : BinaryOp} (d : Nat) (hk : t.kind = op.kind) :
    (Outlook.scan ⟨false, d⟩ (t :: ts)).verdict = (Outlook.scan ⟨true, d⟩ ts).verdict := by
  have hstep : Outlook.step? ⟨false, d⟩ t.kind = some ⟨true, d⟩ := by
    rw [hk]
    cases op <;> rfl
  exact verdict_step hstep (isBad_of_kind_ne (by rw [hk]; exact op.kind_ne_number))

/-- After an operand, an operator has a place and an operand is expected again. -/
theorem verdict_operator {l : Grammar.Level} {op : BinaryOp} (d : Nat)
    (h : l.operator? t.kind = some op) :
    (Outlook.scan ⟨false, d⟩ (t :: ts)).verdict = (Outlook.scan ⟨true, d⟩ ts).verdict := by
  obtain ⟨hk, -⟩ := Grammar.operator?_eq_some h
  exact verdict_binary d hk

/-- Where an expression has ended, only a parenthesis that closes one still has a place. -/
theorem step?_eq_none {d : Nat} (h : (Grammar.Rule.chain .sum).EndsAt ts)
    (hclose : 0 < d → ∀ c ∈ ts.head?, c.kind ≠ .rightParen) :
    ∀ c ∈ ts.head?, Outlook.step? ⟨false, d⟩ c.kind = none := by
  intro c hc
  have hproduct := h.1 c hc
  have hsum := h.2 c hc
  cases hk : c.kind with
  | rightParen =>
      cases d with
      | zero => rfl
      | succ d => exact absurd hk (hclose (Nat.succ_pos d) c hc)
  | number => rfl
  | leftParen => rfl
  | plus => rw [hk] at hsum; cases hsum
  | minus => rw [hk] at hsum; cases hsum
  | star => rw [hk] at hproduct; cases hproduct
  | slash => rw [hk] at hproduct; cases hproduct

end Outlook

/-! ## Rules and the scan -/

namespace Grammar

open Outlook

theorem isBad_of_literal_ok {t : Token} {e : Expr} (h : literal t = .ok e) : t.isBad = false := by
  obtain ⟨v, hv, -⟩ := literal_eq_ok_iff.mp h
  have hlt : (v.toNat : Int) < 2 ^ 64 := by exact_mod_cast v.toNat_lt
  simp only [Token.isBad, hv]
  simp
  omega

theorem isBad_of_literal_error {t : Token} {r : Refusal} (hk : t.kind = .number)
    (h : literal t = .error r) : t.isBad = true ∧ Halt.refusalOf t = r := by
  unfold literal at h
  simp only [Token.isBad, Halt.refusalOf, hk]
  cases hv : t.value with
  | none =>
      rw [hv] at h
      exact ⟨rfl, Except.error.inj h⟩
  | some v =>
      rw [hv] at h
      simp only [Expr.ofLiteral] at h
      split at h
      · cases h
      · next hrange =>
        have hsize : ((UInt64.size : Nat) : Int) = 2 ^ 64 := by decide
        rw [hsize] at hrange
        refine ⟨?_, Except.error.inj h⟩
        simp only [beq_self_eq_true, Bool.true_and, Bool.or_eq_true, decide_eq_true_eq]
        omega

/-- Whether a rule is started where an operand is expected. -/
def Rule.awaits : Rule → Bool
  | tail .. => false
  | _ => true

theorem awaits_operand (l : Level) : l.operand.awaits = true := by cases l <;> rfl

/--
**A rule does to the scan what it does to the list.** If it succeeds, the verdict is
that on the tokens left over, with an operand behind them and as many parentheses open
as before; if it refuses, the verdict is the refusal.
-/
theorem verdict_of_reads {rule : Rule} {ts : List Token} {out : Outcome} (h : Reads rule ts out) :
    ∀ d, (Outlook.scan ⟨rule.awaits, d⟩ ts).verdict =
      out.bind fun p => (Outlook.scan ⟨false, d⟩ p.2).verdict := by
  induction h with
  | @chain_refused l ts r _ ih =>
      intro d
      rw [awaits_operand] at ih
      exact ih d
  | @chain l ts rest first out _ _ ihFirst ihTail =>
      intro d
      rw [awaits_operand] at ihFirst
      exact (ihFirst d).trans (ihTail d)
  | tail_stop _ => intro d; rfl
  | @tail_refused l t ts op left r hop _ ih =>
      intro d
      rw [awaits_operand] at ih
      exact (verdict_operator d hop).trans (ih d)
  | @tail l t ts rest op left right out hop _ _ ihRight ihTail =>
      intro d
      rw [awaits_operand] at ihRight
      exact (verdict_operator d hop).trans ((ihRight d).trans (ihTail d))
  | missing => intro d; rfl
  | @stray t ts hk =>
      intro d
      have hstep : ∀ c ∈ (t :: ts).head?, step? ⟨true, d⟩ c.kind = none := by
        intro c hc
        obtain rfl : t = c := Option.some.inj hc
        cases hkind : t.kind <;> rw [hkind] at hk <;> first | rfl | cases hk
      exact verdict_stuck hstep
  | @number t ts e hk hl =>
      intro d
      exact verdict_step (by rw [hk]; rfl) (isBad_of_literal_ok hl)
  | @number_refused t ts r hk hl =>
      intro d
      obtain ⟨hbad, hr⟩ := isBad_of_literal_error hk hl
      have hstep : step? ⟨true, d⟩ t.kind = some ⟨false, d⟩ := by rw [hk]; rfl
      exact hr ▸ verdict_bad hstep hbad
  | @negate t ts rest e hk _ ih =>
      intro d
      exact (verdict_minus d hk).trans (ih d)
  | @negate_refused t ts r hk _ ih =>
      intro d
      exact (verdict_minus d hk).trans (ih d)
  | @paren t c ts rest e hk _ hc ih =>
      intro d
      -- inside the parentheses one more is open, and the rule for the inside says nothing of it
      have hinner := (verdict_open d hk).trans (ih (d + 1))
      exact hinner.trans (verdict_close d hc)
  | @paren_refused t ts r hk _ ih =>
      intro d
      exact (verdict_open d hk).trans (ih (d + 1))
  | @unclosed t ts rest e hk hinner hc ih =>
      intro d
      -- a sum ends in front of no operator, so only a closing parenthesis could go on
      have hends := endsAt_of_reads hinner rfl trivial
      have hstuck := verdict_stuck (step?_eq_none (d := d + 1) hends fun _ => hc)
      exact (verdict_open d hk).trans ((ih (d + 1)).trans hstuck)

end Grammar

open Grammar

/-- The parser says of a list what the scan says of it. -/
theorem parse_eq_verdict (ts : List Token) :
    match (Outlook.start.scan ts).verdict with
    | .error r => Expr.parse ts = .error (r.locate ts.length)
    | .ok [] => ∃ e, Expr.parse ts = .ok e
    | .ok (t :: rest) => Expr.parse ts = .error (.leftover (ts.length - (t :: rest).length)) := by
  have hreads := reads_read (.chain .sum) ts
  have hverdict := verdict_of_reads hreads 0
  rw [parse_eq_read]
  cases hread : (Rule.chain .sum).read ts with
  | error r =>
      rw [hread] at hverdict
      rw [Outlook.start]
      simp [show (Outlook.scan ⟨true, 0⟩ ts).verdict = .error r from hverdict]
  | ok p =>
      obtain ⟨e, rest⟩ := p
      rw [hread] at hreads hverdict
      have hends := endsAt_of_reads hreads rfl trivial
      have hnever : ¬ 0 < 0 := Nat.lt_irrefl 0
      have hstuck := Outlook.verdict_stuck (Outlook.step?_eq_none hends fun h => absurd h hnever)
      have hok : (Outlook.scan ⟨true, 0⟩ ts).verdict = .ok rest := hverdict.trans hstuck
      rw [Outlook.start, hok]
      cases rest with
      | nil => exact ⟨e, rfl⟩
      | cons t rest => rfl

/-! ## Which lists are accepted, and what is said of the others -/

theorem locate_refusalOf (t : Token) (total : Nat) :
    (Halt.refusalOf t).locate total = t.defect := by
  unfold Halt.refusalOf Token.defect
  cases t.value <;> rfl

theorem parse_of_bad {ts : List Token} {t : Token}
    (h : (Outlook.start.scan ts).consumed.find? Token.isBad = some t) :
    Expr.parse ts = .error t.defect := by
  have hparse := parse_eq_verdict ts
  have hverdict : (Outlook.start.scan ts).verdict = .error (Halt.refusalOf t) := by
    rw [Halt.verdict, h]
  rw [hverdict] at hparse
  rwa [← locate_refusalOf t ts.length]

theorem verdict_of_clean {h : Halt} (hclean : h.Clean) :
    h.verdict =
      if h.outlook.operand then .error (.operand h.rest)
      else if 0 < h.outlook.opened then .error (.closing h.rest)
      else .ok h.rest := by
  have hnone : h.consumed.find? Token.isBad = none := by
    rw [List.find?_eq_none]
    intro t ht
    simp [hclean t ht]
  rw [Halt.verdict, hnone]

/-- Parsing goes well if the scan meets nothing bad and ends where an expression may. -/
theorem parse_of_complete {ts : List Token} (hclean : (Outlook.start.scan ts).Clean)
    (hcomplete : (Outlook.start.scan ts).Complete) : ∃ e, Expr.parse ts = .ok e := by
  obtain ⟨hrest, hoperand, hopened⟩ := hcomplete
  have hparse := parse_eq_verdict ts
  have hverdict : (Outlook.start.scan ts).verdict = .ok [] := by
    rw [verdict_of_clean hclean, hoperand, hopened, hrest]
    rfl
  rwa [hverdict] at hparse

/-- A scan without a bad token that ends elsewhere is where the parser fails, and why. -/
theorem parse_of_incomplete {ts : List Token} (hclean : (Outlook.start.scan ts).Clean)
    (hincomplete : ¬ (Outlook.start.scan ts).Complete) :
    ∃ e, Expr.parse ts = .error e ∧ e.pos? = some (Outlook.start.scan ts).consumed.length ∧
      e.message = (Outlook.start.scan ts).message := by
  have hparse := parse_eq_verdict ts
  have hsplit := congrArg List.length (Outlook.scan_append Outlook.start ts)
  rw [List.length_append] at hsplit
  have hpos : ts.length - (Outlook.start.scan ts).rest.length =
      (Outlook.start.scan ts).consumed.length := by omega
  rw [verdict_of_clean hclean] at hparse
  -- the three reasons in the order in which the parser sees them
  by_cases hoperand : (Outlook.start.scan ts).outlook.operand = true
  · rw [if_pos hoperand] at hparse
    refine ⟨_, hparse, congrArg some hpos, ?_⟩
    rw [Halt.message, if_pos hoperand]
    rfl
  · rw [if_neg hoperand] at hparse
    by_cases hopened : 0 < (Outlook.start.scan ts).outlook.opened
    · rw [if_pos hopened] at hparse
      refine ⟨_, hparse, congrArg some hpos, ?_⟩
      rw [Halt.message, if_neg hoperand, if_pos hopened]
      rfl
    · rw [if_neg hopened] at hparse
      -- nothing is missing, so what makes the scan incomplete is a token left over
      have hleft : (Outlook.start.scan ts).rest ≠ [] := fun hrest =>
        hincomplete ⟨hrest, by simpa using hoperand, by omega⟩
      obtain ⟨t, rest, hrest⟩ := List.exists_cons_of_ne_nil hleft
      rw [hrest] at hparse hpos
      refine ⟨_, hparse, congrArg some hpos, ?_⟩
      rw [Halt.message, if_neg hoperand, if_neg hopened]
      rfl

/-- Without bad numbers, whatever the parser refuses it refuses at a place. -/
theorem pos?_of_parse {ts : List Token} {e : ParseError} (hts : ∀ t ∈ ts, t.isBad = false)
    (h : Expr.parse ts = .error e) : ∃ pos, e.pos? = some pos := by
  have hclean : (Outlook.start.scan ts).Clean := fun t ht =>
    hts t (Outlook.scan_append Outlook.start ts ▸ List.mem_append_left _ ht)
  by_cases hcomplete : (Outlook.start.scan ts).Complete
  · obtain ⟨tree, htree⟩ := parse_of_complete hclean hcomplete
    rw [htree] at h
    cases h
  · obtain ⟨e', he', hpos, -⟩ := parse_of_incomplete hclean hcomplete
    rw [he'] at h
    cases h
    exact ⟨_, hpos⟩

/-- In `(1 2`, the second number is where the closing parenthesis is missed. -/
example :
    let h := Outlook.start.scan [.ofKind .leftParen, .ofNumber 1, .ofNumber 2]
    h.Clean ∧ h.consumed.length = 2 ∧ h.outlook = ⟨false, 1⟩ := by
  decide

end LineCalc
