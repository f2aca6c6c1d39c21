import Mathlib
import LineCalc.Proofs.Canonical
import LineCalc.Proofs.Recursion

/-!
# What a rule reads, seen from a cursor

A rule takes tokens from the front of a list and leaves the others over. Here the list stays
as it is and a cursor moves over it: `Rule.runAt` starts a rule at a cursor and says where the
cursor stands afterwards, or where the error is. Three things are seen in this way.

A rule that succeeds has read the tokens of its tree and has looked at no other, except that
the one behind them must not be an operator for which its loops go on. So it does the same on
any list that looks the same at these places (`runAt_congr`). An error stands no further back
than the start and no further on than the end (`place_of_runAt_error`).

What a rule comes to is put together from what the rules come to that it calls, and a loop that
goes on counts as a call (`Rule.body`, `runAt_eq_body`). No call moves the cursor back, and one
`factor` inside another stands behind it (`lt_of_calls_factor`). So there is no endless chain
of calls, and the equations between the rules leave nothing open (`eq_runAt_of_body`).
-/

namespace LineCalc

namespace Grammar

/-! ## What a rule leaves over -/

theorem tail_suffix {t : Token} {ts rest : List Token} (h : rest <:+ ts) : rest <:+ t :: ts :=
  h.trans (List.suffix_cons t ts)

/-- A rule ends, well or not, in front of tokens that it was given. -/
theorem suffix_of_reads {rule : Rule} {ts : List Token} {out : Outcome} (h : Reads rule ts out) :
    ∀ {rest : List Token}, unread? out = some rest → rest <:+ ts := by
  induction h with
  | chain_refused _ ih => intro rest hrest; exact ih hrest
  | chain _ _ ihFirst ihTail => intro rest hrest; exact (ihTail hrest).trans (ihFirst rfl)
  | tail_stop _ => intro rest hrest; cases hrest; exact List.suffix_rfl
  | tail_refused _ _ ih => intro rest hrest; exact tail_suffix (ih hrest)
  | tail _ _ _ ihRight ihTail =>
      intro rest hrest
      exact tail_suffix ((ihTail hrest).trans (ihRight rfl))
  | missing => intro rest hrest; cases hrest; exact List.suffix_rfl
  | stray _ => intro rest hrest; cases hrest; exact List.suffix_rfl
  | number _ _ => intro rest hrest; cases hrest; exact List.suffix_cons _ _
  | number_refused _ hl =>
      intro rest hrest
      rw [unread?_of_literal hl] at hrest
      cases hrest
  | negate _ _ ih => intro rest hrest; exact tail_suffix (ih hrest)
  | negate_refused _ _ ih => intro rest hrest; exact tail_suffix (ih hrest)
  | paren _ _ _ ih =>
      intro rest hrest
      cases hrest
      exact tail_suffix ((List.suffix_cons _ _).trans (ih rfl))
  | paren_refused _ _ ih => intro rest hrest; exact tail_suffix (ih hrest)
  | unclosed _ _ _ ih => intro rest hrest; cases hrest; exact tail_suffix (ih rfl)

/-! ## Cursors -/

/-- An outcome with the cursor in place of the tokens left over. -/
def locate (ts : List Token) : Outcome → Except ParseError (Expr × Nat)
  | .ok (e, rest) => .ok (e, ts.length - rest.length)
  | .error r => .error (r.locate ts.length)

/-- What a rule comes to that is started at a cursor. -/
def Rule.runAt (rule : Rule) (ts : List Token) (p : Nat) : Except ParseError (Expr × Nat) :=
  locate ts (rule.read (ts.drop p))

variable {rule : Rule} {l : Level} {ts ts' rest : List Token} {p q : Nat} {e : Expr}

/-- The tokens that are left over are those from the cursor on. -/
theorem drop_of_suffix (hp : p ≤ ts.length) (h : rest <:+ ts.drop p) :
    p ≤ ts.length - rest.length ∧ ts.drop (ts.length - rest.length) = rest := by
  have hlength := h.length_le
  rw [List.length_drop] at hlength
  have hsuffix : rest <:+ ts := h.trans (List.drop_suffix p ts)
  exact ⟨by omega, (List.suffix_iff_eq_drop.mp hsuffix).symm⟩

theorem runAt_of_read (hp : p ≤ ts.length) (h : rule.read (ts.drop p) = .ok (e, rest)) :
    rule.runAt ts p = .ok (e, ts.length - rest.length) ∧
      ts.drop (ts.length - rest.length) = rest ∧ p ≤ ts.length - rest.length := by
  have hsuffix : rest <:+ ts.drop p := suffix_of_reads (reads_iff.mpr h) rfl
  obtain ⟨hle, hdrop⟩ := drop_of_suffix hp hsuffix
  exact ⟨by rw [Rule.runAt, h, locate], hdrop, hle⟩

/-- An error of the grammar stands between the start and the end. -/
theorem place_of_runAt_error {err : ParseError} {pos : Nat} (hp : p ≤ ts.length)
    (h : rule.runAt ts p = .error err) (hpos : err.pos? = some pos) :
    p ≤ pos ∧ pos ≤ ts.length := by
  cases hread : rule.read (ts.drop p) with
  | ok out =>
      rw [Rule.runAt, hread] at h
      cases h
  | error r =>
      rw [Rule.runAt, hread] at h
      cases h
      have hsuffix {rest : List Token} (hrest : unread? (.error r) = some rest) :
          rest <:+ ts.drop p := suffix_of_reads (reads_iff.mpr hread) hrest
      cases r with
      | operand rest =>
          cases hpos
          exact ⟨(drop_of_suffix hp (hsuffix rfl)).1, Nat.sub_le _ _⟩
      | closing rest =>
          cases hpos
          exact ⟨(drop_of_suffix hp (hsuffix rfl)).1, Nat.sub_le _ _⟩
      | valueless => cases hpos
      | invalid cause => cases hpos

/-! ## What a rule looks at -/

theorem seed_of_awaits (h : rule.awaits = true) : rule.seed = [] ∧ rule.Ready := by
  cases rule with
  | tail l left => cases h
  | chain l => exact ⟨rfl, trivial⟩
  | factor => exact ⟨rfl, trivial⟩

theorem tokens_ne_nil (e : Expr) : e.tokens ≠ [] := by
  cases e <;> simp [Expr.tokens]

/-- A rule reads its trees back, if no operator follows that its loops would go on with. -/
theorem reads_of_builds {used : List Token} (hrule : rule.awaits = true) (he : rule.Builds e)
    (hspell : e.SpelledBy used) (hends : rule.EndsAt rest) :
    Reads rule (used ++ rest) (.ok (e, rest)) := by
  cases rule with
  | tail l left => cases hrule
  | factor => exact (readBack_of_canonical he.1 hspell rest).factor he.2
  | chain l =>
      cases l with
      | product =>
          exact (readBack_of_canonical he.1 hspell rest).product he.2 (.tail_stop hends)
      | sum =>
          exact (readBack_of_canonical he hspell rest).sum hends.1 (.tail_stop hends.2)

/-- A rule that succeeds has read the tokens of a tree of its shape. -/
theorem spelled_of_runAt (hrule : rule.awaits = true) (h : rule.runAt ts p = .ok (e, q)) :
    rule.Builds e ∧ e.SpelledBy ((ts.drop p).take (q - p)) ∧ p < q ∧ q ≤ ts.length := by
  obtain ⟨hseed, hready⟩ := seed_of_awaits hrule
  cases hread : rule.read (ts.drop p) with
  | error r =>
      rw [Rule.runAt, hread] at h
      cases h
  | ok out =>
      obtain ⟨e', rest⟩ := out
      obtain ⟨hbuilds, used, hused, hspell⟩ := reads_sound (reads_iff.mpr hread) rfl hready
      rw [hseed, List.nil_append] at hspell
      have hne : used ≠ [] := by
        rintro rfl
        exact tokens_ne_nil e' (List.map_eq_nil_iff.mp hspell)
      have hpos := List.length_pos_iff.mpr hne
      have hlength := congrArg List.length hused
      rw [List.length_append, List.length_drop] at hlength
      rw [Rule.runAt, hread] at h
      cases h
      have htake : (ts.drop p).take (ts.length - rest.length - p) = used := by
        rw [hused, List.take_left' (by omega)]
      exact ⟨hbuilds, htake ▸ hspell, by omega, Nat.sub_le _ _⟩

/-- Whether the grammar sees the same in two lists from one place up to another. -/
def SameBetween (p q : Nat) (ts ts' : List Token) : Prop :=
  ∀ i, p ≤ i → i < q → ts'[i]?.map Token.sense = ts[i]?.map Token.sense

theorem SameBetween.take_drop (h : SameBetween p q ts ts') :
    ((ts'.drop p).take (q - p)).map Token.sense = ((ts.drop p).take (q - p)).map Token.sense := by
  refine List.ext_getElem? fun i => ?_
  rw [List.getElem?_map, List.getElem?_map]
  by_cases hi : i < q - p
  · rw [List.getElem?_take_of_lt hi, List.getElem?_take_of_lt hi, List.getElem?_drop,
      List.getElem?_drop]
    exact h (p + i) (Nat.le_add_right p i) (by omega)
  · have hle := Nat.not_lt.mp hi
    rw [List.getElem?_take_eq_none hle, List.getElem?_take_eq_none hle]

/-- **A rule looks at what it reads, and at one token behind it.** -/
theorem runAt_congr (hrule : rule.awaits = true) (h : rule.runAt ts p = .ok (e, q))
    (hsame : SameBetween p q ts ts') (hends : rule.EndsAt (ts'.drop q)) :
    rule.runAt ts' p = .ok (e, q) := by
  obtain ⟨hbuilds, hspell, hlt, hq⟩ := spelled_of_runAt hrule h
  have hspell' : e.SpelledBy ((ts'.drop p).take (q - p)) := by
    rw [Expr.SpelledBy, hsame.take_drop]
    exact hspell
  -- the other list reaches as far, since it has a token at the last place that was read
  have hlength := congrArg List.length hsame.take_drop
  simp only [List.length_map, List.length_take, List.length_drop] at hlength
  have hsplit : (ts'.drop p).take (q - p) ++ ts'.drop q = ts'.drop p := by
    conv_rhs => rw [← List.take_append_drop (q - p) (ts'.drop p)]
    rw [List.drop_drop, Nat.add_sub_cancel' hlt.le]
  have hread := read_of_reads (reads_of_builds hrule hbuilds hspell' hends)
  rw [hsplit] at hread
  rw [(runAt_of_read (by omega) hread).1, List.length_drop]
  congr 2
  omega

/-! ## What a rule calls -/

/-- What becomes of an expression behind an opening parenthesis, at a cursor. -/
def closeAt (ts : List Token) (inner : Expr) (q : Nat) : Except ParseError (Expr × Nat) :=
  match ts[q]? with
  | none => .error (.expectedClosing q none)
  | some c =>
    if c.kind = .rightParen then .ok (.paren inner, q + 1)
    else .error (.expectedClosing q (some c))

/-- What a rule comes to at a cursor, if `run` is what the rules come to that it calls. -/
def Rule.body (ts : List Token) (run : Rule → Nat → Except ParseError (Expr × Nat)) :
    Rule → Nat → Except ParseError (Expr × Nat)
  | chain l, p => (run l.operand p).bind fun first => run (tail l first.1) first.2
  | tail l left, p =>
    match ts[p]? with
    | none => .ok (left, p)
    | some t =>
      match l.operator? t.kind with
      | none => .ok (left, p)
      | some op =>
        (run l.operand (p + 1)).bind fun right => run (tail l (.binary op left right.1)) right.2
  | factor, p =>
    match ts[p]? with
    | none => .error (.expectedOperand p none)
    | some t =>
      match t.kind with
      | .number =>
        match literal t with
        | .error r => .error (r.locate ts.length)
        | .ok e => .ok (e, p + 1)
      | .minus => (run factor (p + 1)).map fun operand => (.negate operand.1, operand.2)
      | .leftParen => (run (chain .sum) (p + 1)).bind fun inner => closeAt ts inner.1 inner.2
      | _ => .error (.expectedOperand p (some t))

theorem drop_eq_cons_of_getElem? {t : Token} (h : ts[p]? = some t) :
    ts.drop p = t :: ts.drop (p + 1) ∧ p < ts.length := by
  obtain ⟨hlt, rfl⟩ := List.getElem?_eq_some_iff.mp h
  exact ⟨List.drop_eq_getElem_cons hlt, hlt⟩

theorem drop_eq_nil_of_getElem? (h : ts[p]? = none) : ts.drop p = [] :=
  List.drop_eq_nil_of_le (List.getElem?_eq_none_iff.mp h)

/-- One rule and then another, on a list and at a cursor. -/
theorem locate_bind (hp : p ≤ ts.length) (f : Expr × List Token → Outcome)
    (g : Expr × Nat → Except ParseError (Expr × Nat))
    (h : ∀ e q, q ≤ ts.length → locate ts (f (e, ts.drop q)) = g (e, q)) :
    locate ts ((rule.read (ts.drop p)).bind f) = (rule.runAt ts p).bind g := by
  cases hread : rule.read (ts.drop p) with
  | error r =>
      rw [Rule.runAt, hread]
      rfl
  | ok out =>
      obtain ⟨e, rest⟩ := out
      obtain ⟨hrun, hdrop, -⟩ := runAt_of_read hp hread
      rw [hrun]
      have hfirst := h e (ts.length - rest.length) (Nat.sub_le _ _)
      rwa [hdrop] at hfirst

theorem locate_close (inner : Expr) {q : Nat} (hq : q ≤ ts.length) :
    locate ts (close inner (ts.drop q)) = closeAt ts inner q := by
  rw [closeAt]
  cases hc : ts[q]? with
  | none =>
      have hend : q = ts.length := le_antisymm hq (List.getElem?_eq_none_iff.mp hc)
      rw [drop_eq_nil_of_getElem? hc, hend]
      rfl
  | some c =>
      obtain ⟨hdrop, hlt⟩ := drop_eq_cons_of_getElem? hc
      have hlength : (ts.drop (q + 1)).length = ts.length - (q + 1) := List.length_drop
      have hnext : ts.length - (ts.length - (q + 1)) = q + 1 := Nat.sub_sub_self hlt
      have hplace : ts.length - (ts.length - (q + 1) + 1) = q := by omega
      rw [hdrop, close]
      by_cases hk : c.kind = .rightParen
      · simp only [hk, if_true, locate, hlength, hnext]
      · simp only [hk, if_false, locate, Refusal.locate, List.length_cons, List.head?_cons, hlength,
          hplace]

/-- **A rule is put together from the rules that it calls.** -/
theorem runAt_eq_body (rule : Rule) (hp : p ≤ ts.length) :
    rule.runAt ts p = rule.body ts (fun called q => called.runAt ts q) p := by
  cases rule with
  | chain l =>
      rw [Rule.runAt, read_chain, Rule.body]
      exact locate_bind hp _ _ fun _ _ _ => rfl
  | tail l left =>
      rw [Rule.runAt, Rule.body]
      cases ht : ts[p]? with
      | none =>
          have hend : p = ts.length := le_antisymm hp (List.getElem?_eq_none_iff.mp ht)
          rw [drop_eq_nil_of_getElem? ht, read_tail_nil, hend]
          rfl
      | some t =>
          obtain ⟨hdrop, hlt⟩ := drop_eq_cons_of_getElem? ht
          rw [hdrop]
          cases hop : l.operator? t.kind with
          | none =>
              rw [read_tail_stop left _ hop, locate, ← hdrop, List.length_drop, Nat.sub_sub_self hp]
              simp only [hop]
          | some op =>
              rw [read_tail left _ hop]
              simp only [hop]
              exact locate_bind hlt _ _ fun _ _ _ => rfl
  | factor =>
      rw [Rule.runAt, Rule.body]
      cases ht : ts[p]? with
      | none =>
          have hend : p = ts.length := le_antisymm hp (List.getElem?_eq_none_iff.mp ht)
          rw [drop_eq_nil_of_getElem? ht, read_factor_nil, hend]
          rfl
      | some t =>
          obtain ⟨hdrop, hlt⟩ := drop_eq_cons_of_getElem? ht
          have hplace : ts.length - (ts.drop (p + 1)).length = p + 1 := by
            rw [List.length_drop]
            omega
          have hstray (h : startsOperand t.kind = false) :
              locate ts (Rule.factor.read (t :: ts.drop (p + 1))) =
                .error (.expectedOperand p (some t)) := by
            rw [read_factor_stray _ h, locate, Refusal.locate, ← hdrop, List.length_drop,
              Nat.sub_sub_self hp, hdrop]
            rfl
          rw [hdrop]
          cases hk : t.kind with
          | number =>
              rw [read_factor_number _ hk]
              simp only [hk]
              cases literal t with
              | error r => rfl
              | ok e => simp only [Except.map, locate, hplace]
          | minus =>
              rw [read_factor_minus _ hk]
              simp only [hk]
              exact locate_bind hlt _ _ fun e q hq => by
                simp only [locate, List.length_drop, Nat.sub_sub_self hq]
          | leftParen =>
              rw [read_factor_paren _ hk]
              simp only [hk]
              exact locate_bind hlt _ _ fun e q hq => locate_close e hq
          | plus | star | slash | rightParen =>
              simp only [hk]
              exact hstray (by rw [hk]; rfl)

/-! ## Chains of calls -/

/-- A rule that was started at a cursor. -/
structure Activation where
  rule : Rule
  cursor : Nat

/-- Which rules a rule calls that was started at a cursor. A loop that goes on is a call too. -/
inductive Calls (ts : List Token) : Activation → Activation → Prop where
  | operand {l : Level} {p : Nat} : Calls ts ⟨.chain l, p⟩ ⟨l.operand, p⟩
  | loop {l : Level} {p q : Nat} {first : Expr} :
      l.operand.runAt ts p = .ok (first, q) → Calls ts ⟨.chain l, p⟩ ⟨.tail l first, q⟩
  | right {l : Level} {p : Nat} {t : Token} {op : BinaryOp} {left : Expr} :
      ts[p]? = some t → l.operator? t.kind = some op →
      Calls ts ⟨.tail l left, p⟩ ⟨l.operand, p + 1⟩
  | again {l : Level} {p q : Nat} {t : Token} {op : BinaryOp} {left right : Expr} :
      ts[p]? = some t → l.operator? t.kind = some op →
      l.operand.runAt ts (p + 1) = .ok (right, q) →
      Calls ts ⟨.tail l left, p⟩ ⟨.tail l (.binary op left right), q⟩
  | negated {p : Nat} {t : Token} :
      ts[p]? = some t → t.kind = .minus → Calls ts ⟨.factor, p⟩ ⟨.factor, p + 1⟩
  | inner {p : Nat} {t : Token} :
      ts[p]? = some t → t.kind = .leftParen → Calls ts ⟨.factor, p⟩ ⟨.chain .sum, p + 1⟩

variable {a b : Activation}

/--
**A call never moves the cursor back.** It moves on, except for the first operand of a chain,
and there the rule that is called stands below the one that calls it.
-/
theorem Calls.progress (h : Calls ts a b) :
    (a.cursor < b.cursor ∧ b.cursor ≤ ts.length) ∨
      a.cursor = b.cursor ∧ b.rule.height < a.rule.height ∧ a.rule ≠ .factor := by
  cases h with
  | operand => exact .inr ⟨rfl, height_operand_lt _, by simp⟩
  | @loop l p q first hfirst =>
      obtain ⟨-, -, hlt, hle⟩ := spelled_of_runAt (awaits_operand l) hfirst
      exact .inl ⟨hlt, hle⟩
  | right ht _ => exact .inl ⟨Nat.lt_succ_self _, (drop_eq_cons_of_getElem? ht).2⟩
  | @again l p q t op left right _ _ hright =>
      obtain ⟨-, -, hlt, hle⟩ := spelled_of_runAt (awaits_operand l) hright
      exact .inl ⟨Nat.lt_of_succ_lt hlt, hle⟩
  | negated ht _ => exact .inl ⟨Nat.lt_succ_self _, (drop_eq_cons_of_getElem? ht).2⟩
  | inner ht _ => exact .inl ⟨Nat.lt_succ_self _, (drop_eq_cons_of_getElem? ht).2⟩

/-- **No chain of calls is endless**: the tokens that are left get fewer, or the rules lower. -/
theorem wellFounded_calls (ts : List Token) : WellFounded fun b a => Calls ts a b := by
  refine Subrelation.wf (r := InvImage (Prod.Lex (· < ·) (· < ·))
    fun a : Activation => (ts.length - a.cursor, a.rule.height)) (fun {b a} h => ?_)
    (InvImage.wf _ (WellFounded.prod_lex Nat.lt_wfRel.wf Nat.lt_wfRel.wf))
  rcases h.progress with ⟨hlt, hle⟩ | ⟨hsame, hheight, -⟩
  · exact Prod.Lex.left _ _ (by omega)
  · rw [InvImage, hsame]
    exact Prod.Lex.right _ hheight

/-- **Every `factor` inside another one stands behind it.** -/
theorem lt_of_calls_factor (h : Relation.TransGen (Calls ts) ⟨.factor, p⟩ b) :
    p < b.cursor ∧ b.cursor ≤ ts.length := by
  induction h with
  | single h =>
      rcases h.progress with hlt | ⟨-, -, hne⟩
      · exact hlt
      · exact absurd rfl hne
  | tail _ h ih =>
      rcases h.progress with ⟨hlt, hle⟩ | ⟨hsame, -, -⟩
      · exact ⟨ih.1.trans hlt, hle⟩
      · exact hsame ▸ ih

/-- A rule asks for nothing but its calls. -/
theorem body_congr {run : Rule → Nat → Except ParseError (Expr × Nat)}
    (h : ∀ b, Calls ts ⟨rule, p⟩ b → run b.rule b.cursor = b.rule.runAt ts b.cursor) :
    rule.body ts run p = rule.body ts (fun called q => called.runAt ts q) p := by
  cases rule with
  | chain l =>
      have hoperand : run l.operand p = l.operand.runAt ts p := h _ .operand
      rw [Rule.body, Rule.body, hoperand]
      cases hfirst : l.operand.runAt ts p with
      | error err => rfl
      | ok first => exact h _ (.loop hfirst)
  | tail l left =>
      rw [Rule.body, Rule.body]
      cases ht : ts[p]? with
      | none => rfl
      | some t =>
          cases hop : l.operator? t.kind with
          | none => simp only [hop]
          | some op =>
              simp only [hop]
              have hoperand : run l.operand (p + 1) = l.operand.runAt ts (p + 1) :=
                h _ (.right ht hop)
              rw [hoperand]
              cases hright : l.operand.runAt ts (p + 1) with
              | error err => rfl
              | ok right => exact h _ (.again ht hop hright)
  | factor =>
      rw [Rule.body, Rule.body]
      cases ht : ts[p]? with
      | none => rfl
      | some t =>
          cases hk : t.kind with
          | minus =>
              have hoperand : run .factor (p + 1) = Rule.factor.runAt ts (p + 1) :=
                h _ (.negated ht hk)
              simp only [hk, hoperand]
          | leftParen =>
              have hinner : run (.chain .sum) (p + 1) = (Rule.chain .sum).runAt ts (p + 1) :=
                h _ (.inner ht hk)
              simp only [hk, hinner]
          | plus | star | slash | rightParen | number => simp only [hk]

/-- **The equations between the rules have one solution**, which is what the rules come to. -/
theorem eq_runAt_of_body {run : Rule → Nat → Except ParseError (Expr × Nat)}
    (h : ∀ rule p, p ≤ ts.length → run rule p = rule.body ts run p) (rule : Rule)
    (hp : p ≤ ts.length) : run rule p = rule.runAt ts p := by
  have hall : ∀ a : Activation, a.cursor ≤ ts.length →
      run a.rule a.cursor = a.rule.runAt ts a.cursor := by
    intro a
    induction a using (wellFounded_calls ts).induction with
    | h a ih =>
        intro ha
        rw [h a.rule a.cursor ha, runAt_eq_body a.rule ha]
        refine body_congr fun b hb => ih b hb ?_
        rcases hb.progress with ⟨-, hle⟩ | ⟨hsame, -, -⟩
        · exact hle
        · exact hsame ▸ ha
  exact hall ⟨rule, p⟩ hp

end Grammar

open Grammar

/-- A list is parsed by the rule for sums, started at its front. -/
theorem parse_eq_runAt (ts : List Token) :
    Expr.parse ts =
      (Rule.chain .sum).runAt ts 0 >>= fun out =>
        if out.2 = ts.length then .ok out.1 else .error (.leftover out.2) := by
  rw [parse_eq_read, Rule.runAt, List.drop_zero]
  cases hread : (Rule.chain .sum).read ts with
  | error r => rfl
  | ok out =>
      obtain ⟨e, rest⟩ := out
      have hsuffix : rest <:+ ts := suffix_of_reads (reads_iff.mpr hread) rfl
      have hle := hsuffix.length_le
      cases rest with
      | nil => simp [locate, bind, Except.bind]
      | cons t rest =>
          have hmore : ts.length - (t :: rest).length ≠ ts.length := by
            rw [List.length_cons] at hle ⊢
            omega
          simp only [locate, bind, Except.bind, if_neg hmore]

/--
**Every rule makes progress and looks one token ahead.** A sum, a product or a factor that is
read from a cursor uses up at least one token and stays within the list; it has read the tokens
of its tree, and it reads the same tree up to the same place in any list that looks the same
there, unless an operator follows with which its own loop or a loop inside it goes on. An error
stands neither before the start nor behind the end. Every `factor` inside another is started
further on. So no chain of calls is endless, and what the rules say of each other determines
what they come to on every list. The parser is the rule for sums, started at the front.
-/
theorem rules_progress (ts : List Token) :
    (∀ rule ∈ [Rule.chain .sum, Rule.chain .product, Rule.factor], ∀ p ≤ ts.length,
      (∀ e q, rule.runAt ts p = .ok (e, q) →
        p < q ∧ q ≤ ts.length ∧ e.SpelledBy ((ts.drop p).take (q - p)) ∧
        ∀ ts', SameBetween p q ts ts' → rule.EndsAt (ts'.drop q) →
          rule.runAt ts' p = .ok (e, q)) ∧
      ∀ err pos, rule.runAt ts p = .error err → err.pos? = some pos →
        p ≤ pos ∧ pos ≤ ts.length) ∧
    (∀ p b, Relation.TransGen (Calls ts) ⟨.factor, p⟩ b → b.rule = .factor →
      p < b.cursor ∧ b.cursor ≤ ts.length) ∧
    (WellFounded fun b a => Calls ts a b) ∧
    (∀ (rule : Rule), ∀ p ≤ ts.length,
      rule.runAt ts p = rule.body ts (fun called q => called.runAt ts q) p) ∧
    (∀ run : Rule → Nat → Except ParseError (Expr × Nat),
      (∀ (rule : Rule), ∀ p ≤ ts.length, run rule p = rule.body ts run p) →
      ∀ (rule : Rule), ∀ p ≤ ts.length, run rule p = rule.runAt ts p) ∧
    Expr.parse ts =
      (Rule.chain .sum).runAt ts 0 >>= fun out =>
        if out.2 = ts.length then .ok out.1 else .error (.leftover out.2) := by
  refine ⟨fun rule hrule p hp => ⟨fun e q h => ?_, fun err pos => place_of_runAt_error hp⟩,
    fun p b h _ => lt_of_calls_factor h, wellFounded_calls ts,
    fun rule p hp => runAt_eq_body rule hp, fun run h rule p hp => eq_runAt_of_body h rule hp,
    parse_eq_runAt ts⟩
  have hawaits : rule.awaits = true := by
    fin_cases hrule <;> rfl
  obtain ⟨-, hspell, hlt, hle⟩ := spelled_of_runAt hawaits h
  exact ⟨hlt, hle, hspell, fun ts' => runAt_congr hawaits h⟩

/-- A product ends in front of a plus, and in front of a star it goes on. -/
example :
    let ts (k : TokenKind) : List Token := [.ofNumber 2, .ofKind k, .ofNumber 3]
    ((Rule.chain .product).runAt (ts .plus) 0).map Prod.snd = .ok 1 ∧
      ((Rule.chain .product).runAt (ts .star) 0).map Prod.snd = .ok 3 := by
  cbv

end LineCalc
