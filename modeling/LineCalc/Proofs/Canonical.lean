import LineCalc.Proofs.Derivation

/-!
# The grammar has one tree for each list it accepts

`Expr.tokens` writes a tree out as tokens, node by node, adding nothing. Many trees
have the same tokens, because a tree may ignore how tightly its operators bind. The
`Canonical` ones do not: under a unary minus there is no operator, on the right of an
operator there is none that binds as loosely or looser, and on the left of a product
there is no sum.

The parser accepts exactly the lists that are the tokens of a canonical tree, and
returns that tree. Both directions go through `Reads`. Soundness is an induction over
the derivation, where a loop carries the tree on its left. Completeness is an
induction over the tree, where the derivation of the left operand is continued by the
loop that reads the rest.
-/

namespace LineCalc

/-- What the grammar sees of a token: its kind, and the value if it is a number. -/
def Token.sense (t : Token) : TokenKind × Option Int :=
  (t.kind, if t.kind = .number then t.value else none)

namespace Expr

/-- The tokens of a tree from left to right. -/
def tokens : Expr → List Token
  | number v => [.ofNumber v]
  | negate e => .ofKind .minus :: e.tokens
  | paren e => .ofKind .leftParen :: (e.tokens ++ [.ofKind .rightParen])
  | binary op l r => l.tokens ++ .ofKind op.kind :: r.tokens

/-- Whether a token list is the tokens of a tree, as far as the grammar can see. -/
def SpelledBy (e : Expr) (ts : List Token) : Prop := e.tokens.map Token.sense = ts.map Token.sense

/-- Whether a tree has an operator with two operands at its top. -/
def isBinary : Expr → Bool
  | binary .. => true
  | _ => false

def isSum : Expr → Bool
  | binary .add .. | binary .sub .. => true
  | _ => false

/--
A tree that says by its shape how its tokens group: operators of one level to the
left, products before sums, and a unary minus before either.
-/
def Canonical : Expr → Prop
  | number _ => True
  | negate e => e.isBinary = false ∧ e.Canonical
  | paren e => e.Canonical
  | binary op l r =>
    l.Canonical ∧ r.Canonical ∧
      match op with
      | .add | .sub => r.isSum = false
      | .mul | .div => l.isSum = false ∧ r.isBinary = false

instance decidableCanonical : (e : Expr) → Decidable e.Canonical
  | number _ => isTrue trivial
  | negate e =>
    have := decidableCanonical e
    inferInstanceAs (Decidable (e.isBinary = false ∧ e.Canonical))
  | paren e => decidableCanonical e
  | binary op l r =>
    have := decidableCanonical l
    have := decidableCanonical r
    match op with
    | .add | .sub => inferInstanceAs (Decidable (l.Canonical ∧ r.Canonical ∧ r.isSum = false))
    | .mul | .div => inferInstanceAs
        (Decidable (l.Canonical ∧ r.Canonical ∧ l.isSum = false ∧ r.isBinary = false))

end Expr

/-! ## Lists that spell a tree -/

theorem sense_eq_ofKind {t : Token} {k : TokenKind} (hk : k ≠ .number) :
    (Token.ofKind k).sense = t.sense ↔ t.kind = k := by
  constructor
  · intro h
    exact (congrArg Prod.fst h).symm
  · intro h
    simp [Token.sense, Token.ofKind, h, hk]

theorem sense_eq_ofNumber {t : Token} {v : UInt64} :
    (Token.ofNumber v).sense = t.sense ↔ t.kind = .number ∧ t.value = some (v.toNat : Int) := by
  constructor
  · intro h
    have hk : t.kind = .number := (congrArg Prod.fst h).symm
    have hv := congrArg Prod.snd h
    simp only [Token.sense, Token.ofNumber, hk, if_true] at hv
    exact ⟨hk, hv.symm⟩
  · rintro ⟨hk, hv⟩
    simp [Token.sense, Token.ofNumber, hk, hv]

theorem spelledBy_number {v : UInt64} {ts : List Token} :
    (Expr.number v).SpelledBy ts ↔
      ∃ t, ts = [t] ∧ t.kind = .number ∧ t.value = some (v.toNat : Int) := by
  unfold Expr.SpelledBy
  constructor
  · intro h
    obtain ⟨t, rfl, ht⟩ := List.map_eq_singleton_iff.mp h.symm
    exact ⟨t, rfl, sense_eq_ofNumber.mp ht.symm⟩
  · rintro ⟨t, rfl, ht⟩
    simp [Expr.tokens, sense_eq_ofNumber.mpr ht]

theorem spelledBy_negate {e : Expr} {ts : List Token} :
    (Expr.negate e).SpelledBy ts ↔
      ∃ t rest, ts = t :: rest ∧ t.kind = .minus ∧ e.SpelledBy rest := by
  unfold Expr.SpelledBy
  constructor
  · intro h
    obtain ⟨t, rest, rfl, ht, hrest⟩ := List.map_eq_cons_iff.mp h.symm
    exact ⟨t, rest, rfl, (sense_eq_ofKind (by decide)).mp ht.symm, hrest.symm⟩
  · rintro ⟨t, rest, rfl, ht, hrest⟩
    simp [Expr.tokens, (sense_eq_ofKind (by decide)).mpr ht, hrest]

theorem spelledBy_paren {e : Expr} {ts : List Token} :
    (Expr.paren e).SpelledBy ts ↔
      ∃ t mid c, ts = t :: (mid ++ [c]) ∧ t.kind = .leftParen ∧ e.SpelledBy mid ∧
        c.kind = .rightParen := by
  unfold Expr.SpelledBy
  constructor
  · intro h
    obtain ⟨t, rest, rfl, ht, hrest⟩ := List.map_eq_cons_iff.mp h.symm
    rw [List.map_append] at hrest
    obtain ⟨mid, last, rfl, hmid, hlast⟩ := List.map_eq_append_iff.mp hrest
    obtain ⟨c, rfl, hc⟩ := List.map_eq_singleton_iff.mp hlast
    exact ⟨t, mid, c, rfl, (sense_eq_ofKind (by decide)).mp ht.symm, hmid.symm,
      (sense_eq_ofKind (by decide)).mp hc.symm⟩
  · rintro ⟨t, mid, c, rfl, ht, hmid, hc⟩
    simp [Expr.tokens, (sense_eq_ofKind (by decide)).mpr ht,
      (sense_eq_ofKind (by decide)).mpr hc, hmid]

/-- A token of the operator stands between the spellings of the operands. -/
theorem spelledBy_binary {op : BinaryOp} {l r : Expr} {ts : List Token} :
    (Expr.binary op l r).SpelledBy ts ↔
      ∃ left t right, ts = left ++ t :: right ∧ l.SpelledBy left ∧ t.kind = op.kind ∧
        r.SpelledBy right := by
  unfold Expr.SpelledBy
  constructor
  · intro h
    simp only [Expr.tokens, List.map_append] at h
    obtain ⟨left, tail, rfl, hleft, htail⟩ := List.map_eq_append_iff.mp h.symm
    obtain ⟨t, right, rfl, ht, hright⟩ := List.map_eq_cons_iff.mp htail
    exact ⟨left, t, right, rfl, hleft.symm,
      (sense_eq_ofKind (op.kind_ne_number)).mp ht.symm, hright.symm⟩
  · rintro ⟨left, t, right, rfl, hleft, ht, hright⟩
    simp [Expr.tokens, (sense_eq_ofKind (op.kind_ne_number)).mpr ht, hleft, hright]

/-- The tokens of a tree at the front of a list may be exchanged for any that spell it. -/
theorem spelledBy_append {e first : Expr} {used rest : List Token} (hfirst : first.SpelledBy used)
    (h : e.SpelledBy (first.tokens ++ rest)) : e.SpelledBy (used ++ rest) := by
  unfold Expr.SpelledBy at hfirst h ⊢
  rw [h, List.map_append, List.map_append, hfirst]

/-! ## What each rule builds -/

namespace Grammar

/-- The trees that a rule may return. -/
def Rule.Builds : Rule → Expr → Prop
  | chain .sum, e | tail .sum _, e => e.Canonical
  | chain .product, e | tail .product _, e => e.Canonical ∧ e.isSum = false
  | factor, e => e.Canonical ∧ e.isBinary = false

/-- What a rule has to be started with: a loop, with a tree of its own level. -/
def Rule.Ready : Rule → Prop
  | tail l left => (chain l).Builds left
  | _ => True

/-- The tokens that were read before a rule was started and belong to its tree. -/
def Rule.seed : Rule → List Token
  | tail _ left => left.tokens
  | _ => []

theorem builds_tail {l : Level} {left e : Expr} :
    (Rule.tail l left).Builds e ↔ (Rule.chain l).Builds e := by
  cases l <;> rfl

theorem ready_operand (l : Level) : l.operand.Ready := by cases l <;> trivial

theorem seed_operand (l : Level) : l.operand.seed = [] := by cases l <;> rfl

theorem isSum_of_not_isBinary {e : Expr} (h : e.isBinary = false) : e.isSum = false := by
  cases e with
  | binary op l r => cases h
  | _ => rfl

/-- An operand is a chain of one. -/
theorem builds_of_operand {l : Level} {e : Expr} (h : l.operand.Builds e) :
    (Rule.chain l).Builds e := by
  cases l with
  | sum => exact h.1
  | product => exact ⟨h.1, isSum_of_not_isBinary h.2⟩

/-- The loop of a product ends in front of an operator of a sum. -/
theorem product_stopsAt {t : Token} {op : BinaryOp} (h : Level.sum.operator? t.kind = some op)
    (ts : List Token) : Level.product.StopsAt (t :: ts) := by
  intro t' ht'
  obtain rfl : t = t' := Option.some.inj ht'
  rcases operator?_eq_some h with ⟨hk, ⟨-, rfl | rfl⟩ | ⟨hl, -⟩⟩
  · rw [hk]; rfl
  · rw [hk]; rfl
  · cases hl

/-- A chain grows by an operator of its level and an operand. -/
theorem builds_binary {l : Level} {k : TokenKind} {op : BinaryOp} {left right : Expr}
    (hop : l.operator? k = some op) (hleft : (Rule.chain l).Builds left)
    (hright : l.operand.Builds right) : (Rule.chain l).Builds (.binary op left right) := by
  obtain ⟨-, ⟨rfl, rfl | rfl⟩ | ⟨rfl, rfl | rfl⟩⟩ := operator?_eq_some hop
  · exact ⟨hleft, hright.1, hright.2⟩
  · exact ⟨hleft, hright.1, hright.2⟩
  · exact ⟨⟨hleft.1, hright.1, hleft.2, hright.2⟩, rfl⟩
  · exact ⟨⟨hleft.1, hright.1, hleft.2, hright.2⟩, rfl⟩

/--
**Soundness of every rule.** What a rule returns has the shape that is the rule's, and
its tokens are those that were read.
-/
theorem reads_sound {rule : Rule} {ts : List Token} {out : Outcome} (h : Reads rule ts out) :
    ∀ {e : Expr} {rest : List Token}, out = .ok (e, rest) → rule.Ready →
      rule.Builds e ∧ ∃ used, ts = used ++ rest ∧ e.SpelledBy (rule.seed ++ used) := by
  induction h with
  | chain_refused _ _ => intro e rest hout; cases hout
  | @chain l ts mid first out _ _ ihFirst ihTail =>
      intro e rest hout _
      obtain ⟨hfirst, used₁, rfl, hspell₁⟩ := ihFirst rfl (ready_operand l)
      obtain ⟨he, used₂, rfl, hspell₂⟩ := ihTail hout (builds_of_operand hfirst)
      refine ⟨builds_tail.mp he, used₁ ++ used₂, (List.append_assoc ..).symm, ?_⟩
      rw [seed_operand, List.nil_append] at hspell₁
      have hspell : e.SpelledBy (used₁ ++ used₂) := spelledBy_append hspell₁ hspell₂
      simpa [Rule.seed] using hspell
  | tail_stop _ =>
      intro e rest hout hready
      cases hout
      exact ⟨builds_tail.mpr hready, [], rfl, by simp [Expr.SpelledBy, Rule.seed]⟩
  | tail_refused _ _ _ => intro e rest hout; cases hout
  | @tail l t ts mid op left right out hop _ _ ihRight ihTail =>
      intro e rest hout hready
      -- the loop goes on with the larger tree, whose tokens are its seed from here on
      obtain ⟨hright, used₁, rfl, hspell₁⟩ := ihRight rfl (ready_operand l)
      obtain ⟨he, used₂, rfl, hspell₂⟩ := ihTail hout (builds_binary hop hready hright)
      refine ⟨builds_tail.mpr (builds_tail.mp he), t :: (used₁ ++ used₂), by simp, ?_⟩
      rw [seed_operand] at hspell₁
      have hkind := (operator?_eq_some hop).1
      have hbinary : (Expr.binary op left right).SpelledBy (left.tokens ++ t :: used₁) :=
        spelledBy_binary.mpr ⟨left.tokens, t, used₁, rfl, rfl, hkind, hspell₁⟩
      have hspell := spelledBy_append hbinary hspell₂
      simpa [Rule.seed] using hspell
  | missing => intro e rest hout; cases hout
  | stray _ => intro e rest hout; cases hout
  | @number t ts e hk hl =>
      intro e rest hout _
      cases hout
      obtain ⟨v, hv, rfl⟩ := literal_eq_ok_iff.mp hl
      exact ⟨⟨trivial, rfl⟩, [t], rfl, spelledBy_number.mpr ⟨t, rfl, hk, hv⟩⟩
  | number_refused _ _ => intro e rest hout; cases hout
  | @negate t ts rest e hk _ ih =>
      intro e rest hout _
      cases hout
      obtain ⟨hbuilds, used, rfl, hspell⟩ := ih rfl trivial
      exact ⟨⟨⟨hbuilds.2, hbuilds.1⟩, rfl⟩, t :: used, rfl,
        spelledBy_negate.mpr ⟨t, used, rfl, hk, hspell⟩⟩
  | negate_refused _ _ _ => intro e rest hout; cases hout
  | @paren t c ts rest e hk _ hc ih =>
      intro e rest hout _
      cases hout
      obtain ⟨hbuilds, used, rfl, hspell⟩ := ih rfl trivial
      exact ⟨⟨hbuilds, rfl⟩, t :: (used ++ [c]), by simp,
        spelledBy_paren.mpr ⟨t, used, c, rfl, hk, hspell, hc⟩⟩
  | paren_refused _ _ _ => intro e rest hout; cases hout
  | unclosed _ _ _ _ => intro e rest hout; cases hout

/-! ## Every canonical tree is read back -/

/--
The tokens of a tree, whatever follows them, are read as that tree: by a factor, as
the first operand of a product, or as the first operand of a sum.

At the two upper levels the derivation goes on with the loop, so that a left operand
can be followed by its operator.
-/
structure ReadBack (e : Expr) (ts rest : List Token) : Prop where
  factor : e.isBinary = false → Reads .factor (ts ++ rest) (.ok (e, rest))
  product : e.isSum = false → ∀ {out : Outcome}, Reads (.tail .product e) rest out →
    Reads (.chain .product) (ts ++ rest) out
  sum : Level.product.StopsAt rest → ∀ {out : Outcome}, Reads (.tail .sum e) rest out →
    Reads (.chain .sum) (ts ++ rest) out

/-- A sum is never read as a term, so only the chain of sums is to be shown. -/
theorem ReadBack.of_sum {e : Expr} {ts rest : List Token} (hs : e.isSum = true)
    (h : Level.product.StopsAt rest → ∀ {out : Outcome}, Reads (.tail .sum e) rest out →
      Reads (.chain .sum) (ts ++ rest) out) : ReadBack e ts rest where
  factor := fun hf => absurd (isSum_of_not_isBinary hf) (by simp [hs])
  product := fun hf => absurd hf (by simp [hs])
  sum := h

theorem ReadBack.of_product {e : Expr} {ts rest : List Token} (hb : e.isBinary = true)
    (h : ∀ {out : Outcome}, Reads (.tail .product e) rest out →
      Reads (.chain .product) (ts ++ rest) out) : ReadBack e ts rest where
  factor := fun hf => absurd hf (by simp [hb])
  product := fun _ => h
  sum := fun hstop _ htail => .chain (h (.tail_stop hstop)) htail

theorem ReadBack.of_factor {e : Expr} {ts rest : List Token}
    (h : Reads .factor (ts ++ rest) (.ok (e, rest))) : ReadBack e ts rest where
  factor := fun _ => h
  product := fun _ _ htail => .chain h htail
  sum := fun hstop _ htail => .chain (.chain h (.tail_stop hstop)) htail

section Binary

variable {op : BinaryOp} {l r : Expr} {left right rest : List Token} {t : Token}

/-- What stands right of a plus or minus is read as a term and is no sum. -/
theorem ReadBack.additive (hl : ReadBack l left (t :: (right ++ rest)))
    (hr : ReadBack r right rest) (hop : Level.sum.operator? t.kind = some op)
    (hright : r.isSum = false) (hs : (Expr.binary op l r).isSum = true) :
    ReadBack (.binary op l r) (left ++ t :: right) rest := by
  refine .of_sum hs fun hstop {out} htail => ?_
  -- the left operand is read as a sum whose loop goes on with this operator
  have hread := hr.product hright (.tail_stop hstop)
  have hsum := hl.sum (product_stopsAt hop _) (.tail hop hread htail)
  simpa using hsum

theorem ReadBack.multiplicative (hl : ReadBack l left (t :: (right ++ rest)))
    (hr : ReadBack r right rest) (hop : Level.product.operator? t.kind = some op)
    (hleft : l.isSum = false) (hright : r.isBinary = false) :
    ReadBack (.binary op l r) (left ++ t :: right) rest := by
  refine .of_product rfl fun {out} htail => ?_
  -- the right operand is a single factor, and the loop returns to what follows it
  have hread := hr.factor hright
  have hproduct := hl.product hleft (.tail hop hread htail)
  simpa using hproduct

end Binary

/-- **Completeness of every rule.** Canonical trees are read back from their tokens. -/
theorem readBack_of_canonical {e : Expr} :
    e.Canonical → ∀ {ts : List Token}, e.SpelledBy ts → ∀ rest, ReadBack e ts rest := by
  induction e with
  | number v =>
      intro _ ts hspell rest
      obtain ⟨t, rfl, hk, hv⟩ := spelledBy_number.mp hspell
      exact .of_factor (.number hk (literal_eq_ok_iff.mpr ⟨v, hv, rfl⟩))
  | negate e ih =>
      intro hcanon ts hspell rest
      obtain ⟨t, ts, rfl, hk, hspell⟩ := spelledBy_negate.mp hspell
      exact .of_factor (.negate hk ((ih hcanon.2 hspell rest).factor hcanon.1))
  | paren e ih =>
      intro hcanon ts hspell rest
      obtain ⟨t, mid, c, rfl, hk, hspell, hc⟩ := spelledBy_paren.mp hspell
      have hstop (l : Level) : l.StopsAt (c :: rest) := by
        cases l <;> simp [Level.StopsAt, Level.operator?, hc, BinaryOp.additive?,
          BinaryOp.multiplicative?]
      have hinner := (ih hcanon hspell (c :: rest)).sum (hstop .product) (.tail_stop (hstop .sum))
      refine .of_factor ?_
      simpa using Reads.paren hk hinner hc
  | binary op l r ihl ihr =>
      intro hcanon ts hspell rest
      obtain ⟨left, t, right, rfl, hleft, hk, hright⟩ := spelledBy_binary.mp hspell
      have hl := ihl hcanon.1 hleft (t :: (right ++ rest))
      have hr := ihr hcanon.2.1 hright rest
      cases op with
      | add => exact .additive hl hr (by rw [hk]; rfl) hcanon.2.2 rfl
      | sub => exact .additive hl hr (by rw [hk]; rfl) hcanon.2.2 rfl
      | mul => exact .multiplicative hl hr (by rw [hk]; rfl) hcanon.2.2.1 hcanon.2.2.2
      | div => exact .multiplicative hl hr (by rw [hk]; rfl) hcanon.2.2.1 hcanon.2.2.2

/-! ## The parser -/

/-- To parse is to read a chain of sums to the end of the tokens. -/
theorem parse_eq_ok_iff_reads {ts : List Token} {e : Expr} :
    Expr.parse ts = .ok e ↔ Reads (.chain .sum) ts (.ok (e, [])) := by
  rw [parse_eq_read, reads_iff]
  constructor
  · intro h
    split at h
    · cases h
    · next e' hread => rw [hread, Except.ok.inj h]
    · cases h
  · intro h
    rw [h]

end Grammar

open Grammar

theorem canonical_of_parse {ts : List Token} {e : Expr} (h : Expr.parse ts = .ok e) :
    e.Canonical ∧ e.SpelledBy ts := by
  obtain ⟨hcanon, used, rfl, hspell⟩ := reads_sound (parse_eq_ok_iff_reads.mp h) rfl trivial
  refine ⟨hcanon, ?_⟩
  simpa [Rule.seed] using hspell

/-- Each spelling of a canonical tree is parsed as that tree. -/
theorem parse_of_canonical {ts : List Token} {e : Expr} (hcanon : e.Canonical)
    (hspell : e.SpelledBy ts) : Expr.parse ts = .ok e := by
  have hstop (l : Level) : l.StopsAt [] := by simp [Level.StopsAt]
  have hread := (readBack_of_canonical hcanon hspell []).sum (hstop .product)
    (.tail_stop (hstop .sum))
  rw [List.append_nil] at hread
  exact parse_eq_ok_iff_reads.mpr hread

/--
**The parser accepts exactly its grammar, and builds the one tree of it.** A list is
read as a tree if and only if the tree is canonical and the list is its tokens, kind by
kind and value by value.
-/
theorem parse_eq_ok_iff (ts : List Token) (e : Expr) :
    Expr.parse ts = .ok e ↔
      e.Canonical ∧ e.tokens.map Token.sense = ts.map Token.sense :=
  ⟨canonical_of_parse, fun h => parse_of_canonical h.1 h.2⟩

/-- Of the two trees with the tokens `1 - 2 - 3`, only the one to the left is read. -/
example : (Expr.binary .sub (.binary .sub (.number 1) (.number 2)) (.number 3)).Canonical ∧
    ¬ (Expr.binary .sub (.number 1) (.binary .sub (.number 2) (.number 3))).Canonical := by
  decide

end LineCalc
