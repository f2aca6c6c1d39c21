import LineCalc.Calculator
import LineCalc.Proofs.Canonical
import LineCalc.Proofs.Literals
import LineCalc.Proofs.Outlook

/-!
# Rendering a tree and reading it back

`Expr.render` adds nothing to a tree, so a tree that is not canonical reads as another
one. It always reads as one, and the two look the same. There are three steps.

* The text of a tree scans to tokens that spell the tree: a literal ends where the
  rendering goes on, since only a space or a closing parenthesis can follow it.
* Tokens that spell a tree, of whatever shape, leave nothing open behind them. That is
  all the parser asks for, so it returns some tree.
* The text of a tree can be told from its tokens alone: a minus stands between spaces
  exactly if no operand is expected in front of it. Trees with the same tokens
  therefore have the same text.

The tree that comes back is the one that was rendered exactly if that was canonical,
because the parser returns canonical trees and no others.
-/

namespace LineCalc

open Grammar Outlook

/-! ## The text of a tree scans to its tokens -/

namespace Token

theorem scanFrom_symbol {c : Char} {k : TokenKind} (h : TokenKind.ofSymbol? c = some k)
    (start : Nat) (rest : List Char) :
    scanFrom start (c :: rest) =
      (scanFrom (start + 1) rest).map (⟨k, none, ⟨start, start + 1⟩⟩ :: ·) := by
  have hsymbol := TokenKind.ofSymbol?_eq_some_iff.mp h
  have hline : endsLine c = false := by cases k <;> cases hsymbol <;> rfl
  have hblank : isBlank c = false := by cases k <;> cases hsymbol <;> rfl
  rw [scanFrom, hline, hblank]
  simp [h]

theorem scanFrom_space (start : Nat) (rest : List Char) :
    scanFrom start (' ' :: rest) = scanFrom (start + 1) rest := by
  rw [scanFrom]
  rfl

/-- Where nothing else begins, a literal is scanned to its end. -/
theorem scanFrom_literal {c : Char} {cs after : List Char} {l : Literal} {v : UInt64}
    (hline : endsLine c = false) (hblank : isBlank c = false)
    (hsymbol : TokenKind.ofSymbol? c = none) (htake : Literal.take? (c :: cs) = some (l, after))
    (hv : l.toUInt64? = some v) (start : Nat) :
    scanFrom start (c :: cs) =
      (scanFrom (start + l.text.length) after).map
        (⟨.number, some v.toNat, ⟨start, start + l.text.length⟩⟩ :: ·) := by
  rw [scanFrom]
  simp only [hline, hblank, hsymbol, Bool.false_eq_true, if_false]
  split
  · next hnone => rw [htake] at hnone; cases hnone
  · next l' after' hsome =>
    rw [htake] at hsome
    obtain ⟨rfl, rfl⟩ := Prod.mk.inj (Option.some.inj hsome)
    rw [hv]

theorem of_isDigit {c : Char} (h : c.isDigit = true) :
    endsLine c = false ∧ isBlank c = false ∧ TokenKind.ofSymbol? c = none := by
  have hne {x : Char} (hx : x.isDigit = false) : c ≠ x := by
    rintro rfl
    rw [h] at hx
    cases hx
  refine ⟨?_, ?_, ?_⟩
  · simp [endsLine, hne (x := '\n') (by decide), hne (x := '\x0c') (by decide)]
  · simp [isBlank, hne (x := ' ') (by decide), hne (x := '\t') (by decide)]
  · cases hk : TokenKind.ofSymbol? c with
    | none => rfl
    | some k =>
        have hsymbol := TokenKind.ofSymbol?_eq_some_iff.mp hk
        cases k <;> cases hsymbol <;> exact absurd h (by decide)

theorem scanFrom_number (v : UInt64) (start : Nat) :
    ∃ t stop, (Expr.number v).SpelledBy [t] ∧ ∀ rest, Literal.EndsAt rest →
      scanFrom start (Nat.toDigits 10 v.toNat ++ rest) = (scanFrom stop rest).map (t :: ·) := by
  let stop := start + (Literal.ofNat v.toNat).text.length
  refine ⟨⟨.number, some v.toNat, ⟨start, stop⟩⟩, stop, spelledBy_number.mpr ⟨_, rfl, rfl, rfl⟩, ?_⟩
  intro rest hrest
  have htake := Literal.take?_ofNat v.toNat hrest
  obtain ⟨d, ds, hd⟩ := List.exists_cons_of_ne_nil (Nat.toDigits_ne_nil (n := v.toNat) (b := 10))
  have hdigit : d.isDigit = true := Literal.isDigit_of_mem (n := v.toNat) (by simp [hd])
  obtain ⟨hline, hblank, hsymbol⟩ := of_isDigit hdigit
  rw [hd, List.cons_append] at htake ⊢
  exact scanFrom_literal hline hblank hsymbol htake (Literal.toUInt64?_ofNat v) start

theorem endsAt_cons {c : Char} (h : c ∈ [' ', ')']) (rest : List Char) :
    Literal.EndsAt (c :: rest) := by
  intro x hx
  obtain rfl : c = x := Option.some.inj hx
  simp only [List.mem_cons, List.not_mem_nil, or_false] at h
  rcases h with rfl | rfl <;> decide

/-- The text of a tree is scanned as tokens that spell the tree. -/
theorem scanFrom_render (e : Expr) : ∀ start,
    ∃ ts stop, e.SpelledBy ts ∧ ∀ rest, Literal.EndsAt rest →
      scanFrom start (e.render.toList ++ rest) = (scanFrom stop rest).map (ts ++ ·) := by
  induction e with
  | number v =>
      intro start
      obtain ⟨t, stop, hspell, hscan⟩ := scanFrom_number v start
      refine ⟨[t], stop, hspell, fun rest hrest => ?_⟩
      rw [Expr.render, Nat.toString_eq_ofList_toDigits, String.toList_ofList]
      exact hscan rest hrest
  | negate e ih =>
      intro start
      obtain ⟨ts, stop, hspell, hscan⟩ := ih (start + 1)
      refine ⟨⟨.minus, none, ⟨start, start + 1⟩⟩ :: ts, stop,
        spelledBy_negate.mpr ⟨_, ts, rfl, rfl, hspell⟩, fun rest hrest => ?_⟩
      have htext : (Expr.negate e).render.toList ++ rest = '-' :: (e.render.toList ++ rest) := by
        simp [Expr.render]
      rw [htext, scanFrom_symbol (k := .minus) rfl, hscan rest hrest]
      cases scanFrom stop rest <;> rfl
  | paren e ih =>
      intro start
      obtain ⟨ts, stop, hspell, hscan⟩ := ih (start + 1)
      refine ⟨⟨.leftParen, none, ⟨start, start + 1⟩⟩ ::
          (ts ++ [⟨.rightParen, none, ⟨stop, stop + 1⟩⟩]),
        stop + 1, spelledBy_paren.mpr ⟨_, ts, _, rfl, rfl, hspell, rfl⟩, fun rest hrest => ?_⟩
      have htext : (Expr.paren e).render.toList ++ rest =
          '(' :: (e.render.toList ++ ')' :: rest) := by
        simp [Expr.render]
      rw [htext, scanFrom_symbol (k := .leftParen) rfl, hscan _ (endsAt_cons (by simp) rest),
        scanFrom_symbol (k := .rightParen) rfl]
      cases scanFrom (stop + 1) rest <;> simp [Except.map]
  | binary op l r ihl ihr =>
      intro start
      obtain ⟨left, mid, hleft, hscanl⟩ := ihl start
      obtain ⟨right, stop, hright, hscanr⟩ := ihr (mid + 1 + 1 + 1)
      refine ⟨left ++ ⟨op.kind, none, ⟨mid + 1, mid + 1 + 1⟩⟩ :: right, stop,
        spelledBy_binary.mpr ⟨left, _, right, rfl, hleft, rfl, hright⟩, fun rest hrest => ?_⟩
      have htext : (Expr.binary op l r).render.toList ++ rest =
          l.render.toList ++ ' ' :: op.symbol :: ' ' :: (r.render.toList ++ rest) := by
        simp [Expr.render, BinaryOp.text]
      have hop : TokenKind.ofSymbol? op.symbol = some op.kind := by cases op <;> rfl
      -- a space ends the last literal of the left operand
      rw [htext, hscanl _ (endsAt_cons (by simp) _), scanFrom_space, scanFrom_symbol hop,
        scanFrom_space, hscanr rest hrest]
      cases scanFrom stop rest <;> simp [Except.map]

end Token

/-- The text of a tree is scanned as tokens that spell the tree, and nothing else. -/
theorem scan_render (e : Expr) : ∃ ts, Token.scan e.render = .ok ts ∧ e.SpelledBy ts := by
  obtain ⟨ts, stop, hspell, hscan⟩ := Token.scanFrom_render e 0
  have hall := hscan [] (by simp [Literal.EndsAt])
  rw [List.append_nil, Token.scanFrom] at hall
  refine ⟨ts, ?_, hspell⟩
  rw [Token.scan, hall]
  simp [Except.map]

/-! ## Tokens that spell a tree are read as some tree -/

/-- A tree of any shape takes the scan from where an operand is expected to where none is. -/
theorem verdict_of_spelledBy {e : Expr} : ∀ {ts : List Token}, e.SpelledBy ts → ∀ d rest,
    (Outlook.scan ⟨true, d⟩ (ts ++ rest)).verdict = (Outlook.scan ⟨false, d⟩ rest).verdict := by
  induction e with
  | number v =>
      intro ts hspell d rest
      obtain ⟨t, rfl, hk, hv⟩ := spelledBy_number.mp hspell
      exact verdict_step (by rw [hk]; rfl)
        (isBad_of_literal_ok (literal_eq_ok_iff.mpr ⟨v, hv, rfl⟩))
  | negate e ih =>
      intro ts hspell d rest
      obtain ⟨t, ts, rfl, hk, hspell⟩ := spelledBy_negate.mp hspell
      exact (verdict_minus d hk).trans (ih hspell d rest)
  | paren e ih =>
      intro ts hspell d rest
      obtain ⟨t, mid, c, rfl, hk, hspell, hc⟩ := spelledBy_paren.mp hspell
      have hinner := (verdict_open d hk).trans (ih hspell (d + 1) (c :: rest))
      have hall := hinner.trans (verdict_close d hc)
      simpa using hall
  | binary op l r ihl ihr =>
      intro ts hspell d rest
      obtain ⟨left, t, right, rfl, hleft, hk, hright⟩ := spelledBy_binary.mp hspell
      have hl := ihl hleft d (t :: (right ++ rest))
      have hr := (verdict_binary d hk).trans (ihr hright d rest)
      have hall := hl.trans hr
      simpa using hall

theorem parse_of_spelledBy {e : Expr} {ts : List Token} (h : e.SpelledBy ts) :
    ∃ e', Expr.parse ts = .ok e' := by
  have hverdict := verdict_of_spelledBy h 0 []
  have hparse := parse_eq_verdict ts
  rw [List.append_nil] at hverdict
  rw [Outlook.start, hverdict] at hparse
  exact hparse

/-! ## The text of a tree is that of its tokens -/

namespace Token

/-- The text of tokens, where an operand is expected in front of them or not. -/
def layout : (operand : Bool) → List Token → String
  | _, [] => ""
  | true, t :: ts => t.text ++ layout (t.kind != .number) ts
  | false, t :: ts =>
    if t.kind = .rightParen then t.text ++ layout false ts
    else " " ++ t.text ++ " " ++ layout true ts

end Token

/-- The text of a tree is laid out from its tokens, whatever follows it. -/
theorem layout_tokens (e : Expr) : ∀ rest,
    Token.layout true (e.tokens ++ rest) = e.render ++ Token.layout false rest := by
  induction e with
  | number v => intro rest; rfl
  | negate e ih =>
      intro rest
      rw [Expr.tokens, List.cons_append, Token.layout, Expr.render, String.append_assoc]
      exact congrArg _ (ih rest)
  | paren e ih =>
      intro rest
      have hinner := ih (.ofKind .rightParen :: rest)
      have hclose : Token.layout false (.ofKind .rightParen :: rest) =
          ")" ++ Token.layout false rest := rfl
      rw [Expr.tokens, List.cons_append, Token.layout, List.append_assoc, Expr.render,
        String.append_assoc, String.append_assoc, ← hclose]
      exact congrArg _ hinner
  | binary op l r ihl ihr =>
      intro rest
      have hleft := ihl (.ofKind op.kind :: (r.tokens ++ rest))
      have hop : Token.layout false (.ofKind op.kind :: (r.tokens ++ rest)) =
          " " ++ op.text ++ " " ++ Token.layout true (r.tokens ++ rest) := by
        cases op <;> rfl
      rw [Expr.tokens, List.append_assoc, List.cons_append, hleft, hop, ihr rest, Expr.render]
      simp only [String.append_assoc]

/-- The tokens of a tree carry nothing but what the grammar sees of them. -/
theorem eq_of_mem_tokens {e : Expr} {t : Token} (h : t ∈ e.tokens) :
    t = ⟨t.sense.1, t.sense.2, ⟨0, 0⟩⟩ := by
  induction e with
  | number v =>
      obtain rfl := List.mem_singleton.mp h
      rfl
  | negate e ih =>
      rcases List.mem_cons.mp h with rfl | h
      · rfl
      · exact ih h
  | paren e ih =>
      rcases List.mem_cons.mp h with rfl | h
      · rfl
      · rcases List.mem_append.mp h with h | h
        · exact ih h
        · obtain rfl := List.mem_singleton.mp h
          rfl
  | binary op l r ihl ihr =>
      rcases List.mem_append.mp h with h | h
      · exact ihl h
      · rcases List.mem_cons.mp h with rfl | h
        · cases op <;> rfl
        · exact ihr h

theorem tokens_eq_map (e : Expr) :
    e.tokens = (e.tokens.map Token.sense).map fun s => ⟨s.1, s.2, ⟨0, 0⟩⟩ := by
  rw [List.map_map]
  exact (List.map_id e.tokens).symm.trans (List.map_congr_left fun t ht => eq_of_mem_tokens ht)

/-- Trees that are spelled by the same list have the same text. -/
theorem render_eq_of_spelledBy {e e' : Expr} {ts : List Token} (h : e.SpelledBy ts)
    (h' : e'.SpelledBy ts) : e'.render = e.render := by
  have htokens : e'.tokens = e.tokens := by
    rw [tokens_eq_map e', tokens_eq_map e, h, h']
  have hlayout := layout_tokens e' []
  rw [htokens, layout_tokens e []] at hlayout
  simpa [Token.layout] using hlayout.symm

/-! ## Reading back -/

/-- What becomes of the text of a tree: tokens that spell it, and the tree these are read as. -/
theorem ofText_render (e : Expr) :
    ∃ ts e', e.SpelledBy ts ∧ Expr.parse ts = .ok e' ∧ Expr.ofText e.render = .ok e' := by
  obtain ⟨ts, hscan, hspell⟩ := scan_render e
  obtain ⟨e', hparse⟩ := parse_of_spelledBy hspell
  refine ⟨ts, e', hspell, hparse, ?_⟩
  rw [Expr.ofText, hscan]
  simp [hparse, Except.mapError]

theorem ofText_render_of_canonical {e : Expr} (h : e.Canonical) :
    Expr.ofText e.render = .ok e := by
  obtain ⟨ts, e', hspell, hparse, htext⟩ := ofText_render e
  rw [parse_of_canonical h hspell] at hparse
  rw [htext, Except.ok.inj hparse]

/--
**Rendering and reading back.** The text of any tree reads as a tree with the same text.
It is the same tree exactly if the tree is canonical, and so every tree that the parser
ever returns survives.
-/
theorem render_reads_back (e : Expr) :
    (∃ e', Expr.ofText e.render = .ok e' ∧ e'.render = e.render ∧ (e' = e ↔ e.Canonical)) ∧
      ∀ ts, Expr.parse ts = .ok e → Expr.ofText e.render = .ok e := by
  constructor
  · -- both trees are spelled by the tokens of the text, and the second is canonical
    obtain ⟨ts, e', hspell, hparse, htext⟩ := ofText_render e
    obtain ⟨hcanon, hspell'⟩ := canonical_of_parse hparse
    refine ⟨e', htext, render_eq_of_spelledBy hspell hspell', ?_, ?_⟩
    · intro he
      exact he ▸ hcanon
    · intro hcanon
      rw [ofText_render_of_canonical hcanon] at htext
      exact (Except.ok.inj htext).symm
  · intro ts hparse
    exact ofText_render_of_canonical (canonical_of_parse hparse).1

end LineCalc
