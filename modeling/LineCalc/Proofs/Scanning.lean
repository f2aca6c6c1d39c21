import Mathlib
import LineCalc.Token.Scan

/-!
# How a scan comes to its outcome

`Scans` has one constructor for each way in which `Token.scanFrom` can treat the front
of a text: it is at its end, or a line end, a blank, a symbol, a literal that fits, one
that does not, or a character that begins nothing. Everything said about scanning later
on is an induction over it.
-/

namespace LineCalc

namespace Token

/-- How the scan of a text that begins at a position comes to its outcome. -/
inductive Scans : Nat → List Char → Except LexError (List Token) → Prop where
  | exhausted {start : Nat} : Scans start [] (.ok [])
  | lineEnd {start : Nat} {c : Char} {cs : List Char} :
      endsLine c = true → Scans start (c :: cs) (.ok [])
  | blank {start : Nat} {c : Char} {cs : List Char} {out : Except LexError (List Token)} :
      isBlank c = true → Scans (start + 1) cs out → Scans start (c :: cs) out
  | symbol {start : Nat} {c : Char} {cs : List Char} {k : TokenKind}
      {out : Except LexError (List Token)} :
      k.symbol? = some c → Scans (start + 1) cs out →
      Scans start (c :: cs) (out.map (⟨k, none, ⟨start, start + 1⟩⟩ :: ·))
  | literal {start : Nat} {cs rest : List Char} {l : Literal} {v : UInt64}
      {out : Except LexError (List Token)} :
      Literal.take? cs = some (l, rest) → l.toUInt64? = some v →
      Scans (start + l.text.length) rest out →
      Scans start cs
        (out.map (⟨.number, some v.toNat, ⟨start, start + l.text.length⟩⟩ :: ·))
  | tooLarge {start : Nat} {cs rest : List Char} {l : Literal} :
      Literal.take? cs = some (l, rest) → l.toUInt64? = none →
      Scans start cs (.error (.literalTooLarge start l.text))
  | invalid {start : Nat} {c : Char} {cs : List Char} :
      endsLine c = false → isBlank c = false → TokenKind.ofSymbol? c = none →
      Literal.take? (c :: cs) = none → Scans start (c :: cs) (.error (.invalidChar start c))

/-- There is a derivation of whatever a scan comes to. -/
theorem scans_scanFrom (start : Nat) (cs : List Char) : Scans start cs (scanFrom start cs) := by
  fun_induction scanFrom start cs with
  | case1 => exact .exhausted
  | case2 start c rest hline => exact .lineEnd hline
  | case3 start c rest hline hblank ih => exact .blank hblank ih
  | case4 start c rest hline hblank k hsymbol ih =>
      exact .symbol (TokenKind.ofSymbol?_eq_some_iff.mp hsymbol) ih
  | case5 start c rest hline hblank hsymbol hnone =>
      exact .invalid (by simpa using hline) (by simpa using hblank) hsymbol hnone
  | case6 start c rest hline hblank hsymbol l after hsome hlarge => exact .tooLarge hsome hlarge
  | case7 start c rest hline hblank hsymbol l after hsome v hv stop hlt ih =>
      exact .literal hsome hv ih

end Token

end LineCalc
