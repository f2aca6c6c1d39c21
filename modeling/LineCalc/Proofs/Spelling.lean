import LineCalc.Proofs.Coverage
import LineCalc.Proofs.Rendering

/-!
# Every way of writing tokens down

A token can be written in many ways. A symbol is one character, but a number is any
literal of the grammar with its digits, in each of the four radices, with zeros in front,
underscores anywhere but in front of a decimal and letters of either case, and for zero no
digit is needed behind the lead of a radix. Spaces and tabs may stand around a token, and
have to stand only between two numbers. What follows the line is not looked at.

`Spelling` is one such way for a list of tokens. Scanning its text gives these tokens back,
each with the span that it was written in (`scan_text`). What has to be seen is that a token
ends where it was meant to. A literal is read as far as it goes, and it does not go on into
a blank, a symbol or the end of the line, because none of these is a letter of any literal
(`take?_text`). That no literal is refused for its length has nothing to do with how it is
written, since a literal is read as its value (`Literal.toUInt64?_eq`).
-/

namespace LineCalc

/-! ## A literal ends where no letter of a literal follows -/

namespace Literal

/-- Nothing that stands here belongs to the literal in front of it, whatever that is. -/
def ClosedBy (rest : List Char) : Prop :=
  ∀ c ∈ rest.head?, c ∉ 'o' :: 'x' :: Radix.hexadecimal.alphabet

theorem mem_hexadecimal_of_mem {r : Radix} {c : Char} (h : c ∈ r.alphabet) :
    c ∈ Radix.hexadecimal.alphabet := by
  have hall : ∀ x ∈ r.alphabet, x ∈ Radix.hexadecimal.alphabet := by
    cases r <;> simp [Radix.alphabet]
  exact hall c h

theorem ClosedBy.continues {rest : List Char} (h : ClosedBy rest) (r : Radix) :
    ∀ c ∈ rest.head?, r.continues c = false := by
  intro c hc
  rw [Bool.eq_false_iff]
  intro hcontinues
  have hmem := mem_hexadecimal_of_mem (Radix.continues_iff.mp hcontinues)
  exact h c hc (List.mem_cons_of_mem _ (List.mem_cons_of_mem _ hmem))

theorem ClosedBy.not_lead {rest : List Char} (h : ClosedBy rest) :
    ∀ c ∈ rest.head?, c ∉ ['b', 'o', 'x'] := by
  intro c hc hlead
  have hsub : ∀ x ∈ ['b', 'o', 'x'], x ∈ 'o' :: 'x' :: Radix.hexadecimal.alphabet := by
    simp [Radix.alphabet]
  exact h c hc (hsub c hlead)

/-- A decimal begins with a digit, and no letter of a lead stands in it. -/
theorem exists_digit_of_decimal {l : Literal} (hl : l.WellFormed) (hr : l.radix = .decimal) :
    ∃ c cs, l.run = c :: cs ∧ (Radix.decimal.digit? c).isSome = true ∧
      ∀ x ∈ cs, x ∉ ['b', 'o', 'x'] := by
  obtain ⟨c, hc, hunderscore⟩ := hl.2 hr
  obtain ⟨cs, hrun⟩ := List.head?_eq_some_iff.mp hc
  have hmem : ∀ x ∈ c :: cs, x ∈ Radix.decimal.alphabet := hrun ▸ hr ▸ hl.1
  refine ⟨c, cs, hrun, ?_, fun x hx hlead => ?_⟩
  · rw [Radix.digit?_of_mem (hmem c List.mem_cons_self) hunderscore]
    rfl
  · have hnone : ∀ y ∈ ['b', 'o', 'x'], y ∉ Radix.decimal.alphabet := by
      simp [Radix.alphabet]
    exact hnone x hlead (hmem x (List.mem_cons_of_mem c hx))

/-- **A literal is read to its end**, and no further, where no letter of a literal follows. -/
theorem take?_text {l : Literal} (hl : l.WellFormed) {rest : List Char} (h : ClosedBy rest) :
    take? (l.text ++ rest) = some (l, rest) := by
  have hrun : ofRun l.radix (l.run ++ rest) = (l, rest) :=
    ofRun_append (fun c hc => Radix.continues_iff.mpr (hl.1 c hc)) (h.continues l.radix)
  rw [text, List.append_assoc]
  cases hr : l.radix with
  | binary => rw [← hrun, hr]; rfl
  | octal => rw [← hrun, hr]; rfl
  | hexadecimal => rw [← hrun, hr]; rfl
  | decimal =>
      obtain ⟨c, cs, hcs, hdigit, hletters⟩ := exists_digit_of_decimal hl hr
      -- the first digit may be a zero, and then what follows it must not make a lead of it
      have hnext : ∀ x ∈ (cs ++ rest).head?, x ∉ ['b', 'o', 'x'] := by
        cases cs with
        | nil => exact h.not_lead
        | cons d cs =>
            intro x hx
            obtain rfl : d = x := Option.some.inj hx
            exact hletters d List.mem_cons_self
      rw [hcs, hr] at hrun
      rw [hcs]
      exact (take?_of_digit hdigit hnext).trans (congrArg some hrun)

/-- The first character of a literal begins neither a blank nor a symbol nor a new line. -/
theorem exists_isDigit_of_text {l : Literal} (hl : l.WellFormed) :
    ∃ c cs, l.text = c :: cs ∧ c.isDigit = true := by
  cases hr : l.radix with
  | binary => exact ⟨'0', 'b' :: l.run, by rw [text, hr]; rfl, rfl⟩
  | octal => exact ⟨'0', 'o' :: l.run, by rw [text, hr]; rfl, rfl⟩
  | hexadecimal => exact ⟨'0', 'x' :: l.run, by rw [text, hr]; rfl, rfl⟩
  | decimal =>
      obtain ⟨c, hc, hunderscore⟩ := hl.2 hr
      obtain ⟨cs, hrun⟩ := List.head?_eq_some_iff.mp hc
      have hmem : c ∈ Radix.decimal.alphabet := hr ▸ hl.1 c (hrun ▸ List.mem_cons_self)
      refine ⟨c, cs, by rw [text, hr, hrun]; rfl, ?_⟩
      have hdigits : ∀ x ∈ Radix.decimal.alphabet, x ≠ '_' → x.isDigit = true := by
        simp [Radix.alphabet]
      exact hdigits c hmem hunderscore

end Literal

/-! ## Numbers and their digits -/

theorem Radix.worth_lt_of_mem {r : Radix} {c : Char} (h : c ∈ r.alphabet) (hc : c ≠ '_') :
    worth c < r.base := by
  have hdigit := digit?_of_mem h hc
  rw [digit?, Option.filter_eq_some_iff] at hdigit
  exact of_decide_eq_true hdigit.2

/-- Digits are those of the number they stand for, behind zeros. -/
theorem exists_zeros_append_digits {b : Nat} (hb : 1 < b) {ds : List Nat} (h : ∀ d ∈ ds, d < b) :
    ∃ zeros, ds = List.replicate zeros 0 ++ (b.digits (Nat.ofDigits b ds.reverse)).reverse := by
  induction ds with
  | nil => exact ⟨0, by simp⟩
  | cons d ds ih =>
      obtain ⟨hd, hds⟩ := List.forall_mem_cons.mp h
      by_cases hzero : d = 0
      · obtain ⟨zeros, hzeros⟩ := ih hds
        have hvalue : Nat.ofDigits b (d :: ds).reverse = Nat.ofDigits b ds.reverse := by
          simp [hzero, Nat.ofDigits_append]
        refine ⟨zeros + 1, ?_⟩
        rw [hvalue, List.replicate_succ, List.cons_append, ← hzeros, hzero]
      · -- the first digit is not zero, so there are no zeros in front
        have hdigits : b.digits (Nat.ofDigits b (d :: ds).reverse) = (d :: ds).reverse := by
          refine Nat.digits_ofDigits b hb _ (fun x hx => h x (List.mem_reverse.mp hx)) fun hne => ?_
          simpa using hzero
        exact ⟨0, by rw [hdigits, List.reverse_reverse]; rfl⟩

namespace Literal

/--
A literal spells a number if its digits, underscores dropped, are those of the number behind
any number of zeros. An empty run spells zero, which has no digits.
-/
def Spells (l : Literal) (v : Nat) : Prop :=
  l.WellFormed ∧ ∃ zeros, (l.run.filter (· != '_')).map Radix.worth =
    List.replicate zeros 0 ++ (l.radix.base.digits v).reverse

theorem positional_of_spells {l : Literal} {v : Nat} (h : l.Spells v) : l.positional = v := by
  obtain ⟨-, zeros, hdigits⟩ := h
  rw [positional, hdigits, List.reverse_append, List.reverse_reverse, List.reverse_replicate,
    Nat.ofDigits_append, Nat.ofDigits_replicate_zero, Nat.mul_zero, Nat.add_zero,
    Nat.ofDigits_digits]

theorem spells_positional {l : Literal} (hl : l.WellFormed) : l.Spells l.positional := by
  have hbase : 1 < l.radix.base := by cases l.radix <;> decide
  refine ⟨hl, exists_zeros_append_digits hbase fun d hd => ?_⟩
  obtain ⟨c, hc, rfl⟩ := List.mem_map.mp hd
  obtain ⟨hmem, hunderscore⟩ := List.mem_filter.mp hc
  exact Radix.worth_lt_of_mem (hl.1 c hmem) (by simpa using hunderscore)

end Literal

/-! ## Spellings -/

namespace Token

/-- A text that a token may be written as, wherever it stands. -/
def WrittenAs (t : Token) (cs : List Char) : Prop :=
  (∃ c, t.kind.symbol? = some c ∧ t.value = none ∧ cs = [c]) ∨
    (t.kind = .number ∧ ∃ (v : UInt64) (l : Literal),
      t.value = some (v.toNat : Int) ∧ l.Spells v.toNat ∧ cs = l.text)

end Token

/-- Whether characters are spaces and tabs only. -/
def Blanks (cs : List Char) : Prop := ∀ c ∈ cs, c = ' ' ∨ c = '\t'

/-- A token as it is written down, and the blanks in front of it. -/
structure Written where
  gap : List Char
  token : Token
  text : List Char
  blanks : Blanks gap
  writtenAs : token.WrittenAs text

namespace Written

/-- Whether a token that follows another one may be read as a token of its own. -/
def Apart (a b : Written) : Prop :=
  a.token.kind = .number → b.token.kind = .number → b.gap ≠ []

/-- The text of tokens, blanks included. -/
def lineText (ws : List Written) : List Char := ws.flatMap fun w => w.gap ++ w.text

/-- The tokens of a text that starts at a position, each with the span it is written in. -/
def place : (start : Nat) → List Written → List Token
  | _, [] => []
  | start, w :: ws =>
    let first := start + w.gap.length
    let stop := first + w.text.length
    { w.token with span := ⟨first, stop⟩ } :: place stop ws

end Written

/-- A way of writing tokens on a line, with whatever follows the line. -/
structure Spelling where
  written : List Written
  gap : List Char
  tail : List Char
  apart : written.IsChain Written.Apart
  blanks : Blanks gap
  lineEnd : ∀ c ∈ tail.head?, c = '\n' ∨ c = '\x0c'

namespace Spelling

def text (s : Spelling) : String := String.ofList (Written.lineText s.written ++ (s.gap ++ s.tail))

/-- The tokens that are spelled, each with the span it is written in. -/
def tokens (s : Spelling) : List Token := Written.place 0 s.written

end Spelling

/-! ## Scanning what was spelled -/

namespace Token

theorem scanFrom_blanks {gap : List Char} (h : Blanks gap) : ∀ (start : Nat) (rest : List Char),
    scanFrom start (gap ++ rest) = scanFrom (start + gap.length) rest := by
  induction gap with
  | nil => intro start rest; rfl
  | cons c gap ih =>
      intro start rest
      obtain ⟨hc, hgap⟩ := List.forall_mem_cons.mp h
      have hskip : scanFrom start (c :: (gap ++ rest)) = scanFrom (start + 1) (gap ++ rest) := by
        rw [scanFrom]
        rcases hc with rfl | rfl <;> rfl
      rw [List.cons_append, hskip, ih hgap, List.length_cons]
      congr 1
      omega

theorem scanFrom_lineEnd {tail : List Char} (h : ∀ c ∈ tail.head?, c = '\n' ∨ c = '\x0c')
    (start : Nat) : scanFrom start tail = .ok [] := by
  cases tail with
  | nil => rw [scanFrom]
  | cons c cs =>
      have hline : endsLine c = true := by rcases h c rfl with rfl | rfl <;> rfl
      rw [scanFrom, if_pos hline]

/-- A token is scanned from its text, if the text is not a literal that goes on. -/
theorem scanFrom_writtenAs {t : Token} {cs rest : List Char} (h : t.WrittenAs cs)
    (hrest : t.kind = .number → Literal.ClosedBy rest) (start : Nat) :
    scanFrom start (cs ++ rest) =
      (scanFrom (start + cs.length) rest).map
        ({ t with span := ⟨start, start + cs.length⟩ } :: ·) := by
  rcases h with ⟨c, hsymbol, hvalue, rfl⟩ | ⟨hkind, v, l, hvalue, hl, rfl⟩
  · have hkind := TokenKind.ofSymbol?_eq_some_iff.mpr hsymbol
    rw [List.singleton_append, scanFrom_symbol hkind, hvalue]
    rfl
  · obtain ⟨c, cs, htext, hdigit⟩ := Literal.exists_isDigit_of_text hl.1
    obtain ⟨hline, hblank, hsymbol⟩ := of_isDigit hdigit
    have htake := Literal.take?_text hl.1 (hrest hkind)
    -- however many digits it has, the literal is read as the number that it spells
    have hread : l.toUInt64? = some v := by
      rw [Literal.toUInt64?_eq, Literal.value_eq_positional hl.1, Literal.positional_of_spells hl,
        if_pos v.toNat_lt, UInt64.ofNat_toNat]
    rw [hkind, hvalue]
    rw [htext, List.cons_append] at htake ⊢
    rw [scanFrom_literal hline hblank hsymbol htake hread, htext]

end Token

namespace Written

theorem closedBy_of_mem {c : Char} {rest : List Char}
    (h : c ∈ [' ', '\t', '\n', '\x0c', '+', '-', '*', '/', '(', ')']) :
    Literal.ClosedBy (c :: rest) := by
  intro x hx
  obtain rfl : c = x := Option.some.inj hx
  fin_cases h <;> simp [Radix.alphabet]

theorem closedBy_gap {gap rest : List Char} (h : Blanks gap) (hrest : Literal.ClosedBy rest) :
    Literal.ClosedBy (gap ++ rest) := by
  cases gap with
  | nil => exact hrest
  | cons c gap =>
      have hc := h c List.mem_cons_self
      exact closedBy_of_mem (by rcases hc with rfl | rfl <;> simp)

/-- What may follow a number is a blank or a symbol, and closes its literal. -/
theorem closedBy_of_apart {a b : Written} (h : a.Apart b) (ha : a.token.kind = .number)
    (rest : List Char) : Literal.ClosedBy (b.gap ++ (b.text ++ rest)) := by
  by_cases hgap : b.gap = []
  · rcases b.writtenAs with ⟨c, hsymbol, -, htext⟩ | ⟨hb, -⟩
    · rw [hgap, htext]
      refine closedBy_of_mem ?_
      cases hk : b.token.kind <;> rw [hk] at hsymbol <;> cases hsymbol <;> simp
    · exact absurd hgap (h ha hb)
  · obtain ⟨c, gap, hc⟩ := List.exists_cons_of_ne_nil hgap
    have hblank := b.blanks c (hc ▸ List.mem_cons_self)
    rw [hc]
    exact closedBy_of_mem (by rcases hblank with rfl | rfl <;> simp)

/-- Tokens that are written down apart are scanned where they stand, up to what ends the line. -/
theorem scanFrom_lineText {ws : List Written} {rest : List Char} (hapart : ws.IsChain Apart)
    (hclosed : Literal.ClosedBy rest) (hend : ∀ start, Token.scanFrom start rest = .ok []) :
    ∀ start, Token.scanFrom start (lineText ws ++ rest) = .ok (place start ws) := by
  induction ws with
  | nil => exact hend
  | cons w ws ih =>
      intro start
      have hnext : w.token.kind = .number → Literal.ClosedBy (lineText ws ++ rest) := by
        intro hkind
        cases ws with
        | nil => exact hclosed
        | cons b ws =>
            have hb := closedBy_of_apart (List.isChain_cons_cons.mp hapart).1 hkind
            simpa [lineText] using hb (lineText ws ++ rest)
      have htext : lineText (w :: ws) ++ rest = w.gap ++ (w.text ++ (lineText ws ++ rest)) := by
        simp [lineText]
      rw [htext, Token.scanFrom_blanks w.blanks, Token.scanFrom_writtenAs w.writtenAs hnext,
        ih hapart.tail]
      rfl

theorem content_place (ws : List Written) : ∀ start,
    (place start ws).map Token.content = ws.map (·.token.content) := by
  induction ws with
  | nil => intro start; rfl
  | cons w ws ih =>
      intro start
      rw [place, List.map_cons, List.map_cons, ih]
      rfl

/-- Under the span of each token stands what it was written as. -/
theorem slice_place (ws : List Written) : ∀ (before rest : List Char),
    ws.Forall₂ (fun w t => t.span.slice (before ++ (lineText ws ++ rest)) = w.text)
      (place before.length ws) := by
  induction ws with
  | nil => intro before rest; exact .nil
  | cons w ws ih =>
      intro before rest
      have htext : before ++ (lineText (w :: ws) ++ rest) =
          (before ++ w.gap) ++ (w.text ++ (lineText ws ++ rest)) := by
        simp [lineText]
      have hfirst := Token.slice_append (before ++ w.gap) w.text (lineText ws ++ rest)
      have hlater := ih (before ++ w.gap ++ w.text) rest
      rw [List.append_assoc (before ++ w.gap)] at hlater
      rw [List.length_append] at hfirst
      rw [List.length_append, List.length_append] at hlater
      rw [htext]
      exact .cons hfirst hlater

end Written

/-! ## Tokens with a space between each two -/

namespace Token

/-- A symbol without value, or a number with the value of a literal. -/
def Plain (t : Token) : Prop :=
  (∃ c, t.kind.symbol? = some c ∧ t.value = none) ∨
    (t.kind = .number ∧ ∃ v : UInt64, t.value = some (v.toNat : Int))

theorem writtenAs_text {t : Token} (h : t.Plain) : t.WrittenAs t.text.toList := by
  rcases h with ⟨c, hsymbol, hvalue⟩ | ⟨hkind, v, hvalue⟩
  · refine .inl ⟨c, hsymbol, hvalue, ?_⟩
    simp [text, hsymbol]
  · have hend : Literal.EndsAt [] := by simp [Literal.EndsAt]
    have htake := Literal.take?_ofNat v.toNat hend
    have hl := (Literal.longestAt_of_take? htake).wellFormed
    have hspells := Literal.spells_positional hl
    rw [← Literal.value_eq_positional hl, Literal.value_ofNat] at hspells
    refine .inr ⟨hkind, v, Literal.ofNat v.toNat, hvalue, hspells, ?_⟩
    have htext : t.text = toString v.toNat := by
      rw [text, hkind, hvalue]
      rfl
    rw [htext, Nat.toString_eq_ofList_toDigits, String.toList_ofList]
    rfl

theorem toList_listText_cons (t : Token) (ts : List Token) :
    (listText (t :: ts)).toList = t.text.toList ++ ts.flatMap fun t => ' ' :: t.text.toList := by
  induction ts generalizing t with
  | nil => simp [listText]
  | cons t' ts ih =>
      have hstep : listText (t :: t' :: ts) = t.text ++ " " ++ listText (t' :: ts) := by
        simp only [listText, List.map_cons, String.intercalate_cons_cons]
      simp [hstep, ih]

end Token

/-- Tokens may be written with a space in front of each. -/
theorem exists_spaced {ts : List Token} (h : ∀ t ∈ ts, t.Plain) :
    ∃ ws : List Written, ws.map Written.token = ts ∧ (∀ w ∈ ws, w.gap = [' ']) ∧
      Written.lineText ws = ts.flatMap fun t => ' ' :: t.text.toList := by
  induction ts with
  | nil => exact ⟨[], rfl, by simp, rfl⟩
  | cons t ts ih =>
      obtain ⟨ht, hts⟩ := List.forall_mem_cons.mp h
      obtain ⟨ws, hmap, hgap, htext⟩ := ih hts
      let w : Written := ⟨[' '], t, t.text.toList, by simp [Blanks], Token.writtenAs_text ht⟩
      refine ⟨w :: ws, by simp [w, hmap], List.forall_mem_cons.mpr ⟨rfl, hgap⟩, ?_⟩
      have hcons : Written.lineText (w :: ws) = ' ' :: t.text.toList ++ Written.lineText ws := rfl
      rw [hcons, htext, List.flatMap_cons]

theorem isChain_of_gaps {ws : List Written} (h : ∀ w ∈ ws, w.gap ≠ []) (w : Written) :
    (w :: ws).IsChain Written.Apart := by
  induction ws generalizing w with
  | nil => exact .singleton w
  | cons b ws ih =>
      obtain ⟨hb, hws⟩ := List.forall_mem_cons.mp h
      exact .cons_cons (fun _ _ => hb) (ih hws b)

theorem exists_spelling_listText {ts : List Token} (h : ∀ t ∈ ts, t.Plain) :
    ∃ s : Spelling, s.text = Token.listText ts ∧ s.written.map Written.token = ts := by
  cases ts with
  | nil => exact ⟨⟨[], [], [], .nil, by simp [Blanks], by simp⟩, rfl, rfl⟩
  | cons t ts =>
      obtain ⟨ht, hts⟩ := List.forall_mem_cons.mp h
      obtain ⟨ws, hmap, hgap, htext⟩ := exists_spaced hts
      let w : Written := ⟨[], t, t.text.toList, by simp [Blanks], Token.writtenAs_text ht⟩
      have hgaps : ∀ w ∈ ws, w.gap ≠ [] := fun w hw => by simp [hgap w hw]
      have hapart := isChain_of_gaps hgaps w
      refine ⟨⟨w :: ws, [], [], hapart, by simp [Blanks], by simp⟩, ?_, by simp [w, hmap]⟩
      have hline : Written.lineText (w :: ws) = (Token.listText (t :: ts)).toList := by
        rw [Token.toList_listText_cons, ← htext]
        rfl
      simp [Spelling.text, hline]

theorem Spelling.scan_text (s : Spelling) : Token.scan s.text = .ok s.tokens := by
  have hclosed : Literal.ClosedBy s.tail := by
    intro c hc
    rcases s.lineEnd c hc with rfl | rfl <;> simp [Radix.alphabet]
  have hend (start : Nat) : Token.scanFrom start (s.gap ++ s.tail) = .ok [] := by
    rw [Token.scanFrom_blanks s.blanks, Token.scanFrom_lineEnd s.lineEnd]
  rw [Token.scan, Spelling.text, String.toList_ofList]
  exact Written.scanFrom_lineText s.apart (Written.closedBy_gap s.blanks hclosed) hend 0

/--
**Scanning undoes every spelling.** The text of a spelling scans to the tokens that it
spells, with the same kinds and values, and under the span of each token stands what it was
written as. Tokens as they read, with a single space between each two, are one spelling of
themselves.
-/
theorem scan_undoes_spelling :
    (∀ s : Spelling, Token.scan s.text = .ok s.tokens ∧
      s.tokens.map Token.content = s.written.map (·.token.content) ∧
      s.written.Forall₂ (fun w t => t.span.slice s.text.toList = w.text) s.tokens) ∧
    ∀ ts : List Token, (∀ t ∈ ts, t.Plain) →
      ∃ ts', Token.scan (Token.listText ts) = .ok ts' ∧
        ts'.map Token.content = ts.map Token.content := by
  constructor
  · intro s
    have hslices := Written.slice_place s.written [] (s.gap ++ s.tail)
    refine ⟨s.scan_text, Written.content_place s.written 0, ?_⟩
    simpa [Spelling.text, Spelling.tokens] using hslices
  · intro ts hts
    obtain ⟨s, htext, hmap⟩ := exists_spelling_listText hts
    refine ⟨s.tokens, htext ▸ s.scan_text, ?_⟩
    rw [Spelling.tokens, Written.content_place, ← hmap, List.map_map]
    rfl

end LineCalc
