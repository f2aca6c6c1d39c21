import LineCalc.Proofs.Coverage
import LineCalc.Proofs.Spelling

/-!
# The first thing on a line that cannot be scanned

A scan that fails says where it stood. Which places it comes to is a matter of the text and
the grammar alone. It begins at the front, and goes on behind a blank, a symbol, or the
longest literal that starts where it stands, if this one fits (`Arrives`). So a place inside
a literal is not come to, and neither is any place behind the end of the line.

A scan fails exactly on what it comes to and cannot pass: a character that begins nothing, or
a literal that is too large (`scan_eq_error_iff`). In one direction this is an induction over
the scan, which keeps that it has arrived where it stands. In the other, a scan that arrives
somewhere is what was scanned before and a scan from there on (`scanFrom_of_arrives`). The
text in front of the error is arrived at to its end (`Arrives.take`), and so it can be scanned.
-/

namespace LineCalc

/-! ## Where a literal begins, and which one -/

namespace Literal

theorem take?_isSome_of_isDigit {c : Char} (h : c.isDigit = true) (cs : List Char) :
    (take? (c :: cs)).isSome = true := by
  have hdigit : (Radix.decimal.digit? c).isSome = true := by
    rw [digit?_of_isDigit h]
    rfl
  unfold take?
  split
  · rfl
  · rfl
  · rfl
  · next heq =>
    obtain ⟨rfl, rfl⟩ := List.cons.inj heq
    rw [if_pos hdigit]
    rfl
  · next heq => cases heq

/-- A literal begins with a digit, and wherever a digit stands there is one. -/
theorem take?_cons_eq_none_iff {c : Char} {cs : List Char} :
    take? (c :: cs) = none ↔ c.isDigit = false := by
  rw [← Bool.not_eq_true, ← Option.not_isSome_iff_eq_none, not_iff_not]
  refine ⟨fun h => ?_, fun h => take?_isSome_of_isDigit h cs⟩
  obtain ⟨⟨l, rest⟩, htake⟩ := Option.isSome_iff_exists.mp h
  obtain ⟨d, ds, htext, hdigit⟩ := exists_isDigit_of_text (longestAt_of_take? htake).wellFormed
  have hfront := take?_text_append htake
  rw [htext, List.cons_append] at hfront
  exact (List.cons.inj hfront).1 ▸ hdigit

theorem eq_of_text_eq {l l' : Literal} (hl : l.WellFormed) (hl' : l'.WellFormed)
    (h : l.text = l'.text) : l = l' := by
  have hend : ClosedBy [] := by simp [ClosedBy]
  have htake := take?_text hl hend
  rw [h, take?_text hl' hend] at htake
  exact (congrArg Prod.fst (Option.some.inj htake)).symm

theorem LongestAt.exists_isDigit {l : Literal} {cs : List Char} (h : l.LongestAt cs) :
    ∃ c tail, cs = c :: tail ∧ c.isDigit = true := by
  obtain ⟨c, tail, htext, hdigit⟩ := exists_isDigit_of_text h.wellFormed
  obtain ⟨rest, hrest⟩ := h.starts
  exact ⟨c, tail ++ rest, by rw [← hrest, htext, List.cons_append], hdigit⟩

/-- The longest literal at the front of a text is the one that is read. -/
theorem LongestAt.take?_eq {l : Literal} {cs : List Char} (h : l.LongestAt cs) :
    take? cs = some (l, cs.drop l.text.length) := by
  have hsome : (take? cs).isSome = true := by
    obtain ⟨c, tail, rfl, hdigit⟩ := h.exists_isDigit
    exact take?_isSome_of_isDigit hdigit tail
  obtain ⟨⟨l', rest⟩, htake⟩ := Option.isSome_iff_exists.mp hsome
  have hread := longestAt_of_take? htake
  -- neither of the two is longer than the other
  have hlength : l'.text.length = l.text.length :=
    Nat.le_antisymm (h.longest l' hread.wellFormed hread.starts)
      (hread.longest l h.wellFormed h.starts)
  have hfront : l'.text <+: l.text :=
    List.prefix_of_prefix_length_le hread.starts h.starts hlength.le
  obtain rfl : l' = l :=
    eq_of_text_eq hread.wellFormed h.wellFormed (hfront.eq_of_length hlength)
  rw [htake, ← take?_text_append htake, List.drop_left]

/-- What is cut off behind a literal makes it no shorter than others. -/
theorem LongestAt.take {l : Literal} {cs : List Char} (h : l.LongestAt cs) {n : Nat}
    (hn : l.text.length ≤ n) : l.LongestAt (cs.take n) where
  wellFormed := h.wellFormed
  starts := List.prefix_take_iff.mpr ⟨h.starts, hn⟩
  longest l' hl' hstarts := h.longest l' hl' (hstarts.trans (List.take_prefix n cs))

theorem toUInt64?_eq_none_iff {l : Literal} (hl : l.WellFormed) :
    l.toUInt64? = none ↔ 2 ^ 64 - 1 < l.positional := by
  rw [toUInt64?_eq, value_eq_positional hl]
  split
  · next hfits => exact iff_of_false nofun (by omega)
  · next hlarge => exact iff_of_true rfl (by omega)

end Literal

namespace Token

/-! ## The places a scan comes to -/

/-- A character that begins nothing: no blank, no end of a line, no symbol and no digit. -/
def Foreign (c : Char) : Prop :=
  c ∉ [' ', '\t', '\n', '\x0c', '+', '-', '*', '/', '(', ')'] ∧ c.isDigit = false

/-- The places in a text where a scan of it stands at some time. -/
inductive Arrives (cs : List Char) : Nat → Prop where
  | start : Arrives cs 0
  | blank {i : Nat} {c : Char} :
      Arrives cs i → cs[i]? = some c → (c = ' ' ∨ c = '\t') → Arrives cs (i + 1)
  | symbol {i : Nat} {c : Char} {k : TokenKind} :
      Arrives cs i → cs[i]? = some c → k.symbol? = some c → Arrives cs (i + 1)
  | literal {i : Nat} {l : Literal} :
      Arrives cs i → l.LongestAt (cs.drop i) → l.positional ≤ 2 ^ 64 - 1 →
      Arrives cs (i + l.text.length)

/-- An error about what stands where a scan arrives, and what it cannot pass. -/
inductive Refuses (cs : List Char) : LexError → Prop where
  | foreign {i : Nat} {c : Char} :
      Arrives cs i → cs[i]? = some c → Foreign c → Refuses cs (.invalidChar i c)
  | tooLarge {i : Nat} {l : Literal} :
      Arrives cs i → l.LongestAt (cs.drop i) → 2 ^ 64 - 1 < l.positional →
      Refuses cs (.literalTooLarge i l.text)

theorem ofSymbol?_eq_none_iff {c : Char} :
    TokenKind.ofSymbol? c = none ↔ c ∉ ['+', '-', '*', '/', '(', ')'] := by
  unfold TokenKind.ofSymbol?
  repeat' split
  all_goals simp_all

/-- A character is foreign if none of the ways to scan it applies. -/
theorem foreign_iff {c : Char} {cs : List Char} :
    Foreign c ↔ endsLine c = false ∧ isBlank c = false ∧ TokenKind.ofSymbol? c = none ∧
      Literal.take? (c :: cs) = none := by
  have hline : endsLine c = false ↔ c ∉ ['\n', '\x0c'] := by simp [endsLine]
  have hblank : isBlank c = false ↔ c ∉ [' ', '\t'] := by simp [isBlank]
  rw [hline, hblank, ofSymbol?_eq_none_iff, Literal.take?_cons_eq_none_iff, Foreign]
  simp only [List.mem_cons, List.not_mem_nil, or_false, not_or]
  tauto

variable {cs : List Char} {i : Nat}

theorem drop_eq_cons {c : Char} (h : cs[i]? = some c) : cs.drop i = c :: cs.drop (i + 1) := by
  obtain ⟨hi, rfl⟩ := List.getElem?_eq_some_iff.mp h
  exact List.drop_eq_getElem_cons hi

theorem of_drop_eq_cons {c : Char} {rest : List Char} (h : cs.drop i = c :: rest) :
    cs[i]? = some c ∧ rest = cs.drop (i + 1) := by
  have hc : cs[i]? = some c := by rw [← List.head?_drop, h, List.head?_cons]
  exact ⟨hc, (List.cons.inj (h.symm.trans (drop_eq_cons hc))).2⟩

/-- A scan has not passed the end of a line. -/
theorem Arrives.ne_lineEnd (h : Arrives cs i) : ∀ c ∈ cs.take i, c ≠ '\n' ∧ c ≠ '\x0c' := by
  induction h with
  | start => simp
  | blank _ hc hblank ih =>
      rw [List.take_add_one, hc]
      refine List.forall_mem_append.mpr ⟨ih, ?_⟩
      rcases hblank with rfl | rfl <;> simp
  | symbol _ hc hsymbol ih =>
      rw [List.take_add_one, hc]
      refine List.forall_mem_append.mpr ⟨ih, ?_⟩
      simpa using ne_lineEnd_of_symbol hsymbol
  | @literal i l _ hl _ ih =>
      rw [List.take_add, ← List.prefix_iff_eq_take.mp hl.starts]
      exact List.forall_mem_append.mpr ⟨ih, fun c => ne_lineEnd_of_mem_text hl.wellFormed⟩

/-- What stands behind a place has no part in whether a scan arrives there. -/
theorem Arrives.take (h : Arrives cs i) {n : Nat} (hn : i ≤ n) : Arrives (cs.take n) i := by
  induction h with
  | start => exact .start
  | blank _ hc hblank ih =>
      exact .blank (ih (by omega)) (by rw [List.getElem?_take_of_lt hn, hc]) hblank
  | symbol _ hc hsymbol ih =>
      exact .symbol (ih (by omega)) (by rw [List.getElem?_take_of_lt hn, hc]) hsymbol
  | @literal i l _ hl hfits ih =>
      have hlonger : l.LongestAt ((cs.take n).drop i) := by
        rw [List.drop_take]
        exact hl.take (by omega)
      exact .literal (ih (by omega)) hlonger hfits

/-! ## What a scan fails on -/

/-- A literal that fits is passed. -/
theorem scanFrom_of_fits {l : Literal} (h : l.LongestAt cs) (hfits : l.positional ≤ 2 ^ 64 - 1)
    (start : Nat) : ∃ t, scanFrom start cs =
      (scanFrom (start + l.text.length) (cs.drop l.text.length)).map (t :: ·) := by
  have htake := h.take?_eq
  obtain ⟨c, tail, hcons, hdigit⟩ := h.exists_isDigit
  obtain ⟨hline, hblank, hsymbol⟩ := of_isDigit hdigit
  cases hv : l.toUInt64? with
  | none =>
      rw [Literal.toUInt64?_eq_none_iff h.wellFormed] at hv
      omega
  | some v =>
      rw [hcons] at htake ⊢
      exact ⟨_, scanFrom_literal hline hblank hsymbol htake hv start⟩

/-- A literal that does not fit is refused. -/
theorem scanFrom_of_tooLarge {l : Literal} (h : l.LongestAt cs)
    (hlarge : 2 ^ 64 - 1 < l.positional) (start : Nat) :
    scanFrom start cs = .error (.literalTooLarge start l.text) := by
  have htake := h.take?_eq
  have hv := (Literal.toUInt64?_eq_none_iff h.wellFormed).mpr hlarge
  obtain ⟨c, tail, hcons, hdigit⟩ := h.exists_isDigit
  obtain ⟨hline, hblank, hsymbol⟩ := of_isDigit hdigit
  rw [hcons] at htake ⊢
  rw [scanFrom]
  simp only [hline, hblank, hsymbol, Bool.false_eq_true, if_false]
  split
  · next hnone => rw [htake] at hnone; cases hnone
  · next l' after hsome =>
    rw [htake] at hsome
    obtain ⟨rfl, rfl⟩ := Prod.mk.inj (Option.some.inj hsome)
    rw [hv]

/-- A foreign character is refused. -/
theorem scanFrom_of_foreign {c : Char} (h : Foreign c) (start : Nat) (rest : List Char) :
    scanFrom start (c :: rest) = .error (.invalidChar start c) := by
  obtain ⟨hline, hblank, hsymbol, htake⟩ := foreign_iff.mp h
  rw [scanFrom]
  simp only [hline, hblank, hsymbol, Bool.false_eq_true, if_false]
  split
  · rfl
  · next l after hsome => rw [htake] at hsome; cases hsome

theorem map_cons_map_append (out : Except LexError (List Token)) (t : Token) (ts : List Token) :
    (out.map (t :: ·)).map (ts ++ ·) = out.map (ts ++ [t] ++ ·) := by
  cases out with
  | error e => rfl
  | ok later => simp [Except.map]

/-- A scan is what it finds before a place where it arrives, and a scan from there on. -/
theorem scanFrom_of_arrives (h : Arrives cs i) :
    ∃ ts, scanFrom 0 cs = (scanFrom i (cs.drop i)).map (ts ++ ·) := by
  induction h with
  | start =>
      refine ⟨[], ?_⟩
      rw [List.drop_zero]
      cases scanFrom 0 cs <;> rfl
  | @blank i c _ hc hblank ih =>
      obtain ⟨ts, hts⟩ := ih
      have hgap : Blanks [c] := by simpa [Blanks] using hblank
      refine ⟨ts, ?_⟩
      rw [hts, drop_eq_cons hc]
      exact congrArg _ (scanFrom_blanks hgap i (cs.drop (i + 1)))
  | @symbol i c k _ hc hsymbol ih =>
      obtain ⟨ts, hts⟩ := ih
      refine ⟨ts ++ [⟨k, none, ⟨i, i + 1⟩⟩], ?_⟩
      rw [hts, drop_eq_cons hc, scanFrom_symbol (TokenKind.ofSymbol?_eq_some_iff.mpr hsymbol),
        map_cons_map_append]
  | @literal i l _ hl hfits ih =>
      obtain ⟨ts, hts⟩ := ih
      obtain ⟨t, ht⟩ := scanFrom_of_fits hl hfits i
      refine ⟨ts ++ [t], ?_⟩
      rw [hts, ht, List.drop_drop, map_cons_map_append]

/-- A text in which a scan arrives can be scanned up to there. -/
theorem scan_take_of_arrives (h : Arrives cs i) :
    ∃ ts, scan (String.ofList (cs.take i)) = .ok ts := by
  obtain ⟨ts, hts⟩ := scanFrom_of_arrives (h.take (Nat.le_refl i))
  have hend : (cs.take i).drop i = [] := by simp
  refine ⟨ts, ?_⟩
  rw [scan, String.toList_ofList, hts, hend, scanFrom_lineEnd (by simp)]
  simp [Except.map]

theorem error_of_map {out : Except LexError (List Token)} {f : List Token → List Token}
    {e : LexError} (h : out.map f = .error e) : out = .error e := by
  cases out with
  | ok ts => cases h
  | error e' => exact congrArg _ (Except.error.inj h)

/-- A scan that has arrived somewhere and fails from there on refuses what it comes to. -/
theorem refuses_of_scans {start : Nat} {rest : List Char} {out : Except LexError (List Token)}
    (h : Scans start rest out) : ∀ {e : LexError}, out = .error e → rest = cs.drop start →
      Arrives cs start → Refuses cs e := by
  induction h with
  | exhausted => intro e hout; cases hout
  | lineEnd => intro e hout; cases hout
  | @blank start c rest out hblank _ ih =>
      intro e hout hrest harrives
      obtain ⟨hc, hnext⟩ := of_drop_eq_cons hrest.symm
      exact ih hout hnext (.blank harrives hc (by simpa [isBlank] using hblank))
  | @symbol start c rest k out hsymbol _ ih =>
      intro e hout hrest harrives
      obtain ⟨hc, hnext⟩ := of_drop_eq_cons hrest.symm
      exact ih (error_of_map hout) hnext (.symbol harrives hc hsymbol)
  | @literal start front rest l v out htake hv _ ih =>
      intro e hout hrest harrives
      have hl := Literal.longestAt_of_take? htake
      have hfits : l.positional ≤ 2 ^ 64 - 1 := by
        rw [← not_lt, ← Literal.toUInt64?_eq_none_iff hl.wellFormed, hv]
        exact Option.some_ne_none v
      have hnext : rest = cs.drop (start + l.text.length) := by
        rw [← List.drop_drop, ← hrest, ← Literal.take?_text_append htake, List.drop_left]
      exact ih (error_of_map hout) hnext (.literal harrives (hrest ▸ hl) hfits)
  | @tooLarge start front rest l htake hv =>
      intro e hout hrest harrives
      cases hout
      have hl := Literal.longestAt_of_take? htake
      exact .tooLarge harrives (hrest ▸ hl) ((Literal.toUInt64?_eq_none_iff hl.wellFormed).mp hv)
  | @invalid start c rest hline hblank hsymbol htake =>
      intro e hout hrest harrives
      cases hout
      exact .foreign harrives (of_drop_eq_cons hrest.symm).1
        (foreign_iff.mpr ⟨hline, hblank, hsymbol, htake⟩)

/-- **A scan fails exactly on what it comes to and cannot pass.** -/
theorem scan_eq_error_iff {source : String} {e : LexError} :
    scan source = .error e ↔ Refuses source.toList e := by
  refine ⟨fun h => refuses_of_scans (scans_scanFrom 0 source.toList) h rfl .start, fun h => ?_⟩
  rw [scan]
  cases h with
  | @foreign i c harrives hc hforeign =>
      obtain ⟨ts, hts⟩ := scanFrom_of_arrives harrives
      rw [hts, drop_eq_cons hc, scanFrom_of_foreign hforeign]
      rfl
  | @tooLarge i l harrives hl hlarge =>
      obtain ⟨ts, hts⟩ := scanFrom_of_arrives harrives
      rw [hts, scanFrom_of_tooLarge hl hlarge]
      rfl

/--
**The first thing that cannot be scanned is reported, with its place.** The error names a
place that the scan arrives at, on the first line, with all in front of it scanned. What it
names stands there, and is a foreign character, or the longest literal there, with a value
beyond 64 bits. Conversely, where a scan arrives at one of these two, it fails with it.
-/
theorem scan_reports_first (source : String) :
    (∀ (e : LexError) (a b : Nat) (w : String),
      scan source = .error e → e.span = ⟨a, b⟩ → e.text = w →
      Arrives source.toList a ∧ (∀ c ∈ source.toList.take a, c ≠ '\n' ∧ c ≠ '\x0c') ∧
      Span.slice ⟨a, b⟩ source.toList = w.toList ∧
      (∃ ts, scan (String.ofList (source.toList.take a)) = .ok ts) ∧
      ((∃ c, b = a + 1 ∧ w = c.toString ∧ Foreign c ∧
          e.message = s!"Invalid character near {a}..{b}: {w}") ∨
        ∃ l : Literal, w = String.ofList l.text ∧ l.LongestAt (source.toList.drop a) ∧
          2 ^ 64 - 1 < l.positional ∧
          e.message = "Parse int failed: number too large to fit in target type\n" ++
            s!"Near {a}..{b}: {w}")) ∧
    ∀ a, Arrives source.toList a →
      (∀ c, source.toList[a]? = some c → Foreign c →
        scan source = .error (.invalidChar a c)) ∧
      ∀ l : Literal, l.LongestAt (source.toList.drop a) → 2 ^ 64 - 1 < l.positional →
        scan source = .error (.literalTooLarge a l.text) := by
  refine ⟨?_, fun a harrives => ⟨fun c hc hforeign => ?_, fun l hl hlarge => ?_⟩⟩
  · rintro e a b w hscan hspan rfl
    cases scan_eq_error_iff.mp hscan with
    | @foreign i c harrives hc hforeign =>
        cases hspan
        refine ⟨harrives, harrives.ne_lineEnd, ?_, scan_take_of_arrives harrives,
          .inl ⟨c, rfl, rfl, hforeign, rfl⟩⟩
        rw [Span.slice, drop_eq_cons hc]
        simp [LexError.text]
    | @tooLarge i l harrives hl hlarge =>
        cases hspan
        refine ⟨harrives, harrives.ne_lineEnd, ?_, scan_take_of_arrives harrives,
          .inr ⟨l, rfl, hl, hlarge, rfl⟩⟩
        rw [Span.slice, Nat.add_sub_cancel_left, ← List.prefix_iff_eq_take.mp hl.starts,
          LexError.text, String.toList_ofList]
  · exact scan_eq_error_iff.mpr (.foreign harrives hc hforeign)
  · exact scan_eq_error_iff.mpr (.tooLarge harrives hl hlarge)

/-- In `0b2`, the lead is a literal, and so is what follows it. No error is seen behind the line. -/
example : scan "0b2\r\n@" = .error (.invalidChar 3 '\r') := by
  cbv

end Token

end LineCalc
