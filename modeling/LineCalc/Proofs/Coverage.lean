import LineCalc.Proofs.Literals
import LineCalc.Proofs.LongestLiteral
import LineCalc.Proofs.Scanning

/-!
# Where every character of a line goes

A scan that succeeds has looked at every character up to the end of the line, and put
each of them in one place: under exactly one token, or between tokens as a blank. A
token is a symbol, or the longest literal there is where it starts.

The invariant, `Accounts`, is about a text that follows another one. What was read
before is kept, so that spans are positions in the whole text all along. There are three
ways in which it is passed on. Nothing is left of the line, a blank is skipped, or a
piece of the line becomes a token.
-/

namespace LineCalc

/-- The characters that stand under a span. -/
def Span.slice (s : Span) (cs : List Char) : List Char := (cs.drop s.start).take (s.stop - s.start)

/-- Whether a position lies in a span. -/
def Span.Covers (s : Span) (i : Nat) : Prop := s.start ≤ i ∧ i < s.stop

namespace Token

/-- A text up to its first newline or form feed. -/
def firstLine (cs : List Char) : List Char := cs.takeWhile fun c => c != '\n' && c != '\x0c'

/--
A token is what stands under its span: the symbol of its kind, or a number, written as
the longest literal that starts there and with the value of that literal.
-/
def StandsIn (cs : List Char) (t : Token) : Prop :=
  (∃ c, t.kind.symbol? = some c ∧ t.value = none ∧ t.span.slice cs = [c]) ∨
    (t.kind = .number ∧ ∃ l : Literal, l.LongestAt (cs.drop t.span.start) ∧
      t.span.slice cs = l.text ∧ t.value = some (l.positional : Int))

/-- Tokens that account for the line with which a text begins, the text standing behind another. -/
structure Accounts (before cs : List Char) (ts : List Token) : Prop where
  after : ∀ t ∈ ts, before.length ≤ t.span.start
  nonempty : ∀ t ∈ ts, t.span.start < t.span.stop
  inside : ∀ t ∈ ts, t.span.stop ≤ before.length + (firstLine cs).length
  ordered : ts.Pairwise fun a b => a.span.stop ≤ b.span.start
  blank : ∀ (i : Nat) (c : Char), (firstLine cs)[i]? = some c →
    (∀ t ∈ ts, ¬ t.span.Covers (before.length + i)) → c = ' ' ∨ c = '\t'
  stands : ∀ t ∈ ts, t.StandsIn (before ++ cs)

section

variable {before piece rest : List Char} {t : Token} {ts : List Token}

theorem slice_append (before piece rest : List Char) :
    Span.slice ⟨before.length, before.length + piece.length⟩ (before ++ (piece ++ rest)) =
      piece := by
  rw [Span.slice, List.drop_left, Nat.add_sub_cancel_left, List.take_left]

theorem firstLine_append (h : ∀ c ∈ piece, c ≠ '\n' ∧ c ≠ '\x0c') :
    firstLine (piece ++ rest) = piece ++ firstLine rest :=
  List.takeWhile_append_of_pos fun c hc => by simp [h c hc]

theorem Accounts.nil {cs : List Char} (h : firstLine cs = []) : Accounts before cs [] where
  after := by simp
  nonempty := by simp
  inside := by simp
  ordered := .nil
  blank := by simp [h]
  stands := by simp

/-- A blank is skipped. -/
theorem Accounts.skip {c : Char} (h : Accounts (before ++ [c]) rest ts) (hc : c = ' ' ∨ c = '\t') :
    Accounts before (c :: rest) ts := by
  have hinside : ∀ x ∈ [c], x ≠ '\n' ∧ x ≠ '\x0c' := by rcases hc with rfl | rfl <;> simp
  have hline : firstLine (c :: rest) = c :: firstLine rest := firstLine_append hinside
  have hlength : (before ++ [c]).length = before.length + 1 := by simp
  refine ⟨?_, h.nonempty, ?_, h.ordered, ?_, ?_⟩
  · intro t ht
    have := h.after t ht
    omega
  · intro t ht
    have := h.inside t ht
    rw [hline, List.length_cons]
    omega
  · intro i x hx hfree
    rw [hline] at hx
    cases i with
    | zero =>
        obtain rfl : c = x := by simpa using hx
        exact hc
    | succ i =>
        refine h.blank i x (by simpa using hx) fun t ht => ?_
        rw [hlength, Nat.add_assoc, Nat.add_comm 1 i]
        exact hfree t ht
  · intro t ht
    simpa using h.stands t ht

/-- A piece of the line becomes a token. -/
theorem Accounts.cons (h : Accounts (before ++ piece) rest ts) (hpiece : piece ≠ [])
    (hline : ∀ c ∈ piece, c ≠ '\n' ∧ c ≠ '\x0c')
    (hspan : t.span = ⟨before.length, before.length + piece.length⟩)
    (ht : t.StandsIn (before ++ (piece ++ rest))) : Accounts before (piece ++ rest) (t :: ts) := by
  have hpos : 0 < piece.length := List.length_pos_iff.mpr hpiece
  have hlength : (before ++ piece).length = before.length + piece.length := List.length_append
  have hlater : ∀ t' ∈ ts, before.length + piece.length ≤ t'.span.start :=
    fun t' ht' => hlength ▸ h.after t' ht'
  have hstart : t.span.start = before.length := congrArg Span.start hspan
  have hstop : t.span.stop = before.length + piece.length := congrArg Span.stop hspan
  refine ⟨?_, ?_, ?_, ?_, ?_, ?_⟩
  · intro t' ht'
    rcases List.mem_cons.mp ht' with rfl | ht'
    · omega
    · have := hlater t' ht'
      omega
  · intro t' ht'
    rcases List.mem_cons.mp ht' with rfl | ht'
    · omega
    · exact h.nonempty t' ht'
  · intro t' ht'
    rw [firstLine_append hline, List.length_append]
    rcases List.mem_cons.mp ht' with rfl | ht'
    · omega
    · have := h.inside t' ht'
      omega
  · refine List.pairwise_cons.mpr ⟨fun t' ht' => ?_, h.ordered⟩
    rw [hstop]
    exact hlater t' ht'
  · intro i c hc hfree
    rw [firstLine_append hline] at hc
    -- a position in the piece is covered by the new token, so this one lies behind it
    have hbehind : piece.length ≤ i := by
      have hfirst := hfree t List.mem_cons_self
      rw [Span.Covers] at hfirst
      omega
    rw [List.getElem?_append_right hbehind] at hc
    refine h.blank (i - piece.length) c hc fun t' ht' => ?_
    rw [hlength, Nat.add_assoc, Nat.add_sub_cancel' hbehind]
    exact hfree t' (List.mem_cons_of_mem t ht')
  · intro t' ht'
    rcases List.mem_cons.mp ht' with rfl | ht'
    · exact ht
    · simpa using h.stands t' ht'

end

/-! ## The pieces that become tokens -/

theorem ne_lineEnd_of_symbol {k : TokenKind} {c : Char} (h : k.symbol? = some c) :
    c ≠ '\n' ∧ c ≠ '\x0c' := by
  cases k <;> cases h <;> decide

theorem ne_lineEnd_of_mem_text {l : Literal} (hl : l.WellFormed) {c : Char} (hc : c ∈ l.text) :
    c ≠ '\n' ∧ c ≠ '\x0c' := by
  have hall : ∀ c ∈ l.radix.lead ++ l.radix.alphabet, c ≠ '\n' ∧ c ≠ '\x0c' := by
    cases l.radix <;> simp [Radix.lead, Radix.alphabet]
  rcases List.mem_append.mp hc with hlead | hrun
  · exact hall c (List.mem_append_left _ hlead)
  · exact hall c (List.mem_append_right _ (hl.1 c hrun))

/-- A scan that succeeds accounts for the line it begins with. -/
theorem accounts_of_scans {start : Nat} {cs : List Char} {out : Except LexError (List Token)}
    (h : Scans start cs out) : ∀ {before : List Char} {ts : List Token}, start = before.length →
      out = .ok ts → Accounts before cs ts := by
  induction h with
  | exhausted =>
      intro before ts _ hout
      cases hout
      exact .nil rfl
  | @lineEnd start c cs hline =>
      intro before ts _ hout
      cases hout
      have hc : c = '\n' ∨ c = '\x0c' := by simpa [endsLine] using hline
      exact .nil (by rcases hc with rfl | rfl <;> rfl)
  | @blank start c cs out hblank _ ih =>
      intro before ts hstart hout
      exact .skip (ih (by simp [hstart]) hout) (by simpa [isBlank] using hblank)
  | @symbol start c cs k out hsymbol _ ih =>
      intro before ts hstart hout
      cases out with
      | error e => cases hout
      | ok later =>
          obtain rfl := Except.ok.inj hout
          subst hstart
          have hinside : ∀ x ∈ [c], x ≠ '\n' ∧ x ≠ '\x0c' := by
            simpa using ne_lineEnd_of_symbol hsymbol
          exact .cons (ih (by simp) rfl) (List.cons_ne_nil c []) hinside rfl
            (.inl ⟨c, hsymbol, rfl, slice_append before [c] cs⟩)
  | @literal start cs rest l v out htake hv _ ih =>
      intro before ts hstart hout
      cases out with
      | error e => cases hout
      | ok later =>
          obtain rfl := Except.ok.inj hout
          subst hstart
          have hlongest := Literal.longestAt_of_take? htake
          obtain rfl := Literal.take?_text_append htake
          refine .cons (ih (by simp) rfl) (Literal.text_ne_nil_of_take? htake)
            (fun c => ne_lineEnd_of_mem_text hlongest.wellFormed) rfl (.inr ⟨rfl, l, ?_, ?_, ?_⟩)
          · simpa using hlongest
          · exact slice_append before l.text rest
          · rw [← Literal.value_eq_positional hlongest.wellFormed, Literal.value_of_toUInt64? hv]
  | tooLarge => intro before ts _ hout; cases hout
  | invalid => intro before ts _ hout; cases hout

/--
**A scan that succeeds accounts for every character exactly once.** The spans of its
tokens are not empty, lie inside the line one behind the other, and between them there
are spaces and tabs only. Under each stands the symbol of its kind, or the longest
literal that starts there, with the value that its digits have by their places.
-/
theorem scan_accounts {source : String} {ts : List Token} (h : scan source = .ok ts) :
    let scanned := firstLine source.toList
    (∀ t ∈ ts, t.span.start < t.span.stop ∧ t.span.stop ≤ scanned.length) ∧
      ts.Pairwise (fun a b => a.span.stop ≤ b.span.start) ∧
      (∀ (i : Nat) (c : Char), scanned[i]? = some c → (∀ t ∈ ts, ¬ t.span.Covers i) →
        c = ' ' ∨ c = '\t') ∧
      ∀ t ∈ ts, t.StandsIn source.toList := by
  intro scanned
  have haccounts : Accounts [] source.toList ts :=
    accounts_of_scans (scans_scanFrom 0 source.toList) rfl h
  refine ⟨fun t ht => ⟨haccounts.nonempty t ht, ?_⟩, haccounts.ordered, ?_, haccounts.stands⟩
  · simpa using haccounts.inside t ht
  · intro i c hc hfree
    exact haccounts.blank i c hc (by simpa using hfree)

/-- In `0b12`, a binary literal ends where no more binary digits follow, and a decimal begins. -/
theorem scan_accounts_adjacent :
    ∃ ts, scan "0b12\t0x_F)\nz" = .ok ts ∧ ts.map span = [⟨0, 3⟩, ⟨3, 4⟩, ⟨5, 9⟩, ⟨9, 10⟩] ∧
      ∀ t ∈ ts, t.StandsIn "0b12\t0x_F)\nz".toList := by
  have h : scan "0b12\t0x_F)\nz" = .ok
      [⟨.number, some 1, ⟨0, 3⟩⟩, ⟨.number, some 2, ⟨3, 4⟩⟩, ⟨.number, some 15, ⟨5, 9⟩⟩,
        ⟨.rightParen, none, ⟨9, 10⟩⟩] := by
    cbv
  exact ⟨_, h, rfl, (scan_accounts h).2.2.2⟩

end Token

end LineCalc
