import LineCalc.Proofs.DigitCount

/-!
# Scanning a text piece by piece

A blank can be put between two texts, and then each is scanned as it would be alone. What is
found in the second one only stands further on. The text in front must not end its line, for
whatever stands behind the end of a line is not looked at.

Both facts come from one about a text and what follows it (`Scans.append`). The scan of the
text goes on into what follows, provided that this begins with a character that is in no
literal, since a literal in front of it would go on otherwise. Blanks and the ends of lines
are such characters. Where a scan stands when it begins plays no part but that all the
positions it names are counted from there (`Scans.shift`).
-/

namespace LineCalc

/-! ## What is found further on -/

/-- A span so many characters further on. -/
def Span.shift (n : Nat) (s : Span) : Span := ⟨s.start + n, s.stop + n⟩

namespace LexError

/-- An error so many characters further on. -/
def shift (n : Nat) : LexError → LexError
  | invalidChar start c => invalidChar (start + n) c
  | literalTooLarge start cs => literalTooLarge (start + n) cs

/-- What an error is told as if the offending text stands under a span. -/
def messageAt (s : Span) (e : LexError) : String :=
  match e with
  | invalidChar .. => s!"Invalid character near {s.start}..{s.stop}: {e.text}"
  | literalTooLarge .. =>
    "Parse int failed: number too large to fit in target type\n" ++
      s!"Near {s.start}..{s.stop}: {e.text}"

theorem message_eq (e : LexError) : e.message = e.messageAt e.span := by cases e <;> rfl

theorem span_shift (n : Nat) (e : LexError) : (e.shift n).span = e.span.shift n := by
  cases e with
  | invalidChar start c => simp only [shift, span, Span.shift]; congr 1; omega
  | literalTooLarge start cs => simp only [shift, span, Span.shift]; congr 1; omega

theorem message_shift (n : Nat) (e : LexError) :
    (e.shift n).message = e.messageAt (e.span.shift n) := by
  rw [message_eq, span_shift]
  cases e <;> rfl

end LexError

namespace Token

/-- A token so many characters further on. -/
def shift (n : Nat) (t : Token) : Token := { t with span := t.span.shift n }

/-- What a scan comes to if its text stands so many characters further on. -/
def shiftScan (n : Nat) : Except LexError (List Token) → Except LexError (List Token)
  | .error e => .error (e.shift n)
  | .ok ts => .ok (ts.map (shift n))

/-- What two scans come to, one after the other. -/
def joinScans (first next : Except LexError (List Token)) : Except LexError (List Token) :=
  first.bind fun ts => next.map (ts ++ ·)

theorem shiftScan_map_cons (n : Nat) (t : Token) (out : Except LexError (List Token)) :
    shiftScan n (out.map (t :: ·)) = (shiftScan n out).map (t.shift n :: ·) := by
  cases out <;> rfl

theorem joinScans_map_cons (t : Token) (out next : Except LexError (List Token)) :
    joinScans (out.map (t :: ·)) next = (joinScans out next).map (t :: ·) := by
  cases out <;> cases next <;> rfl

theorem joinScans_nil (next : Except LexError (List Token)) : joinScans (.ok []) next = next := by
  cases next <;> rfl

/-! ## One scan for each text -/

variable {start : Nat} {cs rest : List Char} {out next : Except LexError (List Token)}

/-- What a scan comes to by its ways is what it comes to. -/
theorem Scans.eq_scanFrom (h : Scans start cs out) : scanFrom start cs = out := by
  induction h with
  | exhausted => exact scanFrom_lineEnd (by simp) _
  | @lineEnd start c cs hline =>
      rw [scanFrom, if_pos hline]
  | @blank start c cs out hblank _ ih =>
      have hgap : Blanks [c] := by simpa [Blanks, isBlank] using hblank
      rw [← ih]
      exact scanFrom_blanks hgap start cs
  | @symbol start c cs k out hsymbol _ ih =>
      rw [scanFrom_symbol (TokenKind.ofSymbol?_eq_some_iff.mpr hsymbol), ih]
  | @literal start cs rest l v out htake hv _ ih =>
      have hl := Literal.longestAt_of_take? htake
      have hrest : cs.drop l.text.length = rest := by
        rw [← Literal.take?_text_append htake, List.drop_left]
      rw [scanFrom_eq_ofLiteral hl, hrest, ih, ofLiteral, hv]
      rfl
  | @tooLarge start cs rest l htake hv =>
      rw [scanFrom_eq_ofLiteral (Literal.longestAt_of_take? htake), ofLiteral, hv]
      rfl
  | @invalid start c cs hline hblank hsymbol htake =>
      exact scanFrom_of_foreign (foreign_iff.mpr ⟨hline, hblank, hsymbol, htake⟩) start cs

/-- **A scan does not depend on where its text stands**, apart from the positions it names. -/
theorem Scans.shift (h : Scans start cs out) (n : Nat) :
    Scans (start + n) cs (shiftScan n out) := by
  induction h with
  | exhausted => exact .exhausted
  | lineEnd hline => exact .lineEnd hline
  | blank hblank _ ih => exact .blank hblank (Nat.add_right_comm .. ▸ ih)
  | @symbol start c cs k out hsymbol _ ih =>
      have htoken : Token.shift n ⟨k, none, ⟨start, start + 1⟩⟩ =
          ⟨k, none, ⟨start + n, start + n + 1⟩⟩ := by
        rw [Token.shift, Span.shift, Nat.add_right_comm]
      rw [shiftScan_map_cons, htoken]
      exact .symbol hsymbol (Nat.add_right_comm .. ▸ ih)
  | @literal start cs rest l v out htake hv _ ih =>
      have htoken : Token.shift n ⟨.number, some v.toNat, ⟨start, start + l.text.length⟩⟩ =
          ⟨.number, some v.toNat, ⟨start + n, start + n + l.text.length⟩⟩ := by
        rw [Token.shift, Span.shift, Nat.add_right_comm]
      rw [shiftScan_map_cons, htoken]
      exact .literal htake hv (Nat.add_right_comm .. ▸ ih)
  | tooLarge htake hv => exact .tooLarge htake hv
  | invalid hline hblank hsymbol htake => exact .invalid hline hblank hsymbol htake

theorem scanFrom_add (start n : Nat) (cs : List Char) :
    scanFrom (start + n) cs = shiftScan n (scanFrom start cs) :=
  ((scans_scanFrom start cs).shift n).eq_scanFrom

end Token

/-! ## A text and what follows it -/

namespace Literal

variable {l : Literal} {cs rest : List Char}

theorem mem_letters_of_mem_text (hl : l.WellFormed) {c : Char} (hc : c ∈ l.text) :
    c ∈ 'o' :: 'x' :: Radix.hexadecimal.alphabet := by
  rcases List.mem_append.mp hc with hlead | hrun
  · have hall : ∀ x ∈ l.radix.lead, x ∈ 'o' :: 'x' :: Radix.hexadecimal.alphabet := by
      cases l.radix <;> simp [Radix.lead, Radix.alphabet]
    exact hall c hlead
  · have hmem := mem_hexadecimal_of_mem (hl.1 c hrun)
    exact List.mem_cons_of_mem _ (List.mem_cons_of_mem _ hmem)

/-- What follows a text makes no literal in it longer, if it begins with no letter of one. -/
theorem LongestAt.append (h : l.LongestAt cs) (hrest : ClosedBy rest) :
    l.LongestAt (cs ++ rest) where
  wellFormed := h.wellFormed
  starts := h.starts.trans (List.prefix_append cs rest)
  longest l' hl' hstarts := by
    rcases List.prefix_or_prefix_of_prefix hstarts (List.prefix_append cs rest) with
      hinside | ⟨beyond, hbeyond⟩
    · exact h.longest l' hl' hinside
    · rw [← hbeyond, List.prefix_append_right_inj] at hstarts
      cases beyond with
      | nil => exact h.longest l' hl' (by rw [← hbeyond, List.append_nil])
      | cons c beyond =>
          -- the first character behind the text would be a letter of the literal
          have hletter := mem_letters_of_mem_text hl' (c := c) (by rw [← hbeyond]; simp)
          obtain ⟨tail, rfl⟩ := hstarts
          exact absurd hletter (hrest c rfl)

theorem take?_append {after : List Char} (h : take? cs = some (l, after))
    (hrest : ClosedBy rest) : take? (cs ++ rest) = some (l, after ++ rest) := by
  have hl := longestAt_of_take? h
  have hdrop : cs.drop l.text.length = after := by
    rw [← take?_text_append h, List.drop_left]
  rw [(hl.append hrest).take?_eq, List.drop_append_of_le_length hl.starts.length_le, hdrop]

end Literal
namespace Token

/-- **A scan goes on into what follows its text**, if no literal can. -/
theorem Scans.append (h : Scans start cs out) (hline : ∀ c ∈ cs, c ≠ '\n' ∧ c ≠ '\x0c')
    (hrest : Literal.ClosedBy rest) (hnext : Scans (start + cs.length) rest next) :
    Scans start (cs ++ rest) (joinScans out next) := by
  induction h with
  | exhausted => exact (joinScans_nil next).symm ▸ hnext
  | @lineEnd start c cs hend =>
      have hc := hline c List.mem_cons_self
      simp [endsLine, hc] at hend
  | @blank start c cs out hblank _ ih =>
      obtain ⟨-, hcs⟩ := List.forall_mem_cons.mp hline
      exact .blank hblank (ih hcs (by rwa [List.length_cons, Nat.add_comm cs.length,
        ← Nat.add_assoc] at hnext))
  | @symbol start c cs k out hsymbol _ ih =>
      obtain ⟨-, hcs⟩ := List.forall_mem_cons.mp hline
      rw [joinScans_map_cons]
      exact .symbol hsymbol (ih hcs (by rwa [List.length_cons, Nat.add_comm cs.length,
        ← Nat.add_assoc] at hnext))
  | @literal start cs after l v out htake hv _ ih =>
      have hcs := Literal.take?_text_append htake
      rw [joinScans_map_cons]
      refine .literal (Literal.take?_append htake hrest) hv (ih (fun c hc => hline c ?_) ?_)
      · rw [← hcs]
        exact List.mem_append_right _ hc
      · rwa [← hcs, List.length_append, ← Nat.add_assoc] at hnext
  | @tooLarge start cs after l htake hv => exact .tooLarge (Literal.take?_append htake hrest) hv
  | @invalid start c cs hend hblank hsymbol htake =>
      have hdigit := Literal.take?_cons_eq_none_iff.mp htake
      exact .invalid hend hblank hsymbol (Literal.take?_cons_eq_none_iff.mpr hdigit)

theorem joinScans_ok_nil (out : Except LexError (List Token)) : joinScans out (.ok []) = out := by
  cases out with
  | error e => rfl
  | ok ts => exact congrArg _ (List.append_nil ts)

/-- **What stands behind the end of a line is not scanned.** -/
theorem scanFrom_firstLine (start : Nat) (cs : List Char) :
    scanFrom start (firstLine cs) = scanFrom start cs := by
  let rest := cs.dropWhile fun c => c != '\n' && c != '\x0c'
  have hline : ∀ c ∈ firstLine cs, c ≠ '\n' ∧ c ≠ '\x0c' := fun c hc => by
    simpa using List.mem_takeWhile_imp hc
  have hend : ∀ c ∈ rest.head?, c = '\n' ∨ c = '\x0c' := by
    intro c hc
    have hstop := List.head?_dropWhile_not (fun c => c != '\n' && c != '\x0c') cs
    rw [Option.mem_def.mp hc] at hstop
    simpa [or_iff_not_imp_left] using hstop
  have hclosed : Literal.ClosedBy rest := by
    intro c hc
    rcases hend c hc with rfl | rfl <;> simp [Radix.alphabet]
  have hnext := scans_scanFrom (start + (firstLine cs).length) rest
  rw [scanFrom_lineEnd hend] at hnext
  have hall := ((scans_scanFrom start (firstLine cs)).append hline hclosed hnext).eq_scanFrom
  rw [joinScans_ok_nil] at hall
  rw [← hall, firstLine, List.takeWhile_append_dropWhile]

variable {s t : List Char} {c : Char}

theorem scanFrom_append_blank (hs : ∀ x ∈ s, x ≠ '\n' ∧ x ≠ '\x0c') (hc : c = ' ' ∨ c = '\t') :
    scanFrom 0 (s ++ c :: t) =
      joinScans (scanFrom 0 s) (shiftScan (s.length + 1) (scanFrom 0 t)) := by
  have hclosed : Literal.ClosedBy (c :: t) :=
    Written.closedBy_of_mem (by rcases hc with rfl | rfl <;> simp)
  have hblank : isBlank c = true := by rcases hc with rfl | rfl <;> rfl
  have hnext : Scans (0 + s.length) (c :: t) (shiftScan (s.length + 1) (scanFrom 0 t)) := by
    rw [← scanFrom_add]
    exact .blank hblank (Nat.add_assoc .. ▸ scans_scanFrom _ t)
  exact ((scans_scanFrom 0 s).append hs hclosed hnext).eq_scanFrom

theorem firstLine_append_lineEnd (hc : c = '\n' ∨ c = '\x0c') :
    firstLine (s ++ c :: t) = firstLine s := by
  have hstop : firstLine (c :: t) = [] :=
    List.takeWhile_cons_of_neg (by rcases hc with rfl | rfl <;> simp)
  rw [firstLine, List.takeWhile_append, ← firstLine, ← firstLine, hstop, List.append_nil]
  split
  · next hwhole => exact ((List.takeWhile_prefix _).eq_of_length hwhole).symm
  · rfl

/--
**Scanning is compositional at blanks, and blind behind the end of a line.** If a text has no
line end, a space or a tab may follow it, and then another text. The first error is that of the
first text, and if there is none, that of the second, so many characters further on, in its
span and in its message. If there is no error, the tokens are those of both, the second ones
further on. Where a text is followed by a line end, nothing that comes behind it matters.
-/
theorem scan_joined (s t : String) (c : Char) :
    ((∀ x ∈ s.toList, x ≠ '\n' ∧ x ≠ '\x0c') → c = ' ' ∨ c = '\t' →
      (∀ e, scan s = .error e → scan (s.push c ++ t) = .error e) ∧
      (∀ ts e, scan s = .ok ts → scan t = .error e → ∃ e', scan (s.push c ++ t) = .error e' ∧
        e'.span = e.span.shift (s.length + 1) ∧ e'.text = e.text ∧
        e'.message = e.messageAt (e.span.shift (s.length + 1))) ∧
      ∀ ts us, scan s = .ok ts → scan t = .ok us →
        scan (s.push c ++ t) = .ok (ts ++ us.map (shift (s.length + 1)))) ∧
    (c = '\n' ∨ c = '\x0c' → scan (s.push c ++ t) = scan s) := by
  have htext : (s.push c ++ t).toList = s.toList ++ c :: t.toList := by simp
  constructor
  · intro hs hc
    have hscan : scan (s.push c ++ t) = joinScans (scan s) (shiftScan (s.length + 1) (scan t)) := by
      rw [scan, htext]
      exact scanFrom_append_blank hs hc
    refine ⟨fun e he => ?_, fun ts e hts he => ?_, fun ts us hts hus => ?_⟩
    · rw [hscan, he]
      rfl
    · refine ⟨e.shift (s.length + 1), ?_, e.span_shift _, ?_, e.message_shift _⟩
      · rw [hscan, hts, he]
        rfl
      · cases e <;> rfl
    · rw [hscan, hts, hus]
      rfl
  · intro hc
    rw [scan, scan, htext, ← scanFrom_firstLine, firstLine_append_lineEnd hc, scanFrom_firstLine]

/-- The error of the second text stands behind the first one and a tab. -/
theorem scan_joined_shifted :
    (∀ x ∈ "0x".toList, x ≠ '\n' ∧ x ≠ '\x0c') ∧ scan "0x" = .ok [⟨.number, some 0, ⟨0, 2⟩⟩] ∧
      scan "1+b" = .error (.invalidChar 2 'b') ∧
      ∃ e, scan "0x\t1+b" = .error e ∧ e.span = ⟨5, 6⟩ ∧
        e.message = "Invalid character near 5..6: b" := by
  have hs : ∀ x ∈ "0x".toList, x ≠ '\n' ∧ x ≠ '\x0c' := by simp
  have hfirst : scan "0x" = .ok [⟨.number, some 0, ⟨0, 2⟩⟩] := by cbv
  have hsecond : scan "1+b" = .error (.invalidChar 2 'b') := by cbv
  obtain ⟨e, he, hspan, -, hmessage⟩ :=
    ((scan_joined "0x" "1+b" '\t').1 hs (.inr rfl)).2.1 _ _ hfirst hsecond
  exact ⟨hs, hfirst, hsecond, e, he, hspan, hmessage⟩

end Token

end LineCalc
