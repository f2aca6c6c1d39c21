import Mathlib
import LineCalc.Literal

/-!
# The literals of the language, and which of them a text begins with

A literal is a run of digits and underscores behind a lead, and there are four forms:
`[0-9][0-9_]*`, `0b[01_]*`, `0o[0-7_]*` and `0x[0-9a-fA-F_]*`. They are written here as
lists of characters, with a value that is read off the digits by their places, so that
nothing is taken over from the reader.

`Literal.take?` decides by the first two characters which form it reads and never tries
another. Still no literal of any form at the front of the text is longer than the one it
returns (`longestAt_of_take?`). A lead of another form cannot stand there, and a decimal
run that shares its zero with a lead stops behind it, because the letter of a lead is no
decimal digit.
-/

namespace LineCalc

namespace Radix

/-- The characters that a run may be made of. -/
def alphabet : Radix → List Char
  | binary => ['0', '1', '_']
  | octal => ['0', '1', '2', '3', '4', '5', '6', '7', '_']
  | decimal => ['0', '1', '2', '3', '4', '5', '6', '7', '8', '9', '_']
  | hexadecimal =>
    ['0', '1', '2', '3', '4', '5', '6', '7', '8', '9', 'a', 'b', 'c', 'd', 'e', 'f',
      'A', 'B', 'C', 'D', 'E', 'F', '_']

/-- What a digit is worth: its place among the digits, a capital letter as its small one. -/
def worth (c : Char) : Nat :=
  ['0', '1', '2', '3', '4', '5', '6', '7', '8', '9', 'a', 'b', 'c', 'd', 'e', 'f'].idxOf c.toLower

end Radix

namespace Literal

/-- A literal of one of the four forms. -/
def WellFormed (l : Literal) : Prop :=
  (∀ c ∈ l.run, c ∈ l.radix.alphabet) ∧ (l.radix = .decimal → ∃ c ∈ l.run.head?, c ≠ '_')

/-- The value of a literal by the places of its digits, underscores dropped. -/
def positional (l : Literal) : Nat :=
  Nat.ofDigits l.radix.base ((l.run.filter (· != '_')).map Radix.worth).reverse

/-- A literal at the front of a text, such that no literal there is longer. -/
structure LongestAt (l : Literal) (cs : List Char) : Prop where
  wellFormed : l.WellFormed
  starts : l.text <+: cs
  longest : ∀ l' : Literal, l'.WellFormed → l'.text <+: cs → l'.text.length ≤ l.text.length

end Literal

/-! ## Digits -/

namespace Radix

theorem digit?_of_mem {r : Radix} {c : Char} (h : c ∈ r.alphabet) (hc : c ≠ '_') :
    r.digit? c = some (worth c) := by
  cases r <;> fin_cases h <;> first | rfl | exact absurd rfl hc

/-- A digit from nine on is a letter, small or capital. -/
theorem toNat_of_digitValue? {c : Char} {d : Nat} (h : digitValue? c = some d) :
    d < 10 ∧ c.toNat = 48 + d ∨ 10 ≤ d ∧ d < 16 ∧ (c.toNat = 87 + d ∨ c.toNat = 55 + d) := by
  simp only [digitValue?, Char.le_def, UInt32.le_iff_toNat_le, Char.toNat_val,
    Char.reduceToNat] at h
  split at h
  · next hdigit =>
    have hd := Option.some.inj h
    omega
  · split at h
    · next hsmall =>
      have hd := Option.some.inj h
      omega
    · split at h
      · next hcapital =>
        have hd := Option.some.inj h
        omega
      · cases h

theorem mem_alphabet_of_digit? {r : Radix} {c : Char} (h : (r.digit? c).isSome = true) :
    c ∈ r.alphabet := by
  obtain ⟨d, hd⟩ := Option.isSome_iff_exists.mp h
  obtain ⟨hvalue, hbase⟩ := Option.filter_eq_some_iff.mp hd
  have hbelow : d < r.base := of_decide_eq_true hbase
  have hcode := toNat_of_digitValue? hvalue
  -- characters are told apart by their codes, and these are arithmetic
  suffices hmem : ∃ x ∈ r.alphabet, x.toNat = c.toNat by
    obtain ⟨x, hx, hxc⟩ := hmem
    exact Char.toNat_inj.mp hxc ▸ hx
  clear h hd hvalue hbase
  cases r <;> simp only [alphabet, base, List.mem_cons, List.not_mem_nil, or_false,
    exists_eq_or_imp, exists_eq_left, Char.reduceToNat] at hbelow ⊢ <;> omega

theorem continues_iff {r : Radix} {c : Char} : r.continues c = true ↔ c ∈ r.alphabet := by
  rw [continues, Bool.or_eq_true, beq_iff_eq]
  constructor
  · rintro (rfl | h)
    · cases r <;> decide
    · exact mem_alphabet_of_digit? h
  · intro h
    by_cases hc : c = '_'
    · exact .inl hc
    · exact .inr (by rw [digit?_of_mem h hc]; rfl)

end Radix

namespace Literal

theorem filterMap_digit?_of_mem {r : Radix} {cs : List Char} (h : ∀ c ∈ cs, c ∈ r.alphabet) :
    cs.filterMap r.digit? = (cs.filter (· != '_')).map Radix.worth := by
  induction cs with
  | nil => rfl
  | cons c cs ih =>
      have hrest := ih fun x hx => h x (List.mem_cons_of_mem c hx)
      by_cases hc : c = '_'
      · have hnone : r.digit? c = none := by subst hc; cases r <;> rfl
        rw [List.filterMap_cons_none hnone, hrest, List.filter_cons_of_neg (by simp [hc])]
      · rw [List.filterMap_cons_some (Radix.digit?_of_mem (h c List.mem_cons_self) hc), hrest,
          List.filter_cons_of_pos (by simp [hc]), List.map_cons]

/-- What digits are worth by their places is what they are worth read from the front. -/
theorem value_eq_positional {l : Literal} (h : l.WellFormed) : l.value = l.positional := by
  rw [value, digits, filterMap_digit?_of_mem h.1, positional, Nat.ofDigits_eq_foldr,
    List.foldr_reverse, Radix.ofDigits]
  congr 1
  funext n d
  simp [Nat.add_comm, Nat.mul_comm]

/-! ## What is read at the front of a text -/

/-- A text and the form that its first characters call for. -/
structure Opens (r : Radix) (tail cs : List Char) : Prop where
  text_eq : cs = r.lead ++ tail
  digit : r = .decimal → ∃ c ∈ tail.head?, (Radix.decimal.digit? c).isSome
  no_lead : r = .decimal → ∀ r' : Radix, r' ≠ .decimal → ¬ r'.lead <+: tail

/-- A text is read by the form of its lead, and as a decimal if it has none. -/
theorem opens_of_take? {cs : List Char} {p : Literal × List Char} (h : take? cs = some p) :
    ∃ r tail, Opens r tail cs ∧ ofRun r tail = p := by
  unfold take? at h
  split at h
  · exact ⟨.binary, _, ⟨rfl, nofun, nofun⟩, Option.some.inj h⟩
  · exact ⟨.octal, _, ⟨rfl, nofun, nofun⟩, Option.some.inj h⟩
  · exact ⟨.hexadecimal, _, ⟨rfl, nofun, nofun⟩, Option.some.inj h⟩
  · next c tail hb ho hx =>
    split at h
    · next hdigit =>
      refine ⟨.decimal, c :: tail, ⟨rfl, fun _ => ⟨c, rfl, hdigit⟩, fun _ => ?_⟩, Option.some.inj h⟩
      -- a lead would have been read as such
      rintro r hr ⟨after, hlead⟩
      cases r with
      | decimal => exact hr rfl
      | binary => exact (List.cons.inj hlead).elim fun h0 ht => hb after h0.symm ht.symm
      | octal => exact (List.cons.inj hlead).elim fun h0 ht => ho after h0.symm ht.symm
      | hexadecimal => exact (List.cons.inj hlead).elim fun h0 ht => hx after h0.symm ht.symm
    · cases h
  · cases h

theorem length_le_takeWhile {p : Char → Bool} {run cs : List Char} (hrun : ∀ c ∈ run, p c = true)
    (hfront : run <+: cs) : run.length ≤ (cs.takeWhile p).length := by
  obtain ⟨rest, rfl⟩ := hfront
  rw [List.takeWhile_append_of_pos hrun, List.length_append]
  omega

/-- A literal that begins with another lead than the text does not begin the text. -/
theorem radix_eq_of_lead_start {r r' : Radix} {tail run : List Char} (hr : r ≠ .decimal)
    (hr' : r' ≠ .decimal) (h : r'.lead ++ run <+: r.lead ++ tail) : r' = r := by
  cases r <;> cases r' <;> simp_all [Radix.lead]

/-- A decimal in front of a lead ends with the zero of the lead. -/
theorem length_le_one_of_lead {r : Radix} {tail run : List Char} (hr : r ≠ .decimal)
    (hrun : ∀ c ∈ run, c ∈ Radix.decimal.alphabet) (h : run <+: r.lead ++ tail) :
    run.length ≤ 1 := by
  match run, r with
  | [], _ => exact Nat.zero_le 1
  | [_], _ => exact Nat.le_refl 1
  | c :: d :: run, .decimal => exact absurd rfl hr
  | c :: d :: run, .binary => simp_all [Radix.lead, Radix.alphabet]
  | c :: d :: run, .octal => simp_all [Radix.lead, Radix.alphabet]
  | c :: d :: run, .hexadecimal => simp_all [Radix.lead, Radix.alphabet]

theorem wellFormed_of_opens {r : Radix} {tail cs : List Char} (h : Opens r tail cs) :
    (ofRun r tail).1.WellFormed := by
  refine ⟨fun c hc => Radix.continues_iff.mp (List.mem_takeWhile_imp hc), fun hr => ?_⟩
  obtain rfl : r = .decimal := hr
  obtain ⟨c, hc, hdigit⟩ := h.digit rfl
  obtain ⟨after, rfl⟩ := List.head?_eq_some_iff.mp hc
  have hcontinues := Radix.continues_iff.mpr (Radix.mem_alphabet_of_digit? hdigit)
  refine ⟨c, ?_, ?_⟩
  · rw [ofRun, List.takeWhile_cons_of_pos hcontinues]
    rfl
  · rintro rfl
    cases hdigit

/-- **What is read is the longest literal there is**, whichever form the others have. -/
theorem longestAt_of_take? {cs rest : List Char} {l : Literal} (h : take? cs = some (l, rest)) :
    l.LongestAt cs := by
  obtain ⟨r, tail, hopens, hrun⟩ := opens_of_take? h
  obtain rfl : (ofRun r tail).1 = l := congrArg Prod.fst hrun
  refine ⟨wellFormed_of_opens hopens, ⟨rest, take?_text_append h⟩, ?_⟩
  rw [hopens.text_eq]
  intro l' hl' hfront
  have hlength : (ofRun r tail).1.text.length =
      r.lead.length + (tail.takeWhile r.continues).length := List.length_append
  by_cases hsame : l'.radix = r
  · -- the same form: its run goes on no longer
    rw [text, hsame] at hfront
    have hcontinues : ∀ c ∈ l'.run, r.continues c = true :=
      fun c hc => Radix.continues_iff.mpr (hsame ▸ hl'.1 c hc)
    have hle := length_le_takeWhile hcontinues ((List.prefix_append_right_inj _).mp hfront)
    rw [hlength, text, hsame, List.length_append]
    omega
  by_cases hdecimal : r = .decimal
  · -- there is no lead in front of a decimal
    have hlead := hopens.no_lead hdecimal l'.radix fun h => hsame (h.trans hdecimal.symm)
    rw [hdecimal] at hfront
    exact absurd ((List.prefix_append _ _).trans hfront) hlead
  by_cases hother : l'.radix = .decimal
  · have htext : l'.text = l'.run := by rw [text, hother]; rfl
    rw [htext] at hfront ⊢
    have hone := length_le_one_of_lead hdecimal (hother ▸ hl'.1) hfront
    have htwo : r.lead.length = 2 := by cases r <;> first | rfl | exact absurd rfl hdecimal
    omega
  · exact absurd (radix_eq_of_lead_start hdecimal hother hfront) hsame

end Literal

end LineCalc
