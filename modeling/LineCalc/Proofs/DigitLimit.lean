import LineCalc.Proofs.Literals
import LineCalc.Toml.Document

/-!
# Where reading stops at an integer

Reading stops at the first thing that is wrong with a text. One such thing is a decimal integer
of more than `Radix.digitLimit` digits: it is well formed, and yet it is not turned into a number.
Wherever it stands, in an array, in an inline table or behind a dotted key, the text holds all
the digits that are counted (`Reading.Within`), so no text of that many characters or fewer is
refused in this way (`read_oversized`). Nor is more than a line needed: an entry with an integer is
read as that integer up to the limit, and from there on it is refused (`read_entry`).
-/

namespace LineCalc.Toml

variable {α β : Type} {s : List Char} {m : Nat}

/-! ## What stops reading is a part of the text -/

/--
If reading stops at an integer, the integer has too many digits, and no more than so many.
-/
def Reading.Within (m : Nat) (r : Reading α) : Prop :=
  ∀ n, r = .error (.oversized n) → Radix.digitLimit < n ∧ n ≤ m

namespace Reading.Within

variable {r : Reading α}

theorem ok (x : α) : Within m (.ok x) := nofun

theorem malformed : Within m (.error .malformed : Reading α) := nofun

theorem ofOption (x : Option α) : Within m (.ofOption x) := by
  cases x with
  | none => exact malformed
  | some x => exact ok x

/-- Whatever was to be read, an error is the same. -/
theorem error {e : ReadError} (h : Within m (.error e : Reading α)) :
    Within m (.error e : Reading β) := fun n hn => h n (by cases hn; rfl)

theorem mono {k : Nat} (h : r.Within m) (hmk : m ≤ k) : r.Within k := fun n hn =>
  ⟨(h n hn).1, (h n hn).2.trans hmk⟩

/-- What is read after something else may stop the reading too. -/
theorem bind {f : α → Reading β} (h : r.Within m) (hf : ∀ x, r = .ok x → (f x).Within m) :
    (r >>= f).Within m := by
  cases r with
  | error e => exact h.error
  | ok x => exact hf x rfl

theorem map (h : r.Within m) (f : α → β) : Within m (r.map f) := by
  cases r with
  | error e => exact h.error
  | ok x => exact ok (f x)

/-- That a step leaves a shorter rest is one more way to be malformed. -/
theorem ofReading {r : Reading (α × List Char)} (h : r.Within m) :
    (Step.ofReading s r).Within m := by
  cases r with
  | error e => exact h.error
  | ok x =>
      rw [Step.ofReading]
      split
      · exact ok _
      · exact malformed

end Reading.Within

theorem sign_length_le (s : List Char) : (sign s).2.length ≤ s.length := by
  unfold sign
  split <;> simp

/-- Digits and what follows them are parts of the text, in which underscores are left out. -/
theorem digitRun_length_le (r : Radix) (s : List Char) :
    (digitRun r s).1.length + (digitRun r s).2.length ≤ s.length := by
  fun_induction digitRun r s <;> simp +zetaDelta only [List.length_cons, List.length_nil] <;> omega

theorem wholeDigits?_length_le {ds rest : List Char} (h : wholeDigits? s = some (ds, rest)) :
    ds.length + rest.length ≤ s.length := by
  unfold wholeDigits? at h
  split at h
  · cases h
    simp [Nat.add_comm]
  · unfold digits? at h
    split at h
    · next c cs _ =>
      split_ifs at h with hc
      have hrun := digitRun_length_le .decimal (c :: cs)
      rwa [Option.some.inj h] at hrun
    · cases h

/-- Digits are counted before they are turned into a number, and only here. -/
theorem decimal_within (s : List Char) : (decimal s).Within s.length := by
  have hsign := sign_length_le s
  unfold decimal
  split
  · exact .malformed
  · next whole rest hwhole =>
    have hlength := wholeDigits?_length_le hwhole
    split
    · refine .map (fun n hn => ?_) _
      rw [decimalInteger] at hn
      split_ifs at hn with hlimit
      cases hn
      exact ⟨hlimit, by omega⟩
    · exact .ok _
    · exact .ok _

theorem number_within (s : List Char) : (number s).Within s.length := by
  unfold number
  split
  · exact .ok _
  · exact .ofOption _
  · exact decimal_within s

theorem scalar_within (s : List Char) : (scalar s).Within s.length := by
  unfold scalar
  split
  · next c rest =>
    split_ifs
    · exact .ofOption _
    · split
      · exact .ok _
      · exact number_within _
  · exact .malformed

mutual

/-- Whatever a value holds is read from a part of its own text. -/
theorem value_within (s : List Char) : (value s).Within s.length := by
  unfold value
  split
  · next rest => exact .map ((elements_within rest).mono (by simp)) _
  · next rest =>
    have := skipGap_length_le rest
    split
    · exact .ok _
    · have hmembers := members_within {} (skipGap rest)
      exact .map (hmembers.mono (by simp only [List.length_cons]; omega)) _
  · exact .ofReading (scalar_within _)
termination_by 4 * s.length
decreasing_by all_goals subst_vars; simp only [List.length_cons]; omega

theorem elements_within (s : List Char) : (elements s).Within s.length := by
  rw [elements]
  split
  · exact .malformed
  · exact .ok _
  · next start _ h =>
    have := skipFiller_length_le h
    have hvalue := (value_within start).mono this
    split
    · next e he => exact (he ▸ hvalue).error
    · next x hx =>
      have := x.shorter
      split
      · exact .ok _
      · next rest h' =>
        have hrest := skipFiller_length_le h'
        have : rest.length < s.length := by simp only [List.length_cons] at hrest; omega
        exact .map ((elements_within rest).mono (by omega)) _
      · exact .malformed
termination_by 4 * s.length + 1

theorem members_within (t : Inline) (s : List Char) : (members t s).Within s.length := by
  rw [members]
  have hpair := pair_within s
  split
  · next e he => exact (he ▸ hpair).error
  · next x hx =>
    split
    · exact .malformed
    · next t _ =>
      have := x.shorter
      have := skipGap_length_le x.rest
      split
      · exact .ok _
      · next rest h =>
        have hrest := congrArg List.length h
        have := skipGap_length_le rest
        have : (skipGap rest).length < s.length := by simp only [List.length_cons] at hrest; omega
        exact .map ((members_within t (skipGap rest)).mono (by omega)) _
      · exact .malformed
termination_by 4 * s.length + 2

theorem pair_within (s : List Char) : (pair s).Within s.length := by
  rw [pair]
  split
  · exact .malformed
  · next key _ =>
    have := key.shorter
    split
    · next rest h =>
      have hrest := congrArg List.length h
      have := skipGap_length_le rest
      have : (skipGap rest).length < s.length := by simp only [List.length_cons] at hrest; omega
      exact .map ((value_within (skipGap rest)).mono (by omega)) _
    · exact .malformed
termination_by 4 * s.length + 1

end

theorem statement_within (s : List Char) : (statement s).Within s.length := by
  unfold statement
  split
  · exact .ofOption _
  · exact .ofOption _
  · exact .ofOption _
  · exact .ofOption _
  · exact .map (pair_within _) _

theorem line_within (s : List Char) : (line s).Within s.length := by
  have hgap := skipGap_length_le s
  refine .ofReading (.bind ((statement_within _).mono hgap) fun x _ => ?_)
  exact .bind (.ofOption _) fun rest _ => .ok _

/-- What stops the reading of a line stops that of the document. -/
theorem Document.read_within (d : Document) (s : List Char) : (d.read s).Within s.length := by
  fun_induction Document.read d s with
  | case1 d => exact .ok d
  | case2 d c rest e he =>
      have hline := line_within (c :: rest)
      exact (he ▸ hline).error
  | case3 => exact .malformed
  | case4 d c rest l hl _ d' _ ih => exact ih.mono l.shorter.le

theorem joinLineEnds_length_le (s : List Char) : (joinLineEnds s).length ≤ s.length := by
  fun_induction joinLineEnds s <;> simp only [List.length_cons, List.length_nil] <;> omega

/-- **An integer that stops reading has too many digits**, and they all stand in the text. -/
theorem read_oversized {text : String} {n : Nat} (h : read text = .error (.oversized n)) :
    Radix.digitLimit < n ∧ n ≤ text.length := by
  have hwithin := (Document.read_within {} (joinLineEnds text.toList)).map (·.root)
  have hn := hwithin n h
  have := joinLineEnds_length_le text.toList
  rw [String.length_toList] at this
  omega

/-! ## A line with an integer -/

/-- What a step has read and left. -/
def Reading.forget (r : Reading (Step α s)) : Reading (α × List Char) :=
  r.map fun x => (x.value, x.rest)

theorem map_eq_forget_map (r : Reading (Step α s)) (f : α × List Char → β) :
    r.map (fun x => f (x.value, x.rest)) = r.forget.map f := by
  cases r <;> rfl

/-- A step that is changed or put into a longer text has read the same. -/
theorem forget_map {f : α → β} {t : List Char} (r : Reading (Step α s)) (h : s.length ≤ t.length) :
    Reading.forget (r.map fun x => (x.map f).widen h) =
      r.forget.map fun p => (f p.1, p.2) := by
  cases r <;> rfl

/-- What is read as a step is what was to be read, if the rest is shorter. -/
theorem forget_ofReading {r : Reading (α × List Char)}
    (h : ∀ x rest, r = .ok (x, rest) → rest.length < s.length) :
    (Step.ofReading s r).forget = r := by
  cases r with
  | error e => rfl
  | ok p => rw [Step.ofReading, dif_pos (h p.1 p.2 rfl)]; rfl

/-- Nothing follows digits that are all there is. -/
theorem digitRun_of_digits {r : Radix} {ds : List Char} (h : ∀ c ∈ ds, isDigit r c = true) :
    digitRun r ds = (ds, []) := by
  induction ds with
  | nil => rfl
  | cons c cs ih =>
      have hc := h c List.mem_cons_self
      rw [digitRun, if_pos hc, ih fun c' hc' => h c' (List.mem_cons_of_mem c hc')]
      rintro c' rest rfl -
      exact absurd hc (by cases r <;> decide)

/-- Digits, of which the first is a zero only if there is no other. -/
structure IsNumeral (ds : List Char) : Prop where
  ne_nil : ds ≠ []
  isDigit : ∀ c ∈ ds, c.isDigit = true
  lone_zero : ds.head? = some '0' → ds = ['0']

/-- A number is written out as a numeral. -/
theorem isNumeral_toDigits (n : Nat) : IsNumeral (Nat.toDigits 10 n) where
  ne_nil := Nat.toDigits_ne_nil
  isDigit _ := Literal.isDigit_of_mem
  lone_zero hhead := by
    by_cases hn : n = 0
    · subst hn
      rfl
    · exact absurd hhead (Literal.head?_toDigits hn)

namespace IsNumeral

variable {ds : List Char} (hds : IsNumeral ds)

include hds

theorem not_mem {c : Char} (hc : c.isDigit = false) : c ∉ ds := fun hmem => by
  rw [hds.isDigit c hmem] at hc
  cases hc

theorem ne_of_mem {c d : Char} (hc : c.isDigit = false) (hd : d ∈ ds) : d ≠ c := fun heq =>
  hds.not_mem hc (heq ▸ hd)

/-- A numeral is all whole digits: its first digit does not keep the others off. -/
theorem wholeDigits?_eq : wholeDigits? ds = some (ds, []) := by
  have hdigit (c : Char) (hc : c ∈ ds) : Toml.isDigit .decimal c = true := by
    rw [Toml.isDigit, Literal.digit?_of_isDigit (hds.isDigit c hc)]
    rfl
  unfold wholeDigits?
  split
  · next rest => rw [List.cons.inj (hds.lone_zero rfl) |>.2]
  · obtain ⟨c, cs, rfl⟩ := List.exists_cons_of_ne_nil hds.ne_nil
    rw [digits?, if_pos (hdigit c List.mem_cons_self), digitRun_of_digits hdigit]

theorem sign_eq : sign ds = (false, ds) := by
  unfold sign
  split
  · exact absurd List.mem_cons_self (hds.not_mem (by decide))
  · exact absurd List.mem_cons_self (hds.not_mem (by decide))
  · rfl

theorem skipGap_eq : skipGap ds = ds := by
  obtain ⟨c, cs, rfl⟩ := List.exists_cons_of_ne_nil hds.ne_nil
  have hspace : c ≠ ' ' := hds.ne_of_mem (by decide) List.mem_cons_self
  have htab : c ≠ '\t' := hds.ne_of_mem (by decide) List.mem_cons_self
  exact List.dropWhile_cons_of_neg (by simp [isGap, hspace, htab])

theorem bool?_eq : bool? ds = none := by
  unfold bool?
  split
  · exact absurd List.mem_cons_self (hds.not_mem (by decide))
  · exact absurd List.mem_cons_self (hds.not_mem (by decide))
  · rfl

/-- The zero in front of a lead is followed by a letter. -/
theorem led?_eq : led? ds = none := by
  have hsecond {a b : Char} {cs : List Char} (heq : ds = a :: b :: cs) : b.isDigit = true :=
    hds.isDigit b (heq ▸ List.mem_cons_of_mem _ List.mem_cons_self)
  unfold led?
  split
  · exact absurd (hsecond rfl) (by decide)
  · exact absurd (hsecond rfl) (by decide)
  · exact absurd (hsecond rfl) (by decide)
  · rfl

theorem after?_eq {c : Char} (hc : c.isDigit = false) (n : Nat) : after? c (ds.drop n) = none := by
  cases hdrop : ds.drop n with
  | nil => rfl
  | cons d rest =>
      have hmem : d ∈ ds := List.mem_of_mem_drop (hdrop ▸ List.mem_cons_self)
      exact if_neg (by simpa using hds.ne_of_mem hc hmem)

/-- Digits alone are no date and no time of day, which have other characters between them. -/
theorem moment?_eq : moment? ds = none := by
  have hdash (n : Nat) := hds.after?_eq (by decide : '-'.isDigit = false) n
  have hcolon (n : Nat) := hds.after?_eq (by decide : ':'.isDigit = false) n
  have hdate : date? ds = none := by
    rw [date?, fixedDigits?]
    split_ifs
    · simp [hdash]
    · rfl
  have htime : timeOfDay? ds = none := by
    rw [timeOfDay?, fixedDigits?]
    split_ifs
    · simp [hcolon]
    · rfl
  rw [moment?, dated?, hdate, htime]
  rfl

/-- A numeral is an integer, unless it has too many digits. -/
theorem scalar_eq : scalar ds = (decimalInteger false ds).map (·, []) := by
  have hdecimal : decimal ds = (decimalInteger false ds).map (·, []) := by
    rw [decimal, hds.sign_eq, hds.wholeDigits?_eq]
    rfl
  have hnumber : number ds = (decimalInteger false ds).map (·, []) := by
    rw [number, hds.led?_eq, hdecimal, decimalInteger]
    split_ifs <;> rfl
  have hbool := hds.bool?_eq
  have hmoment := hds.moment?_eq
  obtain ⟨c, cs, rfl⟩ := List.exists_cons_of_ne_nil hds.ne_nil
  have hquote : (c == '"' || c == '\'') = false := by
    have hdouble : c ≠ '"' := hds.ne_of_mem (by decide) List.mem_cons_self
    have hsingle : c ≠ '\'' := hds.ne_of_mem (by decide) List.mem_cons_self
    simp [hdouble, hsingle]
  rw [scalar, hquote, hbool, hmoment]
  exact hnumber

/-- As a value a numeral is an integer and nothing else, neither an array nor a table. -/
theorem forget_value : (value ds).forget = (decimalInteger false ds).map (·, []) := by
  unfold value
  split
  · exact absurd List.mem_cons_self (hds.not_mem (by decide))
  · exact absurd List.mem_cons_self (hds.not_mem (by decide))
  · rw [hds.scalar_eq]
    cases decimalInteger false ds with
    | error e => rfl
    | ok x =>
        refine forget_ofReading fun y rest hy => ?_
        cases hy
        exact List.length_pos_iff.mpr hds.ne_nil

end IsNumeral

/-! An entry is read through its key and its line to the document that it alone makes. -/

section Entry

variable {key ds : List Char} (hne : key ≠ []) (hbare : ∀ c ∈ key, isBare c = true)

include hne hbare

theorem head_bare : ∃ c cs, key = c :: cs ∧ isBare c = true := by
  obtain ⟨c, cs, rfl⟩ := List.exists_cons_of_ne_nil hne
  exact ⟨c, cs, rfl, hbare c List.mem_cons_self⟩

/-- A bare key ends at the equals sign. -/
theorem keyPart?_bare (ds : List Char) :
    keyPart? (key ++ '=' :: ds) = some (String.ofList key, '=' :: ds) := by
  have hequals : ¬ isBare '=' = true := by decide
  obtain ⟨c, cs, hcons, hc⟩ := head_bare hne hbare
  have htake : (key ++ '=' :: ds).takeWhile isBare = key := by
    rw [List.takeWhile_append_of_pos hbare, List.takeWhile_cons_of_neg hequals, List.append_nil]
  have hdrop : (key ++ '=' :: ds).dropWhile isBare = '=' :: ds := by
    rw [List.dropWhile_append_of_pos hbare, List.dropWhile_cons_of_neg hequals]
  unfold keyPart?
  split
  · next heq =>
    obtain ⟨rfl, -⟩ := List.cons.inj (hcons ▸ heq)
    exact absurd hc (by decide)
  · next heq =>
    obtain ⟨rfl, -⟩ := List.cons.inj (hcons ▸ heq)
    exact absurd hc (by decide)
  · rw [htake, hdrop, hcons]

theorem key?_bare (ds : List Char) : ∃ x, key? (key ++ '=' :: ds) = some x ∧
    x.value = [String.ofList key] ∧ x.rest = '=' :: ds := by
  have hlength := List.length_pos_iff.mpr hne
  unfold key?
  rw [keyPart?_bare hne hbare, Step.of?, dif_pos (by simp; omega)]
  exact ⟨_, rfl, rfl, rfl⟩

/-- An entry is its key and the integer behind the equals sign. -/
theorem forget_pair (hds : IsNumeral ds) :
    (pair (key ++ '=' :: ds)).forget =
      (decimalInteger false ds).map fun x => (([String.ofList key], x), []) := by
  obtain ⟨x, hx, hvalue, hrest⟩ := key?_bare hne hbare ds
  unfold pair
  rw [hx]
  dsimp only
  split
  · next rest h =>
    obtain rfl : rest = ds := (List.cons.inj (h.symm.trans hrest)).2
    rw [forget_map, hds.skipGap_eq, hds.forget_value, hvalue]
    cases decimalInteger false rest <;> rfl
  · next hnone => exact absurd hrest (hnone ds)

theorem statement_entry (hds : IsNumeral ds) :
    statement (key ++ '=' :: ds) =
      (decimalInteger false ds).map fun x => (some (.entry [String.ofList key] x), []) := by
  obtain ⟨c, cs, hcons, hc⟩ := head_bare hne hbare
  have hpair := forget_pair hne hbare hds
  have hhead {d : Char} {rest : List Char} (h : key ++ '=' :: ds = d :: rest) : isBare d = true :=
    (List.cons.inj (hcons ▸ h)).1 ▸ hc
  unfold statement
  split
  · next h => exact absurd h (by simp)
  · next h => exact absurd (hhead h) (by decide)
  · next h => exact absurd (hhead h) (by decide)
  · next h => exact absurd (hhead h) (by decide)
  · have hforget := map_eq_forget_map (pair (key ++ '=' :: ds)) fun p =>
      (some (Statement.entry p.1.1 p.1.2), p.2)
    rw [hforget, hpair]
    cases decimalInteger false ds <;> rfl

/-- A line with such an entry has no other statement, and nothing is left behind it. -/
theorem forget_line (hds : IsNumeral ds) :
    (line (key ++ '=' :: ds)).forget =
      ((decimalInteger false ds).map fun x => some (.entry [String.ofList key] x)).map (·, []) := by
  have hgap : skipGap (key ++ '=' :: ds) = key ++ '=' :: ds := by
    obtain ⟨c, cs, hcons, hc⟩ := head_bare hne hbare
    rw [hcons]
    refine List.dropWhile_cons_of_neg fun hgap => ?_
    obtain rfl | rfl : c = ' ' ∨ c = '\t' := by simpa [isGap] using hgap
    · exact absurd hc (by decide)
    · exact absurd hc (by decide)
  unfold line
  rw [hgap, statement_entry hne hbare hds]
  cases decimalInteger false ds with
  | error e => rfl
  | ok x =>
      refine forget_ofReading fun y rest hy => ?_
      cases hy
      simp

end Entry

/-- Only carriage returns are left out. -/
theorem joinLineEnds_of_not_mem {s : List Char} (h : '\r' ∉ s) : joinLineEnds s = s := by
  fun_induction joinLineEnds s with
  | case1 rest => exact absurd List.mem_cons_self h
  | case2 c rest _ ih => rw [ih fun hmem => h (List.mem_cons_of_mem c hmem)]
  | case3 => rfl

/-- A document is the last line put into it, unless that line stops the reading. -/
theorem Document.read_last_line (d : Document) (hs : s ≠ []) {r : Reading (Option Statement)}
    (h : (line s).forget = r.map (·, [])) :
    d.read s = r >>= fun x => .ofOption (x.elim (some d) d.apply) := by
  obtain ⟨c, rest, rfl⟩ := List.exists_cons_of_ne_nil hs
  rw [Document.read]
  cases hline : line (c :: rest) with
  | error e =>
      rw [hline] at h
      cases r with
      | error e' => cases h; rfl
      | ok x => cases h
  | ok l =>
      rw [hline] at h
      cases r with
      | error e' => cases h
      | ok x =>
          obtain ⟨rfl, hrest⟩ := Prod.mk.inj (Except.ok.inj h)
          simp only [hrest, Document.read, bind, Except.bind]
          cases l.value.elim (some d) d.apply <;> rfl

/-- The limit on digits is one on the number. -/
theorem decimalInteger_toDigits (n : Nat) :
    decimalInteger false (Nat.toDigits 10 n) =
      if n < 10 ^ Radix.digitLimit then .ok (.integer n)
      else .error (.oversized (Nat.toDigits 10 n).length) := by
  have hvalue : spelled .decimal (Nat.toDigits 10 n) = n := Literal.value_ofNat n
  have hlimit : (Nat.toDigits 10 n).length ≤ Radix.digitLimit ↔ n < 10 ^ Radix.digitLimit :=
    Nat.length_toDigits_le_iff (by decide) (by decide)
  rw [decimalInteger, hvalue, ← ite_not]
  simp only [not_lt, hlimit]
  rfl

/--
**An entry with an integer is read as that integer, up to the limit.** With more digits it is
refused, and the number of its digits is told.
-/
theorem read_entry {key : List Char} (hne : key ≠ []) (hbare : ∀ c ∈ key, isBare c = true)
    (n : Nat) :
    read (String.ofList (key ++ '=' :: Nat.toDigits 10 n)) =
      if n < 10 ^ Radix.digitLimit then .ok [(String.ofList key, .integer n)]
      else .error (.oversized (Nat.toDigits 10 n).length) := by
  have hds := isNumeral_toDigits n
  have hreturn : '\r' ∉ key ++ '=' :: Nat.toDigits 10 n := by
    rw [List.mem_append, List.mem_cons, not_or, not_or]
    exact ⟨fun h => absurd (hbare _ h) (by decide), by decide, hds.not_mem (by decide)⟩
  rw [read, String.toList_ofList, joinLineEnds_of_not_mem hreturn,
    Document.read_last_line {} (by simp) (forget_line hne hbare hds), decimalInteger_toDigits]
  split_ifs <;> rfl

end LineCalc.Toml
