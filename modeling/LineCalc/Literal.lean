/-!
# Number literals

A literal is a run of digits and underscores, in one of four radices. Binary,
octal and hexadecimal runs follow a two-character lead (`0b`, `0o`, `0x`) and
may be empty; a decimal run has no lead and starts with a digit.

`Literal.take?` reads the longest literal at the front of a text, `Literal.value`
is the number it spells, of any size, and `Literal.toUInt64?` is that number when
it fits in 64 bits. The last one counts digits before it computes, so that an
overlong run is refused without ever being turned into a number.
-/

namespace LineCalc

/-- The radix a literal is written in. -/
inductive Radix where
  | binary
  | octal
  | decimal
  | hexadecimal
deriving DecidableEq, Repr

namespace Radix

/-- The number of different digits. -/
def base : Radix → Nat
  | binary => 2
  | octal => 8
  | decimal => 10
  | hexadecimal => 16

/-- What stands in front of the digits. -/
def lead : Radix → List Char
  | binary => ['0', 'b']
  | octal => ['0', 'o']
  | decimal => []
  | hexadecimal => ['0', 'x']

/-- The most digits that a number below `2 ^ 64` can need. -/
def maxDigits : Radix → Nat
  | binary => 64
  | octal => 22
  | decimal => 20
  | hexadecimal => 16

/-- The most decimal digits that a whole number is converted from, and written out with. -/
def digitLimit : Nat := 4300

/-- The value of a hexadecimal digit of either case. -/
def digitValue? (c : Char) : Option Nat :=
  if '0' ≤ c ∧ c ≤ '9' then some (c.toNat - '0'.toNat)
  else if 'a' ≤ c ∧ c ≤ 'f' then some (c.toNat - 'a'.toNat + 10)
  else if 'A' ≤ c ∧ c ≤ 'F' then some (c.toNat - 'A'.toNat + 10)
  else none

/-- The value of a digit of this radix. -/
def digit? (r : Radix) (c : Char) : Option Nat :=
  (digitValue? c).filter (· < r.base)

/-- Whether a character belongs to a run: a digit of the radix or an underscore. -/
def continues (r : Radix) (c : Char) : Bool :=
  c == '_' || (r.digit? c).isSome

/-- The number that digits spell, most significant first. -/
def ofDigits (r : Radix) (ds : List Nat) : Nat :=
  ds.foldl (fun n d => n * r.base + d) 0

end Radix

/-- A literal as it is written: its radix, and the digits and underscores after its lead. -/
structure Literal where
  radix : Radix
  run : List Char
deriving DecidableEq, Repr

namespace Literal

/-- The whole text of a literal. -/
def text (l : Literal) : List Char := l.radix.lead ++ l.run

/-- The digits of a literal, underscores dropped. -/
def digits (l : Literal) : List Nat := l.run.filterMap l.radix.digit?

/-- The number a literal spells; an empty run spells zero. -/
def value (l : Literal) : Nat := l.radix.ofDigits l.digits

/-- The digits from the first one that is not zero. -/
def significant (l : Literal) : List Nat := l.digits.dropWhile (· == 0)

/--
The number a literal spells, when it is below `2 ^ 64`.

More significant digits than `maxDigits` cannot fit, so such a run is refused by
its length alone.
-/
def toUInt64? (l : Literal) : Option UInt64 :=
  if l.radix.maxDigits < l.significant.length then none
  else
    let n := l.radix.ofDigits l.significant
    if n < UInt64.size then some (UInt64.ofNat n) else none

/-- A literal with a lead: its run is the longest that the radix allows, and the rest follows. -/
def ofRun (r : Radix) (cs : List Char) : Literal × List Char :=
  (⟨r, cs.takeWhile r.continues⟩, cs.dropWhile r.continues)

/--
The longest literal at the front of a text, and what follows it.

A lead wins over the lone decimal zero it starts with, so `0x1f` is one literal
and `0b` spells zero.
-/
def take? : List Char → Option (Literal × List Char)
  | '0' :: 'b' :: cs => some (ofRun .binary cs)
  | '0' :: 'o' :: cs => some (ofRun .octal cs)
  | '0' :: 'x' :: cs => some (ofRun .hexadecimal cs)
  | c :: cs =>
    if (Radix.decimal.digit? c).isSome then some (ofRun .decimal (c :: cs)) else none
  | [] => none

/-! ## A literal and what follows it make up the text -/

theorem ofRun_text_append (r : Radix) (cs : List Char) :
    (ofRun r cs).1.text ++ (ofRun r cs).2 = r.lead ++ cs := by
  simp [ofRun, text, List.takeWhile_append_dropWhile]

theorem take?_text_append {cs rest : List Char} {l : Literal} (h : take? cs = some (l, rest)) :
    l.text ++ rest = cs := by
  have of {r : Radix} {tail : List Char} (hr : some (ofRun r tail) = some (l, rest)) :
      l.text ++ rest = r.lead ++ tail := by
    have hp : ofRun r tail = (l, rest) := Option.some.inj hr
    simpa [hp] using ofRun_text_append r tail
  unfold take? at h
  split at h
  · simpa [Radix.lead] using of h
  · simpa [Radix.lead] using of h
  · simpa [Radix.lead] using of h
  · split at h
    · simpa [Radix.lead] using of h
    · exact nomatch h
  · exact nomatch h

theorem text_ne_nil_of_take? {cs rest : List Char} {l : Literal}
    (h : take? cs = some (l, rest)) : l.text ≠ [] := by
  unfold take? at h
  split at h
  · cases h; simp [text, Radix.lead]
  · cases h; simp [text, Radix.lead]
  · cases h; simp [text, Radix.lead]
  · split at h
    · next hd =>
      cases h
      simp [text, Radix.lead, Radix.continues, hd]
    · exact nomatch h
  · exact nomatch h

/-- Reading a literal uses up at least one character. -/
theorem length_lt_of_take? {cs rest : List Char} {l : Literal}
    (h : take? cs = some (l, rest)) : rest.length < cs.length := by
  have hne := List.length_pos_iff.2 (text_ne_nil_of_take? h)
  have := congrArg List.length (take?_text_append h)
  simp only [List.length_append] at this
  omega

end Literal

end LineCalc
