import Mathlib
import LineCalc.Proofs.Recursion

/-!
# What the nesting count keeps in its hands

The count goes through the tokens once and changes a few numbers at each. What these numbers
are after some tokens can be said without going through them again, by looking back from the
end. A parenthesis is open if behind it never more were closed than opened. A minus waits if
it is unary and nothing behind it has used it up, neither a number nor a parenthesis. Then the
stack of the count is, for each open parenthesis, the minuses that waited in front of it, and
the level is one for each of these and for each minus that waits at the end (`describes_count`).
Nothing is asked of the tokens: a parenthesis that closes nothing only ends the waiting.

That the stack and the open parentheses go together is due to how many parentheses a closing
one leaves. Behind an open one, there are as many more opened than closed as there are open ones
behind it (`count_behind`), so the closing one takes the last of them and no other.

The numbers are natural, and a subtraction of natural numbers stops at zero. In `Ledger` they
are integers, which go below zero if they are made to, and they never do (`ledger_eq`).
-/

namespace LineCalc

namespace TokenKind

/-- Whether an operand is to follow, which makes a minus a unary one. -/
def opensOperand (k : TokenKind) : Bool := [plus, minus, star, slash, leftParen].contains k

/-- Whether no minus goes on waiting behind such a token. -/
def endsWaiting (k : TokenKind) : Bool := [number, leftParen, rightParen].contains k

end TokenKind

namespace Nesting

/-! ## Looking back from the end -/

/-- Whether a unary minus stands at a place: one that is first, or behind an operator or `(`. -/
def isUnaryAt (ks : List TokenKind) (i : Nat) : Bool :=
  ks[i]? == some .minus && (ks.take i).getLast?.all TokenKind.opensOperand

/-- The unary minuses behind which there is no number and no parenthesis. -/
def waiting (ks : List TokenKind) : Nat :=
  (List.range ks.length).countP fun i => isUnaryAt ks i && (ks.drop (i + 1)).all (!·.endsWaiting)

/-- Whether an open parenthesis stands at a place: behind it never more are closed than opened. -/
def isOpenAt (ks : List TokenKind) (i : Nat) : Bool :=
  ks[i]? == some .leftParen &&
    (ks.drop (i + 1)).inits.all fun p => p.count .rightParen ≤ p.count .leftParen

/-- The places of the open parentheses. -/
def opened (ks : List TokenKind) : List Nat := (List.range ks.length).filter (isOpenAt ks)

/--
The level at the end: the open parentheses, for each of them the minuses that were waiting
when it opened, and the minuses that are waiting now.
-/
def levelAt (ks : List TokenKind) : Nat :=
  ((opened ks).map fun i => 1 + waiting (ks.take i)).sum + waiting ks

variable {ks : List TokenKind} {k : TokenKind} {i : Nat}

theorem lt_of_mem_opened (h : i ∈ opened ks) : i < ks.length :=
  List.mem_range.mp (List.mem_of_mem_filter h)

theorem drop_append_last (h : i < ks.length) (k : TokenKind) :
    (ks ++ [k]).drop (i + 1) = ks.drop (i + 1) ++ [k] := List.drop_append_of_le_length h

theorem isUnaryAt_append (h : i < ks.length) (k : TokenKind) :
    isUnaryAt (ks ++ [k]) i = isUnaryAt ks i := by
  rw [isUnaryAt, isUnaryAt, List.getElem?_append_left h, List.take_append_of_le_length h.le]

theorem isUnaryAt_last (ks : List TokenKind) (k : TokenKind) :
    isUnaryAt (ks ++ [k]) ks.length = (k == .minus && ks.getLast?.all TokenKind.opensOperand) := by
  simp [isUnaryAt]

/-- One more token ends the waiting or lets it go on, and waits itself if it is a unary minus. -/
theorem waiting_append (ks : List TokenKind) (k : TokenKind) :
    waiting (ks ++ [k]) =
      (if k.endsWaiting then 0 else waiting ks) +
        if k = .minus ∧ ks.getLast?.all TokenKind.opensOperand then 1 else 0 := by
  have hbefore : ∀ i ∈ List.range ks.length,
      (isUnaryAt (ks ++ [k]) i && ((ks ++ [k]).drop (i + 1)).all (!·.endsWaiting)) =
        ((isUnaryAt ks i && (ks.drop (i + 1)).all (!·.endsWaiting)) && !k.endsWaiting) := by
    intro i hi
    have hlt := List.mem_range.mp hi
    rw [isUnaryAt_append hlt, drop_append_last hlt, List.all_append]
    simp [Bool.and_assoc]
  rw [waiting, List.length_append, List.length_singleton, List.range_succ, List.countP_append,
    List.countP_congr (q := fun i => (isUnaryAt ks i && (ks.drop (i + 1)).all (!·.endsWaiting)) &&
      !k.endsWaiting) fun i hi => by rw [hbefore i hi]]
  congr 1
  · cases k.endsWaiting <;> simp [waiting]
  · simp [isUnaryAt_last]

theorem count_append_self (ks : List TokenKind) (k : TokenKind) :
    (ks ++ [k]).count k = ks.count k + 1 := by
  rw [List.count_append, List.count_singleton_self]

theorem count_append_of_ne {k' : TokenKind} (h : k' ≠ k) : (ks ++ [k']).count k = ks.count k := by
  rw [List.count_append, List.count_cons_of_ne h, List.count_nil, Nat.add_zero]

/-- A parenthesis stays open unless one token more closes it. -/
theorem isOpenAt_append (h : i < ks.length) (k : TokenKind) :
    isOpenAt (ks ++ [k]) i =
      (isOpenAt ks i && decide ((ks.drop (i + 1) ++ [k]).count .rightParen ≤
        (ks.drop (i + 1) ++ [k]).count .leftParen)) := by
  rw [isOpenAt, isOpenAt, List.getElem?_append_left h, drop_append_last h,
    List.inits_append]
  simp [Bool.and_assoc]

theorem isOpenAt_last (ks : List TokenKind) (k : TokenKind) :
    isOpenAt (ks ++ [k]) ks.length = (k == .leftParen) := by
  simp [isOpenAt]

/-- Behind an open parenthesis, no more are closed than opened. -/
theorem count_le_of_mem_opened (h : i ∈ opened ks) :
    (ks.drop (i + 1)).count .rightParen ≤ (ks.drop (i + 1)).count .leftParen := by
  have hopen : isOpenAt ks i = true := (List.mem_filter.mp h).2
  rw [isOpenAt, Bool.and_eq_true, List.all_eq_true] at hopen
  simpa using hopen.2 _ ((List.mem_inits _ _).mpr List.prefix_rfl)

theorem opened_append (ks : List TokenKind) (k : TokenKind) :
    opened (ks ++ [k]) =
      ((opened ks).filter fun i => (ks.drop (i + 1) ++ [k]).count .rightParen ≤
        (ks.drop (i + 1) ++ [k]).count .leftParen) ++
        if k = .leftParen then [ks.length] else [] := by
  rw [opened, List.length_append, List.length_singleton, List.range_succ, List.filter_append,
    opened, List.filter_filter]
  congr 1
  · refine List.filter_congr fun i hi => ?_
    rw [isOpenAt_append (List.mem_range.mp hi), Bool.and_comm]
  · by_cases hk : k = .leftParen <;> simp [isOpenAt_last, hk]

theorem opened_open (ks : List TokenKind) :
    opened (ks ++ [.leftParen]) = opened ks ++ [ks.length] := by
  rw [opened_append, if_pos rfl, List.filter_eq_self.mpr]
  intro i hi
  have hle := count_le_of_mem_opened hi
  rw [decide_eq_true_eq, count_append_self, count_append_of_ne (by decide)]
  exact hle.trans (Nat.le_succ _)

theorem opened_other (ks : List TokenKind) (hopen : k ≠ .leftParen) (hclose : k ≠ .rightParen) :
    opened (ks ++ [k]) = opened ks := by
  rw [opened_append, if_neg hopen, List.append_nil, List.filter_eq_self.mpr]
  intro i hi
  rw [decide_eq_true_eq, count_append_of_ne hopen, count_append_of_ne hclose]
  exact count_le_of_mem_opened hi

theorem pairwise_opened (ks : List TokenKind) : (opened ks).Pairwise (· < ·) :=
  List.pairwise_lt_range.filter _

/-- Behind each place but the last, the last one counts for one. -/
theorem countP_of_mem_dropLast {places : List Nat} (h : places.Pairwise (· < ·))
    (hi : i ∈ places.dropLast) : places.countP (i < ·) = places.dropLast.countP (i < ·) + 1 := by
  rcases List.eq_nil_or_concat places with rfl | ⟨before, last, rfl⟩
  · cases hi
  · rw [List.concat_eq_append] at h hi ⊢
    rw [List.dropLast_concat] at hi ⊢
    obtain ⟨-, -, hless⟩ := List.pairwise_append.mp h
    have hone : [last].countP (i < ·) = 1 := by
      simp [hless i hi last (List.mem_singleton_self _)]
    rw [List.countP_append, hone]

theorem countP_eq_zero_of_getLast {before : List Nat} {last : Nat}
    (h : (before ++ [last]).Pairwise (· < ·)) : (before ++ [last]).countP (last < ·) = 0 := by
  obtain ⟨-, -, hless⟩ := List.pairwise_append.mp h
  refine List.countP_eq_zero.mpr fun j hj => ?_
  rcases List.mem_append.mp hj with hj | hj
  · simpa using (hless j hj last (List.mem_singleton_self _)).le
  · simp [List.mem_singleton.mp hj]

/-- Behind each place, as many more parentheses are opened than closed as are open. -/
def CountsBehind (ks : List TokenKind) : Prop :=
  ∀ i ∈ opened ks, (ks.drop (i + 1)).count .leftParen =
    (ks.drop (i + 1)).count .rightParen + (opened ks).countP (i < ·)

/-- A closing parenthesis finds nothing opened behind the last open one, and more behind others. -/
theorem CountsBehind.opened_close (h : CountsBehind ks) :
    opened (ks ++ [.rightParen]) = (opened ks).dropLast := by
  have hsorted := pairwise_opened ks
  rw [opened_append, if_neg (by decide), List.append_nil]
  rw [CountsBehind] at h
  rcases List.eq_nil_or_concat (opened ks) with hnil | ⟨before, last, hlast⟩
  · rw [hnil]
    rfl
  · rw [List.concat_eq_append] at hlast
    rw [hlast] at hsorted h ⊢
    rw [List.filter_append, List.dropLast_concat, List.filter_eq_self.mpr,
      List.filter_eq_nil_iff.mpr, List.append_nil]
    · intro i hi
      obtain rfl := List.mem_singleton.mp hi
      have hcount := h i (List.mem_append_right _ hi)
      rw [countP_eq_zero_of_getLast hsorted] at hcount
      rw [decide_eq_true_eq, count_append_self, count_append_of_ne (by decide)]
      omega
    · intro i hi
      have hcount := h i (List.mem_append_left _ hi)
      rw [countP_of_mem_dropLast hsorted (by rwa [List.dropLast_concat])] at hcount
      rw [decide_eq_true_eq, count_append_self, count_append_of_ne (by decide)]
      omega

theorem countsBehind (ks : List TokenKind) : CountsBehind ks := by
  induction ks using List.reverseRecOn with
  | nil => exact List.forall_mem_nil _
  | append_singleton ks k ih =>
      intro i hi
      by_cases hopen : k = .leftParen
      · subst hopen
        rw [opened_open] at hi ⊢
        rcases List.mem_append.mp hi with hi | hi
        · have hlt := lt_of_mem_opened hi
          have hcount := ih i hi
          have hone : [ks.length].countP (i < ·) = 1 := by simpa using lt_of_mem_opened hi
          rw [drop_append_last hlt, List.countP_append, hone, count_append_self,
            count_append_of_ne (by decide)]
          omega
        · -- nothing stands behind the one that has just been opened
          obtain rfl := List.mem_singleton.mp hi
          rw [countP_eq_zero_of_getLast (opened_open ks ▸ pairwise_opened _)]
          simp
      · by_cases hclose : k = .rightParen
        · subst hclose
          rw [ih.opened_close] at hi ⊢
          have hmem : i ∈ opened ks := List.dropLast_subset _ hi
          have hcount := ih i hmem
          rw [countP_of_mem_dropLast (pairwise_opened ks) hi] at hcount
          rw [drop_append_last (lt_of_mem_opened hmem), count_append_self,
            count_append_of_ne (by decide)]
          omega
        · rw [opened_other ks hopen hclose] at hi ⊢
          have hcount := ih i hi
          rw [drop_append_last (lt_of_mem_opened hi), count_append_of_ne hopen,
            count_append_of_ne hclose]
          exact hcount

/-- **A closing parenthesis closes the last open one**, or nothing. -/
theorem opened_close (ks : List TokenKind) :
    opened (ks ++ [.rightParen]) = (opened ks).dropLast :=
  (countsBehind ks).opened_close

/-! ## What was waiting when they opened -/

/-- For each open parenthesis, the minuses that waited in front of it, the last one first. -/
def heldAt (ks : List TokenKind) : List Nat :=
  ((opened ks).map fun i => waiting (ks.take i)).reverse

theorem map_waiting_append (k : TokenKind) {places : List Nat} (h : ∀ i ∈ places, i < ks.length) :
    places.map (fun i => waiting ((ks ++ [k]).take i)) =
      places.map fun i => waiting (ks.take i) :=
  List.map_congr_left fun i hi => by rw [List.take_append_of_le_length (h i hi).le]

theorem heldAt_open (ks : List TokenKind) :
    heldAt (ks ++ [.leftParen]) = waiting ks :: heldAt ks := by
  rw [heldAt, opened_open, List.map_append, map_waiting_append _ fun i => lt_of_mem_opened]
  simp [heldAt]

theorem heldAt_close (ks : List TokenKind) :
    heldAt (ks ++ [.rightParen]) = (heldAt ks).tail := by
  rw [heldAt, opened_close,
    map_waiting_append _ fun i hi => lt_of_mem_opened (List.dropLast_subset _ hi), heldAt,
    List.tail_reverse, List.map_dropLast]

theorem heldAt_other (ks : List TokenKind) (hopen : k ≠ .leftParen) (hclose : k ≠ .rightParen) :
    heldAt (ks ++ [k]) = heldAt ks := by
  rw [heldAt, opened_other ks hopen hclose, map_waiting_append _ fun i => lt_of_mem_opened, heldAt]

/-- The level counts the open parentheses, the minuses held before them, and those that wait now. -/
theorem levelAt_eq (ks : List TokenKind) :
    levelAt ks = (heldAt ks).length + (heldAt ks).sum + waiting ks := by
  have hsum : ((opened ks).map fun i => 1 + waiting (ks.take i)).sum =
      (opened ks).length + ((opened ks).map fun i => waiting (ks.take i)).sum := by
    induction opened ks with
    | nil => rfl
    | cons i places ih =>
        rw [List.map_cons, List.sum_cons, ih, List.map_cons, List.sum_cons, List.length_cons]
        omega
  rw [levelAt, hsum, heldAt, List.length_reverse, List.length_map, List.sum_reverse]

/-! ## The count -/

/-- The count after some tokens. -/
def count (ks : List TokenKind) : Nesting := ks.foldl step {}

theorem count_append (ks : List TokenKind) (k : TokenKind) :
    count (ks ++ [k]) = (count ks).step k := by
  rw [count, List.foldl_append]
  rfl

/-- What a count has in its hands after some tokens. -/
structure Describes (n : Nesting) (ks : List TokenKind) : Prop where
  held : n.held = heldAt ks
  heldTotal : n.heldTotal = n.held.sum
  pending : n.pending = waiting ks
  last : n.last = ks.getLast?

variable {n : Nesting}

theorem awaitsOperand_eq (last : Option TokenKind) :
    awaitsOperand last = last.all TokenKind.opensOperand := by
  cases last with
  | none => rfl
  | some k => cases k <;> rfl

/-- **One token keeps the count as it is described.** -/
theorem Describes.step (h : n.Describes ks) (k : TokenKind) : (n.step k).Describes (ks ++ [k]) := by
  have hlast : (n.step k).last = (ks ++ [k]).getLast? := by rw [List.getLast?_concat]; rfl
  have hwaiting := waiting_append ks k
  cases k with
  | minus =>
      have hheld := h.held.trans (heldAt_other (k := .minus) ks (by decide) (by decide)).symm
      have hunary : awaitsOperand n.last = ks.getLast?.all TokenKind.opensOperand := by
        rw [awaitsOperand_eq, h.last]
      cases hall : ks.getLast?.all TokenKind.opensOperand with
      | false =>
          have hshift : n.shift .minus = n := by simp [shift, hunary, hall]
          refine ⟨?_, ?_, ?_, hlast⟩
          · rw [Nesting.step, hshift]
            exact hheld
          · rw [Nesting.step, hshift]
            exact h.heldTotal
          · rw [Nesting.step, hshift, hwaiting, hall, ← h.pending]
            rfl
      | true =>
          have hshift : n.shift .minus = { n with pending := n.pending + 1 } := by
            simp [shift, hunary, hall]
          refine ⟨?_, ?_, ?_, hlast⟩
          · rw [Nesting.step, hshift]
            exact hheld
          · rw [Nesting.step, hshift]
            exact h.heldTotal
          · rw [Nesting.step, hshift, hwaiting, hall, ← h.pending]
            rfl
  | leftParen =>
      refine ⟨?_, ?_, ?_, hlast⟩
      · rw [heldAt_open, ← h.held, ← h.pending]
        rfl
      · have htotal := h.heldTotal
        simp only [Nesting.step, shift, List.sum_cons]
        omega
      · rw [hwaiting]
        rfl
  | rightParen =>
      cases hheld : n.held with
      | nil =>
          have hshift : n.shift .rightParen = { n with pending := 0 } := by rw [shift, hheld]
          refine ⟨?_, ?_, ?_, hlast⟩
          · rw [Nesting.step, hshift, heldAt_close, ← h.held, hheld]
            rfl
          · rw [Nesting.step, hshift]
            exact h.heldTotal
          · rw [Nesting.step, hshift, hwaiting]
            rfl
      | cons first more =>
          have hshift : n.shift .rightParen =
              { n with held := more, heldTotal := n.heldTotal - first, pending := 0 } := by
            rw [shift, hheld]
          refine ⟨?_, ?_, ?_, hlast⟩
          · rw [Nesting.step, hshift, heldAt_close, ← h.held, hheld]
            rfl
          · have htotal := h.heldTotal
            rw [hheld, List.sum_cons] at htotal
            rw [Nesting.step, hshift]
            simp only
            omega
          · rw [Nesting.step, hshift, hwaiting]
            rfl
  | number =>
      refine ⟨h.held.trans (heldAt_other ks (by decide) (by decide)).symm, h.heldTotal, ?_, hlast⟩
      rw [hwaiting]
      rfl
  | plus | star | slash =>
      refine ⟨h.held.trans (heldAt_other ks (by decide) (by decide)).symm, h.heldTotal, ?_, hlast⟩
      rw [hwaiting, ← h.pending]
      rfl

/-- **After any tokens, the count is as it is described.** -/
theorem describes_count (ks : List TokenKind) : (count ks).Describes ks := by
  induction ks using List.reverseRecOn with
  | nil => exact ⟨rfl, rfl, rfl, rfl⟩
  | append_singleton ks k ih =>
      rw [count_append]
      exact ih.step k

theorem level_count (ks : List TokenKind) : (count ks).level = levelAt ks := by
  have h := describes_count ks
  rw [level, levelAt_eq, h.heldTotal, h.held, h.pending]

/-- The depth is the highest level so far. -/
theorem depth_count_append (ks : List TokenKind) (k : TokenKind) :
    (count (ks ++ [k])).depth = max (count ks).depth (levelAt (ks ++ [k])) := by
  rw [← level_count, count_append]
  rfl

/-- **The count is the highest level of all fronts of the tokens but the empty one.** -/
theorem isGreatest_depth (hne : ks ≠ []) :
    IsGreatest {level | ∃ p, p <+: ks ∧ p ≠ [] ∧ levelAt p = level} (count ks).depth := by
  induction ks using List.reverseRecOn with
  | nil => exact absurd rfl hne
  | append_singleton ks k ih =>
      rw [depth_count_append]
      by_cases hempty : ks = []
      · subst hempty
        refine ⟨⟨[k], List.prefix_rfl, hne, (Nat.zero_max _).symm⟩, ?_⟩
        rintro _ ⟨p, hp, hpne, rfl⟩
        rcases List.prefix_concat_iff.mp hp with rfl | hp
        · exact Nat.le_max_right _ _
        · exact absurd (List.prefix_nil.mp hp) hpne
      · obtain ⟨⟨p, hp, hpne, hlevel⟩, hupper⟩ := ih hempty
        refine ⟨?_, ?_⟩
        · rcases Nat.le_total (levelAt (ks ++ [k])) (count ks).depth with hle | hle
          · rw [Nat.max_eq_left hle]
            exact ⟨p, hp.trans (List.prefix_append ks [k]), hpne, hlevel⟩
          · rw [Nat.max_eq_right hle]
            exact ⟨_, List.prefix_rfl, hne, rfl⟩
        · rintro _ ⟨q, hq, hqne, rfl⟩
          rcases List.prefix_concat_iff.mp hq with rfl | hq
          · exact Nat.le_max_right _ _
          · exact (hupper ⟨q, hq, hqne, rfl⟩).trans (Nat.le_max_left _ _)

/-- One token goes up by at most a level: it opens one parenthesis, or is one more minus. -/
theorem level_shift_le (n : Nesting) (k : TokenKind) : (n.shift k).level ≤ n.level + 1 := by
  cases k with
  | minus =>
      rw [shift]
      split
      · exact Nat.le_refl _
      · exact Nat.le_succ _
  | leftParen =>
      simp only [shift, level, List.length_cons]
      omega
  | rightParen =>
      rw [shift]
      split
      · simp only [level]
        omega
      · next h held hheld =>
        simp only [level, hheld, List.length_cons]
        omega
  | number =>
      simp only [shift, level]
      omega
  | plus | star | slash => exact Nat.le_succ _

theorem depth_step_le (h : n.level ≤ n.depth) (k : TokenKind) :
    (n.step k).level ≤ (n.step k).depth ∧ (n.step k).depth ≤ n.depth + 1 :=
  ⟨Nat.le_max_right _ _,
    Nat.max_le.mpr ⟨Nat.le_succ _, (level_shift_le n k).trans (Nat.succ_le_succ h)⟩⟩

theorem depth_after_le (h : n.level ≤ n.depth) (ts : List Token) :
    (n.after ts).depth ≤ n.depth + ts.length := by
  induction ts generalizing n with
  | nil => exact Nat.le_refl _
  | cons t ts ih =>
      obtain ⟨hlevel, hdepth⟩ := depth_step_le h t.kind
      calc (n.after (t :: ts)).depth ≤ (n.step t.kind).depth + ts.length := ih hlevel
        _ ≤ n.depth + 1 + ts.length := Nat.add_le_add_right hdepth _
        _ = n.depth + (t :: ts).length := by rw [List.length_cons]; omega

end Nesting

/-! ## The count in integers -/

/-- What the count remembers, in integers. -/
structure Ledger where
  held : List Int := []
  heldTotal : Int := 0
  pending : Int := 0
  last : Option TokenKind := none
  depth : Int := 0

namespace Ledger

def level (l : Ledger) : Int := l.held.length + l.heldTotal + l.pending

def shift (l : Ledger) (k : TokenKind) : Ledger :=
  match k with
  | .minus => if Nesting.awaitsOperand l.last then { l with pending := l.pending + 1 } else l
  | .leftParen =>
    { l with held := l.pending :: l.held, heldTotal := l.heldTotal + l.pending, pending := 0 }
  | .rightParen =>
    match l.held with
    | [] => { l with pending := 0 }
    | h :: held => { l with held, heldTotal := l.heldTotal - h, pending := 0 }
  | .number => { l with pending := 0 }
  | .plus | .star | .slash => l

def step (l : Ledger) (k : TokenKind) : Ledger :=
  let m := l.shift k
  { m with last := some k, depth := max l.depth m.level }

def after (ks : List TokenKind) : Ledger := ks.foldl step {}

/-- No counter is below zero. -/
structure Nonnegative (l : Ledger) : Prop where
  held : ∀ h ∈ l.held, 0 ≤ h
  heldTotal : 0 ≤ l.heldTotal
  pending : 0 ≤ l.pending
  depth : 0 ≤ l.depth

end Ledger

namespace Nesting

/-- A count with its numbers taken for integers. -/
def ledger (n : Nesting) : Ledger :=
  ⟨n.held.map Nat.cast, n.heldTotal, n.pending, n.last, n.depth⟩

theorem nonnegative_ledger (n : Nesting) : n.ledger.Nonnegative where
  held := by
    intro h hh
    obtain ⟨m, -, rfl⟩ := List.mem_map.mp hh
    exact Int.natCast_nonneg m
  heldTotal := Int.natCast_nonneg _
  pending := Int.natCast_nonneg _
  depth := Int.natCast_nonneg _

theorem level_ledger (n : Nesting) : n.ledger.level = n.level := by
  simp [Ledger.level, level, ledger]

/-- Only what is in the total is taken from it. -/
theorem shift_ledger {n : Nesting} (h : n.heldTotal = n.held.sum) (k : TokenKind) :
    n.ledger.shift k = (n.shift k).ledger := by
  cases k with
  | minus =>
      have hlast : n.ledger.last = n.last := rfl
      rw [Ledger.shift, shift, hlast]
      split <;> rfl
  | leftParen => simp [Ledger.shift, shift, ledger]
  | rightParen =>
      cases hheld : n.held with
      | nil => simp [Ledger.shift, shift, ledger, hheld]
      | cons first more =>
          have hle : first ≤ n.heldTotal := by
            rw [h, hheld, List.sum_cons]
            exact Nat.le_add_right _ _
          simp [Ledger.shift, shift, ledger, hheld, Nat.cast_sub hle]
  | number => rfl
  | plus | star | slash => rfl

/-- **In integers the count is the same**, so none of its numbers is ever below zero. -/
theorem ledger_count (ks : List TokenKind) : Ledger.after ks = (count ks).ledger := by
  induction ks using List.reverseRecOn with
  | nil => rfl
  | append_singleton ks k ih =>
      have hshift := shift_ledger (describes_count ks).heldTotal k
      have hlevel := level_ledger ((count ks).shift k)
      rw [count_append, Ledger.after, List.foldl_concat, ← Ledger.after, ih, Ledger.step, hshift,
        hlevel, step]
      simp [ledger]

end Nesting

open Nesting

/--
**The bookkeeping of the count is exact, whatever the tokens are.** After each token the total
is the sum of the stack, and no counter is below zero, in integers too. The stack is, for each
open parenthesis, the minuses that waited in front of it, and the result is the highest level
of all fronts but the empty one, or zero if there are no tokens. A closing parenthesis with
nothing open closes nothing and only ends the waiting. More tokens never make the result less,
and each of them adds at most one to it.
-/
theorem nestingDepth_exact (ts : List Token) :
    let ks := ts.map Token.kind
    (∀ p, p <+: ks →
      (Ledger.after p).heldTotal = (Ledger.after p).held.sum ∧
      (Ledger.after p).Nonnegative ∧
      (Ledger.after p).held = ((opened p).map fun i => (waiting (p.take i) : Int)).reverse ∧
      (Ledger.after p).pending = waiting p) ∧
    (Ledger.after ks).depth = Token.nestingDepth ts ∧
    (ts = [] → Token.nestingDepth ts = 0) ∧
    (ts ≠ [] →
      IsGreatest {level | ∃ p, p <+: ks ∧ p ≠ [] ∧ levelAt p = level} (Token.nestingDepth ts)) ∧
    (∀ p, opened p = [] →
      opened (p ++ [.rightParen]) = [] ∧ waiting (p ++ [.rightParen]) = 0) ∧
    ∀ more, Token.nestingDepth ts ≤ Token.nestingDepth (ts ++ more) ∧
      Token.nestingDepth (ts ++ more) ≤ Token.nestingDepth ts + more.length := by
  intro ks
  refine ⟨fun p _ => ?_, ?_, ?_, fun hne => ?_, fun p hp => ⟨?_, ?_⟩, fun more => ?_⟩
  · have h := describes_count p
    rw [ledger_count]
    refine ⟨?_, nonnegative_ledger _, ?_, ?_⟩
    · rw [ledger, h.heldTotal, Nat.cast_list_sum]
    · rw [ledger, h.held, heldAt, List.map_reverse, List.map_map]
      rfl
    · rw [ledger, h.pending]
  · rw [ledger_count]
    rfl
  · rintro rfl
    rfl
  · exact isGreatest_depth (by simpa [ks] using hne)
  · rw [opened_close, hp]
    rfl
  · rw [waiting_append]
    rfl
  · have happend : Token.nestingDepth (ts ++ more) = ((after {} ts).after more).depth := by
      rw [← after_append]
      rfl
    rw [happend]
    exact ⟨depth_le_after _ _, depth_after_le (level_le_after (n := {}) (Nat.le_refl 0) ts) more⟩

/-- In `)+-(-` two minuses are unary, and the second one waits behind an open parenthesis. -/
example : let ks : List TokenKind := [.rightParen, .plus, .minus, .leftParen, .minus]
    opened ks = [3] ∧ waiting (ks.take 3) = 1 ∧ waiting ks = 1 ∧ levelAt ks = 3 := by
  decide

end LineCalc
