import Mathlib
import LineCalc.Proofs.Outcomes
import LineCalc.Session.Batch
import LineCalc.Session.Interactive

/-!
# What a session does, line by line

A one-shot run and an interactive session go through a list of texts, and all that one text
leaves behind for the next is the mode. So a session is known from what it does with a single
text in a given mode, and from the mode in force there, which is that of the last text before
it that switches the mode (`Mode.after`).

They differ in what ends them. A one-shot run ends at the first expression that faults, and
nothing behind it matters (`runBatch_append`). An interactive session ends at the first line
that asks to quit, or at the end of the input (`converse_eq`), and a fault is a reply like
any other, after which the session goes on as if it had not been asked (`exchanges_filter`).
-/

namespace LineCalc

/-! ## The mode in force -/

/-- The mode behind texts, some of which switch it: that of the last one which does. -/
def Mode.after (mode : Mode) (switch : String → Option Mode) (texts : List String) : Mode :=
  (texts.filterMap switch).getLast?.getD mode

theorem Mode.after_cons (mode : Mode) (switch : String → Option Mode) (s : String)
    (texts : List String) :
    mode.after switch (s :: texts) = ((switch s).getD mode).after switch texts := by
  unfold Mode.after
  cases hs : switch s with
  | none => rw [List.filterMap_cons_none hs]; rfl
  | some m =>
      rw [List.filterMap_cons_some hs, List.getLast?_cons]
      rfl

/-! ## What is written -/

theorem Transcript.stdout_append (t u : Transcript) :
    Transcript.stdout (t ++ u) = t.stdout ++ u.stdout := by
  simp [Transcript.stdout]

theorem Transcript.stderr_append (stamp : String) (t u : Transcript) :
    Transcript.stderr stamp (t ++ u) = t.stderr stamp ++ u.stderr stamp := by
  simp [Transcript.stderr]

namespace Session

/-! ## One-shot runs -/

variable {c : Config}

/-- One run and then another one, if the first did not end in a fault. -/
def BatchReport.followedBy (first second : BatchReport) : BatchReport :=
  if first.exitCode = 1 then first
  else ⟨first.transcript ++ second.transcript, second.exitCode⟩

theorem faulted_iff {mode : Mode} {arg : String} :
    (runLine c mode arg).faulted = true ↔
      ∃ f, (evaluate mode c.maxDepth arg).outcome = .error (.fault f) := by
  unfold runLine report
  split
  · next v hv => simp [hv]
  · next f hf => simp [hf]
  · next failure hne hfailure =>
    constructor
    · exact nofun
    · rintro ⟨f, hf⟩
      exact absurd hf (by rw [hfailure]; simpa using hne f)

theorem runBatch_switch {arg : String} {m : Mode} (h : switch? arg = some m) (mode : Mode)
    (rest : List String) : runBatch c mode (arg :: rest) = runBatch c m rest := by
  rw [runBatch, h]

theorem runBatch_fault {arg : String} {mode : Mode} (h : switch? arg = none)
    (hfault : (runLine c mode arg).faulted = true) (rest : List String) :
    runBatch c mode (arg :: rest) =
      ⟨.line (prompt mode ++ arg) :: (runLine c mode arg).transcript, 1⟩ := by
  rw [runBatch, h]
  simp [hfault]

/-- A word that is no switch is evaluated, and the rest is run if it does not fault. -/
theorem runBatch_line {arg : String} {mode : Mode} (h : switch? arg = none)
    (hfault : (runLine c mode arg).faulted = false) (rest : List String) :
    runBatch c mode (arg :: rest) =
      ⟨.line (prompt mode ++ arg) :: (runLine c mode arg).transcript ++
        (runBatch c mode rest).transcript, (runBatch c mode rest).exitCode⟩ := by
  rw [runBatch, h]
  simp [hfault]

/-- **A run over two lists is a run over one and then over the other**, in the mode left. -/
theorem runBatch_append (mode : Mode) (a b : List String) :
    runBatch c mode (a ++ b) =
      (runBatch c mode a).followedBy (runBatch c (mode.after switch? a) b) := by
  induction a generalizing mode with
  | nil => rfl
  | cons arg a ih =>
      rw [List.cons_append, Mode.after_cons]
      cases hswitch : switch? arg with
      | some m =>
          rw [runBatch_switch hswitch, runBatch_switch hswitch]
          exact ih m
      | none =>
          cases hfault : (runLine c mode arg).faulted with
          | true =>
              -- what comes behind the fault is not looked at, on either side
              rw [runBatch_fault hswitch hfault, runBatch_fault hswitch hfault]
              rfl
          | false =>
              rw [runBatch_line hswitch hfault, runBatch_line hswitch hfault, ih,
                BatchReport.followedBy, BatchReport.followedBy]
              by_cases hexit : (runBatch c mode a).exitCode = 1
              · rw [if_pos hexit, if_pos hexit]
              · rw [if_neg hexit, if_neg hexit, ← List.append_assoc]
                rfl

/-- An argument that ends in a fault as an expression, in the mode that is in force there. -/
def FaultsAt (c : Config) (mode : Mode) (args : List String) (i : Nat) : Prop :=
  ∃ arg f, args[i]? = some arg ∧ switch? arg = none ∧
    (evaluate (mode.after switch? (args.take i)) c.maxDepth arg).outcome = .error (.fault f)

theorem faultsAt_zero {mode : Mode} {arg : String} {args : List String} :
    FaultsAt c mode (arg :: args) 0 ↔ switch? arg = none ∧ (runLine c mode arg).faulted = true := by
  rw [faulted_iff, FaultsAt]
  constructor
  · rintro ⟨_, f, hget, hswitch, hf⟩
    obtain rfl := Option.some.inj hget
    exact ⟨hswitch, f, hf⟩
  · rintro ⟨hswitch, f, hf⟩
    exact ⟨arg, f, rfl, hswitch, hf⟩

/-- A fault behind the first word is one of the rest, in the mode that the word leaves. -/
theorem faultsAt_succ {mode : Mode} {arg : String} {args : List String} {i : Nat} :
    FaultsAt c mode (arg :: args) (i + 1) ↔ FaultsAt c ((switch? arg).getD mode) args i := by
  rw [FaultsAt, FaultsAt, List.take_succ_cons, Mode.after_cons, List.getElem?_cons_succ]

/-- A run exits with 1 if an expression faults, and with 0 otherwise. -/
theorem exitCode_runBatch (mode : Mode) (args : List String) :
    ((runBatch c mode args).exitCode = 0 ∨ (runBatch c mode args).exitCode = 1) ∧
      ((runBatch c mode args).exitCode = 1 ↔ ∃ i, FaultsAt c mode args i) := by
  induction args generalizing mode with
  | nil =>
      have hnone : ¬ ∃ i, FaultsAt c mode [] i := by
        rintro ⟨i, arg, f, hget, -⟩
        cases hget
      exact ⟨.inl rfl, iff_of_false (by simp [runBatch]) hnone⟩
  | cons arg args ih =>
      -- either the first argument faults, or a later one does in the mode that the first leaves
      rw [← Nat.or_exists_add_one]
      simp only [faultsAt_zero, faultsAt_succ]
      cases hswitch : switch? arg with
      | some m =>
          rw [runBatch_switch hswitch]
          simpa using ih m
      | none =>
          cases hfault : (runLine c mode arg).faulted with
          | true =>
              rw [runBatch_fault hswitch hfault]
              simp
          | false =>
              rw [runBatch_line hswitch hfault]
              simpa using ih mode

/-- An argument that is told to be wrong before it is evaluated has no part in the exit code. -/
theorem exitCode_of_early {mode : Mode} {a b : List String} {arg : String} {failure : Failure}
    (hswitch : switch? arg = none)
    (houtcome : (evaluate (mode.after switch? a) c.maxDepth arg).outcome = .error failure)
    (hearly : failure.isEarly = true) :
    (runBatch c mode (a ++ arg :: b)).exitCode = (runBatch c mode (a ++ b)).exitCode := by
  have hfault : (runLine c (mode.after switch? a) arg).faulted = false := by
    rw [Bool.eq_false_iff]
    intro h
    obtain ⟨f, hf⟩ := faulted_iff.mp h
    rw [houtcome] at hf
    cases hf
    cases hearly
  rw [runBatch_append, runBatch_append, runBatch_line hswitch hfault, BatchReport.followedBy,
    BatchReport.followedBy]
  by_cases hexit : (runBatch c mode a).exitCode = 1
  · rw [if_pos hexit, if_pos hexit]
  · rw [if_neg hexit, if_neg hexit]

/--
**One-shot runs compose.** If the run over the first list exits with 1, then so does the run
over both, and it is the same run. Otherwise both streams of the second run follow those of
the first, and the second run starts in the mode of the last switch and has the last word on
the exit code. That is 1 exactly if some expression ends in a fault in the mode that is in
force there. Then no argument behind it has any effect at all, and an expression that is
wrong in another way has none on the exit code.
-/
theorem runBatch_composes (c : Config) (mode : Mode) (a b : List String) :
    let first := runBatch c mode a
    let second := runBatch c (mode.after switch? a) b
    let whole := runBatch c mode (a ++ b)
    (first.exitCode = 1 → whole = first) ∧
      (first.exitCode ≠ 1 →
        whole.transcript.stdout = first.transcript.stdout ++ second.transcript.stdout ∧
        (∀ stamp, whole.transcript.stderr stamp =
          first.transcript.stderr stamp ++ second.transcript.stderr stamp) ∧
        whole.transcript = first.transcript ++ second.transcript ∧
        whole.exitCode = second.exitCode) ∧
      (first.exitCode = 0 ∨ first.exitCode = 1) ∧
      (first.exitCode = 1 ↔ ∃ i, FaultsAt c mode a i) ∧
      (∀ i, FaultsAt c mode a i → ∀ later,
        runBatch c mode (a.take (i + 1) ++ later) = runBatch c mode (a.take (i + 1))) ∧
      ∀ arg failure, switch? arg = none →
        (evaluate (mode.after switch? a) c.maxDepth arg).outcome = .error failure →
        failure.isEarly = true → (runBatch c mode (a ++ arg :: b)).exitCode = whole.exitCode := by
  intro first second whole
  have hwhole : whole = first.followedBy second := runBatch_append mode a b
  have hexit := exitCode_runBatch (c := c) mode a
  refine ⟨fun h => ?_, fun h => ?_, hexit.1, hexit.2, fun i hi later => ?_, ?_⟩
  · rw [hwhole, BatchReport.followedBy, if_pos h]
  · rw [hwhole, BatchReport.followedBy, if_neg h]
    exact ⟨Transcript.stdout_append _ _, fun stamp => Transcript.stderr_append stamp _ _, rfl, rfl⟩
  · -- the run that ends with the faulting argument has exited already
    have htake : FaultsAt c mode (a.take (i + 1)) i := by
      obtain ⟨arg, f, hget, hswitch, hf⟩ := hi
      refine ⟨arg, f, ?_, hswitch, ?_⟩
      · rw [List.getElem?_take_of_lt (Nat.lt_succ_self i), hget]
      · rw [List.take_take, Nat.min_eq_left (Nat.le_succ i), hf]
    have hone := (exitCode_runBatch mode (a.take (i + 1))).2.mpr ⟨i, htake⟩
    rw [runBatch_append, BatchReport.followedBy, if_pos hone]
  · intro arg failure hswitch houtcome hearly
    exact exitCode_of_early hswitch houtcome hearly

/-! ## Interactive sessions -/

/-- The mode that a line enters, blanks around it aside. -/
def entered? (line : String) : Option Mode :=
  if Text.trim line ∈ ["i", "i128"] then some .integer
  else if Text.trim line ∈ ["f", "f64"] then some .floating
  else none

def asksToQuit (line : String) : Bool := decide (Text.trim line ∈ ["q", "quit"])

/-- The words that are commands. -/
def words : List String := ["i", "i128", "f", "f64", "h", "help", "q", "quit"]

/-- Whatever a line is answered, only a command changes the mode or ends the session. -/
theorem next_respond (mode : Mode) (line : String) :
    (respond c mode line).next =
      if asksToQuit line then none else some ((entered? line).getD mode) := by
  unfold respond asksToQuit entered?
  generalize Text.trim line = text
  by_cases hblank : text = ""
  · subst hblank
    rfl
  · by_cases hword : text ∈ words
    · fin_cases hword <;> rfl
    · simp only [words, List.mem_cons, List.not_mem_nil, or_false, not_or] at hword
      simp [Directive.ofText?, hblank, hword]

theorem respond_of_quit {line : String} (h : asksToQuit line = true) (mode : Mode) :
    (respond c mode line).transcript = [.line "Bye!"] := by
  have hquit : Text.trim line ∈ ["q", "quit"] := of_decide_eq_true h
  unfold respond
  generalize Text.trim line = text at hquit
  fin_cases hquit <;> rfl

theorem respond_of_blank {line : String} (h : Text.trim line = "") (mode : Mode) :
    (respond c mode line).transcript = [] := by
  unfold respond
  rw [h]
  rfl

theorem respond_of_expression {line : String} (hblank : Text.trim line ≠ "")
    (hword : Text.trim line ∉ words) (mode : Mode) :
    (respond c mode line).transcript =
      (report (Text.trim line) (evaluate mode c.maxDepth (Text.trim line))).transcript := by
  unfold respond
  simp only [words, List.mem_cons, List.not_mem_nil, or_false, not_or] at hword
  simp [Directive.ofText?, hblank, hword, runLine]

theorem converse_quit {line : String} (h : asksToQuit line = true) (mode : Mode)
    (rest : List String) :
    converse c mode (line :: rest) = ⟨[⟨mode, some line, [.line "Bye!"]⟩], rest.length⟩ := by
  rw [converse]
  simp only [next_respond, respond_of_quit h, h, if_true]

/-- A line that does not ask to quit is answered, and the session goes on in its mode. -/
theorem converse_go_on {line : String} (h : asksToQuit line = false) (mode : Mode)
    (rest : List String) :
    converse c mode (line :: rest) =
      ⟨⟨mode, some line, (respond c mode line).transcript⟩ ::
          (converse c ((entered? line).getD mode) rest).exchanges,
        (converse c ((entered? line).getD mode) rest).unread⟩ := by
  rw [converse]
  simp only [next_respond, h, Bool.false_eq_true, if_false]

/-- The reply to what a read comes to, which is a bare line break if there is no line left. -/
def replyTo (c : Config) (mode : Mode) : Option String → Transcript
  | none => [.line ""]
  | some line => (respond c mode line).transcript

/-- The exchange at a place of a session, if it gets there. -/
def exchangeAt (c : Config) (mode : Mode) (lines : List String) (i : Nat) : Exchange :=
  let current := mode.after entered? (lines.take i)
  ⟨current, lines[i]?, replyTo c current lines[i]?⟩

theorem reply_exchangeAt {mode : Mode} {lines : List String} {i : Nat} {line : String}
    (h : lines[i]? = some line) :
    (exchangeAt c mode lines i).reply =
      (respond c (mode.after entered? (lines.take i)) line).transcript := by
  rw [exchangeAt, h, replyTo]

theorem exchangeAt_cons_succ (mode : Mode) (line : String) (rest : List String) (i : Nat) :
    exchangeAt c mode (line :: rest) (i + 1) =
      exchangeAt c ((entered? line).getD mode) rest i := by
  unfold exchangeAt
  rw [List.take_succ_cons, Mode.after_cons, List.getElem?_cons_succ]

/-- **A session is its exchanges up to the first line that asks to quit**, or to the end. -/
theorem converse_eq (mode : Mode) (lines : List String) :
    converse c mode lines =
      ⟨(List.range (lines.findIdx asksToQuit + 1)).map (exchangeAt c mode lines),
        lines.length - (lines.findIdx asksToQuit + 1)⟩ := by
  induction lines generalizing mode with
  | nil => rfl
  | cons line rest ih =>
      rw [List.findIdx_cons, List.range_succ_eq_map, List.map_cons, List.map_map]
      cases hquit : asksToQuit line with
      | true =>
          have hfirst : exchangeAt c mode (line :: rest) 0 = ⟨mode, some line, [.line "Bye!"]⟩ := by
            rw [← respond_of_quit (c := c) hquit mode]
            rfl
          rw [converse_quit hquit, hfirst]
          simp
      | false =>
          -- from the second place on, it is a session over the other lines
          have hlater : exchangeAt c mode (line :: rest) ∘ Nat.succ =
              exchangeAt c ((entered? line).getD mode) rest :=
            funext (exchangeAt_cons_succ mode line rest)
          rw [converse_go_on hquit, ih, cond_false, hlater, List.length_cons,
            Nat.add_sub_add_right]
          rfl

/-- A line that neither enters a mode nor quits can be left out, with its own exchange. -/
theorem exchanges_filter {keep : String → Bool}
    (h : ∀ line, keep line = false → entered? line = none ∧ asksToQuit line = false)
    (mode : Mode) (lines : List String) :
    (converse c mode (lines.filter keep)).exchanges =
      (converse c mode lines).exchanges.filter fun e => e.line.all keep := by
  induction lines generalizing mode with
  | nil => rfl
  | cons line rest ih =>
      cases hkeep : keep line with
      | false =>
          -- the line that is left out leads to the same mode as if it were not there
          obtain ⟨hmode, hquit⟩ := h line hkeep
          rw [List.filter_cons_of_neg (by simp [hkeep]), converse_go_on hquit, hmode, ih,
            List.filter_cons_of_neg (by simp [hkeep])]
          rfl
      | true =>
          rw [List.filter_cons_of_pos hkeep]
          cases hquit : asksToQuit line with
          | true =>
              rw [converse_quit hquit, converse_quit hquit]
              simp [hkeep]
          | false =>
              rw [converse_go_on hquit, converse_go_on hquit, ih,
                List.filter_cons_of_pos (by simpa using hkeep)]

theorem betweenReads_eq (es : List Exchange) :
    betweenReads es =
      List.zipWith (· ++ ·) ([] :: es.map Exchange.reply)
        (es.map (fun e => [e.prompt]) ++ [[]]) := by
  induction es with
  | nil => rfl
  | cons e rest ih =>
      rw [betweenReads, ih]
      cases rest with
      | nil => simp
      | cons e' rest => simp

theorem map_getElem?_range {lines : List String} {n : Nat} (h : n ≤ lines.length) :
    (List.range n).map (lines[·]?) = (lines.take n).map some := by
  apply List.ext_getElem
  · simp [h]
  · intro i hi _
    have hlt : i < lines.length := by
      rw [List.length_map, List.length_range] at hi
      omega
    simp [hlt]

/-- What a session writes last is the reply to what it reads last. -/
theorem stdout_of_last {session : Conversation} {reply : Message} {written : String}
    (hlast : session.exchanges.getLast?.map Exchange.reply = some [reply])
    (hreply : reply.stdout = written) :
    ∃ before, session.transcript.stdout = before ++ written := by
  obtain ⟨e, he, hanswer⟩ := Option.map_eq_some_iff.mp hlast
  obtain ⟨es, hes⟩ := List.getLast?_eq_some_iff.mp he
  refine ⟨Transcript.stdout (exchangesTranscript es ++ [e.prompt]), ?_⟩
  have htranscript : session.transcript =
      (exchangesTranscript es ++ [e.prompt]) ++ [reply] := by
    rw [Conversation.transcript, hes]
    simp [exchangesTranscript, hanswer]
  have hline : Transcript.stdout [reply] = written := by
    simp [Transcript.stdout, hreply]
  rw [htranscript, Transcript.stdout_append, hline]

theorem map_line_exchanges (mode : Mode) (lines : List String) :
    (converse c mode lines).exchanges.map Exchange.line =
      (List.range (lines.findIdx asksToQuit + 1)).map (lines[·]?) := by
  rw [converse_eq, List.map_map]
  rfl

theorem reply_getLast?_exchanges (mode : Mode) (lines : List String) :
    (converse c mode lines).exchanges.getLast?.map Exchange.reply =
      some (exchangeAt c mode lines (lines.findIdx asksToQuit)).reply := by
  rw [converse_eq, List.range_succ, List.map_append]
  simp

/-- The lines are read up to the first that asks to quit, which is answered with a farewell. -/
theorem converse_of_quit {lines : List String} {k : Nat}
    (h : lines.findIdx? asksToQuit = some k) (mode : Mode) :
    (converse c mode lines).exchanges.map Exchange.line = (lines.take (k + 1)).map some ∧
      (converse c mode lines).unread = lines.length - (k + 1) ∧
      (converse c mode lines).exchanges.getLast?.map Exchange.reply = some [.line "Bye!"] := by
  obtain ⟨hlt, hfirst⟩ := List.findIdx?_eq_some_iff_findIdx_eq.mp h
  obtain ⟨_, hquit, -⟩ := List.findIdx?_eq_some_iff_getElem.mp h
  refine ⟨?_, ?_, ?_⟩
  · rw [map_line_exchanges, hfirst, map_getElem?_range hlt]
  · rw [converse_eq, hfirst]
  · rw [reply_getLast?_exchanges, hfirst, reply_exchangeAt (List.getElem?_eq_getElem hlt),
      respond_of_quit hquit]

/-- If no line asks to quit, all are read, and the end of input is answered with a line end. -/
theorem converse_of_not_quit {lines : List String} (h : lines.findIdx? asksToQuit = none)
    (mode : Mode) :
    (converse c mode lines).exchanges.map Exchange.line = lines.map some ++ [none] ∧
      (converse c mode lines).unread = 0 ∧
      (converse c mode lines).exchanges.getLast?.map Exchange.reply = some [.line ""] := by
  have hend : lines.findIdx asksToQuit = lines.length :=
    List.findIdx?_eq_none_iff_findIdx_eq.mp h
  have hread : lines[lines.length]? = none := List.getElem?_eq_none (Nat.le_refl _)
  refine ⟨?_, ?_, ?_⟩
  · rw [map_line_exchanges, hend, List.range_succ, List.map_append,
      map_getElem?_range (Nat.le_refl _), List.take_length, List.map_singleton, hread]
  · rw [converse_eq, hend]
    exact Nat.sub_eq_zero_of_le (Nat.le_succ _)
  · rw [reply_getLast?_exchanges, hend, exchangeAt, hread]
    rfl

theorem exchange_at {mode : Mode} {lines : List String} {i : Nat} {e : Exchange}
    (h : (converse c mode lines).exchanges[i]? = some e) : e = exchangeAt c mode lines i := by
  rw [converse_eq, List.getElem?_map] at h
  obtain ⟨j, hj, rfl⟩ := Option.map_eq_some_iff.mp h
  obtain ⟨-, rfl⟩ := List.getElem?_eq_some_iff.mp hj
  rw [List.getElem_range]

end Session

end LineCalc
