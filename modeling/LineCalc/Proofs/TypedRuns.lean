import Mathlib
import LineCalc.Proofs.Sessions

/-!
# One-shot runs, typed at the prompt

The arguments of a one-shot run can be typed into an interactive session instead, one on each
line, with `i` and `f` in place of the switches. The session then has an exchange for each
argument, in the same mode (`after_typed`), and an expression is told about in the same words.
So the run is what is left of the exchanges when the session's own answers to the switches are
taken out and each expression is echoed after its prompt (`Exchange.echoed`), up to the first
expression that faults.
-/

namespace LineCalc

/-! ## Lines -/

namespace Text

/-- What comes before a newline is a line, if it holds no line end itself. -/
theorem linesFrom_newline {line : List Char} (h : ∀ ch ∈ line, ch ≠ '\n' ∧ ch ≠ '\r')
    (begun rest : List Char) :
    linesFrom begun (line ++ '\n' :: rest) = (begun.reverse ++ line) :: linesFrom [] rest := by
  induction line generalizing begun with
  | nil => simp [linesFrom]
  | cons ch line ih =>
      obtain ⟨⟨hnewline, hreturn⟩, hline⟩ := List.forall_mem_cons.mp h
      rw [List.cons_append, linesFrom, if_neg (by simp [hnewline, hreturn]), ih hline]
      · simp
      · exact fun _ heq => absurd heq hreturn

theorem lines_join {ls : List String}
    (h : ∀ line ∈ ls, ∀ ch ∈ line.toList, ch ≠ '\n' ∧ ch ≠ '\r') :
    lines (String.join (ls.map (· ++ "\n"))) = ls := by
  have hchars : linesFrom [] (String.join (ls.map (· ++ "\n"))).toList = ls.map String.toList := by
    induction ls with
    | nil => simp [linesFrom]
    | cons line ls ih =>
        obtain ⟨hline, hls⟩ := List.forall_mem_cons.mp h
        have hsplit : (String.join ((line :: ls).map (· ++ "\n"))).toList =
            line.toList ++ '\n' :: (String.join (ls.map (· ++ "\n"))).toList := by
          simp
        rw [hsplit, linesFrom_newline hline, ih hls]
        simp
  rw [lines, hchars, List.map_map]
  simp

end Text

namespace Session

variable {c : Config} {mode m : Mode} {arg : String} {args : List String} {i : Nat}

/-! ## What is typed -/

/-- What is typed for an argument: the word of a mode for a switch, and an expression as it is. -/
def typed (arg : String) : String :=
  if arg = "-i" then "i"
  else if arg = "-f" then "f"
  else arg

/-- Standard input with a line for each argument. -/
def typedInput (args : List String) : String :=
  String.join ((args.map typed).map (· ++ "\n"))

/-- An argument that can be typed: a switch, or a trimmed line that means nothing else. -/
def Typeable (arg : String) : Prop :=
  arg = "-i" ∨ arg = "-f" ∨
    (Text.trim arg = arg ∧ arg ≠ "" ∧ (∀ ch ∈ arg.toList, ch ≠ '\n' ∧ ch ≠ '\r') ∧ arg ∉ words)

instance : DecidablePred Typeable := fun arg =>
  inferInstanceAs (Decidable (arg = "-i" ∨ arg = "-f" ∨
    (Text.trim arg = arg ∧ arg ≠ "" ∧ (∀ ch ∈ arg.toList, ch ≠ '\n' ∧ ch ≠ '\r') ∧ arg ∉ words)))

theorem typed_of_expression (h : switch? arg = none) : typed arg = arg := by
  unfold switch? at h
  split_ifs at h with hi hf
  rw [typed, if_neg hi, if_neg hf]

/-- A typed argument is one line, which enters the mode that it switches to and never quits. -/
theorem typed_spec (h : Typeable arg) :
    entered? (typed arg) = switch? arg ∧ asksToQuit (typed arg) = false ∧
      ∀ ch ∈ (typed arg).toList, ch ≠ '\n' ∧ ch ≠ '\r' := by
  by_cases hi : arg = "-i"
  · subst hi
    exact ⟨by decide, by decide, by simp [typed]⟩
  · by_cases hf : arg = "-f"
    · subst hf
      exact ⟨by decide, by decide, by simp [typed]⟩
    · obtain ⟨htrim, -, hline, hword⟩ := (h.resolve_left hi).resolve_left hf
      have htyped : typed arg = arg := by rw [typed, if_neg hi, if_neg hf]
      simp only [words, List.mem_cons, List.not_mem_nil, or_false, not_or] at hword
      refine ⟨?_, ?_, htyped.symm ▸ hline⟩
      · simp [htyped, switch?, entered?, hi, hf, htrim, hword]
      · simp [htyped, asksToQuit, htrim, hword]

theorem lines_typedInput (h : ∀ arg ∈ args, Typeable arg) :
    Text.lines (typedInput args) = args.map typed := by
  refine Text.lines_join fun line hline => ?_
  obtain ⟨arg, harg, rfl⟩ := List.mem_map.mp hline
  exact (typed_spec (h arg harg)).2.2

/-- **The mode in force is the same**, whether it is switched by arguments or by lines. -/
theorem after_typed (h : ∀ arg ∈ args, Typeable arg) (mode : Mode) :
    mode.after entered? (args.map typed) = mode.after switch? args := by
  have hswitch : (args.map typed).filterMap entered? = args.filterMap switch? := by
    rw [List.filterMap_map]
    refine List.filterMap_congr fun arg harg => ?_
    rw [Function.comp_apply, (typed_spec (h arg harg)).1]
  rw [Mode.after, Mode.after, hswitch]

/-- An expression that is typed is told about as an argument is. -/
theorem respond_typed (h : Typeable arg) (hswitch : switch? arg = none) (mode : Mode) :
    (respond c mode (typed arg)).transcript = (runLine c mode arg).transcript := by
  rw [typed_of_expression hswitch]
  obtain rfl | rfl | ⟨htrim, hblank, -, hword⟩ := h
  · cases hswitch
  · cases hswitch
  · rw [respond_of_expression (by rwa [htrim]) (by rwa [htrim]), htrim]
    rfl

/-! ## Exchanges as a run writes them -/

/-- What a run writes in place of an exchange: the expression behind its prompt, and the reply. -/
def Exchange.echoed (e : Exchange) : Transcript :=
  match e.line with
  | none => []
  | some line =>
    if (entered? line).isSome then []
    else .line (Session.prompt e.mode ++ line) :: e.reply

/-- The exchange in which an argument is answered. -/
theorem exchangeAt_typed (h : ∀ arg ∈ args, Typeable arg) (hget : args[i]? = some arg) :
    exchangeAt c mode (args.map typed) i =
      ⟨mode.after switch? (args.take i), some (typed arg),
        (respond c (mode.after switch? (args.take i)) (typed arg)).transcript⟩ := by
  have htaken : ∀ arg ∈ args.take i, Typeable arg :=
    fun arg harg => h arg (List.mem_of_mem_take harg)
  have hline : (args.map typed)[i]? = some (typed arg) := by
    rw [List.getElem?_map, hget]
    rfl
  rw [exchangeAt, hline, ← List.map_take, after_typed htaken]
  rfl

theorem echoed_exchangeAt (h : ∀ arg ∈ args, Typeable arg) (hget : args[i]? = some arg) :
    (exchangeAt c mode (args.map typed) i).echoed =
      (runBatch c (mode.after switch? (args.take i)) [arg]).transcript := by
  have harg : Typeable arg := h arg (List.mem_of_getElem? hget)
  rw [exchangeAt_typed h hget, Exchange.echoed]
  simp only [(typed_spec harg).1]
  cases hswitch : switch? arg with
  | some m =>
      rw [runBatch_switch hswitch]
      rfl
  | none =>
      rw [respond_typed harg hswitch, typed_of_expression hswitch]
      cases hfault : (runLine c (mode.after switch? (args.take i)) arg).faulted with
      | true => rw [runBatch_fault hswitch hfault]; rfl
      | false =>
          rw [runBatch_line hswitch hfault]
          simp [runBatch]

/-! ## Runs up to a place -/

theorem faultsAt_take {n : Nat} :
    FaultsAt c mode (args.take n) i ↔ i < n ∧ FaultsAt c mode args i := by
  constructor
  · rintro ⟨arg, f, hget, hswitch, hf⟩
    have hlt : i < n := by
      by_contra hge
      rw [List.getElem?_take_eq_none (Nat.not_lt.mp hge)] at hget
      cases hget
    rw [List.getElem?_take_of_lt hlt] at hget
    rw [List.take_take, Nat.min_eq_left hlt.le] at hf
    exact ⟨hlt, arg, f, hget, hswitch, hf⟩
  · rintro ⟨hlt, arg, f, hget, hswitch, hf⟩
    refine ⟨arg, f, ?_, hswitch, ?_⟩
    · rw [List.getElem?_take_of_lt hlt, hget]
    · rw [List.take_take, Nat.min_eq_left hlt.le, hf]

/-- A run goes on as far as nothing has faulted. -/
theorem runBatch_take_succ (hget : args[i]? = some arg)
    (hclear : ∀ j < i, ¬ FaultsAt c mode args j) :
    runBatch c mode (args.take (i + 1)) =
      ⟨(runBatch c mode (args.take i)).transcript ++
          (runBatch c (mode.after switch? (args.take i)) [arg]).transcript,
        (runBatch c (mode.after switch? (args.take i)) [arg]).exitCode⟩ := by
  have hexit : (runBatch c mode (args.take i)).exitCode ≠ 1 := by
    intro hone
    obtain ⟨j, hj⟩ := (exitCode_runBatch mode (args.take i)).2.mp hone
    obtain ⟨hlt, hfault⟩ := faultsAt_take.mp hj
    exact hclear j hlt hfault
  rw [List.take_add_one, hget, Option.toList_some, runBatch_append, BatchReport.followedBy,
    if_neg hexit]

/-- **Up to its first fault, a run writes the exchanges of the session, echoed.** -/
theorem transcript_take (h : ∀ arg ∈ args, Typeable arg) {n : Nat} (hn : n ≤ args.length)
    (hclear : ∀ j, j + 1 < n → ¬ FaultsAt c mode args j) :
    (runBatch c mode (args.take n)).transcript =
      ((List.range n).map (exchangeAt c mode (args.map typed))).flatMap Exchange.echoed := by
  induction n with
  | zero => rfl
  | succ n ih =>
      -- The last of these arguments may fault: it has been written by then.
      have hget : args[n]? = some args[n] := List.getElem?_eq_getElem hn
      rw [runBatch_take_succ hget fun j hj => hclear j (Nat.succ_lt_succ hj), List.range_succ,
        List.map_append, List.flatMap_append, ← ih (Nat.le_of_succ_le hn)
          fun j hj => hclear j (Nat.lt_succ_of_lt hj)]
      simp [echoed_exchangeAt h hget]

/-! ## The session that a run is typed into -/

theorem findIdx?_typed (h : ∀ arg ∈ args, Typeable arg) :
    (args.map typed).findIdx? asksToQuit = none := by
  rw [List.findIdx?_eq_none_iff]
  intro line hline
  obtain ⟨arg, harg, rfl⟩ := List.mem_map.mp hline
  exact (typed_spec (h arg harg)).2.1

theorem exchanges_typed (h : ∀ arg ∈ args, Typeable arg) (mode : Mode) :
    (converse c mode (args.map typed)).exchanges =
      (List.range (args.length + 1)).map (exchangeAt c mode (args.map typed)) := by
  rw [converse_eq, List.findIdx?_eq_none_iff_findIdx_eq.mp (findIdx?_typed h), List.length_map]

theorem getElem?_exchanges_typed (h : ∀ arg ∈ args, Typeable arg) (hi : i ≤ args.length) :
    (converse c mode (args.map typed)).exchanges[i]? =
      some (exchangeAt c mode (args.map typed) i) := by
  rw [exchanges_typed h, List.getElem?_map, List.getElem?_range (Nat.lt_succ_of_le hi)]
  rfl

theorem take_exchanges_typed (h : ∀ arg ∈ args, Typeable arg) {n : Nat} (hn : n ≤ args.length) :
    (converse c mode (args.map typed)).exchanges.take n =
      (List.range n).map (exchangeAt c mode (args.map typed)) := by
  rw [exchanges_typed h, ← List.map_take, List.take_range, Nat.min_eq_left (Nat.le_succ_of_le hn)]

theorem mode_exchangeAt_succ (h : ∀ arg ∈ args, Typeable arg) (hget : args[i]? = some arg)
    (hswitch : switch? arg = none) :
    (exchangeAt c mode (args.map typed) (i + 1)).mode =
      (exchangeAt c mode (args.map typed) i).mode := by
  have hentered : entered? (typed arg) = none := by
    rw [(typed_spec (h arg (List.mem_of_getElem? hget))).1, hswitch]
  have hline : (args.map typed)[i]? = some (typed arg) := by
    rw [List.getElem?_map, hget]
    rfl
  rw [exchangeAt, exchangeAt, List.take_add_one, hline, Option.toList_some, Mode.after, Mode.after,
    List.filterMap_append]
  simp [hentered]

/-- What a run has written up to a place is never taken back. -/
theorem transcript_take_prefix (mode : Mode) (args : List String) (n : Nat) :
    (runBatch c mode (args.take n)).transcript <+: (runBatch c mode args).transcript := by
  conv => rhs; rw [← List.take_append_drop n args, runBatch_append, BatchReport.followedBy]
  split_ifs
  · exact List.prefix_rfl
  · exact List.prefix_append _ _

/--
**A one-shot run is a session typed in**, up to the first expression that faults. The session
reads every line. What the run writes is the exchanges of the session, echoed, and nothing
else: for an expression that no fault comes before, it echoes the prompt that the session
shows, and what it writes next is the reply of the session, for either stream. The first fault
ends the run with exit code 1, while the session prompts for the next line in the same mode.
-/
theorem runBatch_typed (c : Config) (mode : Mode) {args : List String}
    (h : ∀ arg ∈ args, Typeable arg) :
    let session := converse c mode (Text.lines (typedInput args))
    let batch := runBatch c mode args
    session.exchanges.map Exchange.line = args.map (fun arg => some (typed arg)) ++ [none] ∧
      session.unread = 0 ∧
      (∀ n ≤ args.length, (∀ j, j + 1 < n → ¬ FaultsAt c mode args j) →
        (runBatch c mode (args.take n)).transcript =
          (session.exchanges.take n).flatMap Exchange.echoed) ∧
      (∀ i arg, args[i]? = some arg → switch? arg = none →
        (∀ j < i, ¬ FaultsAt c mode args j) →
        ∃ e text, session.exchanges[i]? = some e ∧ e.line = some arg ∧ e.prompt = .prompt text ∧
          (runBatch c mode (args.take (i + 1))).transcript =
            (runBatch c mode (args.take i)).transcript ++ .line (text ++ arg) :: e.reply ∧
          (runBatch c mode (args.take (i + 1))).transcript <+: batch.transcript) ∧
      ∀ i, FaultsAt c mode args i → (∀ j < i, ¬ FaultsAt c mode args j) →
        batch = runBatch c mode (args.take (i + 1)) ∧ batch.exitCode = 1 ∧
          ∃ e e', session.exchanges[i]? = some e ∧ session.exchanges[i + 1]? = some e' ∧
            e'.mode = e.mode := by
  rw [lines_typedInput h]
  intro session batch
  obtain ⟨hread, hunread, -⟩ := converse_of_not_quit (c := c) (findIdx?_typed h) mode
  refine ⟨?_, hunread, fun n hn hclear => ?_, fun i arg hget hswitch hclear => ?_,
    fun i hfault hclear => ?_⟩
  · rw [hread, List.map_map]
    rfl
  · rw [take_exchanges_typed h hn, transcript_take h hn hclear]
  · have hi : i ≤ args.length := (List.getElem?_eq_some_iff.mp hget).1.le
    refine ⟨_, _, getElem?_exchanges_typed h hi, ?_, rfl, ?_, transcript_take_prefix mode args _⟩
    · rw [exchangeAt_typed h hget, typed_of_expression hswitch]
    · have hentered : entered? arg = none := by
        rw [← typed_of_expression hswitch, (typed_spec (h arg (List.mem_of_getElem? hget))).1,
          hswitch]
      rw [runBatch_take_succ hget hclear, ← echoed_exchangeAt h hget, exchangeAt_typed h hget,
        typed_of_expression hswitch]
      simp [Exchange.echoed, hentered]
  · obtain ⟨arg, f, hget, hswitch, hf⟩ := hfault
    have hi : i < args.length := (List.getElem?_eq_some_iff.mp hget).1
    have hone : (runBatch c mode (args.take (i + 1))).exitCode = 1 :=
      (exitCode_runBatch mode _).2.mpr
        ⟨i, faultsAt_take.mpr ⟨Nat.lt_succ_self i, arg, f, hget, hswitch, hf⟩⟩
    have hbatch : batch = runBatch c mode (args.take (i + 1)) := by
      show runBatch c mode args = _
      conv => lhs; rw [← List.take_append_drop (i + 1) args, runBatch_append,
        BatchReport.followedBy, if_pos hone]
    exact ⟨hbatch, hbatch ▸ hone, _, _, getElem?_exchanges_typed h hi.le,
      getElem?_exchanges_typed h hi, mode_exchangeAt_succ h hget hswitch⟩

/-- A switch and a division by zero, with an expression behind them. -/
theorem runBatch_typed_fault :
    let args := ["-i", "5/0", "1+1"]
    let session := converse {} .floating (Text.lines (typedInput args))
    (∀ arg ∈ args, Typeable arg) ∧ FaultsAt {} .floating args 1 ∧
      (∀ j < 1, ¬ FaultsAt {} .floating args j) ∧ (runBatch {} .floating args).exitCode = 1 ∧
      ∃ e e', session.exchanges[1]? = some e ∧ session.exchanges[2]? = some e' ∧
        e'.mode = e.mode := by
  intro args session
  have hdivision : Typeable "5/0" := .inr (.inr ⟨by decide, by decide, by simp, by decide⟩)
  have hsum : Typeable "1+1" := .inr (.inr ⟨by decide, by decide, by simp, by decide⟩)
  have h : ∀ arg ∈ args, Typeable arg := by
    simp only [args, List.forall_mem_cons]
    exact ⟨.inl rfl, hdivision, hsum, List.forall_mem_nil _⟩
  have hfault : FaultsAt {} .floating args 1 :=
    ⟨"5/0", .divisionByZero, rfl, by decide, by cbv⟩
  have hclear : ∀ j < 1, ¬ FaultsAt {} .floating args j := by
    rintro j hj ⟨arg, f, hget, hswitch, -⟩
    obtain rfl : j = 0 := Nat.lt_one_iff.mp hj
    obtain rfl : arg = "-i" := (Option.some.inj hget).symm
    cases hswitch
  obtain ⟨-, -, -, -, hend⟩ := runBatch_typed {} .floating h
  obtain ⟨-, hexit, hmode⟩ := hend 1 hfault hclear
  exact ⟨h, hfault, hclear, hexit, hmode⟩

end Session

end LineCalc
