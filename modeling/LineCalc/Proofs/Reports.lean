import Mathlib
import LineCalc.Proofs.Agreement
import LineCalc.Proofs.Sessions
import LineCalc.Proofs.TwosComplement

/-!
# What is told about one line

Evaluating a line has three ways out: a value, an error of the input, and a fault. Each has a
channel of its own, and the warnings given on the way are told in any case. `report` puts this
into one table, and `Session.attempt` is how it comes about: the evaluation inside two handlers,
with the warnings told when it is left, however it is left. A handler is there for some failures
only, and the others would get out. None of them occurs (`attempt_eq`). Grammar errors stand at
a place, doubles hold all literals, and no number that is written out is too long, because the
exact result of two integers of 128 bits has at most 254 (`modest_evaluate`).

A warning is told for each division that is not exact. The divisions are those of the trace, so
they are the ones that were carried out before the evaluation ended, and what a trace records of
a call is what the arithmetic makes of it (`run_of_mem_trace`).
-/

namespace LineCalc

/-! ## Divisions that are not exact -/

section

variable {ω ε α : Type}

/-- Whatever holds of every answer holds of all that is written down. -/
theorem forall_answered_of_follow {p : Responder ω ε α} {P : Answered ω ε α → Prop}
    (hp : ∀ past c, P ⟨c, p past c⟩) {steps : List Step} :
    ∀ {stack : List α} {past log : List (Answered ω ε α)}
      {out : Except ε (Except Fault (List α))}, (∀ r ∈ past, P r) →
        p.follow steps stack past = some (out, log) → ∀ r ∈ log, P r := by
  induction steps with
  | nil =>
      intro stack past log out hpast h
      cases h
      exact hpast
  | cons s steps ih =>
      intro stack past log out hpast h
      rw [Responder.follow] at h
      split at h
      · cases h
      · cases h
        exact hpast
      · next c below hdue =>
        have hlog : ∀ r ∈ past ++ [⟨c, p past c⟩], P r :=
          List.forall_mem_append.mpr ⟨hpast, by simpa using hp past c⟩
        split at h
        · cases h
          exact hlog
        · exact ih hlog h

/-- A trace records of every call what the arithmetic makes of it. -/
theorem run_of_mem_trace (ops : Arithmetic Run α) (e : RawExpr) :
    ∀ r ∈ (e.trace ops).2, r.run = ops.respond r.call := by
  have hfollow := (Responder.ofArithmetic ops).follow_eq_consult e
  have htrace := (evaluate_eq_consult ops e).2
  have hanswers := forall_answered_of_follow (P := fun r => r.record.run = ops.respond r.call)
    (fun past c => rfl) (List.forall_mem_nil _) hfollow
  rw [htrace]
  intro r hr
  obtain ⟨r', hr', rfl⟩ := List.mem_map.mp hr
  exact hanswers r' hr'

end

/-- Whether a call divides by a number that is no divisor; a divisor of zero is a fault instead. -/
def Call.isInexact : Call Int → Bool
  | binary .div a b => b ≠ 0 ∧ ¬ b ∣ a
  | _ => false

namespace Integer

theorem warnings_checked (v : Int) : (checked v).warnings = [] := by rw [checked_eq]

/-- A call warns at most once, and only if it is a division that is not exact. -/
theorem warnings_respond (c : Call Int) :
    (arithmetic.respond c).warnings =
      .replicate ([c].countP Call.isInexact) .truncatedDivision := by
  cases c with
  | literal v => rfl
  | negate a => exact warnings_checked _
  | binary op a b =>
      cases op with
      | add | sub | mul => exact warnings_checked _
      | div =>
          change (divide a b).warnings = _
          by_cases hb : b = 0
          · subst hb
            simp [divide_zero, Call.isInexact]
          · have hrem : a.tmod b = 0 ↔ b ∣ a :=
              ⟨Int.dvd_of_tmod_eq_zero, Int.tmod_eq_zero_of_dvd⟩
            rw [divide_of_ne_zero hb]
            by_cases hdvd : b ∣ a <;> simp [Call.isInexact, hb, hrem, hdvd]

/-- There is one warning for each division that is not exact and was carried out. -/
theorem warnings_evaluate (e : RawExpr) :
    (e.evaluate arithmetic).warnings =
      .replicate (((e.trace arithmetic).2.map CallRecord.call).countP Call.isInexact)
        .truncatedDivision := by
  rw [evaluate_eq_trace]
  have hruns := run_of_mem_trace arithmetic e
  simp only
  generalize (e.trace arithmetic).2 = records at hruns
  induction records with
  | nil => rfl
  | cons r records ih =>
      obtain ⟨hr, hrest⟩ := List.forall_mem_cons.mp hruns
      rw [List.flatMap_cons, ih hrest, hr, warnings_respond, ← List.replicate_add,
        ← List.countP_append, List.map_cons, List.singleton_append]

/-- In `7 / 2 + 1 / 0 + 9 / 4`, the last division is never carried out. -/
example :
    let quotient (a b : UInt64) : Expr := .binary .div (.number a) (.number b)
    let e : Expr := .binary .add (.binary .add (quotient 7 2) (quotient 1 0)) (quotient 9 4)
    ((e.toRaw.trace arithmetic).2.map CallRecord.call).filter Call.isInexact =
      [.binary .div 7 2] := by
  rfl

end Integer

/-- The calls of integer arithmetic that are made for a line. -/
def integerCalls (mode : Mode) (cap : Option Int) (source : String) : List (Call Int) :=
  match mode, Token.scan source with
  | .integer, .ok ts =>
    if exceeds cap ts then []
    else
      match Expr.parse ts with
      | .ok e => (e.toRaw.trace Integer.arithmetic).2.map CallRecord.call
      | .error _ => []
  | _, _ => []

theorem evaluateIn_integer_run (e : Expr) :
    e.evaluateIn .integer =
      ⟨(e.toRaw.evaluate Integer.arithmetic).warnings,
        (e.toRaw.evaluate Integer.arithmetic).outcome.map .integer⟩ := by
  change Run.andThen _ _ = _
  rw [Run.andThen]
  cases (e.toRaw.evaluate Integer.arithmetic).outcome with
  | error f => rfl
  | ok v => exact congrArg (Run.mk · _) (List.append_nil _)

/-- A line warns once for each division that is not exact among its calls. -/
theorem warnings_evaluate_line (mode : Mode) (cap : Option Int) (source : String) :
    (evaluate mode cap source).warnings =
      .replicate ((integerCalls mode cap source).countP Call.isInexact) .truncatedDivision := by
  cases hscan : Token.scan source with
  | error e => cases mode <;> simp [evaluate, integerCalls, hscan]
  | ok ts =>
      cases hcap : exceeds cap ts with
      | true => cases mode <;> simp [evaluate, integerCalls, hscan, hcap]
      | false =>
          cases hparse : Expr.parse ts with
          | error e => cases mode <;> simp [evaluate, integerCalls, hscan, hcap, hparse]
          | ok e =>
              rw [(evaluate_of_parse mode hscan hcap hparse).2]
              cases mode with
              | integer =>
                  rw [evaluateIn_integer_run, Integer.warnings_evaluate]
                  simp [integerCalls, hscan, hcap, hparse]
              | floating =>
                  obtain ⟨x, hx⟩ := evaluateIn_floating e
                  simp [integerCalls, hx]

/-! ## Numbers that are written out -/

/-- A run that comes to a number of 128 bits or carries one of at most 254, and a sign. -/
structure Run.Modest (x : Run Int) : Prop where
  inRange : ∀ v, x.outcome = .ok v → Integer.InRange v
  exact : ∀ v, x.outcome = .error (.overflow v) → v.natAbs ≤ 2 ^ 254

namespace Run.Modest

/-- A number that is checked is in range, or else the overflow carries it as it is. -/
theorem checked {v : Int} (h : v.natAbs ≤ 2 ^ 254) : (Integer.checked v).Modest := by
  rw [Integer.checked_eq]
  by_cases hv : Integer.InRange v
  · rw [if_pos hv]
    exact ⟨by rintro _ ⟨⟩; exact hv, nofun⟩
  · rw [if_neg hv]
    exact ⟨nofun, by rintro _ ⟨⟩; exact h⟩

theorem bind {x : Run Int} {f : Int → Run Int} (hx : x.Modest)
    (hf : ∀ v, Integer.InRange v → (f v).Modest) : (x >>= f).Modest := by
  cases h : x.outcome with
  | ok v =>
      rw [Run.bind_of_ok h]
      exact ⟨(hf v (hx.inRange v h)).inRange, (hf v (hx.inRange v h)).exact⟩
  | error e =>
      rw [Run.bind_of_error h]
      exact ⟨nofun, by rintro v ⟨⟩; exact hx.exact v h⟩

end Run.Modest

namespace Integer

theorem natAbs_le_of_inRange {v : Int} (h : InRange v) : v.natAbs ≤ 2 ^ 127 := by
  rw [Expr.inRange_iff] at h
  omega

/-- No result of two numbers in range has more than twice their bits. -/
theorem modest_apply (op : BinaryOp) {a b : Int} (ha : InRange a) (hb : InRange b) :
    (arithmetic.apply op a b).Modest := by
  have ha := natAbs_le_of_inRange ha
  have hb := natAbs_le_of_inRange hb
  cases op with
  | add => exact .checked (by omega)
  | sub => exact .checked (by omega)
  | mul =>
      have hproduct : (a * b).natAbs ≤ 2 ^ 127 * 2 ^ 127 := by
        rw [Int.natAbs_mul]
        exact Nat.mul_le_mul ha hb
      exact .checked hproduct
  | div =>
      by_cases hzero : b = 0
      · subst hzero
        exact ⟨nofun, nofun⟩
      · have hquotient : (a.tdiv b).natAbs ≤ 2 ^ 254 := by
          rw [Int.natAbs_tdiv]
          exact (Nat.div_le_self _ _).trans (ha.trans (by decide))
        have hchecked := Run.Modest.checked hquotient
        rw [checked_eq] at hchecked
        change (divide a b).Modest
        rw [divide_of_ne_zero hzero]
        exact ⟨hchecked.inRange, hchecked.exact⟩

/-- Operands are in range wherever an operation is carried out, so no number grows any longer. -/
theorem modest_evaluate (e : Expr) : (e.toRaw.evaluate arithmetic).Modest := by
  induction e with
  | number v =>
      have hlt := v.toNat_lt
      refine ⟨?_, nofun⟩
      rintro _ ⟨⟩
      rw [Expr.inRange_iff]
      omega
  | negate e ih =>
      refine ih.bind fun v hv => .checked ?_
      rw [Int.natAbs_neg]
      exact (natAbs_le_of_inRange hv).trans (by decide)
  | paren e ih => exact ih
  | binary op l r ihl ihr =>
      rw [Expr.toRaw, RawExpr.evaluate, BinaryOp.ofText?_text]
      exact ihl.bind fun a ha => ihr.bind fun b hb => modest_apply op ha hb

end Integer

/-! ## What a line can end in -/

/-- Whatever ends a line is in the list of its documented ends. -/
theorem documented_line (mode : Mode) (cap : Option Int) (source : String) :
    Documented mode (evaluate mode cap source).outcome := by
  rcases early_or_parsed cap source with ⟨f, -, hearly⟩ | ⟨ts, e, hscan, hcap, hparse⟩
  · rw [(hearly mode).1]
    exact (hearly mode).2
  · rw [(evaluate_of_parse mode hscan hcap hparse).1]
    cases mode with
    | integer => exact documented_integer e
    | floating =>
        obtain ⟨x, hx⟩ := evaluateIn_floating e
        rw [hx]
        exact .double

/-- The number that an overflow tells of is of at most 254 bits, and so is short to write. -/
theorem natAbs_le_of_overflow {mode : Mode} {cap : Option Int} {source : String} {v : Int}
    (h : (evaluate mode cap source).outcome = .error (.fault (.overflow v))) :
    v.natAbs ≤ 2 ^ 254 := by
  rcases early_or_parsed cap source with ⟨f, hf, hearly⟩ | ⟨ts, e, hscan, hcap, hparse⟩
  · rw [(hearly mode).1] at h
    cases h
    cases hf
  · rw [(evaluate_of_parse mode hscan hcap hparse).1] at h
    cases mode with
    | integer =>
        rw [evaluateIn_integer_run] at h
        refine (Integer.modest_evaluate e).exact v ?_
        cases hrun : (e.toRaw.evaluate Integer.arithmetic).outcome with
        | ok w => rw [hrun] at h; cases h
        | error f => rw [hrun] at h; cases h; rfl
    | floating =>
        obtain ⟨x, hx⟩ := evaluateIn_floating e
        rw [hx] at h
        cases h

namespace Session

/-! ## The handlers -/

/-- A number of at most `Radix.digitLimit` decimal digits. Others are not written out. -/
def Writable (v : Int) : Prop := v.natAbs < 10 ^ Radix.digitLimit

instance (v : Int) : Decidable (Writable v) := inferInstanceAs (Decidable (_ < _))

/-- What a computation is left with, apart from its value. -/
inductive Raised where
  /-- An error of the input. -/
  | inputError (message : String)
  | fault (f : Fault)
  /-- What no handler is there for. -/
  | unhandled

/-- A computation that writes, and that may raise something. -/
abbrev Writing : Type → Type := ExceptT Raised (StateM Transcript)

def write (t : Transcript) : Writing Unit := modify (· ++ t)

/--
What a failure is raised as. A token without a value or with one that is no literal's and a
literal that no double holds are of kinds that are not handled, and a number that is too long
fails to be written into the message of its fault.
-/
def raised : Failure → Raised
  | .lex e => .inputError e.message
  | .tooDeep => .inputError Failure.tooDeep.message
  | .parse e => if e.pos?.isSome then .inputError e.message else .unhandled
  | .fault .literalTooLarge => .unhandled
  | .fault (.overflow exact) => if Writable exact then .fault (.overflow exact) else .unhandled
  | .fault f => .fault f

/-- A result as a text, unless it is too long. -/
def written : Value → Except Raised String
  | .integer v => if Writable v then .ok (Value.integer v).text else .error .unhandled
  | .double x => .ok (Value.double x).text

/--
What is done about a line that comes to `e`, step by step: it is evaluated, what was raised is
told if it is handled, the warnings are told in any case, and then there may be a result to be
told. It returns whether there was no fault.
-/
def attempt (source : String) (e : Evaluation) : Writing Bool := do
  let value ←
    try
      write (e.log.map .log)
      liftExcept (e.outcome.mapError raised)
    catch
      | .inputError message =>
        write [.line (failureText message)]
        return true
      | .fault f =>
        write [.log (.aborted source f), .errorLine (failureText f.message)]
        return false
      | .unhandled => throw .unhandled
    finally
      write (warningLines e.warnings)
  let text ← liftExcept (written value)
  write [.line text]
  return true

section

variable {source : String} {e : Evaluation}

/-- A value is told last, after the warnings. -/
theorem attempt_of_ok {v : Value} (h : e.outcome = .ok v) (hv : written v = .ok v.text) :
    (attempt source e).run.run [] =
      (.ok true, e.log.map .log ++ warningLines e.warnings ++ [.line v.text]) := by
  unfold attempt
  rw [h]
  -- the result is looked at after the handlers
  change (do
    let text ← liftExcept (written v)
    write [.line text]
    return true : Writing Bool).run.run (e.log.map .log ++ warningLines e.warnings) = _
  rw [hv]
  rfl

/-- An error of the input is told where results are, in front of the warnings. -/
theorem attempt_of_inputError {f : Failure} {message : String} (h : e.outcome = .error f)
    (hf : raised f = .inputError message) :
    (attempt source e).run.run [] =
      (.ok true,
        e.log.map .log ++ [.line (failureText message)] ++ warningLines e.warnings) := by
  unfold attempt
  rw [h]
  simp only [Except.mapError, hf]
  rfl

/-- A fault is told on error output, in front of the warnings, and ends in failure. -/
theorem attempt_of_fault {f : Failure} {fault : Fault} (h : e.outcome = .error f)
    (hf : raised f = .fault fault) :
    (attempt source e).run.run [] =
      (.ok false,
        e.log.map .log ++ [.log (.aborted source fault), .errorLine (failureText fault.message)] ++
          warningLines e.warnings) := by
  unfold attempt
  rw [h]
  simp only [Except.mapError, hf]
  rfl

end

theorem writable_of_le {v : Int} (h : v.natAbs ≤ 2 ^ 254) : Writable v :=
  calc v.natAbs ≤ 2 ^ 254 := h
    _ < 10 ^ 77 := by decide
    _ ≤ 10 ^ Radix.digitLimit := Nat.pow_le_pow_right (by decide) (by decide)

theorem written_of_writable {v : Int} (h : Writable v) :
    written (.integer v) = .ok (Value.integer v).text := by
  rw [written, if_pos h]

theorem raised_of_writable {v : Int} (h : Writable v) :
    raised (.fault (.overflow v)) = .fault (.overflow v) := by
  rw [raised, if_pos h]

/-- **Nothing gets past the handlers**, and what they do is what is reported. -/
theorem attempt_eq (mode : Mode) (cap : Option Int) (source : String) :
    (attempt source (evaluate mode cap source)).run.run [] =
      (.ok (!(report source (evaluate mode cap source)).faulted),
        (report source (evaluate mode cap source)).transcript) := by
  have hdocumented := documented_line mode cap source
  have hoverflow := @natAbs_le_of_overflow mode cap source
  generalize evaluate mode cap source = e at hdocumented hoverflow ⊢
  generalize hout : e.outcome = out at hdocumented hoverflow
  rw [report, hout]
  cases hdocumented with
  | @integer v hlow hhigh =>
      have hsize : v.natAbs ≤ 2 ^ 254 := by omega
      exact attempt_of_ok hout (written_of_writable (writable_of_le hsize))
  | double => exact attempt_of_ok hout rfl
  | lex => exact attempt_of_inputError hout rfl
  | tooDeep => exact attempt_of_inputError hout rfl
  | parse hpos => exact attempt_of_inputError hout (if_pos (by rw [hpos]; rfl))
  | divisionByZero => exact attempt_of_fault hout rfl
  | overflow _ => exact attempt_of_fault hout (raised_of_writable (writable_of_le (hoverflow rfl)))

end Session

/-! ## The two channels -/

/-- Whether a message goes to standard output. -/
def Message.onOutput : Message → Bool
  | line _ | prompt _ => true
  | errorLine _ | log _ => false

/-- Texts on a stream, each with a newline. -/
def linesText (texts : List String) : String :=
  String.join (texts.map fun text => Text.display text ++ "\n")

namespace Transcript

variable {t : Transcript} {texts : List String}

theorem stdout_filter (t : Transcript) :
    Transcript.stdout (t.filter Message.onOutput) = t.stdout := by
  induction t with
  | nil => rfl
  | cons m t ih =>
      cases m <;>
        simpa [Transcript.stdout, List.filter_cons, Message.onOutput, Message.stdout] using ih

theorem stderr_filter (stamp : String) (t : Transcript) :
    Transcript.stderr stamp (t.filter (!·.onOutput)) = t.stderr stamp := by
  induction t with
  | nil => rfl
  | cons m t ih =>
      cases m <;>
        simpa [Transcript.stderr, List.filter_cons, Message.onOutput, Message.stderr] using ih

theorem stdout_of_lines (h : t.filter Message.onOutput = texts.map .line) :
    t.stdout = linesText texts := by
  rw [← stdout_filter, h, Transcript.stdout, List.map_map]
  rfl

theorem stderr_of_errorLines (h : t.filter (!·.onOutput) = texts.map .errorLine) (stamp : String) :
    t.stderr stamp = linesText texts := by
  rw [← stderr_filter, h, Transcript.stderr, List.map_map]
  rfl

end Transcript

namespace Session

/-- The text that an outcome has on standard output. -/
def answerText? : Except Failure Value → Option String
  | .ok v => some v.text
  | .error (.fault _) => none
  | .error failure => some ("Error: " ++ failure.message)

/-- The text that an outcome has on standard error. -/
def faultText? : Except Failure Value → Option String
  | .error (.fault f) => some ("Error: " ++ f.message)
  | _ => none

/-- On standard output a line has its answer, if it has one, and nothing else. -/
theorem filter_report_output (source : String) (e : Evaluation) :
    (report source e).transcript.filter Message.onOutput =
      (answerText? e.outcome).toList.map .line := by
  have hlog : (e.log.map Message.log).filter Message.onOutput = [] := by
    simp [Message.onOutput]
  have hwarnings : (warningLines e.warnings).filter Message.onOutput = [] := by
    simp [warningLines, Message.onOutput]
  unfold report
  split
  · next v hv =>
    rw [List.filter_append, List.filter_append, hlog, hwarnings, hv]
    rfl
  · next f hf =>
    rw [List.filter_append, List.filter_append, hlog, hwarnings, hf]
    rfl
  · next failure hne hfailure =>
    rw [List.filter_append, List.filter_append, hlog, hwarnings, hfailure]
    cases failure with
    | fault f => exact absurd rfl (hne f)
    | _ => rfl

/-- On error output a line has its fault, if it has one, and then its warnings. -/
theorem filter_report_error (source : String) (e : Evaluation) :
    ((report source e).transcript.withoutLog).filter (!·.onOutput) =
      (faultText? e.outcome).toList.map .errorLine ++ warningLines e.warnings := by
  have hlog : Transcript.withoutLog (e.log.map Message.log) = [] := by
    simp [Transcript.withoutLog, Message.isLog]
  have hwarnings : (Transcript.withoutLog (warningLines e.warnings)).filter (!·.onOutput) =
      warningLines e.warnings := by
    simp [Transcript.withoutLog, warningLines, Message.isLog, Message.onOutput]
  have happend (t u : Transcript) :
      Transcript.withoutLog (t ++ u) = t.withoutLog ++ u.withoutLog := List.filter_append t u
  unfold report
  split
  · next v hv =>
    rw [happend, happend, hlog, List.filter_append, List.filter_append, hwarnings, hv]
    exact List.append_nil _
  · next f hf =>
    rw [happend, happend, hlog, List.filter_append, hwarnings, hf]
    rfl
  · next failure hne hfailure =>
    rw [happend, happend, hlog, List.filter_append, hwarnings, hfailure]
    cases failure with
    | fault f => exact absurd rfl (hne f)
    | _ => rfl

theorem warningLines_replicate (n : Nat) :
    warningLines (.replicate n .truncatedDivision) =
      .replicate n (.errorLine "Warning: division will cause a cast") := by
  rw [warningLines, List.map_replicate]
  rfl

/-- Only integers fault: at a divisor of zero, or with a number that 128 bits do not hold. -/
theorem fault_documented {mode : Mode} {cap : Option Int} {source : String} {f : Fault}
    (h : (evaluate mode cap source).outcome = .error (.fault f)) :
    mode = .integer ∧
      (f = .divisionByZero ∨ ∃ exact, f = .overflow exact ∧ ¬ Integer.InRange exact) := by
  have hdocumented := documented_line mode cap source
  rw [h] at hdocumented
  cases hdocumented with
  | divisionByZero => exact ⟨rfl, .inl rfl⟩
  | overflow hrange => exact ⟨rfl, .inr ⟨_, rfl, hrange⟩⟩

/--
**A line is told about on the right channel, and nothing gets out.** Going through it with
handlers for input errors and faults alone comes to an end with what is reported, and says
whether there was no fault. There is one exactly if the evaluation ends in one, and that is a
divisor of zero or an overflow, of integers. On standard output there is one text, the result or
the error of the input, and none after a fault. On standard error, the log apart, there is the
fault if there was one, and then a warning for each integer division that was not exact and was
carried out before the evaluation ended, and nothing else.
-/
theorem runLine_reports (c : Config) (mode : Mode) (source : String) :
    let e := evaluate mode c.maxDepth source
    let r := runLine c mode source
    let inexact := (integerCalls mode c.maxDepth source).countP Call.isInexact
    let warnings := List.replicate inexact "Warning: division will cause a cast"
    (attempt source e).run.run [] = (.ok (!r.faulted), r.transcript) ∧
      (r.faulted = true ↔ ∃ f, e.outcome = .error (.fault f)) ∧
      (∀ f, e.outcome = .error (.fault f) → mode = .integer ∧
        (f = .divisionByZero ∨ ∃ exact, f = .overflow exact ∧ ¬ Integer.InRange exact)) ∧
      r.transcript.filter Message.onOutput = (answerText? e.outcome).toList.map .line ∧
      r.transcript.stdout = linesText (answerText? e.outcome).toList ∧
      r.transcript.withoutLog.filter (!·.onOutput) =
        ((faultText? e.outcome).toList ++ warnings).map .errorLine ∧
      ∀ stamp, r.transcript.withoutLog.stderr stamp =
        linesText ((faultText? e.outcome).toList ++ warnings) := by
  intro e r inexact warnings
  have houtput : r.transcript.filter Message.onOutput = (answerText? e.outcome).toList.map .line :=
    filter_report_output source e
  have herror : r.transcript.withoutLog.filter (!·.onOutput) =
      ((faultText? e.outcome).toList ++ warnings).map .errorLine := by
    have hwarnings : warningLines e.warnings = warnings.map .errorLine := by
      rw [warnings_evaluate_line, warningLines_replicate, List.map_replicate]
    rw [List.map_append, ← hwarnings]
    exact filter_report_error source e
  exact ⟨attempt_eq mode c.maxDepth source, faulted_iff, fun f hf => fault_documented hf, houtput,
    Transcript.stdout_of_lines houtput, herror, Transcript.stderr_of_errorLines herror⟩

end Session

end LineCalc
