import Mathlib
import LineCalc.Command
import LineCalc.Proofs.DigitLimit
import LineCalc.Proofs.Fields

/-!
# What a configuration file can come to

A file is read in stages: its bytes are decoded, the text is read as TOML, the section is taken
out, and its entries are judged. What the text is at fault for is a `ConfigError`, which names the
file, and the command then exits with 2. Which texts these are is said by `Faulty` in terms of the
table that is read and of the entries that are acceptable, and which configuration the others
describe by `Describes`.

Two stages fail in another way. Bytes that are the encoding of no text are
`LoadError.undecodable`, and a text in which a decimal integer has too many digits is
`LoadError.oversized`. Then the command ends with exit code 1, as if the file and not the user
were at fault. So loading is a configuration or a configuration error exactly for the files that
are `Readable`.
-/

namespace LineCalc

namespace Config

variable {path text : String} {bytes : ByteArray} {t : Table} {c : Config}

/-- Bytes that are the encoding of a text in which no decimal integer stops the reading. -/
def Readable (bytes : ByteArray) : Prop :=
  ∃ text : String, bytes = text.toUTF8 ∧ ∀ n, Toml.read text ≠ .error (.oversized n)

/-- The texts that are no configuration. -/
inductive Faulty (text : String) : Prop where
  | malformed : Toml.read text = .error .malformed → Faulty text
  /-- The section is something else than a table, and not one of the values that count as none. -/
  | kind {t : Table} {x : Datum} : Toml.read text = .ok t → t.get? sectionName = some x →
      x.isFalsy = false → (∀ s, x ≠ .table s) → Faulty text
  /-- The section has an entry that can be in no section. -/
  | entry {t s : Table} {e : String × Datum} : Toml.read text = .ok t →
      t.get? sectionName = some (.table s) → e ∈ s → ¬ Acceptable e.1 e.2 → Faulty text

/-- The texts that are a configuration, and the one that they describe. -/
inductive Describes (text : String) : Config → Prop where
  /-- There is no section, or what stands for it counts as none. -/
  | default {t : Table} : Toml.read text = .ok t →
      (∀ x, t.get? sectionName = some x → x.isFalsy = true) → Describes text {}
  | entries {t s : Table} {c : Config} : Toml.read text = .ok t →
      t.get? sectionName = some (.table s) → (∀ e ∈ s, Acceptable e.1 e.2) → ofTable s = .ok c →
      Describes text c

/-! ## Stage by stage -/

/-- The bytes of a text are decoded to that text. -/
theorem load_toUTF8 (path text : String) : load path (some text.toUTF8) = ofText path text := by
  have hdecode : String.fromUTF8? text.toUTF8 = some text := by
    rw [String.fromUTF8?, String.toUTF8_eq_toByteArray, dif_pos text.isValidUTF8]
    rfl
  rw [load, hdecode]

theorem load_of_not_isValidUTF8 (h : ¬ bytes.IsValidUTF8) (path : String) :
    load path (some bytes) = .error .undecodable := by
  rw [load, String.fromUTF8?, dif_neg h]

theorem exists_toUTF8_of_isValidUTF8 (h : bytes.IsValidUTF8) :
    ∃ text : String, bytes = text.toUTF8 :=
  ⟨String.fromUTF8 bytes h, rfl⟩

theorem ofDatum_eq_error {value : Datum} {cs : List Complaint} (h : ofDatum value = .error cs) :
    cs ≠ [] := by
  cases value with
  | table t => exact (complaints_of_error h).2
  | _ =>
      cases h
      exact List.cons_ne_nil _ _

theorem ofText_of_read (h : Toml.read text = .ok t) (path : String) :
    ofText path text = (ofDocument path t).mapError .config := by
  rw [ofText, h]

/-- What stops the reading stops the loading. -/
theorem ofText_eq_oversized_iff {n : Nat} :
    ofText path text = .error (.oversized n) ↔ Toml.read text = .error (.oversized n) := by
  unfold ofText
  cases Toml.read text with
  | error e => cases e <;> simp
  | ok t => cases hdocument : ofDocument path t <;> simp [hdocument, Except.mapError]

theorem ofText_ne_undecodable : ofText path text ≠ .error .undecodable := by
  unfold ofText
  cases Toml.read text with
  | error e => cases e <;> simp
  | ok t => cases hdocument : ofDocument path t <;> simp [hdocument, Except.mapError]

/-- A document without a section, or with a table for one, or with something else. -/
theorem ofDocument_cases (path : String) (t : Table) :
    ((∀ x, t.get? sectionName = some x → x.isFalsy = true) ∧ ofDocument path t = .ok {}) ∨
      (∃ s, t.get? sectionName = some (.table s) ∧
        ofDocument path t = (ofTable s).mapError (.invalid path)) ∨
      ∃ x, t.get? sectionName = some x ∧ x.isFalsy = false ∧ (∀ s, x ≠ .table s) ∧
        ∃ cs, ofDocument path t = .error (.invalid path cs) := by
  cases hsection : t.get? sectionName with
  | none =>
      refine .inl ⟨fun x hx => ?_, by rw [ofDocument, hsection]⟩
      cases hx
  | some x =>
      cases hfalsy : x.isFalsy with
      | true =>
          refine .inl ⟨fun y hy => Option.some.inj hy ▸ hfalsy, ?_⟩
          rw [ofDocument, hsection]
          exact if_pos hfalsy
      | false =>
          have hdocument : ofDocument path t = (ofDatum x).mapError (.invalid path) := by
            rw [ofDocument, hsection]
            exact if_neg (by simp [hfalsy])
          cases x with
          | table s => exact .inr (.inl ⟨s, rfl, hdocument⟩)
          | _ =>
              refine .inr (.inr ⟨_, rfl, hfalsy, fun s hs => ?_, _, hdocument⟩)
              cases hs

/-! ## Which texts are configurations -/

/-- A text is loaded as the configuration that it describes. -/
theorem Describes.ofText (h : Describes text c) (path : String) : ofText path text = .ok c := by
  cases h with
  | @default t hread hsection =>
      rw [ofText_of_read hread]
      obtain ⟨-, hdocument⟩ | ⟨s, hs, hdocument⟩ | ⟨x, hx, hfalsy, -⟩ := ofDocument_cases path t
      · rw [hdocument]
        rfl
      · -- A table that counts as none has no entries.
        obtain rfl := List.isEmpty_iff.mp (hsection _ hs)
        rw [hdocument, ofTable_nil]
        rfl
      · rw [hsection x hx] at hfalsy
        cases hfalsy
  | @entries t s _ hread hs _ hc =>
      rw [ofText_of_read hread, ofDocument_of_section hs, hc]
      rfl

/-- A faulty text is a configuration error. -/
theorem Faulty.exists_ofText (h : Faulty text) (path : String) :
    ∃ e, Config.ofText path text = .error (.config e) := by
  cases h with
  | malformed hread => exact ⟨_, by rw [ofText, hread]⟩
  | @kind t x hread hx hfalsy hkind =>
      rw [ofText_of_read hread]
      obtain ⟨hnone, -⟩ | ⟨s, hs, -⟩ | ⟨-, -, -, -, cs, hdocument⟩ := ofDocument_cases path t
      · rw [hnone x hx] at hfalsy
        cases hfalsy
      · rw [hx] at hs
        exact absurd (Option.some.inj hs) (hkind s)
      · exact ⟨_, by rw [hdocument]; rfl⟩
  | @entry t s e hread hs hmem hbad =>
      rw [ofText_of_read hread, ofDocument_of_section hs]
      cases hc : ofTable s with
      | ok c => exact absurd (exists_ofTable_iff_forall_mem.mp ⟨c, hc⟩ e hmem) hbad
      | error cs => exact ⟨_, rfl⟩

/-- **A text is faulty, or it describes a configuration, or an integer stops the reading.** -/
theorem faulty_or_describes (text : String) :
    Faulty text ∨ (∃ c, Describes text c) ∨ ∃ n, Toml.read text = .error (.oversized n) := by
  cases hread : Toml.read text with
  | error e =>
      cases e with
      | malformed => exact .inl (.malformed hread)
      | oversized n => exact .inr (.inr ⟨n, rfl⟩)
  | ok t =>
      obtain ⟨hnone, -⟩ | ⟨s, hs, -⟩ | ⟨x, hx, hfalsy, hkind, -⟩ := ofDocument_cases "" t
      · exact .inr (.inl ⟨_, .default hread hnone⟩)
      · by_cases hall : ∀ e ∈ s, Acceptable e.1 e.2
        · obtain ⟨c, hc⟩ := exists_ofTable_iff_forall_mem.mpr hall
          exact .inr (.inl ⟨c, .entries hread hs hall hc⟩)
        · push Not at hall
          obtain ⟨e, hmem, hbad⟩ := hall
          exact .inl (.entry hread hs hmem hbad)
      · exact .inl (.kind hread hx hfalsy hkind)

theorem ofText_eq_ok_iff : ofText path text = .ok c ↔ Describes text c := by
  refine ⟨fun h => ?_, fun h => h.ofText path⟩
  obtain hfaulty | ⟨c', hc'⟩ | ⟨n, hn⟩ := faulty_or_describes text
  · obtain ⟨e, he⟩ := hfaulty.exists_ofText path
    rw [h] at he
    cases he
  · rw [hc'.ofText path] at h
    exact Except.ok.inj h ▸ hc'
  · rw [ofText_eq_oversized_iff.mpr hn] at h
    cases h

theorem exists_ofText_eq_config_iff :
    (∃ e, ofText path text = .error (.config e)) ↔ Faulty text := by
  refine ⟨fun ⟨e, h⟩ => ?_, fun h => h.exists_ofText path⟩
  obtain hfaulty | ⟨c, hc⟩ | ⟨n, hn⟩ := faulty_or_describes text
  · exact hfaulty
  · rw [hc.ofText path] at h
    cases h
  · rw [ofText_eq_oversized_iff.mpr hn] at h
    cases h

/-- A text is refused as no TOML, or for some of its values; either way the file is named. -/
theorem ofText_eq_config {e : ConfigError} (h : ofText path text = .error (.config e)) :
    (e = .malformed path ∧ Toml.read text = .error .malformed) ∨
      ∃ t cs, cs ≠ [] ∧ e = .invalid path cs ∧ Toml.read text = .ok t := by
  cases hread : Toml.read text with
  | error stop =>
      rw [ofText, hread] at h
      cases stop with
      | malformed => cases h; exact .inl ⟨rfl, rfl⟩
      | oversized n => cases h
  | ok t =>
      rw [ofText_of_read hread] at h
      refine .inr ⟨t, ?_⟩
      unfold ofDocument at h
      split at h
      · cases h
      · next value _ =>
        split_ifs at h with hfalsy
        · cases h
        · cases hvalue : ofDatum value with
          | ok c => rw [hvalue] at h; cases h
          | error cs =>
              rw [hvalue] at h
              cases h
              exact ⟨cs, ofDatum_eq_error hvalue, rfl, rfl⟩

/-- A file is a valid configuration or is refused as one, exactly if it can be read. -/
theorem load_config_iff_readable :
    ((∃ c, load path (some bytes) = .ok c ∧ c.Valid) ∨
      ∃ e, load path (some bytes) = .error (.config e)) ↔ Readable bytes := by
  constructor
  · intro h
    by_cases hutf8 : bytes.IsValidUTF8
    · obtain ⟨text, rfl⟩ := exists_toUTF8_of_isValidUTF8 hutf8
      refine ⟨text, rfl, fun n hn => ?_⟩
      rw [load_toUTF8, ofText_eq_oversized_iff.mpr hn] at h
      obtain ⟨c, hc, -⟩ | ⟨e, he⟩ := h
      · cases hc
      · cases he
    · rw [load_of_not_isValidUTF8 hutf8] at h
      obtain ⟨c, hc, -⟩ | ⟨e, he⟩ := h
      · cases hc
      · cases he
  · rintro ⟨text, rfl, hread⟩
    obtain hfaulty | ⟨c, hc⟩ | ⟨n, hn⟩ := faulty_or_describes text
    · exact .inr (by rw [load_toUTF8]; exact hfaulty.exists_ofText path)
    · have hload : load path (some text.toUTF8) = .ok c := by rw [load_toUTF8, hc.ofText path]
      exact .inl ⟨c, hload, valid_of_load hload⟩
    · exact absurd hn (hread n)

theorem load_eq_undecodable_iff :
    load path (some bytes) = .error .undecodable ↔ ¬ bytes.IsValidUTF8 := by
  refine ⟨fun h hutf8 => ?_, fun h => load_of_not_isValidUTF8 h path⟩
  obtain ⟨text, rfl⟩ := exists_toUTF8_of_isValidUTF8 hutf8
  rw [load_toUTF8] at h
  exact ofText_ne_undecodable h

end Config

/-! ## What the command makes of it -/

namespace Command

variable {words : List String} {o : Options} {files : Files}

/-- The configuration of the file that options lead to, before other options change it. -/
def fileConfig (files : Files) (o : Options) : Except Refusal Config := do
  let (path, content) ← (configFile files o.configPath).mapError .usage
  (Config.load path content).mapError .ofLoad

theorem run_eq (ho : options words = .ok o) (helpText : String) (files : Files) (stdin : String) :
    run helpText words files stdin = (o.plan files).report helpText stdin := by
  rw [run, plan, ho]

theorem run_of_error {why : Refusal} (ho : options words = .ok o) (hn : o.notice = none)
    (h : configuration files o = .error why) (helpText stdin : String) :
    run helpText words files stdin = ⟨why.transcript, why.exitCode⟩ := by
  have hplan : o.plan files = .refuse why := by simp only [Options.plan, hn, h]
  rw [run_eq ho, hplan]
  rfl

theorem fileConfig_of_configFile {path : String} {content : Option ByteArray}
    (h : configFile files o.configPath = .ok (path, content)) :
    fileConfig files o = (Config.load path content).mapError .ofLoad := by
  rw [fileConfig, h]
  rfl

/-- Options are looked at once there is a configuration to change. -/
theorem configuration_eq (files : Files) (o : Options) :
    configuration files o =
      match fileConfig files o, o.logLevel with
      | .error why, _ => .error why
      | .ok c, none => .ok c
      | .ok c, some level => (c.withOptions [("log_level", .text level)]).mapError .config := by
  unfold configuration fileConfig
  cases configFile files o.configPath with
  | error e => rfl
  | ok file =>
      obtain ⟨path, content⟩ := file
      simp only [Except.mapError, bind, Except.bind]
      cases Config.load path content with
      | error e => rfl
      | ok c => cases o.logLevel <;> rfl

/-- A command whose configuration file is no configuration says so and does nothing else. -/
theorem run_of_load_error {path : String} {content : Option ByteArray} {e : LoadError}
    (ho : options words = .ok o) (hn : o.notice = none)
    (hfile : configFile files o.configPath = .ok (path, content))
    (h : Config.load path content = .error e) (helpText stdin : String) :
    run helpText words files stdin =
      ⟨(Refusal.ofLoad e).transcript, (Refusal.ofLoad e).exitCode⟩ := by
  have hconfig : fileConfig files o = .error (.ofLoad e) := by
    rw [fileConfig_of_configFile hfile, h]
    rfl
  exact run_of_error ho hn (by rw [configuration_eq, hconfig]) helpText stdin

end Command

namespace Config

/--
**Loading a file fails as a configuration error, unless the file cannot be read.** It comes to a
valid configuration or to a configuration error exactly if its bytes are a text in UTF-8 in which
no decimal integer stops the reading. A text that describes a configuration is loaded as that,
and a faulty one is a configuration error, which names the file: the text is not TOML, or it is,
and something is wrong with single values.

Bytes that are no text have an error of their own, and so has a text with an integer of more than
`Radix.digitLimit` digits, all of which stand in it; one entry with such an integer is enough.
The command reports a configuration error with exit code 2, but the other two with 1.
-/
theorem load_outcomes (path : String) (bytes : ByteArray) :
    (((∃ c, load path (some bytes) = .ok c ∧ c.Valid) ∨
        ∃ e, load path (some bytes) = .error (.config e)) ↔ Readable bytes) ∧
      (load path (some bytes) = .error .undecodable ↔ ¬ bytes.IsValidUTF8) ∧
      (∀ text : String, bytes = text.toUTF8 →
        (∀ c, load path (some bytes) = .ok c ↔ Describes text c) ∧
        ((∃ e, load path (some bytes) = .error (.config e)) ↔ Faulty text) ∧
        (∀ e, load path (some bytes) = .error (.config e) →
          (e = .malformed path ∧ Toml.read text = .error .malformed) ∨
            ∃ t cs, cs ≠ [] ∧ e = .invalid path cs ∧ Toml.read text = .ok t) ∧
        ∀ n, (load path (some bytes) = .error (.oversized n) ↔
            Toml.read text = .error (.oversized n)) ∧
          (load path (some bytes) = .error (.oversized n) →
            Radix.digitLimit < n ∧ n ≤ text.length)) ∧
      (∀ (key : List Char) (n : Nat), key ≠ [] → (∀ c ∈ key, Toml.isBare c = true) →
        10 ^ Radix.digitLimit ≤ n →
        bytes = (String.ofList (key ++ '=' :: Nat.toDigits 10 n)).toUTF8 →
        load path (some bytes) = .error (.oversized (Nat.toDigits 10 n).length)) ∧
      ∀ (helpText : String) (words : List String) (o : Command.Options) (files : Command.Files)
        (stdin : String), Command.options words = .ok o → o.notice = none →
        Command.configFile files o.configPath = .ok (path, some bytes) →
        (∀ e, load path (some bytes) = .error (.config e) →
          Command.run helpText words files stdin = ⟨(Command.Refusal.config e).transcript, 2⟩) ∧
        ((load path (some bytes) = .error .undecodable ∨
            ∃ n, load path (some bytes) = .error (.oversized n)) →
          (Command.run helpText words files stdin).exitCode = 1) := by
  refine ⟨load_config_iff_readable, load_eq_undecodable_iff, ?_, ?_, ?_⟩
  · rintro text rfl
    rw [load_toUTF8]
    refine ⟨fun c => ofText_eq_ok_iff, exists_ofText_eq_config_iff, fun e => ofText_eq_config,
      fun n => ⟨ofText_eq_oversized_iff, fun h => ?_⟩⟩
    exact Toml.read_oversized (ofText_eq_oversized_iff.mp h)
  · rintro key n hne hbare hn rfl
    have hread := Toml.read_entry hne hbare n
    rw [if_neg (Nat.not_lt.mpr hn)] at hread
    rw [load_toUTF8]
    exact ofText_eq_oversized_iff.mpr hread
  · intro helpText words o files stdin ho hn hfile
    have hrun {e : LoadError} (h : load path (some bytes) = .error e) :=
      Command.run_of_load_error ho hn hfile h helpText stdin
    refine ⟨fun e he => hrun he, ?_⟩
    rintro (he | ⟨n, he⟩)
    · rw [hrun he]
      rfl
    · rw [hrun he]
      rfl

/-- One byte that begins no character, and one entry with an integer of one digit too many. -/
theorem load_outcomes_lone_byte :
    let lone : ByteArray := ⟨#[0xff]⟩
    let digits := Nat.toDigits 10 (10 ^ Radix.digitLimit)
    let long := (String.ofList (['a'] ++ '=' :: digits)).toUTF8
    Command.options ["1"] = .ok { words := ["1"] } ∧
      load "wcal.toml" (some lone) = .error .undecodable ∧
      (Command.run "" ["1"] (fun _ => some lone) "").exitCode = 1 ∧
      load "wcal.toml" (some long) = .error (.oversized digits.length) ∧
      (Command.run "" ["1"] (fun _ => some long) "").exitCode = 1 := by
  intro lone digits long
  have hutf8 : ¬ lone.IsValidUTF8 := by decide
  have hoptions : Command.options ["1"] = .ok { words := ["1"] } := by cbv
  have hpath : Command.findConfig none "." = "wcal.toml" := by cbv
  have hfile (bytes : ByteArray) :
      Command.configFile (fun _ => some bytes) none = .ok ("wcal.toml", some bytes) := by
    rw [Command.configFile, hpath]
  obtain ⟨-, hundecodable, -, -, hlone⟩ := load_outcomes "wcal.toml" lone
  obtain ⟨-, -, -, hentry, hlong⟩ := load_outcomes "wcal.toml" long
  have hload := hundecodable.mpr hutf8
  have hbare : ∀ c ∈ ['a'], Toml.isBare c = true := by simp [Toml.isBare]
  have hload' := hentry ['a'] (10 ^ Radix.digitLimit) (List.cons_ne_nil _ _) hbare le_rfl rfl
  exact ⟨hoptions, hload, (hlone "" _ _ _ "" hoptions rfl (hfile lone)).2 (.inl hload), hload',
    (hlong "" _ _ _ "" hoptions rfl (hfile long)).2 (.inr ⟨_, hload'⟩)⟩

/-- Such a file is neither a configuration nor a configuration error. -/
theorem load_lone_byte :
    ¬ ((∃ c, load "wcal.toml" (some ⟨#[0xff]⟩) = .ok c) ∨
      ∃ e, load "wcal.toml" (some ⟨#[0xff]⟩) = .error (.config e)) := by
  have hutf8 : ¬ ByteArray.IsValidUTF8 ⟨#[0xff]⟩ := by decide
  rw [load_of_not_isValidUTF8 hutf8]
  rintro (⟨c, hc⟩ | ⟨e, he⟩)
  · cases hc
  · cases he

end Config

end LineCalc
