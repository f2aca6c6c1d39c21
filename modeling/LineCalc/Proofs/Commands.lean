import Mathlib
import LineCalc.Proofs.Loading
import LineCalc.Proofs.Sessions

/-!
# The command is its parts

What a command line asks for is settled in an order: whether it can be split at all, then the
notice that it asks for first, then the configuration file, then the level that an option gives,
and only then are expressions looked at. The level that is in force decides what is shown of the
log, and the log is written to error output. So it has no part in what is evaluated
(`runBatch_congr`, `converse_congr`) nor in standard output (`stdout_shown`), and two commands that
differ in nothing else cannot be told apart there.

Files are taken to be texts in UTF-8. A text then makes a command `Invalid`, or it `Configures` the
command, unless an integer in it stops the reading (`invalid_or_settles`); of such a text nothing
is said here.
-/

namespace LineCalc

/-! ## What the level has no part in -/

theorem Transcript.stdout_cons (m : Message) (t : Transcript) :
    Transcript.stdout (m :: t) = m.stdout ++ t.stdout := by
  simp [Transcript.stdout]

/-- The log is not on standard output. -/
theorem Transcript.stdout_withoutLog (t : Transcript) : t.withoutLog.stdout = t.stdout := by
  induction t with
  | nil => rfl
  | cons m t ih =>
      rw [stdout_cons, ← ih, withoutLog, List.filter_cons]
      cases m with
      | log entry => simp [Message.isLog, Message.stdout, withoutLog]
      | _ => exact stdout_cons _ _

theorem Transcript.stdout_of_errorLines {t : Transcript}
    (h : ∀ m ∈ t, ∃ text, m = .errorLine text) : t.stdout = "" := by
  induction t with
  | nil => rfl
  | cons m t ih =>
      obtain ⟨text, rfl⟩ := h m (.head t)
      rw [stdout_cons, ih fun m hm => h m (.tail _ hm)]
      rfl

/-- However much of the log is shown, standard output is the same. -/
theorem Command.stdout_shown (level : LogLevel) (t : Transcript) :
    (Command.shown level t).stdout = t.stdout := by
  rw [Command.shown]
  split_ifs
  · rfl
  · exact t.stdout_withoutLog

namespace Session

variable {c c' : Config}

theorem runLine_congr (h : c'.maxDepth = c.maxDepth) (mode : Mode) (source : String) :
    runLine c' mode source = runLine c mode source := by
  rw [runLine, runLine, h]

/-- Of a configuration, a run looks at the cap alone. -/
theorem runBatch_congr (h : c'.maxDepth = c.maxDepth) (mode : Mode) (args : List String) :
    runBatch c' mode args = runBatch c mode args := by
  induction args generalizing mode with
  | nil => rfl
  | cons arg args ih =>
      cases hswitch : switch? arg with
      | some m => rw [runBatch_switch hswitch, runBatch_switch hswitch, ih]
      | none =>
          cases hfault : (runLine c mode arg).faulted with
          | true =>
              rw [runBatch_fault hswitch hfault,
                runBatch_fault hswitch (by rwa [runLine_congr h]), runLine_congr h]
          | false =>
              rw [runBatch_line hswitch hfault,
                runBatch_line hswitch (by rwa [runLine_congr h]), runLine_congr h, ih]

theorem respond_congr (h : c'.maxDepth = c.maxDepth) (mode : Mode) (line : String) :
    respond c' mode line = respond c mode line := by
  simp only [respond, runLine_congr h]

theorem converse_congr (h : c'.maxDepth = c.maxDepth) (mode : Mode) (lines : List String) :
    converse c' mode lines = converse c mode lines := by
  induction lines generalizing mode with
  | nil => rfl
  | cons line lines ih =>
      simp only [converse, respond_congr h, ih]

end Session

/-! ## The level in force -/

namespace Config

variable {c c' : Config}

/-- The option for the level changes the level alone, to the one that it names. -/
theorem withOptions_logLevel_eq_ok_iff (hc : c.Valid) {name : String} :
    c.withOptions [("log_level", .text name)] = .ok c' ↔
      ∃ level, LogLevel.ofName? name = some level ∧ c' = { c with logLevel := level } := by
  have hupdate : c.toTable.update [("log_level", .text name)] =
      fields (.text c.mode.name) (capDatum c.maxDepth) (.text name) := rfl
  have hlevel : readLogLevel (.text name) = .ok c'.logLevel ↔
      LogLevel.ofName? name = some c'.logLevel := by
    rw [readLogLevel]
    cases LogLevel.ofName? name <;> simp
  obtain ⟨hmode, hdepth, -⟩ := hc.reads
  rw [withOptions, mapError_eq_ok_iff, override, hupdate, ofTable_fields_eq_ok_iff, hmode, hdepth,
    hlevel]
  constructor
  · rintro ⟨hmode', hdepth', hname⟩
    refine ⟨c'.logLevel, hname, ?_⟩
    rw [Except.ok.inj hmode', Except.ok.inj hdepth']
  · rintro ⟨level, hname, rfl⟩
    exact ⟨rfl, rfl, hname⟩

/-- Configurations that differ in their level at most. -/
def SameButLevel (c c' : Config) : Prop := c'.mode = c.mode ∧ c'.maxDepth = c.maxDepth

/-- The configuration with the field of an entry set, or left alone if it cannot be. -/
def setOrKeep (c : Config) (e : String × Datum) : Config :=
  match c.set e.1 e.2 with
  | .ok c' => c'
  | .error _ => c

theorem setAll_cons (c : Config) (e : String × Datum) (t : Table) :
    c.setAll (e :: t) = (c.setOrKeep e).setAll t := rfl

theorem SameButLevel.setOrKeep (h : SameButLevel c c') (e : String × Datum) :
    SameButLevel (c.setOrKeep e) (c'.setOrKeep e) := by
  obtain ⟨hmode, hdepth⟩ := h
  unfold Config.setOrKeep set
  split_ifs
  · cases readMode e.2 <;> exact ⟨by simp [Except.map, hmode], by simp [Except.map, hdepth]⟩
  · cases readMaxDepth e.2 <;> exact ⟨by simp [Except.map, hmode], by simp [Except.map, hdepth]⟩
  · cases readLogLevel e.2 <;> exact ⟨by simp [Except.map, hmode], by simp [Except.map, hdepth]⟩
  · exact ⟨hmode, hdepth⟩

theorem sameButLevel_setOrKeep_logLevel (c : Config) {e : String × Datum} (he : e.1 = "log_level") :
    SameButLevel c (c.setOrKeep e) := by
  rw [SameButLevel, setOrKeep, he, set_logLevel]
  cases readLogLevel e.2 <;> exact ⟨rfl, rfl⟩

/-- Entries for the level may be left out on one side. -/
theorem SameButLevel.setAll (h : SameButLevel c c') (t : Table) :
    SameButLevel (c.setAll (t.filter (·.1 != "log_level"))) (c'.setAll t) := by
  induction t generalizing c c' with
  | nil => exact h
  | cons e t ih =>
      by_cases he : e.1 = "log_level"
      -- Such an entry is read on one side only, where it sets the level and nothing else.
      · rw [List.filter_cons_of_neg (by simp [he]), setAll_cons]
        obtain ⟨hmode, hdepth⟩ := sameButLevel_setOrKeep_logLevel c' he
        exact ih ⟨hmode.trans h.1, hdepth.trans h.2⟩
      · rw [List.filter_cons_of_pos (by simp [he]), setAll_cons, setAll_cons]
        exact ih (h.setOrKeep e)

/-- Sections that say the same apart from the level make configurations that are the same. -/
theorem sameButLevel_of_ofTable {t t' : Table}
    (hsame : t'.filter (·.1 != "log_level") = t.filter (·.1 != "log_level"))
    (h : ofTable t = .ok c) (h' : ofTable t' = .ok c') : SameButLevel c c' := by
  obtain ⟨-, rfl⟩ := ofTable_eq_ok_iff.mp h
  obtain ⟨-, rfl⟩ := ofTable_eq_ok_iff.mp h'
  have hdefault : SameButLevel {} {} := ⟨rfl, rfl⟩
  obtain ⟨hmode, hdepth⟩ := hdefault.setAll t
  obtain ⟨hmode', hdepth'⟩ := hdefault.setAll t'
  rw [hsame] at hmode' hdepth'
  exact ⟨hmode'.trans hmode.symm, hdepth'.trans hdepth.symm⟩

end Config

namespace Command

open Session (runBatch converse runBatch_congr converse_congr)

variable {words : List String} {o o' : Options} {n : Notice} {c : Config} {level : LogLevel}

/-! ## The words of a command line -/

/-- The word that asks for a notice. -/
def Notice.word : Notice → String
  | version => "--version"
  | help => "--help"

theorem splitValue_eq {word name : String} (h : splitValue word = (name, none)) : name = word := by
  unfold splitValue at h
  dsimp only at h
  split at h
  · exact (congrArg Prod.fst h).symm
  · cases congrArg Prod.snd h

/-- A flag leaves the notice as it is, or else it is one that asks for a notice. -/
theorem notice_flag {name : String} {set : Options → Options}
    (h : effect? name = some (.flag set)) (o : Options) :
    (set o).notice = o.notice ∨ ∃ n : Notice, name = n.word ∧ set o = o.ask n := by
  unfold effect? at h
  split_ifs at h with hfloat hversion hhelp
  · cases h; exact .inl rfl
  · cases h; exact .inr ⟨.version, hversion, rfl⟩
  · cases h; exact .inr ⟨.help, hhelp, rfl⟩
  · cases h
  · cases h

theorem notice_valued {name : String} {set : String → Options → Options}
    (h : effect? name = some (.valued set)) (v : String) (o : Options) :
    (set v o).notice = o.notice := by
  unfold effect? at h
  split_ifs at h <;> cases h <;> rfl

/-- The first notice that is asked for stays. -/
theorem Options.notice_read (hn : o.notice = some n) (h : o.read words = .ok o') :
    o'.notice = some n := by
  fun_induction Options.read o words with
  | case1 o => cases h; exact hn
  | case2 o rest => cases h; exact hn
  | case3 o word rest hword name value hsplit heffect ih => exact ih hn h
  | case4 o word rest hword name set heffect hsplit ih =>
      refine ih ?_ h
      obtain hsame | ⟨m, -, hask⟩ := notice_flag heffect o
      · rw [hsame, hn]
      · rw [hask, Options.ask, hn]
        rfl
  | case5 => cases h
  | case6 o word rest hword name set v heffect hsplit ih =>
      exact ih (by rw [notice_valued heffect, hn]) h
  | case7 => cases h
  | case8 o word hword name set heffect v rest hsplit ih =>
      exact ih (by rw [notice_valued heffect, hn]) h

/-- Without a word that asks for one there is no notice. -/
theorem Options.notice_read_of_not_mem (hn : o.notice = none)
    (hwords : ∀ n : Notice, n.word ∉ words) (h : o.read words = .ok o') : o'.notice = none := by
  fun_induction Options.read o words with
  | case1 o => cases h; exact hn
  | case2 o rest => cases h; exact hn
  | case3 o word rest hword name value hsplit heffect ih =>
      exact ih hn (fun n hmem => hwords n (.tail _ hmem)) h
  | case4 o word rest hword name set heffect hsplit ih =>
      refine ih ?_ (fun n hmem => hwords n (.tail _ hmem)) h
      obtain hsame | ⟨m, hname, -⟩ := notice_flag heffect o
      · rw [hsame, hn]
      · have hm : word = m.word := hname ▸ (splitValue_eq hsplit).symm
        exact absurd (hm ▸ List.mem_cons_self) (hwords m)
  | case5 => cases h
  | case6 o word rest hword name set v heffect hsplit ih =>
      exact ih (by rw [notice_valued heffect, hn]) (fun n hmem => hwords n (.tail _ hmem)) h
  | case7 => cases h
  | case8 o word hword name set heffect v rest hsplit ih =>
      refine ih ?_ (fun n hmem => hwords n (.tail _ (.tail _ hmem))) h
      rw [notice_valued heffect, hn]

namespace Options

variable {word name value : String} {set : Options → Options} {setTo : String → Options → Options}

theorem read_word (hword : word ≠ "--") (h : effect? (splitValue word).1 = none) (o : Options)
    (rest : List String) : o.read (word :: rest) = (o.addWord word).read rest := by
  rw [read, if_neg hword]
  simp only [h]

theorem read_flag (hword : word ≠ "--") (hsplit : splitValue word = (name, none))
    (h : effect? name = some (.flag set)) (o : Options) (rest : List String) :
    o.read (word :: rest) = (set o).read rest := by
  rw [read, if_neg hword]
  simp only [hsplit, h]

/-- The value of an option may be in the same word. -/
theorem read_joined (hword : word ≠ "--") (hsplit : splitValue word = (name, some value))
    (h : effect? name = some (.valued setTo)) (o : Options) (rest : List String) :
    o.read (word :: rest) = (setTo value o).read rest := by
  rw [read, if_neg hword]
  simp only [hsplit, h]

theorem read_valued (hword : word ≠ "--") (hsplit : splitValue word = (name, none))
    (h : effect? name = some (.valued setTo)) (o : Options) (rest : List String) :
    o.read (word :: value :: rest) = (setTo value o).read rest := by
  rw [read, if_neg hword]
  simp only [hsplit, h]

/-- Words are read one after another. -/
theorem read_append {front : List String} (hfront : "--" ∉ front) (rest : List String)
    (h : o.read front = .ok o') : o.read (front ++ rest) = o'.read rest := by
  have behind {w : String} {ws : List String} (hws : "--" ∉ w :: ws) : "--" ∉ ws :=
    fun hmem => hws (.tail _ hmem)
  fun_induction Options.read o front with
  | case1 o => cases h; rfl
  | case2 o rest => exact absurd List.mem_cons_self hfront
  | case3 o word front hword name value hsplit heffect ih =>
      rw [List.cons_append, read_word hword (by rwa [hsplit])]
      exact ih (behind hfront) h
  | case4 o word front hword name set heffect hsplit ih =>
      rw [List.cons_append, read_flag hword hsplit heffect]
      exact ih (behind hfront) h
  | case5 => cases h
  | case6 o word front hword name set v heffect hsplit ih =>
      rw [List.cons_append, read_joined hword hsplit heffect]
      exact ih (behind hfront) h
  | case7 => cases h
  | case8 o word hword name set heffect v front hsplit ih =>
      rw [List.cons_append, List.cons_append, read_valued hword hsplit heffect]
      exact ih (behind (behind hfront)) h

end Options

/-- **The notice is the first that is asked for**, whatever comes behind it. -/
theorem notice_of_front {front rest : List String} (hfront : "--" ∉ front)
    (ho : options front = .ok o) (hn : o.notice = none)
    (h : options (front ++ n.word :: rest) = .ok o') : o'.notice = some n := by
  have hword : o.read (n.word :: rest) = (o.ask n).read rest := by
    have hdash : n.word ≠ "--" := by cases n <;> decide
    have hsplit : splitValue n.word = (n.word, none) := by cases n <;> cbv
    have heffect : effect? n.word = some (.flag (·.ask n)) := by cases n <;> rfl
    exact Options.read_flag hdash hsplit heffect o rest
  rw [options, Options.read_append hfront _ ho, hword] at h
  exact Options.notice_read (by rw [Options.ask, hn]; rfl) h

/-! ## The configuration file, as a text -/

/-- Files that hold texts. -/
def Files.ofTexts (texts : String → Option String) : Files :=
  fun path => (texts path).map String.toUTF8

variable {texts : String → Option String} {text : String}

/-- The text of the configuration file: of the one asked for, or of the usual one. -/
def fileText (texts : String → Option String) (o : Options) : Option String :=
  texts (o.configPath.getD Config.defaultFile)

/-- The options and the file, if one is there, make a configuration, before the level is set. -/
inductive Configures (texts : String → Option String) (o : Options) : Config → Prop where
  | absent : o.configPath = none → fileText texts o = none → Configures texts o {}
  | described {text : String} {c : Config} :
      fileText texts o = some text → Config.Describes text c → Configures texts o c

/-- The level that is in force: that of the option, or of the file where there is none. -/
inductive InForce (o : Options) (c : Config) : LogLevel → Prop where
  | file : o.logLevel = none → InForce o c c.logLevel
  | option {name : String} {level : LogLevel} : o.logLevel = some name →
      Config.NamesLevel (.text name) level → InForce o c level

/--
The file that was asked for is not there, or the file is faulty, or the option for the level
names none.
-/
inductive Invalid (texts : String → Option String) (o : Options) : Prop where
  | missing {path : String} : o.configPath = some path → texts path = none → Invalid texts o
  | faulty {text : String} : fileText texts o = some text → Config.Faulty text → Invalid texts o
  | level {c : Config} {name : String} : Configures texts o c → o.logLevel = some name →
      (∀ level, ¬ Config.NamesLevel (.text name) level) → Invalid texts o

/-- There is a configuration, and a level that is in force. -/
structure Settles (texts : String → Option String) (o : Options) (c : Config) (level : LogLevel) :
    Prop where
  configures : Configures texts o c
  inForce : InForce o c level

/-- No decimal integer stops the reading of the configuration file. -/
def Legible (texts : String → Option String) (o : Options) : Prop :=
  ∀ text, fileText texts o = some text → ∀ n, Toml.read text ≠ .error (.oversized n)

theorem findConfig_none : findConfig none "." = Config.defaultFile := by cbv

/-- If there is a text, it is what is loaded, under one path or another. -/
theorem fileConfig_of_text (h : fileText texts o = some text) :
    ∃ path, fileConfig (.ofTexts texts) o = (Config.ofText path text).mapError .ofLoad := by
  have hfile : ∃ path, configFile (.ofTexts texts) o.configPath = .ok (path, some text.toUTF8) := by
    unfold fileText at h
    cases hpath : o.configPath with
    | none =>
        rw [hpath, Option.getD_none] at h
        exact ⟨Config.defaultFile, by rw [configFile, findConfig_none, Files.ofTexts, h]; rfl⟩
    | some word =>
        rw [hpath, Option.getD_some] at h
        exact ⟨findConfig (some word) ".", by rw [configFile, Files.ofTexts, h]; rfl⟩
  obtain ⟨path, hfile⟩ := hfile
  exact ⟨path, by rw [fileConfig_of_configFile hfile, Config.load_toUTF8]⟩

theorem fileConfig_of_absent (hpath : o.configPath = none) (h : fileText texts o = none) :
    fileConfig (.ofTexts texts) o = .ok {} := by
  rw [fileText, hpath, Option.getD_none] at h
  have hfile : configFile (.ofTexts texts) o.configPath = .ok (Config.defaultFile, none) := by
    rw [hpath, configFile, findConfig_none, Files.ofTexts, h]
    rfl
  rw [fileConfig_of_configFile hfile]
  rfl

theorem fileConfig_of_missing {path : String} (hpath : o.configPath = some path)
    (h : texts path = none) :
    fileConfig (.ofTexts texts) o = .error (.usage (.noSuchFile path)) := by
  have hfile : configFile (.ofTexts texts) o.configPath = .error (.noSuchFile path) := by
    rw [hpath, configFile, Files.ofTexts, h]
    rfl
  rw [fileConfig, hfile]
  rfl

theorem Configures.fileConfig (h : Configures texts o c) :
    fileConfig (.ofTexts texts) o = .ok c := by
  cases h with
  | absent hpath htext => exact fileConfig_of_absent hpath htext
  | @described text _ htext hc =>
      obtain ⟨path, hfile⟩ := fileConfig_of_text htext
      rw [hfile, hc.ofText path]
      rfl

/-- The entries that the configuration file has for the calculator. -/
def fileEntries (texts : String → Option String) (o : Options) : Table :=
  Config.entries ((fileText texts o).map String.toUTF8)

/-- What configures a command is the configuration of the entries of its file. -/
theorem Configures.ofTable_fileEntries (h : Configures texts o c) :
    Config.ofTable (fileEntries texts o) = .ok c := by
  cases h with
  | absent hpath htext =>
      rw [fileEntries, htext]
      exact Config.ofTable_nil
  | @described text _ htext hc =>
      rw [fileEntries, htext]
      have hload : Config.load "" (some text.toUTF8) = .ok c := by
        rw [Config.load_toUTF8, hc.ofText ""]
      exact Config.ofTable_entries_of_load hload

theorem Configures.valid (h : Configures texts o c) : c.Valid :=
  Config.valid_of_ofTable h.ofTable_fileEntries

/-! ## The level in force -/

/-- The levels that are looked up by name are those that are named. -/
theorem namesLevel_iff {name : String} :
    Config.NamesLevel (.text name) level ↔ LogLevel.ofName? name = some level := by
  rw [← Config.readLogLevel_eq_ok_iff, Config.readLogLevel]
  cases LogLevel.ofName? name <;> simp

/-- The configuration that is found is that of the file, with the level that is in force. -/
theorem Settles.configuration (h : Settles texts o c level) :
    configuration (.ofTexts texts) o = .ok { c with logLevel := level } := by
  have hvalid := h.configures.valid
  rw [configuration_eq, h.configures.fileConfig]
  obtain hoption | ⟨hoption, hname⟩ := h.inForce
  · rw [hoption]
  · rw [hoption]
    exact Config.mapError_eq_ok_iff.mpr
      ((Config.withOptions_logLevel_eq_ok_iff hvalid).mpr ⟨level, namesLevel_iff.mp hname, rfl⟩)

/-- Nothing that is invalid is a configuration, and it is refused with exit code 2. -/
theorem Invalid.exists_refusal (h : Invalid texts o) :
    ∃ why, configuration (.ofTexts texts) o = .error why ∧ why.exitCode = 2 := by
  rw [configuration_eq]
  cases h with
  | missing hpath htext => exact ⟨_, by rw [fileConfig_of_missing hpath htext], rfl⟩
  | faulty htext hfaulty =>
      obtain ⟨path, hfile⟩ := fileConfig_of_text htext
      obtain ⟨e, he⟩ := hfaulty.exists_ofText path
      rw [he] at hfile
      exact ⟨.config e, by rw [hfile]; rfl, rfl⟩
  | @level c name hc hoption hnone =>
      rw [hc.fileConfig, hoption]
      cases hwith : c.withOptions [("log_level", .text name)] with
      | error e => exact ⟨.config e, by simp only [hwith]; rfl, rfl⟩
      | ok c' =>
          obtain ⟨l, hl, -⟩ := (Config.withOptions_logLevel_eq_ok_iff hc.valid).mp hwith
          exact absurd (namesLevel_iff.mpr hl) (hnone l)

theorem Configures.invalid_or_settles (h : Configures texts o c) :
    Invalid texts o ∨ ∃ c level, Settles texts o c level := by
  cases hoption : o.logLevel with
  | none => exact .inr ⟨c, _, h, .file hoption⟩
  | some name =>
      by_cases hname : ∃ level, Config.NamesLevel (.text name) level
      · obtain ⟨level, hlevel⟩ := hname
        exact .inr ⟨c, level, h, .option hoption hlevel⟩
      · exact .inl (.level h hoption (not_exists.mp hname))

/-- A command is invalid or settled, unless an integer stops the reading of the file. -/
theorem invalid_or_settles (h : Legible texts o) :
    Invalid texts o ∨ ∃ c level, Settles texts o c level := by
  cases htext : fileText texts o with
  | none =>
      cases hpath : o.configPath with
      | none => exact (Configures.absent hpath htext).invalid_or_settles
      | some path =>
          rw [fileText, hpath, Option.getD_some] at htext
          exact .inl (.missing hpath htext)
  | some text =>
      obtain hfaulty | ⟨c, hc⟩ | ⟨n, hn⟩ := Config.faulty_or_describes text
      · exact .inl (.faulty htext hfaulty)
      · exact (Configures.described htext hc).invalid_or_settles
      · exact absurd hn (h text htext n)

/-- A command is not both. -/
theorem Invalid.not_settles (h : Invalid texts o) (c : Config) (level : LogLevel) :
    ¬ Settles texts o c level := fun hsettles => by
  obtain ⟨why, hwhy, -⟩ := h.exists_refusal
  rw [hsettles.configuration] at hwhy
  cases hwhy

/-! ## What a command comes to -/

/-- What is seen of a report by those who do not look at error output. -/
def Report.visible (r : Report) : String × Nat := (r.transcript.stdout, r.exitCode)

theorem calculate_congr {c' : Config} (h : c'.maxDepth = c.maxDepth) (mode : Mode)
    (words : List String) (stdin : String) :
    calculate c' mode words stdin = calculate c mode words stdin := by
  cases words with
  | nil => rw [calculate, calculate, converse_congr h]
  | cons word words =>
      have hbatch := runBatch_congr h mode (word :: words)
      simp only [calculate, hbatch]

theorem calculate_of_ne_nil (h : words ≠ []) (c : Config) (mode : Mode) (stdin : String) :
    calculate c mode words stdin =
      ⟨(runBatch c mode words).transcript, (runBatch c mode words).exitCode⟩ := by
  cases words with
  | nil => exact absurd rfl h
  | cons word words => rfl

theorem run_of_notice (ho : options words = .ok o) (hn : o.notice = some n) (helpText : String)
    (files : Files) (stdin : String) :
    run helpText words files stdin = ⟨[.line (n.text helpText)], 0⟩ := by
  rw [run_eq ho, Options.plan, hn]
  rfl

theorem errorLine_of_mem_refusal {why : Refusal} {m : Message} (h : m ∈ why.transcript) :
    ∃ text, m = .errorLine text := by
  rw [Refusal.transcript] at h
  obtain rfl | h := List.mem_cons.mp h
  · exact ⟨_, rfl⟩
  · obtain ⟨complaint, -, rfl⟩ := List.mem_map.mp h
    exact ⟨_, rfl⟩

/-- A command line that cannot be split is refused before any file is looked for. -/
theorem run_of_usage_error {e : UsageError} (h : options words = .error e) (helpText : String)
    (files : Files) (stdin : String) :
    run helpText words files stdin = ⟨(Refusal.usage e).transcript, 2⟩ := by
  rw [run, plan, h]
  rfl

/-- With a configuration, a command is a calculation, of which the log shows more or less. -/
theorem visible_run_of_ok {files : Files} (ho : options words = .ok o) (hn : o.notice = none)
    (h : configuration files o = .ok c) (helpText stdin : String) :
    (run helpText words files stdin).visible =
      (calculate c (startMode o c) o.words stdin).visible := by
  let report := calculate c (startMode o c) o.words stdin
  have hrun : run helpText words files stdin =
      ⟨shown c.logLevel (starting (startMode o c) o.words :: report.transcript),
        report.exitCode⟩ := by
    have hplan : o.plan files = .start c (startMode o c) o.words := by
      simp only [Options.plan, hn, h]
    rw [run_eq ho, hplan]
    rfl
  -- The entry in front is one of the log, which is nothing on standard output.
  rw [hrun, Report.visible, stdout_shown, Transcript.stdout_cons]
  rfl

/-! ## The order of precedence -/

/-- To the configuration, the other options and the words that remain are nothing. -/
theorem configuration_congr (hpath : o'.configPath = o.configPath)
    (hlevel : o'.logLevel = o.logLevel) (files : Files) :
    configuration files o' = configuration files o := by
  rw [configuration, configuration, hpath, hlevel]

/-- A command without a valid configuration is the same whatever it was to evaluate. -/
theorem run_of_invalid (h : Invalid texts o) :
    ∃ why : Refusal, why.exitCode = 2 ∧
      ∀ helpText words' o' stdin', options words' = .ok o' → o'.notice = none →
        o'.configPath = o.configPath → o'.logLevel = o.logLevel →
        run helpText words' (.ofTexts texts) stdin' = ⟨why.transcript, why.exitCode⟩ := by
  obtain ⟨why, hwhy, hcode⟩ := h.exists_refusal
  refine ⟨why, hcode, fun helpText words' o' stdin' ho' hn' hpath hlevel => ?_⟩
  rw [← configuration_congr hpath hlevel] at hwhy
  exact run_of_error ho' hn' hwhy helpText stdin'

theorem visible_run_of_settles (ho : options words = .ok o) (hn : o.notice = none)
    (h : Settles texts o c level) (helpText stdin : String) :
    (run helpText words (.ofTexts texts) stdin).visible =
      (calculate { c with logLevel := level } (startMode o c) o.words stdin).visible :=
  visible_run_of_ok ho hn h.configuration helpText stdin

/-- **The level in force is not seen**: what a command looks at beside it decides what is. -/
theorem visible_run_congr {words' : List String} {texts' : String → Option String} {c' : Config}
    {level' : LogLevel} (ho : options words = .ok o) (ho' : options words' = .ok o')
    (hn : o.notice = none) (hn' : o'.notice = none) (hfloating : o'.floating = o.floating)
    (hwords : o'.words = o.words) (h : Settles texts o c level) (h' : Settles texts' o' c' level')
    (hsame : Config.SameButLevel c c') (helpText stdin : String) :
    (run helpText words' (.ofTexts texts') stdin).visible =
      (run helpText words (.ofTexts texts) stdin).visible := by
  have hstart : startMode o' c' = startMode o c := by
    rw [startMode, startMode, hfloating, hsame.1]
  have hdepth : { c' with logLevel := level' }.maxDepth = { c with logLevel := level }.maxDepth :=
    hsame.2
  rw [visible_run_of_settles ho' hn' h', visible_run_of_settles ho hn h, hstart, hwords,
    calculate_congr hdepth]

end Command

end LineCalc
