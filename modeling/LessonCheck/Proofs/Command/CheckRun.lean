import LessonCheck.Command.Run
import LessonCheck.Proofs.Report.LineFeeds
import LessonCheck.Proofs.Settings.Loading

/-!
What comes of a check. The settings are read first, then the source, then the report is made; the
first of these that fails is the answer, with the exit status of an error and nothing on the output.
Otherwise the output is the report and the exit status says whether anything is listed in it. Which
files may fail is told from what the surroundings hold, and the run itself is opened in one place,
`outcome_of_inForce` and `outcomeUnder_of_source`, from which everything else follows.
-/

namespace LessonCheck

/-! ### The source -/

namespace Surroundings

/-- The bytes of the source at a path: those of the input, or of a file. -/
def sourceBytes? (s : Surroundings) (path : String) : Option ByteArray :=
  if isInput path then some s.input
  else match s.look path with
    | .file content => some content
    | _ => none

/-- A source that cannot be checked: there is none, it is no text, or it is empty. -/
inductive Unusable : Option ByteArray → Prop
  | missing : Unusable none
  | notText {bytes : ByteArray} : ¬ bytes.IsValidUTF8 → Unusable (some bytes)
  | empty : Unusable (some .empty)

variable {s : Surroundings} {path : String} {text : String}

theorem source_eq_ok_iff :
    s.source path = .ok text ↔ s.sourceBytes? path = some text.toUTF8 := by
  unfold source sourceBytes?
  split
  · rw [mapError_eq_ok_iff, decodeText_eq_ok_iff, Option.some.injEq]
  · rw [mapError_eq_ok_iff]
    cases s.look path <;> simp [FileState.text, decodeText_eq_ok_iff]

/-- A source can be checked exactly if reading it gives a text that is not empty. -/
theorem unusable_iff :
    Unusable (s.sourceBytes? path) ↔ ∀ text, s.source path = .ok text → text = "" := by
  simp only [source_eq_ok_iff]
  generalize s.sourceBytes? path = bytes
  constructor
  · rintro (_ | hinvalid | _) text htext
    · cases htext
    · cases htext
      exact absurd text.isValidUTF8 hinvalid
    · exact String.toByteArray_inj.mp (Option.some.inj htext).symm
  · intro h
    cases bytes with
    | none => exact .missing
    | some bytes =>
        by_cases hvalid : bytes.IsValidUTF8
        · obtain ⟨text, rfl⟩ := exists_text_of_valid hvalid
          obtain rfl := h text rfl
          exact .empty
        · exact .notText hvalid

end Surroundings

/-! ### The settings -/

namespace Surroundings

/-- What strict loading makes of the settings file of a directory. -/
def loadFrom (s : Surroundings) (dir : String) : Except LoadError Settings :=
  Settings.load (s.look (filePath dir Settings.fileName))

/-- A directory is named, and its settings cannot be loaded. -/
def RefusesSettings (s : Surroundings) (settingsDir : Option String) : Prop :=
  ∃ dir e, settingsDir = some dir ∧ s.loadFrom dir = .error e

/-- The settings that a check is made under. -/
inductive InForce (s : Surroundings) : Option String → Settings → Prop
  | named {dir : String} {c : Settings} : s.loadFrom dir = .ok c → InForce s (some dir) c
  | found {c : Settings} : s.loadFrom workingDir = .ok c → InForce s none c
  | standard {e : LoadError} : s.loadFrom workingDir = .error e → InForce s none .standard

variable {s : Surroundings} {dir : String} {settingsDir : Option String} {c : Settings}
  {e : LoadError}

theorem settings_named (h : s.loadFrom dir = .ok c) : s.settings (some dir) = .ok c := by
  rw [loadFrom] at h
  simp only [settings, h]

theorem exists_settings_error (h : s.loadFrom dir = .error e) :
    ∃ e', s.settings (some dir) = .error e' := by
  rw [loadFrom] at h
  cases e <;> simp [settings, h]

theorem settings_found (h : s.loadFrom workingDir = .ok c) : s.settings none = .ok c := by
  rw [loadFrom] at h
  simp only [settings, Settings.loadOrStandard, h]

theorem settings_standard (h : s.loadFrom workingDir = .error e) :
    s.settings none = .ok .standard := by
  rw [loadFrom] at h
  simp only [settings, Settings.loadOrStandard, h]

theorem settings_of_inForce (h : s.InForce settingsDir c) : s.settings settingsDir = .ok c := by
  cases h with
  | named hload => exact settings_named hload
  | found hload => exact settings_found hload
  | standard hload => exact settings_standard hload

theorem exists_error_of_refuses (h : s.RefusesSettings settingsDir) :
    ∃ e, s.settings settingsDir = .error e := by
  obtain ⟨dir, e, rfl, he⟩ := h
  exact exists_settings_error he

/-- Settings are in force unless a named directory refuses. -/
theorem exists_inForce (h : ¬ s.RefusesSettings settingsDir) : ∃ c, s.InForce settingsDir c := by
  cases settingsDir with
  | some dir =>
      cases hload : s.loadFrom dir with
      | error e => exact absurd ⟨dir, e, rfl, hload⟩ h
      | ok c => exact ⟨c, .named hload⟩
  | none =>
      cases hload : s.loadFrom workingDir with
      | error e => exact ⟨.standard, .standard hload⟩
      | ok c => exact ⟨c, .found hload⟩

end Surroundings

/-! ### The report -/

namespace Report

/-- Neither section lists anything. -/
def IsSilent (r : Report) : Prop :=
  r.form.diagnostics = [] ∧ ∀ m, r.meaning = some m → m.diagnostics = []

theorem isClean_iff {r : Report} : r.isClean = true ↔ r.IsSilent := by
  unfold isClean sections IsSilent
  cases r.meaning <;> simp

/-- The outcome that shows the report. -/
def outcome (r : Report) (format : ReportFormat) : Outcome :=
  if r.isClean then .success (Command.shown r format) else .negative (Command.shown r format)

end Report

/-- The outcome shows the report `r` in a format, and its exit status says whether `r` lists
anything. -/
structure Outcome.Shows (o : Outcome) (r : Report) (format : ReportFormat) : Prop where
  output : o.output = match format with
    | .text => r.render .text
    | .json => r.render .json ++ "\n"
  silent : r.IsSilent → o.exit = 0
  listing : ¬ r.IsSilent → o.exit = 1
  /-- Each section says of itself that it is in order exactly if it lists nothing. -/
  flags : (r.form.ok = true ↔ r.form.diagnostics = []) ∧
    ∀ m, r.meaning = some m → (m.ok = true ↔ m.diagnostics = [])

namespace Command

variable {c : Settings} {formOnly : Bool} {text : String} {r : Report}

/-- Only an empty text has no report. -/
theorem exists_report (c : Settings) (formOnly : Bool) (h : text ≠ "") :
    ∃ r, report c formOnly text = .ok r := by
  have hempty : text.isEmpty = false := by simpa using h
  cases formOnly with
  | true => exact ⟨_, report_formOnly hempty c⟩
  | false => exact ⟨_, report_full hempty c⟩

theorem report_empty (c : Settings) (formOnly : Bool) :
    report c formOnly "" = .error (.source .empty) := by
  cases formOnly <;> rfl

theorem ok_ofProblems {α : Type} [Described α] (ps : List (Located α)) :
    (ReportSection.ofProblems ps).ok = true ↔ (ReportSection.ofProblems ps).diagnostics = [] := by
  simp [ReportSection.ofProblems]

theorem isEmpty_of_report (h : report c formOnly text = .ok r) : text.isEmpty = false := by
  rw [String.isEmpty_eq_false_iff]
  rintro rfl
  rw [report_empty] at h
  cases h

theorem flags_of_report (h : report c formOnly text = .ok r) :
    (r.form.ok = true ↔ r.form.diagnostics = []) ∧
      ∀ m, r.meaning = some m → (m.ok = true ↔ m.diagnostics = []) := by
  have hempty := isEmpty_of_report h
  cases formOnly with
  | true =>
      rw [report_formOnly hempty c] at h
      cases h
      exact ⟨ok_ofProblems _, by simp [FormAnalysis.report]⟩
  | false =>
      rw [report_full hempty c] at h
      cases h
      refine ⟨ok_ofProblems _, fun m hm => ?_⟩
      cases hm
      exact ok_ofProblems _

/-- The report of the form is the part of the full report that is about the form. -/
theorem isSilent_formOnly (h : report c false text = .ok r) (hr : r.IsSilent) :
    ∃ r', report c true text = .ok r' ∧ r'.IsSilent := by
  have hempty := isEmpty_of_report h
  rw [report_full hempty c] at h
  cases h
  exact ⟨_, report_formOnly hempty c, hr.1, by simp [FormAnalysis.report]⟩

end Command

theorem Report.shows_outcome {c : Settings} {formOnly : Bool} {text : String} {r : Report}
    (h : Command.report c formOnly text = .ok r) (format : ReportFormat) :
    (r.outcome format).Shows r format := by
  have hoff (hr : ¬ r.IsSilent) : ¬ r.isClean = true := fun hclean => hr (isClean_iff.mp hclean)
  refine ⟨?_, fun hr => ?_, fun hr => ?_, Command.flags_of_report h⟩
  · unfold outcome
    split <;> cases format <;> rfl
  · rw [outcome, if_pos (isClean_iff.mpr hr)]
    rfl
  · rw [outcome, if_neg (hoff hr)]
    rfl

/-! ### The run -/

/-- What a check is asked for. -/
structure CheckRequest where
  path : String
  formOnly : Bool
  format : ReportFormat
  settingsDir : Option String

namespace CheckRequest

/-- The command line asks for it. -/
def AskedBy (q : CheckRequest) (args : List String) : Prop :=
  Command.ofArguments? args = some (.check q.path q.formOnly q.format q.settingsDir)

def outcome (q : CheckRequest) (s : Surroundings) : Outcome :=
  match Command.runCheck s q.path q.formOnly q.format q.settingsDir with
  | .ok outcome => outcome
  | .error e => e.outcome

/-- What comes of the check when the settings are given. -/
def outcomeUnder (q : CheckRequest) (s : Surroundings) (c : Settings) : Outcome :=
  match s.source q.path with
  | .error e => e.outcome
  | .ok text =>
    match Command.report c q.formOnly text with
    | .error e => e.outcome
    | .ok r => r.outcome q.format

variable {q : CheckRequest} {s : Surroundings} {c : Settings} {text : String} {r : Report}

theorem outcome_of_refused {e : CommandError} (h : s.settings q.settingsDir = .error e) :
    q.outcome s = e.outcome := by
  simp [outcome, Command.runCheck, h, bind, Except.bind]

/-- Of the settings file the run sees the settings only. -/
theorem outcome_of_inForce (h : s.InForce q.settingsDir c) :
    q.outcome s = q.outcomeUnder s c := by
  unfold outcome outcomeUnder Command.runCheck
  simp only [Surroundings.settings_of_inForce h, bind, Except.bind]
  cases s.source q.path with
  | error e => rfl
  | ok text =>
      simp only
      cases hr : Command.report c q.formOnly text with
      | error e => rfl
      | ok r => rfl

theorem outcomeUnder_of_source (hsource : s.source q.path = .ok text)
    (hr : Command.report c q.formOnly text = .ok r) :
    q.outcomeUnder s c = r.outcome q.format := by
  simp only [outcomeUnder, hsource, hr]

/-- All that a check fails on: settings that are refused, or a source that cannot be checked. -/
def Fails (q : CheckRequest) (s : Surroundings) : Prop :=
  s.RefusesSettings q.settingsDir ∨ Surroundings.Unusable (s.sourceBytes? q.path)

/-- The report of the source under the settings in force. -/
def Reports (q : CheckRequest) (s : Surroundings) (r : Report) : Prop :=
  ∃ c text, s.InForce q.settingsDir c ∧ s.source q.path = .ok text ∧
    Command.report c q.formOnly text = .ok r

theorem exists_error_of_unusable (h : Surroundings.Unusable (s.sourceBytes? q.path))
    (c : Settings) : ∃ e : CommandError, q.outcomeUnder s c = e.outcome := by
  rw [Surroundings.unusable_iff] at h
  unfold outcomeUnder
  cases hsource : s.source q.path with
  | error e => exact ⟨e, rfl⟩
  | ok text =>
      obtain rfl := h text hsource
      exact ⟨.source .empty, by simp only [Command.report_empty]⟩

theorem exists_error_of_fails (h : q.Fails s) : ∃ e : CommandError, q.outcome s = e.outcome := by
  by_cases hrefused : s.RefusesSettings q.settingsDir
  · obtain ⟨e, he⟩ := Surroundings.exists_error_of_refuses hrefused
    exact ⟨e, outcome_of_refused he⟩
  · obtain ⟨c, hc⟩ := Surroundings.exists_inForce hrefused
    rw [outcome_of_inForce hc]
    exact exists_error_of_unusable (h.resolve_left hrefused) c

theorem exists_reports (h : ¬ q.Fails s) : ∃ r, q.Reports s r := by
  obtain ⟨hsettings, hsource⟩ := not_or.mp h
  obtain ⟨c, hc⟩ := Surroundings.exists_inForce hsettings
  rw [Surroundings.unusable_iff] at hsource
  push Not at hsource
  obtain ⟨text, htext, hne⟩ := hsource
  obtain ⟨r, hr⟩ := Command.exists_report c q.formOnly hne
  exact ⟨r, c, text, hc, htext, hr⟩

theorem shows_of_reports (h : q.Reports s r) : (q.outcome s).Shows r q.format := by
  obtain ⟨c, text, hc, htext, hr⟩ := h
  rw [outcome_of_inForce hc, outcomeUnder_of_source htext hr]
  exact Report.shows_outcome hr q.format

theorem exit_of_fails (h : q.Fails s) : (q.outcome s).exit = 2 ∧ (q.outcome s).output = "" := by
  obtain ⟨e, he⟩ := exists_error_of_fails h
  rw [he]
  exact ⟨rfl, rfl⟩

/-- The exit status tells which of the three has come about. -/
theorem exit_eq_two_iff : (q.outcome s).exit = 2 ↔ q.Fails s := by
  refine ⟨fun h => ?_, fun h => (exit_of_fails h).1⟩
  by_contra hfails
  obtain ⟨r, hr⟩ := exists_reports hfails
  by_cases hsilent : r.IsSilent
  · simp [(shows_of_reports hr).silent hsilent] at h
  · simp [(shows_of_reports hr).listing hsilent] at h

theorem exit_eq_zero_iff : (q.outcome s).exit = 0 ↔ ∃ r, q.Reports s r ∧ r.IsSilent := by
  refine ⟨fun h => ?_, fun ⟨r, hr, hsilent⟩ => (shows_of_reports hr).silent hsilent⟩
  have hfails : ¬ q.Fails s := fun hfails => by simp [exit_eq_two_iff.mpr hfails] at h
  obtain ⟨r, hr⟩ := exists_reports hfails
  refine ⟨r, hr, ?_⟩
  by_contra hsilent
  simp [(shows_of_reports hr).listing hsilent] at h

theorem exit_format (q : CheckRequest) (s : Surroundings) (format : ReportFormat) :
    ({ q with format }.outcome s).exit = (q.outcome s).exit := by
  by_cases hfails : q.Fails s
  · have hother : Fails { q with format } s := hfails
    exact (exit_of_fails hother).1.trans (exit_of_fails hfails).1.symm
  · obtain ⟨r, hr⟩ := exists_reports hfails
    have hother : Reports { q with format } s r := hr
    by_cases hsilent : r.IsSilent
    · rw [(shows_of_reports hr).silent hsilent, (shows_of_reports hother).silent hsilent]
    · rw [(shows_of_reports hr).listing hsilent, (shows_of_reports hother).listing hsilent]

/-- A check of the form alone has less to find. -/
theorem exit_formOnly (h : (q.outcome s).exit = 0) :
    ({ q with formOnly := true }.outcome s).exit = 0 := by
  obtain ⟨r, ⟨c, text, hc, htext, hr⟩, hsilent⟩ := exit_eq_zero_iff.mp h
  obtain ⟨r', hr', hsilent'⟩ : ∃ r', Command.report c true text = .ok r' ∧ r'.IsSilent := by
    cases hform : q.formOnly with
    | true => exact ⟨r, by rw [← hform, hr], hsilent⟩
    | false => exact Command.isSilent_formOnly (by rw [← hform, hr]) hsilent
  exact exit_eq_zero_iff.mpr ⟨r', ⟨c, text, hc, htext, hr'⟩, hsilent'⟩

/-- Where the settings come from makes no difference. -/
theorem outcome_settingsDir {dir : Option String} (h : s.InForce q.settingsDir c)
    (hdir : s.InForce dir c) : { q with settingsDir := dir }.outcome s = q.outcome s := by
  have hother : s.InForce (CheckRequest.mk q.path q.formOnly q.format dir).settingsDir c := hdir
  rw [outcome_of_inForce h, outcome_of_inForce hother]
  rfl

/-! ### Command lines -/

/-- A command line that asks for the check, with every option in front of the path. -/
def arguments (q : CheckRequest) : List String :=
  "check" :: ((if q.formOnly then ["--syntax-only"] else []) ++
    (match q.format with
      | .text => "--format=text"
      | .json => "--format=json") ::
    (q.settingsDir.elim [] fun dir => ["--config-dir=" ++ dir]) ++ ["--", q.path])

theorem ofText_settingsDir (dir : String) :
    Argument.ofText ("--config-dir=" ++ dir) = .long "config-dir" (some dir) := by
  simp [Argument.ofText, String.toList_append]

theorem read?_arguments (q : CheckRequest) (h : q.settingsDir ≠ some "") :
    GivenArguments.none.read? true q.arguments.tail =
      some ⟨false, q.formOnly, some q.format, q.settingsDir, [q.path]⟩ := by
  have hform : Argument.ofText "--syntax-only" = .long "syntax-only" none := by decide +kernel
  have htext : Argument.ofText "--format=text" = .long "format" (some "text") := by decide +kernel
  have hjson : Argument.ofText "--format=json" = .long "format" (some "json") := by decide +kernel
  have hstop : Argument.ofText "--" = .stop := by decide +kernel
  obtain ⟨path, formOnly, format, settingsDir⟩ := q
  cases formOnly <;> cases format <;> cases settingsDir <;>
    simp_all [arguments, GivenArguments.read?, ofText_settingsDir, GivenArguments.setOption?,
      GivenArguments.none]

theorem askedBy_arguments (q : CheckRequest) (hpath : q.path ≠ "") (h : q.settingsDir ≠ some "") :
    q.AskedBy q.arguments := by
  have hcheck : Argument.ofText "check" = .plain "check" := by decide +kernel
  have hempty : q.path.isEmpty = false := by simpa using hpath
  have htail : q.arguments = "check" :: q.arguments.tail := rfl
  rw [AskedBy, Command.ofArguments?, htail, Command.read?, hcheck]
  simp [Command.ofName?, read?_arguments q h, Command.ofCheck?, hempty]

/-! ### All of it -/

/-- How the check `q` is answered in the surroundings `s`. -/
structure IsAnswered (q : CheckRequest) (s : Surroundings) : Prop where
  /-- Every command line that asks for the check is answered alike, and there is one unless a name
  is empty. -/
  run (args : List String) : q.AskedBy args → Command.run s args = q.outcome s
  asked : q.path ≠ "" → q.settingsDir ≠ some "" → ∃ args, q.AskedBy args
  /-- Strict loading fails on a directory whose settings file is missing or no file, is no text, is
  no document of settings with different keys, or leaves the range empty, and on no other. -/
  loading (dir : String) (e : LoadError) : s.loadFrom dir = .error e ↔
    Settings.LoadFails (s.look (filePath dir Settings.fileName)) e
  /-- The check fails on settings that are named and refused and on a source that is missing, no
  text or empty, and on nothing else. -/
  failed : (q.outcome s).exit = 2 ∧ (q.outcome s).output = "" ↔
    s.RefusesSettings q.settingsDir ∨ Surroundings.Unusable (s.sourceBytes? q.path)
  /-- Otherwise it shows the report of the source under the settings in force. -/
  shown : ¬ (s.RefusesSettings q.settingsDir ∨ Surroundings.Unusable (s.sourceBytes? q.path)) →
    ∃ c text r, s.InForce q.settingsDir c ∧ s.sourceBytes? q.path = some text.toUTF8 ∧
      Command.report c q.formOnly text = .ok r ∧ (q.outcome s).Shows r q.format
  /-- Refused settings are the answer whatever is asked about the source. -/
  refusedFirst : s.RefusesSettings q.settingsDir → ∀ path formOnly format,
    outcome ⟨path, formOnly, format, q.settingsDir⟩ s = q.outcome s
  anyFormat (format : ReportFormat) : ({ q with format }.outcome s).exit = (q.outcome s).exit
  formOnly : (q.outcome s).exit = 0 → ({ q with formOnly := true }.outcome s).exit = 0
  /-- Without a named directory, settings that cannot be loaded are the standard ones. -/
  fallback (e : LoadError) : q.settingsDir = none →
    s.loadFrom Surroundings.workingDir = .error e →
      q.outcome s = q.outcomeUnder s .standard ∧
      ∀ dir, s.loadFrom dir = .ok .standard →
        { q with settingsDir := some dir }.outcome s = q.outcome s
  /-- Those that can be loaded are the same as when their directory is named. -/
  found (c : Settings) : q.settingsDir = none → s.loadFrom Surroundings.workingDir = .ok c →
    q.outcome s = q.outcomeUnder s c ∧
    ∀ dir, s.look (filePath dir Settings.fileName) =
        s.look (filePath Surroundings.workingDir Settings.fileName) →
      { q with settingsDir := some dir }.outcome s = q.outcome s

theorem isAnswered (q : CheckRequest) (s : Surroundings) : q.IsAnswered s where
  run args h := by
    rw [Command.run, h]
    rfl
  asked hpath hdir := ⟨q.arguments, askedBy_arguments q hpath hdir⟩
  loading dir e := Settings.load_eq_error_iff
  failed := ⟨fun h => exit_eq_two_iff.mp h.1, exit_of_fails⟩
  shown h := by
    obtain ⟨r, hr⟩ := exists_reports h
    have hshows := shows_of_reports hr
    obtain ⟨c, text, hc, htext, hreport⟩ := hr
    exact ⟨c, text, r, hc, Surroundings.source_eq_ok_iff.mp htext, hreport, hshows⟩
  refusedFirst h path formOnly format := by
    obtain ⟨e, he⟩ := Surroundings.exists_error_of_refuses h
    have hother : s.settings (CheckRequest.mk path formOnly format q.settingsDir).settingsDir =
        .error e := he
    rw [outcome_of_refused hother, outcome_of_refused he]
  anyFormat := exit_format q s
  formOnly := exit_formOnly
  fallback e hnone he := by
    have hstandard : s.InForce q.settingsDir .standard := by
      rw [hnone]
      exact .standard he
    refine ⟨outcome_of_inForce hstandard, fun dir hdir => ?_⟩
    exact outcome_settingsDir hstandard (.named hdir)
  found c hnone hfound := by
    have hc : s.InForce q.settingsDir c := by
      rw [hnone]
      exact .found hfound
    refine ⟨outcome_of_inForce hc, fun dir hdir => outcome_settingsDir hc (.named ?_)⟩
    rw [Surroundings.loadFrom, hdir]
    exact hfound

end CheckRequest

end LessonCheck
