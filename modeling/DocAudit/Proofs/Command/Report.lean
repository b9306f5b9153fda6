import DocAudit.Proofs.Audit.Verdict
import DocAudit.Proofs.World.Walk
import DocAudit.Session.Basic

namespace DocAudit

/-!
# The report of a run

What the command says about many files, and how it ends.

* `Command.Fits`, `Command.collected` — the paths that can be checked, and the files that they stand
  for;
* `Command.collect_of_fits`, `Command.collect_of_not_fits` — the files are collected, or the first path
  that does not fit ends the run before any file is checked;
* `Command.Passes`, `Command.FileTrace.OfCheck` — the files that pass, and what the check of a file
  leaves behind;
* `Command.Report.AccountsFor` — what a report has to say;
* `Session.command_accountsFor` — every run ends with such a report.
-/

/-- The name of the file that the event is about, if it says that the check of a file begins. -/
def LogEntry.checked? : LogEntry → Option String
  | .checking name => some name
  | _ => none

namespace Command

variable {w : World} {settings : Settings} {sel : Selection} {recursive : Bool} {path file : Path}
  {paths : List Path}

/-! ### Collecting files -/

/-- The path can be checked: it leads to a file, or to a directory that is to be walked. -/
def Fits (w : World) (recursive : Bool) (path : Path) : Prop :=
  w.isFile path = true ∨ recursive = true ∧ w.isDirectory path = true

/-- The files that a path stands for: itself, or those of a walk. -/
def filesAt (w : World) (sel : Selection) (path : Path) : List Path :=
  if w.isFile path then [path] else w.walk path sel

/-- The files that paths stand for, in the order of the paths. -/
def collected (w : World) (sel : Selection) (paths : List Path) : List Path :=
  paths.flatMap (filesAt w sel)

theorem selection?_eq_ok {suffixes excluded : List String}
    (hsuffixes : settings.suffixes? = .ok suffixes) (hexcluded : settings.excluded? = .ok excluded) :
    selection? settings = .ok { suffixes, excluded } := by
  rw [selection?, hsuffixes, hexcluded]
  rfl

theorem filesOf_of_fits (hsel : selection? settings = .ok sel) (h : Fits w recursive path) :
    filesOf w settings recursive path = .ok (filesAt w sel path) := by
  unfold filesOf filesAt
  by_cases hfile : w.isFile path = true
  · rw [if_pos hfile, if_pos hfile]
  · obtain ⟨hrecursive, hdirectory⟩ := h.resolve_left hfile
    rw [if_neg hfile, if_neg hfile, hrecursive, hdirectory, walk, hsel]
    rfl

theorem filesOf_of_not_fits (h : ¬Fits w recursive path) :
    filesOf w settings recursive path = .error (.noFile path) := by
  unfold filesOf
  rw [Fits, not_or] at h
  rw [if_neg h.1, if_neg (by rw [Bool.and_eq_true]; exact h.2)]

/-- Where all paths fit, the files that they stand for are collected. -/
theorem collect_of_fits (hsel : selection? settings = .ok sel)
    (h : ∀ path ∈ paths, Fits w recursive path) :
    collect w settings recursive paths = .ok (collected w sel paths) := by
  have hgroups : paths.mapM (filesOf w settings recursive) = .ok (paths.map (filesAt w sel)) := by
    induction paths with
    | nil => rfl
    | cons path paths ih =>
      rw [List.forall_mem_cons] at h
      rw [List.mapM_cons, filesOf_of_fits hsel h.1, ih h.2]
      rfl
  rw [collect, hgroups, collected, List.flatMap]
  rfl

/-- The first path that does not fit ends the collection. -/
theorem collect_of_not_fits {before after : List Path} (hsel : selection? settings = .ok sel)
    (hbefore : ∀ path ∈ before, Fits w recursive path) (h : ¬Fits w recursive path) :
    collect w settings recursive (before ++ path :: after) = .error (.noFile path) := by
  have hgroups : (before ++ path :: after).mapM (filesOf w settings recursive) =
      .error (.noFile path) := by
    induction before with
    | nil =>
      rw [List.nil_append, List.mapM_cons, filesOf_of_not_fits h]
      rfl
    | cons first before ih =>
      rw [List.forall_mem_cons] at hbefore
      rw [List.cons_append, List.mapM_cons, filesOf_of_fits hsel hbefore.1, ih hbefore.2]
      rfl
  rw [collect, hgroups]
  rfl

/-- Either all paths fit, or there is a first one that does not. -/
theorem fits_or_first (w : World) (recursive : Bool) (paths : List Path) :
    (∀ path ∈ paths, Fits w recursive path) ∨
      ∃ before path after, paths = before ++ path :: after ∧
        (∀ path ∈ before, Fits w recursive path) ∧ ¬Fits w recursive path := by
  induction paths with
  | nil => exact .inl (List.forall_mem_nil _)
  | cons first paths ih =>
    by_cases hfirst : Fits w recursive first
    · rcases ih with hall | ⟨before, path, after, rfl, hbefore, h⟩
      · exact .inl (List.forall_mem_cons.2 ⟨hfirst, hall⟩)
      · exact .inr ⟨first :: before, path, after, rfl, List.forall_mem_cons.2 ⟨hfirst, hbefore⟩, h⟩
    · exact .inr ⟨[], first, paths, rfl, List.forall_mem_nil _, hfirst⟩

/-! ### The check of one file -/

/-- The file passes: it can be opened, and its text has no problem. -/
def Passes (w : World) (file : Path) : Prop :=
  ∃ bytes, w.read file.text = .ok bytes ∧ problem? (Text.ofSourceBytes bytes).text = none

/-- What a check of a file leaves behind. -/
structure FileTrace where
  /-- The file. -/
  file : Path
  /-- What is logged. -/
  log : List LogEntry
  /-- The listings of tokens and nodes. -/
  listings : String
  /-- The final messages. -/
  messages : List String

/-- What is printed about the file. -/
def FileTrace.printed (t : FileTrace) : String :=
  t.listings ++ joinLines t.messages

/-- How a check of a file may go.  Only a file that can be opened is checked, and that is logged once.
    A file that passes leaves no message behind, any other file leaves one. -/
inductive FileTrace.OfCheck (w : World) (showTokens single : Bool) : FileTrace → Prop
  | unreadable {file : Path} {fault : AccessFault} (hread : w.read file.text = .error fault) :
      OfCheck w showTokens single
        { file
          log := []
          listings := ""
          messages := [s!"failed to read the file, error: {fault.message file.text}"] }
  | passes {file : Path} {bytes : List UInt8} {log : List LogEntry} {listings : String}
      (hread : w.read file.text = .ok bytes)
      (hpasses : problem? (Text.ofSourceBytes bytes).text = none)
      (hlog : log.filterMap LogEntry.checked? = [file.text])
      (hlistings : showTokens = false → listings = "") :
      OfCheck w showTokens single { file, log, listings, messages := [] }
  | problem {file : Path} {bytes : List UInt8} {log : List LogEntry} {listings : String} {p : Problem}
      (hread : w.read file.text = .ok bytes)
      (hproblem : problem? (Text.ofSourceBytes bytes).text = some p)
      (hlog : log.filterMap LogEntry.checked? = [file.text])
      (hlistings : showTokens = false → listings = "") :
      OfCheck w showTokens single
        { file, log, listings
          messages := [if single then p.message else s!"{file.text}: {p.message}"] }

theorem auditNodes_quiet (label : String) (showTokens : Bool) (source : List Char)
    (tokens : List Token) :
    (auditNodes label showTokens source tokens).log.filterMap LogEntry.checked? = [] ∧
      (showTokens = false → (auditNodes label showTokens source tokens).printed = "") := by
  unfold auditNodes
  cases outline? (tokens.map Item.token) (some source) with
  | error fault => exact ⟨rfl, fun _ => rfl⟩
  | ok nodes =>
    refine ⟨rfl, ?_⟩
    rintro rfl
    rfl

/-- An audit does not log that a check begins, and it shows nothing unless it is asked to. -/
theorem audit_quiet (label : String) (showTokens : Bool) (source : List Char) :
    (audit label showTokens source).log.filterMap LogEntry.checked? = [] ∧
      (showTokens = false → (audit label showTokens source).printed = "") := by
  unfold audit
  by_cases hempty : source.isEmpty = true
  · rw [if_pos hempty]
    exact ⟨rfl, fun _ => rfl⟩
  · rw [if_neg hempty]
    cases tokenize true source with
    | error fault => exact ⟨rfl, fun _ => rfl⟩
    | ok tokens =>
      obtain ⟨hlog, hprinted⟩ := auditNodes_quiet label showTokens source tokens
      refine ⟨hlog, ?_⟩
      rintro rfl
      show "" ++ (auditNodes label false source tokens).printed = ""
      rw [hprinted rfl, String.empty_append]

theorem readingLog_quiet (name : String) (bytewise : Bool) :
    (readingLog name bytewise).filterMap LogEntry.checked? = [] := by
  cases bytewise <;> rfl

/-- The check of a file that can be opened logs once that it begins. -/
theorem checkFile_quiet {name : String} {bytes : List UInt8} (hread : w.read name = .ok bytes)
    (showTokens : Bool) :
    (checkFile w showTokens name).log.filterMap LogEntry.checked? = [name] ∧
      (showTokens = false → (checkFile w showTokens name).printed = "") := by
  obtain ⟨hlog, hprinted⟩ := audit_quiet name showTokens (Text.ofSourceBytes bytes).text
  have hchecking : LogEntry.checked? (.checking name) = some name := rfl
  rw [checkFile, hread]
  refine ⟨?_, hprinted⟩
  rw [List.filterMap_append, readingLog_quiet, List.nil_append, List.filterMap_cons_some hchecking,
    hlog]

theorem checkFile_verdict {name : String} {bytes : List UInt8} (hread : w.read name = .ok bytes)
    (showTokens : Bool) :
    (checkFile w showTokens name).verdict =
      (problem? (Text.ofSourceBytes bytes).text).elim .passed .problem := by
  unfold checkFile
  rw [hread, ← audit_problem?_eq name showTokens]
  cases haudit : (audit name showTokens (Text.ofSourceBytes bytes).text).problem? with
  | none => simp only [haudit, Option.elim]
  | some p => simp only [haudit, Option.elim]

theorem checkFile_passes_iff (showTokens : Bool) :
    (checkFile w showTokens file.text).verdict.passes = true ↔ Passes w file := by
  unfold Passes
  cases hread : w.read file.text with
  | error fault => simp [checkFile, hread, Verdict.passes]
  | ok bytes =>
    rw [checkFile_verdict hread]
    cases hproblem : problem? (Text.ofSourceBytes bytes).text <;> simp [hproblem, Verdict.passes]

/-- The trace of the check of a file. -/
def trace (w : World) (showTokens single : Bool) (file : Path) : FileTrace :=
  let check := checkFile w showTokens file.text
  { file
    log := check.log
    listings := check.printed
    messages := check.verdict.report single file }

theorem trace_ofCheck (w : World) (showTokens single : Bool) (file : Path) :
    (trace w showTokens single file).OfCheck w showTokens single := by
  unfold trace
  dsimp only
  cases hread : w.read file.text with
  | error fault =>
    rw [checkFile, hread]
    exact .unreadable hread
  | ok bytes =>
    obtain ⟨hlog, hlistings⟩ := checkFile_quiet hread showTokens
    rw [checkFile_verdict hread]
    cases hproblem : problem? (Text.ofSourceBytes bytes).text with
    | none => exact .passes hread hproblem hlog hlistings
    | some p => exact .problem hread hproblem hlog hlistings

/-- The verdict has a message just where the file does not pass. -/
theorem Verdict.report_isEmpty (v : Verdict) (single : Bool) (path : Path) :
    (v.report single path).isEmpty = v.passes := by
  cases v <;> rfl

/-! ### The report -/

/-- The files with a message. -/
def failures (traces : List FileTrace) : Nat :=
  traces.countP fun t => !t.messages.isEmpty

/-- What a report has to say about a run over paths. -/
structure Report.AccountsFor (r : Report) (w : World) (sel : Selection) (o : Options)
    (showTokens debug : Bool) : Prop where
  /-- The exit code is zero just where a path is given, every path can be checked and every file
      passes. -/
  ending_eq_zero_iff : r.ending = .exit 0 ↔
    o.paths ≠ [] ∧ (∀ path ∈ o.paths, Fits w o.recursive path) ∧
      ∀ file ∈ collected w sel o.paths, Passes w file
  /-- Otherwise it is one. -/
  ending_eq : r.ending = .exit 0 ∨ r.ending = .exit 1
  /-- The first path that cannot be checked is all that is reported. -/
  of_not_fits : ∀ before path after, o.paths = before ++ path :: after →
    (∀ p ∈ before, Fits w o.recursive p) → ¬Fits w o.recursive path →
      r.printed = noFileText path ∧ r.log = []
  /-- A path that is no file stands for the files of a walk. -/
  walks : (∀ path ∈ o.paths, Fits w o.recursive path) → ∀ path ∈ o.paths, w.isFile path = false →
    w.Walks path sel (filesAt w sel path)
  /-- Where all paths can be checked, every file that they stand for is checked, in order, and the log
      is kept where debug messages are wanted. -/
  of_fits : o.paths ≠ [] → (∀ path ∈ o.paths, Fits w o.recursive path) →
    ∃ traces : List FileTrace, traces.map FileTrace.file = collected w sel o.paths ∧
      (∀ t ∈ traces, t.OfCheck w showTokens (isSingle w o.paths (collected w sel o.paths))) ∧
      r.printed = String.join (traces.map FileTrace.printed) ∧
      r.log = if debug then
        traces.flatMap FileTrace.log ++ [.finished traces.length (failures traces)] else []

variable {o : Options} {showTokens single : Bool}

theorem run_ending : (run w settings o).ending = (fullReport w settings o).ending := by
  unfold run
  split <;> rfl

theorem run_printed : (run w settings o).printed = (fullReport w settings o).printed := by
  unfold run
  split <;> rfl

theorem run_log : (run w settings o).log =
    if o.verbose || settings.logsDebug then (fullReport w settings o).log else [] := by
  unfold run
  split <;> rfl

/-- The report on files, told by what their checks leave behind. -/
def reportOf (traces : List FileTrace) : Report where
  printed := String.join (traces.map FileTrace.printed)
  log := traces.flatMap FileTrace.log ++ [.finished traces.length (failures traces)]
  ending := .exit (if failures traces = 0 then 0 else 1)

theorem reportOn_eq (files : List Path) :
    reportOn single (files.map fun file => (file, checkFile w showTokens file.text)) =
      reportOf (files.map (trace w showTokens single)) := by
  have hfailures : (files.map fun file => (file, checkFile w showTokens file.text)).countP
      (fun c => !c.2.verdict.passes) = failures (files.map (trace w showTokens single)) := by
    rw [failures, List.countP_map, List.countP_map]
    refine List.countP_congr fun file _ => ?_
    simp only [Function.comp_apply, trace, Verdict.report_isEmpty]
  unfold reportOn reportOf
  simp only [hfailures, List.map_map, List.flatMap_map, List.length_map]
  rfl

/-- The checks of files have no failure just where every file passes. -/
theorem failures_eq_zero_iff {files : List Path} :
    failures (files.map (trace w showTokens single)) = 0 ↔ ∀ file ∈ files, Passes w file := by
  rw [failures, List.countP_eq_zero, List.forall_mem_map]
  refine forall₂_congr fun file _ => ?_
  rw [← checkFile_passes_iff showTokens, trace, Verdict.report_isEmpty,
    Bool.not_eq_true', Bool.not_eq_false]

theorem fullReport_of_no_path (h : o.paths = []) :
    fullReport w settings o = { printed := noPathText, ending := .exit 1 } := by
  rw [fullReport, h]
  rfl

theorem fullReport_of_not_fits {before after : List Path} (hsel : selection? settings = .ok sel)
    (hpaths : o.paths = before ++ path :: after) (hbefore : ∀ p ∈ before, Fits w o.recursive p)
    (h : ¬Fits w o.recursive path) :
    fullReport w settings o = { printed := noFileText path, ending := .exit 1 } := by
  have hne : ¬o.paths.isEmpty = true := by
    rw [hpaths]
    simp
  rw [fullReport, if_neg hne, hpaths, collect_of_not_fits hsel hbefore h]

theorem fullReport_of_fits (hsel : selection? settings = .ok sel) (hne : o.paths ≠ [])
    (h : ∀ path ∈ o.paths, Fits w o.recursive path) :
    fullReport w settings o =
      reportOf ((collected w sel o.paths).map
        (trace w (o.printTokens || settings.showTokens)
          (isSingle w o.paths (collected w sel o.paths)))) := by
  have hne' : ¬o.paths.isEmpty = true := by
    rwa [List.isEmpty_iff]
  rw [fullReport, if_neg hne', collect_of_fits hsel h, ← reportOn_eq]

/-- A run ends with one of the two codes, and with zero just where it has paths that can all be checked
    and files that all pass. -/
theorem fullReport_ending (hsel : selection? settings = .ok sel) :
    ((fullReport w settings o).ending = .exit 0 ↔
      o.paths ≠ [] ∧ (∀ path ∈ o.paths, Fits w o.recursive path) ∧
        ∀ file ∈ collected w sel o.paths, Passes w file) ∧
    ((fullReport w settings o).ending = .exit 0 ∨ (fullReport w settings o).ending = .exit 1) := by
  have hone : Ending.exit 1 ≠ .exit 0 := by decide
  by_cases hne : o.paths = []
  · rw [fullReport_of_no_path hne]
    exact ⟨iff_of_false hone fun h => h.1 hne, .inr rfl⟩
  · rcases fits_or_first w o.recursive o.paths with hfits | ⟨before, path, after, hpaths, hbefore, h⟩
    · rw [fullReport_of_fits hsel hne hfits, ← failures_eq_zero_iff]
      unfold reportOf
      split_ifs with hzero
      · exact ⟨iff_of_true rfl ⟨hne, hfits, hzero⟩, .inl rfl⟩
      · exact ⟨iff_of_false hone fun h => hzero h.2.2, .inr rfl⟩
    · rw [fullReport_of_not_fits hsel hpaths hbefore h]
      have hmem : path ∈ o.paths := by
        rw [hpaths]
        simp
      exact ⟨iff_of_false hone fun hall => h (hall.2.1 path hmem), .inr rfl⟩

/-- **A run accounts for its paths and files.** -/
theorem run_accountsFor (hsel : selection? settings = .ok sel) :
    (run w settings o).AccountsFor w sel o (o.printTokens || settings.showTokens)
      (o.verbose || settings.logsDebug) where
  ending_eq_zero_iff := by
    rw [run_ending]
    exact (fullReport_ending hsel).1
  ending_eq := by
    rw [run_ending]
    exact (fullReport_ending hsel).2
  of_not_fits := by
    intro before path after hpaths hbefore h
    rw [run_printed, run_log, fullReport_of_not_fits hsel hpaths hbefore h, ite_self]
    exact ⟨rfl, rfl⟩
  walks := by
    intro hfits path hpath hfile
    have hfile' : ¬w.isFile path = true := Bool.not_eq_true _ ▸ hfile
    rw [filesAt, if_neg hfile']
    exact World.walk_walks ((hfits path hpath).resolve_left hfile').2
  of_fits := by
    intro hne hfits
    refine ⟨(collected w sel o.paths).map (trace w (o.printTokens || settings.showTokens)
      (isSingle w o.paths (collected w sel o.paths))), ?_, ?_, ?_, ?_⟩
    · rw [List.map_map]
      exact List.map_id _
    · rw [List.forall_mem_map]
      exact fun file _ => trace_ofCheck w _ _ file
    · rw [run_printed, fullReport_of_fits hsel hne hfits]
      rfl
    · rw [run_log, fullReport_of_fits hsel hne hfits]
      rfl

end Command

/-- **Every run ends with a report that accounts for its paths and files**, whatever settings it obtains,
    as long as they name suffixes and directories. -/
theorem Session.command_accountsFor {Failure : Type} {document : Settings.DocumentReader Failure}
    {s next : Session} {loaded : Settings.Load} {args : List String} {o : Command.Options}
    {suffixes excluded : List String} (hparse : Command.parse args = .ok (.run o))
    (hobtain : s.obtain document o.config? = .ok (next, loaded))
    (hsuffixes : loaded.settings.suffixes? = .ok suffixes)
    (hexcluded : loaded.settings.excluded? = .ok excluded) :
    ∃ r, (s.command document args).2 = .ok (.report r loaded.failed) ∧
      r.AccountsFor s.world { suffixes, excluded } o
        (o.printTokens || loaded.settings.showTokens) (o.verbose || loaded.settings.logsDebug) := by
  refine ⟨_, congrArg Prod.snd (command_of_obtain_ok hparse hobtain), ?_⟩
  exact Command.run_accountsFor (Command.selection?_eq_ok hsuffixes hexcluded)

/-- A directory with two empty files, of which one cannot be opened. -/
def twoFiles : FileTree where
  entries := [(["d"], .directory), (["d", "b.rs"], .file []), (["d", "a.rs"], .file [])]
  nodup := by decide
  grounded := by decide

/-- A reader that fails on every document. -/
def Session.brokenReader : Settings.DocumentReader Unit :=
  fun _ => .error ()

/-- A session around that directory, with default settings. -/
def twoFilesSession : Session where
  world := { tree := twoFiles, directory := [], unreadable := ["d/a.rs"] }
  settings? := some {}

/-- A run over that directory finds the file that cannot be opened, so it does not end with zero.  How
    settings files are read does not matter. -/
theorem Session.twoFilesSession_command :
    Command.parse ["-r", "d"] = .ok (.run { paths := [⟨"", ["d"]⟩], recursive := true }) ∧
    twoFilesSession.obtain Session.brokenReader none =
      .ok (twoFilesSession, { settings := {}, failed := [] }) ∧
    ∃ r, (twoFilesSession.command Session.brokenReader ["-r", "d"]).2 = .ok (.report r []) ∧
      r.ending = .exit 1 := by
  have hparse : Command.parse ["-r", "d"] =
      .ok (.run { paths := [⟨"", ["d"]⟩], recursive := true }) := by cbv
  have hobtain : twoFilesSession.obtain Session.brokenReader none =
      .ok (twoFilesSession, { settings := {}, failed := [] }) := rfl
  have hsuffixes : ({} : Settings).suffixes? = .ok [".rs"] := rfl
  have hexcluded : ({} : Settings).excluded? = .ok [".git", "target"] := rfl
  obtain ⟨r, hcommand, haccounts⟩ :=
    Session.command_accountsFor hparse hobtain hsuffixes hexcluded
  have hfits : ∀ path ∈ [⟨"", ["d"]⟩], Command.Fits twoFilesSession.world true path :=
    List.forall_mem_singleton.2 (.inr ⟨rfl, by decide⟩)
  obtain ⟨base, found, hbase, hfiles, _, hfound⟩ :=
    haccounts.walks hfits ⟨"", ["d"]⟩ List.mem_cons_self (by decide)
  obtain rfl : ["d"] = base := by
    have hdirectory : twoFilesSession.world.directoryAt? ⟨"", ["d"]⟩ = some ["d"] := by decide
    exact Option.some.inj (hdirectory.symm.trans hbase)
  have hunreadable : ["a.rs"] ∈ found :=
    (hfound _).2 ⟨by decide, Selection.takes_iff.1 (by decide)⟩
  have hne : r.ending ≠ .exit 0 := by
    intro hzero
    obtain ⟨_, _, hpasses⟩ := haccounts.ending_eq_zero_iff.1 hzero
    have hmem : ⟨"", ["d", "a.rs"]⟩ ∈ Command.collected twoFilesSession.world
        { suffixes := [".rs"], excluded := [".git", "target"] } [⟨"", ["d"]⟩] := by
      rw [Command.collected, List.flatMap_singleton, hfiles]
      exact List.mem_map.2 ⟨_, hunreadable, rfl⟩
    obtain ⟨bytes, hread, _⟩ := hpasses _ hmem
    have hdenied : twoFilesSession.world.read "d/a.rs" = .error .denied := rfl
    cases hdenied.symm.trans hread
  exact ⟨hparse, hobtain, r, hcommand, haccounts.ending_eq.resolve_left hne⟩

end DocAudit
