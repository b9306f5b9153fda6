import DocAudit.Proofs.Command.Report
import Mathlib.Data.List.Perm.Basic

namespace DocAudit

/-!
# The order of the paths

The paths of a command line may be given in another order.  The run then checks the same files and ends
in the same way, and what it says about each file is the same, but for one case: where there is only one
file, the first path decides whether its problem is reported with its name.

* `Command.collect_perm` — the files of the paths in another order;
* `Command.blocks`, `Command.run_shows` — what is printed about each file, and nothing else is;
* `Command.BeginsWithFile`, `Command.HasProblem` — what the form of a message depends on;
* `Command.fullReport_ending_perm`, `Command.blocks_perm_iff` — the ending and the blocks of a run in
  another order;
* `Session.command_paths_perm` — two uses of the command whose paths differ in their order.
-/

namespace Command

variable {w : World} {settings : Settings} {o : Options} {recursive : Bool} {file : Path}
  {paths paths' files files' : List Path} {e : NotNames}

/-! ### Collecting files -/

/-- Where the settings name no suffixes or directories, only files can be collected. -/
theorem collect_of_refused (hsel : selection? settings = .error e)
    (h : ∀ path ∈ paths, Fits w recursive path) :
    collect w settings recursive paths =
      if paths.all w.isFile then .ok paths else .error (.notNames e) := by
  have hgroups : paths.mapM (filesOf w settings recursive) =
      if paths.all w.isFile then .ok (paths.map ([·])) else .error (.notNames e) := by
    induction paths with
    | nil => rfl
    | cons path paths ih =>
      rw [List.forall_mem_cons] at h
      rw [List.mapM_cons, ih h.2]
      by_cases hfile : w.isFile path = true
      · have hfiles : filesOf w settings recursive path = .ok [path] := if_pos hfile
        rw [hfiles, List.all_cons, hfile, Bool.true_and]
        split <;> rfl
      · obtain ⟨hrecursive, hdirectory⟩ := h.1.resolve_left hfile
        have hfiles : filesOf w settings recursive path = .error (.notNames e) := by
          rw [filesOf, if_neg hfile, hrecursive, hdirectory, walk, hsel]
          rfl
        rw [hfiles, List.all_cons, Bool.eq_false_iff.2 hfile]
        rfl
  rw [collect, hgroups]
  split
  · show Except.ok (paths.map ([·])).flatten = Except.ok paths
    rw [← List.flatMap_def, List.flatMap_singleton']
  · rfl

/-- **Paths in another order stand for the same files**, or the settings prevent the walk in both
    orders. -/
theorem collect_perm (settings : Settings) (hperm : paths'.Perm paths)
    (h : ∀ path ∈ paths, Fits w recursive path) :
    (∃ files files', collect w settings recursive paths = .ok files ∧
      collect w settings recursive paths' = .ok files' ∧ files'.Perm files) ∨
    ∃ e, collect w settings recursive paths = .error (.notNames e) ∧
      collect w settings recursive paths' = .error (.notNames e) := by
  have h' : ∀ path ∈ paths', Fits w recursive path := fun path hpath => h path (hperm.mem_iff.1 hpath)
  cases hsel : selection? settings with
  | ok sel => exact .inl ⟨_, _, collect_of_fits hsel h, collect_of_fits hsel h', hperm.flatMap_right _⟩
  | error e =>
    rw [collect_of_refused hsel h, collect_of_refused hsel h', hperm.all_eq]
    split
    · exact .inl ⟨paths, paths', rfl, rfl, hperm⟩
    · exact .inr ⟨e, rfl, rfl⟩

/-! ### Blocks -/

/-- What is printed about each of the files. -/
def blocksOf (w : World) (showTokens single : Bool) (files : List Path) : List (Path × String) :=
  files.map fun file => (file, block single file (checkFile w showTokens file.text))

/-- What a run prints about each of the files that its paths stand for. -/
def blocks (w : World) (settings : Settings) (o : Options) : List (Path × String) :=
  match collect w settings o.recursive o.paths with
  | .ok files => blocksOf w (o.printTokens || settings.showTokens) (isSingle w o.paths files) files
  | .error _ => []

theorem blocks_of_collect (hfiles : collect w settings o.recursive o.paths = .ok files) :
    blocks w settings o =
      blocksOf w (o.printTokens || settings.showTokens) (isSingle w o.paths files) files := by
  rw [blocks, hfiles]

theorem fullReport_of_collect (hne : o.paths ≠ [])
    (hfiles : collect w settings o.recursive o.paths = .ok files) :
    fullReport w settings o = reportOn (isSingle w o.paths files) (files.map fun file =>
      (file, checkFile w (o.printTokens || settings.showTokens) file.text)) := by
  have hne' : ¬o.paths.isEmpty = true := by
    rwa [List.isEmpty_iff]
  rw [fullReport, if_neg hne', hfiles]

theorem fullReport_of_notNames (hne : o.paths ≠ [])
    (hfiles : collect w settings o.recursive o.paths = .error (.notNames e)) :
    fullReport w settings o = { ending := .notNames e } := by
  have hne' : ¬o.paths.isEmpty = true := by
    rwa [List.isEmpty_iff]
  rw [fullReport, if_neg hne', hfiles]

/-- The report prints the blocks of the files, one behind the other, or a hint where no path is given. -/
def Report.Shows (r : Report) (w : World) (settings : Settings) (o : Options) : Prop :=
  r.printed = if o.paths = [] then noPathText else String.join ((blocks w settings o).map Prod.snd)

theorem run_shows (h : ∀ path ∈ o.paths, Fits w o.recursive path) :
    (run w settings o).Shows w settings o := by
  rw [Report.Shows, run_printed]
  by_cases hne : o.paths = []
  · rw [if_pos hne, fullReport_of_no_path hne]
  · rw [if_neg hne]
    rcases collect_perm settings (List.Perm.refl _) h with
      ⟨files, _, hfiles, _⟩ | ⟨e, hrefused, _⟩
    · rw [fullReport_of_collect hne hfiles, blocks_of_collect hfiles, reportOn, blocksOf,
        List.map_map, List.map_map]
      rfl
    · rw [fullReport_of_notNames hne hrefused, blocks, hrefused]
      rfl

/-! ### Another order -/

/-- The first of the paths leads to a file. -/
def BeginsWithFile (w : World) (paths : List Path) : Prop :=
  ∃ path ∈ paths.head?, w.isFile path = true

/-- The file can be opened, and its text has a problem. -/
def HasProblem (w : World) (file : Path) : Prop :=
  ∃ bytes p, w.read file.text = .ok bytes ∧ problem? (Text.ofSourceBytes bytes).text = some p

theorem isSingle_eq_true_iff :
    isSingle w paths files = true ↔ files.length = 1 ∧ BeginsWithFile w paths := by
  rw [isSingle, Bool.and_eq_true, beq_iff_eq, BeginsWithFile]
  cases paths <;> simp

/-- A message with its file is longer than the message alone. -/
theorem named_ne (name message : String) : name ++ ": " ++ message ≠ message := by
  intro heq
  have hlength := congrArg String.length heq
  rw [String.length_append, String.length_append] at hlength
  have hcolon : ": ".length = 2 := rfl
  omega

theorem block_of_problem {check : FileCheck} {p : Problem} (single : Bool) (file : Path)
    (h : check.verdict = .problem p) :
    block single file check =
      check.printed ++ ((if single then p.message else file.text ++ ": " ++ p.message) ++ "\n") := by
  have hline (line : String) : joinLines [line] = line ++ "\n" := by simp [joinLines]
  rw [block, h, Verdict.report, hline]
  rfl

/-- Only the report of a problem depends on whether the file is named. -/
theorem block_eq_iff {showTokens single single' : Bool} :
    block single' file (checkFile w showTokens file.text) =
        block single file (checkFile w showTokens file.text) ↔
      (HasProblem w file → single' = single) := by
  cases hread : w.read file.text with
  | error fault => simp [HasProblem, block, checkFile, hread, Verdict.report]
  | ok bytes =>
    have hverdict := checkFile_verdict hread showTokens
    cases hproblem : problem? (Text.ofSourceBytes bytes).text with
    | none =>
      rw [hproblem] at hverdict
      simp [HasProblem, block, hread, hverdict, hproblem, Verdict.report]
    | some p =>
      rw [hproblem] at hverdict
      have hfile : HasProblem w file := ⟨bytes, p, hread, hproblem⟩
      rw [block_of_problem single' file hverdict, block_of_problem single file hverdict,
        String.append_right_inj, String.append_left_inj]
      cases single' <;> cases single <;> simp [hfile, (named_ne _ _).symm]

theorem blocksOf_singleton_perm_iff {showTokens single single' : Bool} :
    (blocksOf w showTokens single' [file]).Perm (blocksOf w showTokens single [file]) ↔
      (HasProblem w file → single' = single) := by
  rw [blocksOf, blocksOf, List.map_singleton, List.map_singleton, List.singleton_perm_singleton,
    Prod.mk.injEq, block_eq_iff, eq_self, true_and]

/-- **A run ends in the same way whatever the order of its paths.** -/
theorem fullReport_ending_perm (hperm : paths'.Perm o.paths)
    (h : ∀ path ∈ o.paths, Fits w o.recursive path) :
    (fullReport w settings { o with paths := paths' }).ending = (fullReport w settings o).ending := by
  by_cases hne : o.paths = []
  · rw [hne] at hperm
    obtain rfl := hperm.eq_nil
    rw [fullReport_of_no_path hne, fullReport_of_no_path rfl]
  · have hne' : paths' ≠ [] := fun hnil => hne (hnil ▸ hperm).nil_eq.symm
    rcases collect_perm settings hperm h with
      ⟨files, files', hfiles, hfiles', hperm⟩ | ⟨e, hrefused, hrefused'⟩
    · rw [fullReport_of_collect hne hfiles,
        fullReport_of_collect (o := { o with paths := paths' }) hne' hfiles', reportOn, reportOn,
        (hperm.map _).countP_eq]
    · rw [fullReport_of_notNames hne hrefused,
        fullReport_of_notNames (o := { o with paths := paths' }) hne' hrefused']

/-- **What a run prints about its files is the same up to reordering**, unless there is only one file,
    it has a problem, and just one of the orders begins with a file. -/
theorem blocks_perm_iff (hperm : paths'.Perm o.paths)
    (h : ∀ path ∈ o.paths, Fits w o.recursive path) :
    (blocks w settings { o with paths := paths' }).Perm (blocks w settings o) ↔
      ∀ file, collect w settings o.recursive o.paths = .ok [file] → HasProblem w file →
        (BeginsWithFile w paths' ↔ BeginsWithFile w o.paths) := by
  rcases collect_perm settings hperm h with
    ⟨files, files', hfiles, hfiles', hperm⟩ | ⟨e, hrefused, hrefused'⟩
  · rw [blocks_of_collect hfiles, blocks_of_collect (o := { o with paths := paths' }) hfiles', hfiles]
    by_cases hone : files.length = 1
    · obtain ⟨file, rfl⟩ := List.length_eq_one_iff.1 hone
      obtain rfl := List.perm_singleton.1 hperm
      rw [blocksOf_singleton_perm_iff, Bool.eq_iff_iff, isSingle_eq_true_iff, isSingle_eq_true_iff]
      simp
    · have hsingle (paths : List Path) : isSingle w paths files = false :=
        Bool.eq_false_iff.2 fun hsingle => hone (isSingle_eq_true_iff.1 hsingle).1
      have hsingle' (paths : List Path) : isSingle w paths files' = false :=
        Bool.eq_false_iff.2 fun hsingle =>
          hone (hperm.length_eq ▸ (isSingle_eq_true_iff.1 hsingle).1)
      rw [hsingle, hsingle']
      refine iff_of_true (hperm.map _) fun file hfile => ?_
      obtain rfl := Except.ok.inj hfile
      exact absurd rfl hone
  · rw [blocks, blocks, hrefused, hrefused']
    exact iff_of_true (List.Perm.refl _) fun file hfile => nomatch hfile

end Command

namespace Session

open Command

/-- **The order of the paths hardly matters.** Take two command lines, used in the same session, that ask
    for the same run but give its paths in different orders, and let every path lead to a file, or to a
    directory that is to be walked.  If the settings cannot be obtained, both fail with the same failure.
    Otherwise both runs leave a report, and both end in the same way.  What they print about the files is
    the same up to reordering, unless the paths stand for one file only, the file has a problem, and just
    one of the two orders begins with a file. -/
theorem command_paths_perm {Failure : Type} {document : Settings.DocumentReader Failure} {s : Session}
    {args args' : List String} {o : Options} {paths' : List Path}
    (hparse : parse args = .ok (.run o)) (hparse' : parse args' = .ok (.run { o with paths := paths' }))
    (hperm : paths'.Perm o.paths) (hfits : ∀ path ∈ o.paths, Fits s.world o.recursive path) :
    (∀ b, s.obtain document o.config? = .error b →
      (s.command document args).2 = .error b ∧ (s.command document args').2 = .error b) ∧
    ∀ next loaded, s.obtain document o.config? = .ok (next, loaded) →
      let settings := loaded.settings
      let o' : Options := { o with paths := paths' }
      ∃ r r', (s.command document args).2 = .ok (.report r loaded.failed) ∧
        (s.command document args').2 = .ok (.report r' loaded.failed) ∧
        r'.ending = r.ending ∧ r.Shows s.world settings o ∧ r'.Shows s.world settings o' ∧
        ((blocks s.world settings o').Perm (blocks s.world settings o) ↔
          ∀ file, collect s.world settings o.recursive o.paths = .ok [file] →
            HasProblem s.world file →
              (BeginsWithFile s.world paths' ↔ BeginsWithFile s.world o.paths)) := by
  refine ⟨fun b hobtain => ?_, fun next loaded hobtain => ?_⟩
  · exact ⟨congrArg Prod.snd (command_of_obtain_error hparse hobtain),
      congrArg Prod.snd (command_of_obtain_error hparse' hobtain)⟩
  · intro settings o'
    have hfits' : ∀ path ∈ paths', Fits s.world o.recursive path :=
      fun path hpath => hfits path (hperm.mem_iff.1 hpath)
    refine ⟨run s.world settings o, run s.world settings o',
      congrArg Prod.snd (command_of_obtain_ok hparse hobtain),
      congrArg Prod.snd (command_of_obtain_ok hparse' hobtain), ?_,
      run_shows hfits, run_shows hfits', blocks_perm_iff hperm hfits⟩
    rw [run_ending, run_ending]
    exact fullReport_ending_perm hperm hfits

/-- A session around two files, each with an enum that has no documentation, and an empty directory. -/
def twoEnums : Session where
  world :=
    { tree :=
        { entries := [(["a"], .file [0x65, 0x6E, 0x75, 0x6D, 0x20, 0x41]),
            (["b"], .file [0x65, 0x6E, 0x75, 0x6D, 0x20, 0x42]), (["d"], .directory)]
          nodup := by decide
          grounded := by decide }
      directory := [] }
  settings? := some {}

theorem twoEnums_obtain :
    twoEnums.obtain brokenReader none = .ok (twoEnums, { settings := {}, failed := [] }) :=
  rfl

/-- With two files, the reports in two orders have the same blocks, although only one of the orders begins
    with a file. -/
theorem twoEnums_paths_perm :
    let o : Options := { paths := [⟨"", ["a"]⟩, ⟨"", ["b"]⟩, ⟨"", ["d"]⟩], recursive := true }
    let o' : Options := { o with paths := [⟨"", ["d"]⟩, ⟨"", ["a"]⟩, ⟨"", ["b"]⟩] }
    parse ["-r", "a", "b", "d"] = .ok (.run o) ∧ parse ["-r", "d", "a", "b"] = .ok (.run o') ∧
      o'.paths.Perm o.paths ∧ (∀ path ∈ o.paths, Fits twoEnums.world o.recursive path) ∧
      (∃ r r', (twoEnums.command brokenReader ["-r", "a", "b", "d"]).2 = .ok (.report r []) ∧
        (twoEnums.command brokenReader ["-r", "d", "a", "b"]).2 = .ok (.report r' []) ∧
        r'.ending = r.ending) ∧
      (blocks twoEnums.world {} o').Perm (blocks twoEnums.world {} o) := by
  intro o o'
  have hparse : parse ["-r", "a", "b", "d"] = .ok (.run o) := by cbv
  have hparse' : parse ["-r", "d", "a", "b"] = .ok (.run o') := by cbv
  have hperm : o'.paths.Perm o.paths := by decide
  have hfits : ∀ path ∈ o.paths, Fits twoEnums.world o.recursive path := by
    have ha : Fits twoEnums.world true ⟨"", ["a"]⟩ := .inl (by decide)
    have hb : Fits twoEnums.world true ⟨"", ["b"]⟩ := .inl (by decide)
    have hd : Fits twoEnums.world true ⟨"", ["d"]⟩ := .inr ⟨rfl, by decide⟩
    exact List.forall_mem_cons.2 ⟨ha, List.forall_mem_cons.2 ⟨hb, List.forall_mem_singleton.2 hd⟩⟩
  obtain ⟨_, hreports⟩ := command_paths_perm hparse hparse' hperm hfits
  obtain ⟨r, r', hcommand, hcommand', hending, _, _, hblocks⟩ := hreports _ _ twoEnums_obtain
  refine ⟨hparse, hparse', hperm, hfits, ⟨r, r', hcommand, hcommand', hending⟩, hblocks.2 ?_⟩
  have hfiles : collect twoEnums.world {} true o.paths = .ok [⟨"", ["a"]⟩, ⟨"", ["b"]⟩] := by cbv
  intro file hfile
  cases hfiles.symm.trans hfile

/-- The one file that the paths stand for has its block with or without its name. -/
theorem twoEnums_blocks {paths : List Path}
    (hfiles : collect twoEnums.world {} true paths = .ok [⟨"", ["a"]⟩]) :
    blocks twoEnums.world {} { paths, recursive := true } =
      [(⟨"", ["a"]⟩,
        if isSingle twoEnums.world paths [⟨"", ["a"]⟩] then
          "expected to find documentation for the enum \"A\"\n"
        else "a: expected to find documentation for the enum \"A\"\n")] := by
  have hread : twoEnums.world.read "a" = .ok [0x65, 0x6E, 0x75, 0x6D, 0x20, 0x41] := by cbv
  have htext : (Text.ofSourceBytes [0x65, 0x6E, 0x75, 0x6D, 0x20, 0x41]).text =
      ['e', 'n', 'u', 'm', ' ', 'A'] := by decide
  have hproblem : (problem? ['e', 'n', 'u', 'm', ' ', 'A']).map Problem.message =
      some "expected to find documentation for the enum \"A\"" := by decide +kernel
  obtain ⟨p, hproblem, hmessage⟩ := Option.map_eq_some_iff.1 hproblem
  have hverdict : (checkFile twoEnums.world false "a").verdict = .problem p := by
    rw [checkFile_verdict hread, htext, hproblem]
    rfl
  have hprinted : (checkFile twoEnums.world false "a").printed = "" :=
    (checkFile_quiet hread false).2 rfl
  rw [blocks_of_collect hfiles, blocksOf, List.map_singleton]
  show [(_, block _ _ (checkFile twoEnums.world false "a"))] = _
  rw [block_of_problem _ _ hverdict, hprinted, hmessage]
  cases isSingle twoEnums.world paths [⟨"", ["a"]⟩] <;> rfl

/-- With one file and a directory without files, the order of the two decides whether the problem is
    reported with the name of the file. -/
theorem twoEnums_order_matters :
    let o : Options := { paths := [⟨"", ["a"]⟩, ⟨"", ["d"]⟩], recursive := true }
    let o' : Options := { o with paths := [⟨"", ["d"]⟩, ⟨"", ["a"]⟩] }
    parse ["-r", "a", "d"] = .ok (.run o) ∧ parse ["-r", "d", "a"] = .ok (.run o') ∧
      o'.paths.Perm o.paths ∧ (∀ path ∈ o.paths, Fits twoEnums.world o.recursive path) ∧
      (∃ r, (twoEnums.command brokenReader ["-r", "a", "d"]).2 = .ok (.report r []) ∧
        r.printed = "expected to find documentation for the enum \"A\"\n") ∧
      (∃ r, (twoEnums.command brokenReader ["-r", "d", "a"]).2 = .ok (.report r []) ∧
        r.printed = "a: expected to find documentation for the enum \"A\"\n") ∧
      ¬(blocks twoEnums.world {} o').Perm (blocks twoEnums.world {} o) := by
  intro o o'
  have hparse : parse ["-r", "a", "d"] = .ok (.run o) := by cbv
  have hparse' : parse ["-r", "d", "a"] = .ok (.run o') := by cbv
  have ha : Fits twoEnums.world true ⟨"", ["a"]⟩ := .inl (by decide)
  have hd : Fits twoEnums.world true ⟨"", ["d"]⟩ := .inr ⟨rfl, by decide⟩
  have hfits : ∀ path ∈ o.paths, Fits twoEnums.world o.recursive path :=
    List.forall_mem_cons.2 ⟨ha, List.forall_mem_singleton.2 hd⟩
  have hfits' : ∀ path ∈ o'.paths, Fits twoEnums.world o'.recursive path :=
    List.forall_mem_cons.2 ⟨hd, List.forall_mem_singleton.2 ha⟩
  have hblocks : blocks twoEnums.world {} o = _ := twoEnums_blocks (by cbv)
  have hblocks' : blocks twoEnums.world {} o' = _ := twoEnums_blocks (by cbv)
  have hsingle : isSingle twoEnums.world o.paths [⟨"", ["a"]⟩] = true := by decide
  have hsingle' : isSingle twoEnums.world o'.paths [⟨"", ["a"]⟩] = false := by decide
  rw [hsingle, if_pos rfl] at hblocks
  rw [hsingle', if_neg Bool.false_ne_true] at hblocks'
  refine ⟨hparse, hparse', .swap _ _ _, hfits,
    ⟨_, congrArg Prod.snd (command_of_obtain_ok hparse twoEnums_obtain), ?_⟩,
    ⟨_, congrArg Prod.snd (command_of_obtain_ok hparse' twoEnums_obtain), ?_⟩, ?_⟩
  · have hshows : (run twoEnums.world {} o).Shows twoEnums.world {} o := run_shows hfits
    rw [Report.Shows, hblocks] at hshows
    exact hshows
  · have hshows : (run twoEnums.world {} o').Shows twoEnums.world {} o' := run_shows hfits'
    rw [Report.Shows, hblocks'] at hshows
    exact hshows
  · rw [hblocks, hblocks', List.singleton_perm_singleton, Prod.mk.injEq]
    exact fun heq => absurd heq.2 (by decide)

end Session

end DocAudit
