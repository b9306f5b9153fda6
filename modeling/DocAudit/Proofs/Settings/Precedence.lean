import DocAudit.Settings
import Mathlib.Data.List.Basic

namespace DocAudit

open Yaml (Value)

/-!
# Where a setting comes from

The environment goes before the settings file, and the file before the defaults.  The file is one of at
most three candidates, and what the others say does not count: settings files are never mixed.

* `HasEntry`, `Value.lookup?_eq_some_iff` — the entry of a key;
* `Setting`, `Setting.Counts` — the four settings, and the value that counts for one of them;
* `Searches`, `Loads`, `Breaks`, `Resolves` — which candidates there are, what comes of each of them,
  and what comes of a list of them;
* `attempt_of_loads`, `attempt_of_breaks`, `attempt_of_passedOver` — the same for the function that tries
  a candidate;
* `loadFirst_append` — candidates that are passed over leave a warning and no settings;
* `resolves_iff`, `evaluates_iff` — what comes of a load is told by the files and the variables alone;
* `loadWith_resolves` — the settings of every world.
-/

/-! ### Entries -/

/-- The first entry under the key has this value. -/
def HasEntry (entries : List (Value × Value)) (key : String) (v : Value) : Prop :=
  ∃ before after, entries = before ++ (.text key, v) :: after ∧ ∀ e ∈ before, e.1 ≠ .text key

/-- A text is the same key as no other value. -/
theorem Yaml.Value.sameKey_text_iff {v : Value} {key : String} :
    v.sameKey (.text key) = true ↔ v = .text key := by
  unfold Value.sameKey
  cases v with
  | float x => cases (Value.float x).fraction? <;> simp [Value.fraction?]
  | _ => simp [Value.fraction?]

theorem Yaml.Value.lookup?_eq_some_iff {entries : List (Value × Value)} {key : String} {v : Value} :
    Value.lookup? entries key = some v ↔ HasEntry entries key v := by
  unfold Value.lookup?
  simp only [Option.map_eq_some_iff, List.find?_eq_some_iff_append, Value.sameKey_text_iff,
    Bool.not_eq_true']
  constructor
  · rintro ⟨⟨k, v⟩, ⟨rfl, before, after, rfl, hbefore⟩, rfl⟩
    refine ⟨before, after, rfl, fun e he heq => ?_⟩
    have hsame := Value.sameKey_text_iff.2 heq
    rw [hbefore e he] at hsame
    cases hsame
  · rintro ⟨before, after, rfl, hbefore⟩
    refine ⟨(.text key, v), ⟨rfl, before, after, rfl, fun e he => ?_⟩, rfl⟩
    exact Bool.eq_false_iff.2 fun hsame => hbefore e he (Value.sameKey_text_iff.1 hsame)

theorem Yaml.Value.lookup?_eq_none_iff {entries : List (Value × Value)} {key : String} :
    Value.lookup? entries key = none ↔ ∀ e ∈ entries, e.1 ≠ .text key := by
  simp [Value.lookup?, Value.sameKey_text_iff]

/-! ### Settings -/

/-- The settings that govern a run. -/
inductive Setting where
  /-- The suffixes of source files. -/
  | extensions
  /-- The names of the directories that a walk leaves out. -/
  | excludedDirectories
  /-- Whether tokens and nodes are shown. -/
  | printTokens
  /-- The least level of what is logged. -/
  | level
deriving DecidableEq, Repr

namespace Setting

/-- The key of the setting in a settings file. -/
def key : Setting → String
  | extensions => "extensions"
  | excludedDirectories => "exclude_dirs"
  | printTokens => "print_tokens"
  | level => "log_level"

/-- The value of the setting. -/
def value (s : Settings) : Setting → Value
  | extensions => s.extensions
  | excludedDirectories => s.excludedDirectories
  | printTokens => s.printTokens
  | level => s.level

/-- What the environment has to say about the setting. -/
def override? (w : World) : Setting → Option Value
  | extensions => none
  | excludedDirectories => none
  | printTokens =>
    (w.valueOf? "DOCCHECK_PRINT_TOKENS").map fun text => .bool (Settings.isSwitch text)
  | level => (w.valueOf? "DOCCHECK_LOG_LEVEL").map .text

/-- The value that counts for the setting, where the settings file has these entries: that of the
    environment before that of the file, and that of the file before the default. -/
inductive Counts (w : World) (entries : List (Value × Value)) (k : Setting) : Value → Prop
  /-- The variable is set. -/
  | environment {v : Value} (hvariable : k.override? w = some v) : Counts w entries k v
  /-- The variable is not set, and the file has the key. -/
  | file {v : Value} (hvariable : k.override? w = none) (hentry : HasEntry entries k.key v) :
      Counts w entries k v
  /-- The variable is not set, and the file does not have the key. -/
  | fallback (hvariable : k.override? w = none) (hkey : ∀ e ∈ entries, e.1 ≠ .text k.key) :
      Counts w entries k (k.value {})

variable {w : World} {entries : List (Value × Value)}

@[simp]
theorem value_ofFile (k : Setting) (path : Path) (entries : List (Value × Value)) :
    k.value (.ofFile path entries) = (Value.lookup? entries k.key).getD (k.value {}) := by
  cases k <;> rfl

@[simp]
theorem value_withEnvironment (k : Setting) (s : Settings) (w : World) :
    k.value (s.withEnvironment w) = (k.override? w).getD (k.value s) := by
  cases k with
  | extensions => rfl
  | excludedDirectories => rfl
  | printTokens =>
    simp only [value, Settings.withEnvironment, override?]
    cases w.valueOf? "DOCCHECK_PRINT_TOKENS" <;> rfl
  | level =>
    simp only [value, Settings.withEnvironment, override?]
    cases w.valueOf? "DOCCHECK_LOG_LEVEL" <;> rfl

/-- The value that counts is found by looking in the environment first and in the file second. -/
theorem counts_iff {k : Setting} {v : Value} :
    k.Counts w entries v ↔
      (k.override? w).getD ((Value.lookup? entries k.key).getD (k.value {})) = v := by
  constructor
  · rintro (hvariable | ⟨hvariable, hentry⟩ | ⟨hvariable, hkey⟩)
    · rw [hvariable, Option.getD_some]
    · rw [hvariable, Option.getD_none, Value.lookup?_eq_some_iff.2 hentry, Option.getD_some]
    · rw [hvariable, Option.getD_none, Value.lookup?_eq_none_iff.2 hkey, Option.getD_none]
  · rintro rfl
    cases hvariable : k.override? w with
    | some v => exact .environment hvariable
    | none =>
      cases hentry : Value.lookup? entries k.key with
      | some v => exact .file hvariable (Value.lookup?_eq_some_iff.1 hentry)
      | none => exact .fallback hvariable (Value.lookup?_eq_none_iff.1 hentry)

/-- Settings are told by the four values and the file that they come from. -/
theorem ext_value {s s' : Settings} (hvalues : ∀ k : Setting, k.value s = k.value s')
    (hfile : s.file? = s'.file?) : s = s' := by
  have hextensions := hvalues extensions
  have hexcluded := hvalues excludedDirectories
  have htokens := hvalues printTokens
  have hlevel := hvalues level
  cases s
  cases s'
  simp only [value] at hextensions hexcluded htokens hlevel hfile
  subst hextensions hexcluded htokens hlevel hfile
  rfl

end Setting

namespace Settings

/-! ### Candidates -/

/-- The candidates for the settings file, the first ones first. -/
inductive Searches (w : World) : Option Path → List Path → Prop
  /-- An explicit path stands alone. -/
  | explicit (path : Path) : Searches w (some path) [path]
  /-- A path that the environment names goes before the two places where a file is always looked
      for. -/
  | named {text : String} (hvariable : w.valueOf? "DOCCHECK_CONFIG" = some text) (htext : text ≠ "") :
      Searches w none [.ofText text, w.workingDirectory.below ["doccheck.yaml"],
        w.home.below [".doccheck", "config.yaml"]]
  /-- Otherwise there are only these two. -/
  | plain (hvariable : w.valueOf? "DOCCHECK_CONFIG" = none ∨ w.valueOf? "DOCCHECK_CONFIG" = some "") :
      Searches w none [w.workingDirectory.below ["doccheck.yaml"],
        w.home.below [".doccheck", "config.yaml"]]

theorem searches_candidates (w : World) (explicit? : Option Path) :
    Searches w explicit? (candidates w explicit?) := by
  cases explicit? with
  | some path => exact .explicit path
  | none =>
    cases hvariable : w.valueOf? "DOCCHECK_CONFIG" with
    | none =>
      have hplain := Searches.plain (.inl hvariable)
      simpa [candidates, hvariable, Option.filter] using hplain
    | some text =>
      by_cases htext : text = ""
      · subst htext
        have hplain := Searches.plain (.inr hvariable)
        simpa [candidates, hvariable, Option.filter] using hplain
      · have hnamed := Searches.named hvariable htext
        simpa [candidates, hvariable, Option.filter, htext] using hnamed

/-- An explicit path and the environment leave no choice. -/
theorem Searches.eq_candidates {w : World} {explicit? : Option Path} {paths : List Path}
    (h : Searches w explicit? paths) : paths = candidates w explicit? := by
  cases h with
  | explicit path => rfl
  | named hvariable htext => simp [candidates, hvariable, Option.filter, htext]
  | plain hvariable =>
    rcases hvariable with hvariable | hvariable <;> simp [candidates, hvariable, Option.filter]

/-- The document is a mapping with these entries.  One that counts as false is the empty mapping. -/
inductive IsMapping : Value → List (Value × Value) → Prop
  /-- A mapping. -/
  | map (entries : List (Value × Value)) : IsMapping (.map entries) entries
  /-- Nothing, or any other value that counts as false. -/
  | empty {v : Value} (h : v.holds = false) : IsMapping v []

/-- Something is at the path, and it can be opened as this text. -/
structure Opens (w : World) (path : Path) (text : List Char) : Prop where
  /-- Something is there. -/
  present : w.isPresent path = true
  /-- It can be opened, and it is UTF-8. -/
  decodes : ∃ bytes, w.read path.text = .ok bytes ∧ Text.ofUtf8Bytes? bytes = some text

variable {Failure : Type}

/-- The candidate can be opened, and it is a mapping with these entries. -/
def Loads (document : DocumentReader Failure) (w : World) (path : Path)
    (entries : List (Value × Value)) : Prop :=
  ∃ text v, Opens w path text ∧ document text = .ok (some v) ∧ IsMapping v entries

/-- The candidate can be opened, and the reader of documents fails on it. -/
def Breaks (document : DocumentReader Failure) (w : World) (path : Path) (cause : Failure) : Prop :=
  ∃ text, Opens w path text ∧ document text = .error cause

/-- The candidate is not there, or it cannot be opened, or it is no mapping. -/
def PassedOver (document : DocumentReader Failure) (w : World) (path : Path) : Prop :=
  (∀ entries, ¬Loads document w path entries) ∧ ∀ cause, ¬Breaks document w path cause

/-- What comes of looking for a settings file at the paths. -/
inductive Resolves (document : DocumentReader Failure) (w : World) (paths : List Path) :
    Except (Breakdown Failure) Load → Prop
  /-- The first path that is not passed over can be loaded.  It is the file of the settings, and the file
      and the environment decide all of them.  Every path before it at which something is has one
      warning. -/
  | found {before after : List Path} {path : Path} {entries : List (Value × Value)} {l : Load}
      (hpaths : paths = before ++ path :: after)
      (hbefore : ∀ p ∈ before, PassedOver document w p)
      (hloads : Loads document w path entries)
      (hfile : l.settings.file? = some path)
      (hfailed : l.failed = before.filter w.isPresent)
      (hvalues : ∀ k : Setting, k.Counts w entries (k.value l.settings)) :
      Resolves document w paths (.ok l)
  /-- Where all paths are passed over, the settings have no file, and the environment decides them
      alone. -/
  | missing {l : Load}
      (hpaths : ∀ p ∈ paths, PassedOver document w p)
      (hfile : l.settings.file? = none)
      (hfailed : l.failed = paths.filter w.isPresent)
      (hvalues : ∀ k : Setting, k.Counts w [] (k.value l.settings)) :
      Resolves document w paths (.ok l)
  /-- The reader fails on the first path that is not passed over, and there are no settings. -/
  | broken {before after : List Path} {path : Path} {b : Breakdown Failure}
      (hpaths : paths = before ++ path :: after)
      (hbefore : ∀ p ∈ before, PassedOver document w p)
      (hbreaks : Breaks document w path b.cause)
      (hfailed : b.failed = before.filter w.isPresent) :
      Resolves document w paths (.error b)

/-- What comes of loading settings, told by the files and the variables of the world. -/
def Evaluates (document : DocumentReader Failure) (w : World) (explicit? : Option Path)
    (r : Except (Breakdown Failure) Load) : Prop :=
  ∃ paths, Searches w explicit? paths ∧ Resolves document w paths r

/-! ### One candidate -/

variable {document : DocumentReader Failure} {w : World} {path : Path} {paths before : List Path}
  {entries : List (Value × Value)} {explicit? : Option Path}

theorem entriesOf?_eq_some_iff {v : Value} : entriesOf? v = some entries ↔ IsMapping v entries := by
  constructor
  · intro h
    unfold entriesOf? at h
    split at h
    · next hholds =>
      obtain rfl := Option.some.inj h
      exact .empty (by simpa using hholds)
    · split at h
      · obtain rfl := Option.some.inj h
        exact .map _
      · cases h
  · rintro (_ | hholds)
    · cases entries <;> simp [entriesOf?, Value.holds]
    · simp [entriesOf?, hholds]

theorem opens_iff {text : List Char} :
    Opens w path text ↔ w.isPresent path = true ∧
      (w.read path.text).toOption.bind Text.ofUtf8Bytes? = some text := by
  rw [Option.bind_eq_some_iff]
  constructor
  · rintro ⟨hpresent, bytes, hread, htext⟩
    exact ⟨hpresent, bytes, by rw [hread]; rfl, htext⟩
  · rintro ⟨hpresent, bytes, hread, htext⟩
    refine ⟨hpresent, bytes, ?_, htext⟩
    cases hopened : w.read path.text with
    | ok found =>
      rw [hopened] at hread
      exact congrArg Except.ok (Option.some.inj hread)
    | error fault =>
      rw [hopened] at hread
      cases hread

/-- What can be opened is left to the reader of documents. -/
theorem attempt_of_opens {text : List Char} (h : Opens w path text) :
    attempt document w path =
      match document text with
      | .error cause => .broken cause
      | .ok v? =>
        match v?.bind entriesOf? with
        | some entries => .loaded entries
        | none => .failed := by
  obtain ⟨hpresent, htext⟩ := opens_iff.1 h
  rw [attempt, hpresent, htext]
  rfl

/-- What cannot be opened is absent or fails. -/
theorem attempt_of_not_opens (h : ∀ text, ¬Opens w path text) :
    attempt document w path = if w.isPresent path then .failed else .absent := by
  unfold attempt
  by_cases hpresent : w.isPresent path = true
  · have htext : (w.read path.text).toOption.bind Text.ofUtf8Bytes? = none := by
      rw [Option.eq_none_iff_forall_ne_some]
      exact fun text htext => h text (opens_iff.2 ⟨hpresent, htext⟩)
    simp [hpresent, htext]
  · simp [hpresent]

theorem attempt_of_loads (h : Loads document w path entries) :
    attempt document w path = .loaded entries := by
  obtain ⟨text, v, hopens, hdocument, hmapping⟩ := h
  rw [attempt_of_opens hopens, hdocument]
  simp [entriesOf?_eq_some_iff.2 hmapping]

theorem attempt_of_breaks {cause : Failure} (h : Breaks document w path cause) :
    attempt document w path = .broken cause := by
  obtain ⟨text, hopens, hdocument⟩ := h
  rw [attempt_of_opens hopens, hdocument]

/-- **A candidate that is passed over leaves a warning if something is there**, and nothing else. -/
theorem attempt_of_passedOver (h : PassedOver document w path) :
    attempt document w path = if w.isPresent path then .failed else .absent := by
  obtain ⟨hloads, hbreaks⟩ := h
  by_cases hopens : ∃ text, Opens w path text
  · obtain ⟨text, hopens⟩ := hopens
    rw [attempt_of_opens hopens, if_pos hopens.present]
    cases hdocument : document text with
    | error cause => exact absurd ⟨text, hopens, hdocument⟩ (hbreaks cause)
    | ok v? =>
      cases hentries : v?.bind entriesOf? with
      | none => simp [hentries]
      | some entries =>
        obtain ⟨v, rfl, hmapping⟩ := Option.bind_eq_some_iff.1 hentries
        exact absurd ⟨text, v, hopens, hdocument, entriesOf?_eq_some_iff.1 hmapping⟩ (hloads entries)
  · exact attempt_of_not_opens (not_exists.1 hopens)

/-! ### A list of candidates -/

theorem behind_nil (r : Except (Breakdown Failure) Load) : behind [] r = r := by
  cases r <;> rfl

theorem behind_append (failed later : List Path) (r : Except (Breakdown Failure) Load) :
    behind (failed ++ later) r = behind failed (behind later r) := by
  cases r <;> simp [behind]

/-- **Candidates that are passed over leave nothing but warnings**, one for each at which something
    is. -/
theorem loadFirst_append (h : ∀ p ∈ before, PassedOver document w p) :
    loadFirst document w (before ++ paths) =
      behind (before.filter w.isPresent) (loadFirst document w paths) := by
  induction before with
  | nil => exact (behind_nil _).symm
  | cons p before ih =>
    rw [List.forall_mem_cons] at h
    obtain ⟨hp, hbefore⟩ := h
    rw [List.cons_append, loadFirst, attempt_of_passedOver hp, ih hbefore]
    by_cases hpresent : w.isPresent p = true
    · rw [if_pos hpresent, List.filter_cons_of_pos hpresent]
      exact (behind_append [p] _ _).symm
    · rw [if_neg hpresent, List.filter_cons_of_neg hpresent]

theorem loadFirst_of_loads (h : Loads document w path entries) :
    loadFirst document w (path :: paths) = .ok { settings := .ofFile path entries, failed := [] } := by
  rw [loadFirst, attempt_of_loads h]

theorem loadFirst_of_breaks {cause : Failure} (h : Breaks document w path cause) :
    loadFirst document w (path :: paths) = .error { cause, failed := [] } := by
  rw [loadFirst, attempt_of_breaks h]

theorem loadFirst_of_passedOver (h : ∀ p ∈ paths, PassedOver document w p) :
    loadFirst document w paths = .ok { settings := {}, failed := paths.filter w.isPresent } := by
  have hnil : loadFirst document w (paths ++ []) =
      behind (paths.filter w.isPresent) (loadFirst document w []) := loadFirst_append h
  rw [List.append_nil] at hnil
  rw [hnil, loadFirst, behind, List.append_nil]

/-- Either there is a first path that is not passed over, or all of them are. -/
theorem exists_first_of_passedOver (document : DocumentReader Failure) (w : World)
    (paths : List Path) :
    (∃ before path after, paths = before ++ path :: after ∧
      (∀ p ∈ before, PassedOver document w p) ∧ ¬PassedOver document w path) ∨
    ∀ p ∈ paths, PassedOver document w p := by
  induction paths with
  | nil => exact .inr nofun
  | cons path paths ih =>
    by_cases hpath : PassedOver document w path
    · rcases ih with ⟨before, found, after, rfl, hbefore, hfound⟩ | hall
      · exact .inl ⟨path :: before, found, after, rfl, List.forall_mem_cons.2 ⟨hpath, hbefore⟩, hfound⟩
      · exact .inr (List.forall_mem_cons.2 ⟨hpath, hall⟩)
    · exact .inl ⟨[], path, paths, rfl, nofun, hpath⟩

/-- What is resolved from the paths is what is loaded from them. -/
theorem Resolves.eq_loadFirst {r : Except (Breakdown Failure) Load}
    (h : Resolves document w paths r) :
    (loadFirst document w paths).map (fun l => l.withEnvironment w) = r := by
  cases h with
  | @found before after path entries l hpaths hbefore hloads hfile hfailed hvalues =>
    obtain ⟨settings, failed⟩ := l
    subst hpaths hfailed
    rw [loadFirst_append hbefore, loadFirst_of_loads hloads, behind, List.append_nil]
    show Except.ok (⟨_, _⟩ : Load) = Except.ok ⟨_, _⟩
    congr 2
    refine Setting.ext_value (fun k => ?_) hfile.symm
    rw [Setting.value_withEnvironment, Setting.value_ofFile]
    exact Setting.counts_iff.1 (hvalues k)
  | @missing l hpaths hfile hfailed hvalues =>
    obtain ⟨settings, failed⟩ := l
    subst hfailed
    rw [loadFirst_of_passedOver hpaths]
    show Except.ok (⟨_, _⟩ : Load) = Except.ok ⟨_, _⟩
    congr 2
    refine Setting.ext_value (fun k => ?_) hfile.symm
    rw [Setting.value_withEnvironment]
    exact Setting.counts_iff.1 (hvalues k)
  | @broken before after path b hpaths hbefore hbreaks hfailed =>
    obtain ⟨cause, failed⟩ := b
    subst hpaths hfailed
    rw [loadFirst_append hbefore, loadFirst_of_breaks hbreaks, behind, List.append_nil]
    rfl

/-- **What comes of a list of candidates** is what the first one that is not passed over says. -/
theorem resolves_loadFirst (document : DocumentReader Failure) (w : World) (paths : List Path) :
    Resolves document w paths
      ((loadFirst document w paths).map fun l => l.withEnvironment w) := by
  rcases exists_first_of_passedOver document w paths with
    ⟨before, path, after, rfl, hbefore, hpath⟩ | hall
  · rw [loadFirst_append hbefore]
    by_cases hloads : ∃ entries, Loads document w path entries
    · obtain ⟨entries, hloads⟩ := hloads
      rw [loadFirst_of_loads hloads]
      refine .found rfl hbefore hloads rfl (List.append_nil _) fun k => Setting.counts_iff.2 ?_
      exact ((k.value_withEnvironment _ w).trans (by rw [Setting.value_ofFile])).symm
    · have hbreaks : ∃ cause, Breaks document w path cause := by
        by_contra hbreaks
        exact hpath ⟨not_exists.1 hloads, not_exists.1 hbreaks⟩
      obtain ⟨cause, hbreaks⟩ := hbreaks
      rw [loadFirst_of_breaks hbreaks]
      exact .broken rfl hbefore hbreaks (List.append_nil _)
  · rw [loadFirst_of_passedOver hall]
    refine .missing hall rfl rfl fun k => Setting.counts_iff.2 ?_
    exact (k.value_withEnvironment _ w).symm

theorem resolves_iff {r : Except (Breakdown Failure) Load} :
    Resolves document w paths r ↔
      (loadFirst document w paths).map (fun l => l.withEnvironment w) = r :=
  ⟨Resolves.eq_loadFirst, fun h => h ▸ resolves_loadFirst document w paths⟩

/-- **The files and the variables of a world tell what comes of a load**, and nothing else can come of
    it. -/
theorem evaluates_iff {r : Except (Breakdown Failure) Load} :
    Evaluates document w explicit? r ↔ loadWith document w explicit? = r := by
  constructor
  · rintro ⟨paths, hsearches, hresolves⟩
    obtain rfl := hsearches.eq_candidates
    exact resolves_iff.1 hresolves
  · intro h
    exact ⟨candidates w explicit?, searches_candidates w explicit?, resolves_iff.2 h⟩

/-- A reader that never fails in a way of its own always leaves settings. -/
theorem Resolves.exists_ok {r : Except (Breakdown Failure) Load} (h : Resolves document w paths r)
    (hdocument : ∀ text cause, document text ≠ .error cause) : ∃ l, r = .ok l := by
  cases h with
  | found => exact ⟨_, rfl⟩
  | missing => exact ⟨_, rfl⟩
  | broken _ _ hbreaks _ =>
    obtain ⟨text, _, hcause⟩ := hbreaks
    exact absurd hcause (hdocument text _)

/-- **The environment goes before one settings file, and this file before the defaults.** For every way
    to read documents, world and explicit path, an explicit path is the only candidate, and otherwise the
    path that the environment names goes before the one in the working directory and the one in the home
    directory.  The first candidate that is there, can be opened and is a mapping is the file of the
    settings.  Each setting has the value of its variable, of this file, or the default, in this order.
    The candidates before it that are there have one warning each and say nothing else, and those behind
    it say nothing at all.  Only where the reader of documents fails in a way of its own there are no
    settings. -/
theorem loadWith_resolves (document : DocumentReader Failure) (w : World)
    (explicit? : Option Path) :
    Searches w explicit? (candidates w explicit?) ∧
      Resolves document w (candidates w explicit?) (loadWith document w explicit?) ∧
      ((∀ text cause, document text ≠ .error cause) →
        ∃ l, loadWith document w explicit? = .ok l) := by
  have hresolves : Resolves document w (candidates w explicit?) (loadWith document w explicit?) :=
    resolves_loadFirst document w _
  exact ⟨searches_candidates w explicit?, hresolves, hresolves.exists_ok⟩

/-- Where an explicit path leads nowhere, the settings are the defaults, whatever is in the working
    directory. -/
example :
    let w : World :=
      { tree := { entries := [(["doccheck.yaml"], .file [])], nodup := by decide, grounded := by decide }
        directory := [] }
    let document : DocumentReader Empty :=
      fun _ => .ok (some (.map [(.text "log_level", .text "debug")]))
    loadWith document w (some { anchor := "/", parts := ["a"] }) =
      .ok { settings := {}, failed := [] } :=
  rfl

end Settings

end DocAudit
