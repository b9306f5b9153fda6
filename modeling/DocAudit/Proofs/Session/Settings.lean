import DocAudit.Proofs.Settings.Precedence
import DocAudit.Session.Basic
import Mathlib.Data.List.Induction

namespace DocAudit

open Settings (DocumentReader Breakdown Load Evaluates)
open Yaml (Value)

/-!
# The settings that a session works with

Settings are kept from one use to the next, while the world changes.  Which ones a step works with
follows from the steps before it, and from what settings files and variables said at one of them.

* `Step.apply`, `World.after` — what steps do to the world;
* `Step.use?` — the steps that use settings;
* `ForgetsAll`, `Step.Loads`, `IsLatestLoad` — where settings are loaded to be kept, told by the steps
  and by what a load would find;
* `Obtains`, `Session.WorksWith` — what a use of settings gets, and what comes of it;
* `Session.after`, `Session.results_getElem?` — the session after some steps, and what comes of the next
  one;
* `Session.settings?_step`, `Session.step_of_obtain_ok`, `Session.step_of_obtain_error` — what one step
  does to the settings;
* `Session.settings?_after_eq_none_iff`, `Session.settings?_after_latestLoad` — what a run of steps
  does;
* `Session.steps_worksWith_latestLoad` — every use works with the settings that were loaded last.
-/

variable {Failure : Type}

/-! ### The world -/

/-- The world after a step. -/
def Step.apply (w : World) : Step → World
  | .write path bytes => (w.write? path bytes).getD w
  | .makeDirectory path => (w.makeDirectories? path).getD w
  | .remove path => w.remove path
  | .setVariable name value => w.setVariable name value
  | .unsetVariable name => w.unsetVariable name
  | .makeUnreadable name => w.makeUnreadable name
  | _ => w

/-- The world after the steps. -/
def World.after (w : World) (past : List Step) : World :=
  past.foldl Step.apply w

theorem World.after_concat (w : World) (past : List Step) (step : Step) :
    w.after (past ++ [step]) = step.apply (w.after past) := by
  rw [after, List.foldl_append]
  rfl

/-! ### Loads -/

/-- Whether the step uses settings, with the settings file that it names.  A command line does if it is
    understood and asks for a run. -/
def Step.use? : Step → Option (Option Path)
  | .obtain explicit? => some explicit?
  | .walk _ => some none
  | .command args =>
    match Command.parse args with
    | .ok (.run o) => some o.config?
    | _ => none
  | _ => none

theorem Step.use?_command {args : List String} {explicit? : Option Path} :
    (Step.command args).use? = some explicit? ↔
      ∃ o, Command.parse args = .ok (.run o) ∧ o.config? = explicit? := by
  cases hparse : Command.parse args with
  | error fault => simp [use?, hparse]
  | ok request => cases request <;> simp [use?, hparse]

/-- Behind every use of settings at which they could be loaded, they are forgotten. -/
def ForgetsAll (document : DocumentReader Failure) (w : World) (past : List Step) : Prop :=
  ∀ before step after explicit? l, past = before ++ step :: after → step.use? = some explicit? →
    Evaluates document (w.after before) explicit? (.ok l) → Step.forget ∈ after

/-- The step, after those of the past, loads these settings to be kept. -/
structure Step.Loads (document : DocumentReader Failure) (w : World) (past : List Step) (step : Step)
    (explicit? : Option Path) (l : Load) : Prop where
  /-- It uses settings. -/
  use : step.use? = some explicit?
  /-- It names a settings file, or it is the first use since the start, or since the settings were
      forgotten, at which they can be loaded. -/
  first : explicit? = none → ForgetsAll document w past
  /-- This is what the files and the variables say just then. -/
  evaluates : Evaluates document (w.after past) explicit? (.ok l)

/-- Of the steps `before ++ load :: since`, the one in the middle is the last that loads settings, and
    they are not forgotten since. -/
structure IsLatestLoad (document : DocumentReader Failure) (w : World) (before : List Step)
    (load : Step) (since : List Step) (explicit? : Option Path) (l : Load) : Prop where
  /-- Settings are loaded. -/
  loads : load.Loads document w before explicit? l
  /-- They are not forgotten. -/
  forget_not_mem : Step.forget ∉ since
  /-- None are loaded later. -/
  latest : ∀ front step back later? l', since = front ++ step :: back →
    ¬step.Loads document w (before ++ load :: front) later? l'

/-- What a use of settings gets after the steps of the past. -/
inductive Obtains (document : DocumentReader Failure) (w : World) (past : List Step) :
    Option Path → Except (Breakdown Failure) Load → Prop
  /-- A use that names a settings file, or that has no load before it, gets what the files and the
      variables say now. -/
  | loads {explicit? : Option Path} {r : Except (Breakdown Failure) Load}
      (hfirst : explicit? = none → ForgetsAll document w past)
      (hevaluates : Evaluates document (w.after past) explicit? r) : Obtains document w past explicit? r
  /-- Every other use gets what they said at the latest load, and no warnings. -/
  | kept {before since : List Step} {load : Step} {file? : Option Path} {l : Load}
      (hpast : past = before ++ load :: since)
      (hlatest : IsLatestLoad document w before load since file? l) :
      Obtains document w past none (.ok { l with failed := [] })

section Loads

variable {document : DocumentReader Failure} {w : World} {past before since : List Step}
  {step load : Step} {explicit? : Option Path} {l : Load}

/-- A member of a list with one more element is the last, or stands before it. -/
theorem append_cons_eq_concat {α : Type} {l before after : List α} {a x : α}
    (h : l ++ [x] = before ++ a :: after) :
    (l = before ∧ x = a ∧ after = []) ∨ ∃ front, after = front ++ [x] ∧ l = before ++ a :: front := by
  rcases List.eq_nil_or_concat' after with rfl | ⟨front, last, rfl⟩
  · obtain ⟨rfl, hlast⟩ := List.append_inj' h rfl
    exact .inl ⟨rfl, List.singleton_inj.1 hlast, rfl⟩
  · rw [← List.cons_append, ← List.append_assoc] at h
    obtain ⟨rfl, hlast⟩ := List.append_inj' h rfl
    exact .inr ⟨front, by rw [List.singleton_inj.1 hlast], rfl⟩

theorem forgetsAll_nil (document : DocumentReader Failure) (w : World) :
    ForgetsAll document w [] := by
  intro before step after explicit? l heq
  simp at heq

theorem forgetsAll_concat :
    ForgetsAll document w (past ++ [step]) ↔
      step = .forget ∨
        (∀ explicit? l, step.use? = some explicit? →
          ¬Evaluates document (w.after past) explicit? (.ok l)) ∧ ForgetsAll document w past := by
  constructor
  · intro h
    by_cases hforget : step = .forget
    · exact .inl hforget
    · refine .inr ⟨?_, ?_⟩
      · intro explicit? l huse hevaluates
        exact List.not_mem_nil (h past step [] explicit? l rfl huse hevaluates)
      · rintro before user after explicit? l rfl huse hevaluates
        have hmem : Step.forget ∈ after ++ [step] :=
          h before user (after ++ [step]) explicit? l (by simp) huse hevaluates
        rcases List.mem_append.1 hmem with hmem | hmem
        · exact hmem
        · exact absurd (List.mem_singleton.1 hmem).symm hforget
  · intro h before user after explicit? l heq huse hevaluates
    rcases append_cons_eq_concat heq with ⟨rfl, rfl, rfl⟩ | ⟨front, rfl, rfl⟩
    · rcases h with rfl | ⟨hnone, _⟩
      · cases huse
      · exact absurd hevaluates (hnone explicit? l huse)
    · rcases h with rfl | ⟨_, hpast⟩
      · exact List.mem_append_right front List.mem_cons_self
      · exact List.mem_append_left _ (hpast before user front explicit? l rfl huse hevaluates)

/-- A step that loads is the latest load. -/
theorem Step.Loads.isLatestLoad (h : load.Loads document w before explicit? l) :
    IsLatestLoad document w before load [] explicit? l where
  loads := h
  forget_not_mem := List.not_mem_nil
  latest := by
    intro front step back later? l' heq
    simp at heq

/-- The latest load stays the latest as long as no step forgets or loads. -/
theorem isLatestLoad_concat :
    IsLatestLoad document w before load (since ++ [step]) explicit? l ↔
      IsLatestLoad document w before load since explicit? l ∧ step ≠ .forget ∧
        ∀ later? l', ¬step.Loads document w (before ++ load :: since) later? l' := by
  constructor
  · intro h
    refine ⟨⟨h.loads, ?_, ?_⟩, ?_, ?_⟩
    · exact fun hmem => h.forget_not_mem (List.mem_append_left _ hmem)
    · rintro front user back later? l' rfl
      exact h.latest front user (back ++ [step]) later? l' (by simp)
    · rintro rfl
      exact h.forget_not_mem (List.mem_append_right _ List.mem_cons_self)
    · exact fun later? l' => h.latest since step [] later? l' rfl
  · rintro ⟨h, hforget, hloads⟩
    refine ⟨h.loads, ?_, ?_⟩
    · intro hmem
      rcases List.mem_append.1 hmem with hmem | hmem
      · exact h.forget_not_mem hmem
      · exact hforget (List.mem_singleton.1 hmem).symm
    · intro front user back later? l' heq
      rcases append_cons_eq_concat heq with ⟨rfl, rfl, _⟩ | ⟨back, _, rfl⟩
      · exact hloads later? l'
      · exact h.latest front user back later? l' rfl

/-- A step that has nothing to do with settings leaves the latest load before it. -/
theorem IsLatestLoad.concat (h : IsLatestLoad document w before load since explicit? l)
    (huse : step.use? = none) (hforget : step ≠ .forget) :
    IsLatestLoad document w before load (since ++ [step]) explicit? l := by
  refine isLatestLoad_concat.2 ⟨h, hforget, fun later? l' hloads => ?_⟩
  cases huse.symm.trans hloads.use

/-- Unless all settings were forgotten, there is a latest load. -/
theorem exists_isLatestLoad (h : ¬ForgetsAll document w past) :
    ∃ before load since explicit? l, past = before ++ load :: since ∧
      IsLatestLoad document w before load since explicit? l := by
  induction past using List.reverseRecOn with
  | nil => exact absurd (forgetsAll_nil document w) h
  | append_singleton past step ih =>
    rw [forgetsAll_concat, not_or] at h
    obtain ⟨hforget, h⟩ := h
    by_cases hloads : ∃ explicit? l, step.Loads document w past explicit? l
    · obtain ⟨explicit?, l, hloads⟩ := hloads
      exact ⟨past, step, [], explicit?, l, rfl, hloads.isLatestLoad⟩
    · -- A step that does not load leaves the latest load before it.
      have hpast : ¬ForgetsAll document w past := by
        intro hall
        refine h ⟨fun explicit? l huse hevaluates => ?_, hall⟩
        exact hloads ⟨explicit?, l, huse, fun _ => hall, hevaluates⟩
      obtain ⟨before, load, since, explicit?, l, rfl, hlatest⟩ := ih hpast
      refine ⟨before, load, since ++ [step], explicit?, l, by simp,
        isLatestLoad_concat.2 ⟨hlatest, hforget, fun later? l' h => hloads ⟨later?, l', h⟩⟩⟩

end Loads

namespace Session

variable {document : DocumentReader Failure} {s next : Session} {step : Step}
  {explicit? : Option Path} {l : Load} {b : Breakdown Failure}

/-! ### Runs of steps -/

/-- The session after the steps. -/
def after (document : DocumentReader Failure) (s : Session) (past : List Step) : Session :=
  past.foldl (fun s step => (s.step document step).1) s

theorem after_append (s : Session) (past later : List Step) :
    s.after document (past ++ later) = (s.after document past).after document later :=
  List.foldl_append

theorem after_concat (s : Session) (past : List Step) (step : Step) :
    s.after document (past ++ [step]) = ((s.after document past).step document step).1 :=
  after_append s past [step]

theorem results_append (s : Session) (past later : List Step) :
    s.results document (past ++ later) =
      s.results document past ++ (s.after document past).results document later := by
  induction past generalizing s with
  | nil => rfl
  | cons first past ih =>
    show (s.step document first).2 :: (s.step document first).1.results document (past ++ later) = _
    rw [ih]
    rfl

theorem length_results (s : Session) (past : List Step) :
    (s.results document past).length = past.length := by
  induction past generalizing s with
  | nil => rfl
  | cons first past ih => exact congrArg (· + 1) (ih (s.step document first).1)

/-- What comes of a step is decided by the session after the steps before it. -/
theorem results_getElem? (s : Session) (past : List Step) (step : Step) (later : List Step) :
    (s.results document (past ++ step :: later))[past.length]? =
      some ((s.after document past).step document step).2 := by
  have hlength : (s.results document past).length = past.length := length_results s past
  rw [results_append, List.getElem?_append_right (Nat.le_of_eq hlength), hlength, Nat.sub_self]
  rfl

/-! ### Obtaining settings -/

/-- Settings are loaded for a path, and where none are kept. -/
theorem obtain_of_load (h : explicit? = none → s.settings? = none) :
    s.obtain document explicit? =
      (Settings.loadWith document s.world explicit?).map fun l => (s.keep l.settings, l) := by
  unfold obtain
  split
  · next hkept =>
    rw [h rfl] at hkept
    cases hkept
  · rfl

theorem obtain_of_kept {settings : Settings} (h : s.settings? = some settings) :
    s.obtain document none = .ok (s, { settings, failed := [] }) := by
  unfold obtain
  rw [h]

/-- The settings that are obtained are kept, and the world stays as it is. -/
theorem obtain_ok (h : s.obtain document explicit? = .ok (next, l)) :
    next.settings? = some l.settings ∧ next.world = s.world := by
  by_cases hload : explicit? = none → s.settings? = none
  · rw [obtain_of_load hload] at h
    cases hloaded : Settings.loadWith document s.world explicit? with
    | ok found =>
      rw [hloaded] at h
      cases h
      exact ⟨rfl, rfl⟩
    | error b =>
      rw [hloaded] at h
      cases h
  · obtain ⟨rfl, hkept⟩ := Classical.not_imp.1 hload
    obtain ⟨settings, hkept⟩ := Option.ne_none_iff_exists'.1 hkept
    rw [obtain_of_kept hkept] at h
    cases h
    exact ⟨hkept, rfl⟩

/-! ### Steps -/

/-- What comes of a step that works with what it gets. -/
inductive WorksWith (w : World) :
    Except (Breakdown Failure) Load → Step → Except (Breakdown Failure) Outcome → Prop
  | broken (b : Breakdown Failure) (step : Step) : WorksWith w (.error b) step (.error b)
  | obtain (l : Load) (explicit? : Option Path) (same : Bool) :
      WorksWith w (.ok l) (.obtain explicit?)
        (.ok { answer := showSettings l.settings (.obtained same), failed := l.failed })
  | walk {l : Load} {root : Path} {files : List Path}
      (hwalk : Command.walk w l.settings root = .ok files) :
      WorksWith w (.ok l) (.walk root) (.ok { answer := .paths files, failed := l.failed })
  | walkNotNames {l : Load} {root : Path} {e : NotNames}
      (hwalk : Command.walk w l.settings root = .error e) :
      WorksWith w (.ok l) (.walk root) (.ok { answer := .notNames e, failed := l.failed })
  | command (l : Load) {args : List String} {o : Command.Options}
      (hparse : Command.parse args = .ok (.run o)) :
      WorksWith w (.ok l) (.command args)
        (.ok
          { answer := .command (.report (Command.run w l.settings o) l.failed)
            failed := l.failed })

theorem change_settings? (s : Session) (world? : Option World) :
    (s.change world? : Session × Except (Breakdown Failure) Outcome).1.settings? = s.settings? := by
  cases world? <;> rfl

theorem change_world (s : Session) (world? : Option World) :
    (s.change world? : Session × Except (Breakdown Failure) Outcome).1.world =
      world?.getD s.world := by
  cases world? <;> rfl

theorem command_of_use?_eq_none {args : List String} (huse : (Step.command args).use? = none) :
    (s.command document args).1 = s := by
  cases hparse : Command.parse args with
  | error fault => simp only [command, hparse]
  | ok request =>
    cases request with
    | version => simp only [command, hparse]
    | help => simp only [command, hparse]
    | run o => cases huse.symm.trans (Step.use?_command.2 ⟨o, hparse, rfl⟩)

/-- **A step that neither uses nor forgets settings keeps them.** -/
theorem settings?_step (huse : step.use? = none) (hforget : step ≠ .forget) :
    (s.step document step).1.settings? = s.settings? := by
  cases step with
  | write path bytes => exact change_settings? s _
  | makeDirectory path => exact change_settings? s _
  | remove path => exact change_settings? s _
  | setVariable name value => exact change_settings? s _
  | unsetVariable name => exact change_settings? s _
  | makeUnreadable name => exact change_settings? s _
  | candidates => rfl
  | load explicit? => rfl
  | obtain explicit? => cases huse
  | forget => exact absurd rfl hforget
  | read name => rfl
  | tokens name => rfl
  | check name showTokens => rfl
  | walk root => cases huse
  | command args => exact congrArg Session.settings? (command_of_use?_eq_none huse)

/-- **A step works with the settings that it obtains**, and it leaves them to the next one. -/
theorem step_of_obtain_ok (huse : step.use? = some explicit?)
    (h : s.obtain document explicit? = .ok (next, l)) :
    (s.step document step).1.settings? = next.settings? ∧
      (s.step document step).1.world = next.world ∧
      WorksWith s.world (.ok l) step (s.step document step).2 := by
  cases step with
  | obtain file? =>
    obtain rfl := Option.some.inj huse
    simp only [Session.step, h, true_and]
    exact .obtain l file? _
  | walk root =>
    obtain rfl := Option.some.inj huse
    cases hwalk : Command.walk s.world l.settings root with
    | ok files =>
      simp only [Session.step, h, hwalk, true_and]
      exact .walk hwalk
    | error e =>
      simp only [Session.step, h, hwalk, true_and]
      exact .walkNotNames hwalk
  | command args =>
    obtain ⟨o, hparse, rfl⟩ := Step.use?_command.1 huse
    simp only [Session.step, command_of_obtain_ok hparse h, true_and]
    exact .command l hparse
  | _ => cases huse

/-- **Where no settings can be obtained, nothing changes.** -/
theorem step_of_obtain_error (huse : step.use? = some explicit?)
    (h : s.obtain document explicit? = .error b) : s.step document step = (s, .error b) := by
  cases step with
  | obtain file? =>
    obtain rfl := Option.some.inj huse
    simp only [Session.step, h]
  | walk root =>
    obtain rfl := Option.some.inj huse
    simp only [Session.step, h]
  | command args =>
    obtain ⟨o, hparse, rfl⟩ := Step.use?_command.1 huse
    simp only [Session.step, command_of_obtain_error hparse h]
    rfl
  | _ => cases huse

theorem step_worksWith (huse : step.use? = some explicit?) :
    WorksWith s.world ((s.obtain document explicit?).map Prod.snd) step
      (s.step document step).2 := by
  cases hobtain : s.obtain document explicit? with
  | ok obtained => exact (step_of_obtain_ok huse hobtain).2.2
  | error b =>
    rw [step_of_obtain_error huse hobtain]
    exact .broken b step

/-- **A step changes the world only where it is there for that.** -/
theorem world_step (document : DocumentReader Failure) (s : Session) (step : Step) :
    (s.step document step).1.world = step.apply s.world := by
  have hkeep : ∀ explicit?, step.use? = some explicit? → step.apply s.world = s.world →
      (s.step document step).1.world = step.apply s.world := by
    intro explicit? huse happly
    rw [happly]
    cases hobtain : s.obtain document explicit? with
    | ok obtained =>
      rw [(step_of_obtain_ok huse hobtain).2.1]
      exact (obtain_ok hobtain).2
    | error b => rw [step_of_obtain_error huse hobtain]
  cases step with
  | write path bytes => exact change_world s _
  | makeDirectory path => exact change_world s _
  | remove path => exact change_world s _
  | setVariable name value => exact change_world s _
  | unsetVariable name => exact change_world s _
  | makeUnreadable name => exact change_world s _
  | candidates => rfl
  | load explicit? => rfl
  | obtain explicit? => exact hkeep explicit? rfl rfl
  | forget => rfl
  | read name => rfl
  | tokens name => rfl
  | check name showTokens => rfl
  | walk root => exact hkeep none rfl rfl
  | command args =>
    cases huse : (Step.command args).use? with
    | none => exact congrArg Session.world (command_of_use?_eq_none huse)
    | some explicit? => exact hkeep explicit? huse rfl

theorem world_after (document : DocumentReader Failure) (s : Session) (past : List Step) :
    (s.after document past).world = s.world.after past := by
  induction past using List.reverseRecOn with
  | nil => rfl
  | append_singleton past step ih => rw [after_concat, world_step, ih, World.after_concat]

/-- Settings that can be loaded are kept from then on. -/
theorem settings?_step_of_loads (huse : step.use? = some explicit?)
    (hload : explicit? = none → s.settings? = none)
    (h : Settings.loadWith document s.world explicit? = .ok l) :
    (s.step document step).1.settings? = some l.settings := by
  have hobtain : s.obtain document explicit? = .ok (s.keep l.settings, l) := by
    rw [obtain_of_load hload, h]
    rfl
  exact (step_of_obtain_ok huse hobtain).1

/-- A load that fails leaves the settings as they are. -/
theorem settings?_step_of_fails (huse : step.use? = some explicit?)
    (hload : explicit? = none → s.settings? = none)
    (h : Settings.loadWith document s.world explicit? = .error b) :
    (s.step document step).1.settings? = s.settings? := by
  have hobtain : s.obtain document explicit? = .error b := by
    rw [obtain_of_load hload, h]
    rfl
  rw [step_of_obtain_error huse hobtain]

/-- A use that names no file leaves settings that are kept as they are. -/
theorem settings?_step_of_kept {settings : Settings} (huse : step.use? = some none)
    (h : s.settings? = some settings) : (s.step document step).1.settings? = some settings :=
  (step_of_obtain_ok huse (obtain_of_kept h)).1.trans h

/-! ### The settings after a run of steps -/

variable {past before since : List Step} {load : Step}

/-- Where none are kept at the start, none are kept just where they were all forgotten. -/
theorem settings?_after_eq_none_iff (hstart : s.settings? = none) :
    (s.after document past).settings? = none ↔ ForgetsAll document s.world past := by
  induction past using List.reverseRecOn with
  | nil => exact iff_of_true hstart (forgetsAll_nil document s.world)
  | append_singleton past step ih =>
    rw [after_concat, forgetsAll_concat, ← ih, ← world_after document]
    by_cases hforget : step = .forget
    · rw [hforget]
      exact iff_of_true rfl (.inl rfl)
    · cases huse : step.use? with
      | none => simp [settings?_step huse hforget, hforget]
      | some explicit? =>
        by_cases hload : explicit? = none → (s.after document past).settings? = none
        · cases hloaded : Settings.loadWith document (s.after document past).world explicit? with
          | ok l =>
            rw [settings?_step_of_loads huse hload hloaded]
            refine iff_of_false (Option.some_ne_none _) ?_
            rintro (rfl | ⟨hnone, _⟩)
            · exact hforget rfl
            · exact hnone explicit? l rfl (Settings.evaluates_iff.2 hloaded)
          | error b =>
            have hnone : ∀ file? l, some explicit? = some file? →
                ¬Evaluates document (s.after document past).world file? (.ok l) := by
              rintro file? l hfile hevaluates
              obtain rfl := Option.some.inj hfile
              cases hloaded.symm.trans (Settings.evaluates_iff.1 hevaluates)
            rw [settings?_step_of_fails huse hload hloaded, or_iff_right hforget,
              and_iff_right hnone]
        · obtain ⟨rfl, hkept⟩ := Classical.not_imp.1 hload
          obtain ⟨settings, hkept⟩ := Option.ne_none_iff_exists'.1 hkept
          rw [settings?_step_of_kept huse hkept]
          simp [hforget, hkept]

/-- A run of steps that neither use nor forget settings keeps them. -/
theorem settings?_after {later : List Step}
    (h : ∀ step ∈ later, step.use? = none ∧ step ≠ .forget) :
    (s.after document later).settings? = s.settings? := by
  induction later using List.reverseRecOn with
  | nil => rfl
  | append_singleton later step ih =>
    obtain ⟨huse, hforget⟩ := h step (List.mem_append_right later List.mem_cons_self)
    rw [after_concat, settings?_step huse hforget]
    exact ih fun step hstep => h step (List.mem_append_left _ hstep)

/-- **The latest load decides which settings are kept**, with the files and variables that it found. -/
theorem settings?_after_latestLoad (hstart : s.settings? = none)
    (h : IsLatestLoad document s.world before load since explicit? l) :
    (s.after document (before ++ load :: since)).settings? = some l.settings := by
  induction since using List.reverseRecOn with
  | nil =>
    obtain ⟨huse, hfirst, hevaluates⟩ := h.loads
    rw [← world_after, Settings.evaluates_iff] at hevaluates
    rw [after_concat]
    refine settings?_step_of_loads huse (fun hnone => ?_) hevaluates
    exact (settings?_after_eq_none_iff hstart).2 (hfirst hnone)
  | append_singleton since step ih =>
    obtain ⟨hlatest, hforget, hloads⟩ := isLatestLoad_concat.1 h
    have hkept := ih hlatest
    rw [← List.cons_append, ← List.append_assoc, after_concat]
    cases huse : step.use? with
    | none => rw [settings?_step huse hforget, hkept]
    | some file? =>
      cases file? with
      | none => exact settings?_step_of_kept huse hkept
      | some path =>
        -- A step that names a file would load anew, so its load has to fail.
        have hfirst : some path = none → (s.after document (before ++ load :: since)).settings? = none :=
          nofun
        cases hloaded : Settings.loadWith document
            (s.after document (before ++ load :: since)).world (some path) with
        | ok l' =>
          rw [world_after, ← Settings.evaluates_iff] at hloaded
          exact absurd ⟨huse, nofun, hloaded⟩ (hloads (some path) l')
        | error b => rw [settings?_step_of_fails huse hfirst hloaded, hkept]

/-- **What a use gets is told by the steps before it**, by the files and by the variables. -/
theorem obtains_iff (hstart : s.settings? = none) {r : Except (Breakdown Failure) Load} :
    Obtains document s.world past explicit? r ↔
      ((s.after document past).obtain document explicit?).map Prod.snd = r := by
  have hnow : (explicit? = none → ForgetsAll document s.world past) →
      ((s.after document past).obtain document explicit?).map Prod.snd =
        Settings.loadWith document (s.world.after past) explicit? := by
    intro hfirst
    rw [obtain_of_load fun hnone => (settings?_after_eq_none_iff hstart).2 (hfirst hnone), world_after]
    cases Settings.loadWith document (s.world.after past) explicit? <;> rfl
  have hkept {before since : List Step} {load : Step} {file? : Option Path} {l : Load}
      (hlatest : IsLatestLoad document s.world before load since file? l) :
      ((s.after document (before ++ load :: since)).obtain document none).map Prod.snd =
        .ok { l with failed := [] } := by
    rw [obtain_of_kept (settings?_after_latestLoad hstart hlatest)]
    rfl
  constructor
  · rintro (⟨hfirst, hevaluates⟩ | ⟨rfl, hlatest⟩)
    · rw [hnow hfirst]
      exact Settings.evaluates_iff.1 hevaluates
    · exact hkept hlatest
  · rintro rfl
    by_cases hfirst : explicit? = none → ForgetsAll document s.world past
    · rw [hnow hfirst]
      exact .loads hfirst (Settings.evaluates_iff.2 rfl)
    · obtain ⟨rfl, hforgets⟩ := Classical.not_imp.1 hfirst
      obtain ⟨before, load, since, file?, l, rfl, hlatest⟩ := exists_isLatestLoad hforgets
      rw [hkept hlatest]
      exact .kept rfl hlatest

/-- **Every use works with the settings of the latest load.** Take a session from its start and any way
    to read documents.  A step that uses settings gets something.  If it names a file, or if no load is
    left that was not forgotten, this is what the files and the variables say now, be it settings or a
    failure of the reader.  Otherwise it is what they said at the latest load.  The step works with what
    it gets, in the world as it is.  Steps that neither use nor forget settings do not change those that
    are kept. -/
theorem steps_worksWith_latestLoad (document : DocumentReader Failure) (w : World)
    (past : List Step) (step : Step) (explicit? : Option Path) (huse : step.use? = some explicit?)
    (later : List Step) :
    let start : Session := { world := w }
    (∃ r, Obtains document w past explicit? r) ∧
    (∀ r, Obtains document w past explicit? r →
      ∃ result, (start.results document (past ++ step :: later))[past.length]? = some result ∧
        WorksWith (w.after past) r step result) ∧
    ((∀ other ∈ later, other.use? = none ∧ other ≠ .forget) →
      (start.after document (past ++ step :: later)).settings? =
        (start.after document (past ++ [step])).settings?) := by
  intro start
  have hobtains : ∀ r, Obtains document w past explicit? r ↔
      ((start.after document past).obtain document explicit?).map Prod.snd = r :=
    fun r => obtains_iff (s := start) rfl
  refine ⟨⟨_, (hobtains _).2 rfl⟩, ?_, ?_⟩
  · intro r hr
    obtain rfl := (hobtains r).1 hr
    refine ⟨_, results_getElem? start past step later, ?_⟩
    rw [← world_after document start past]
    exact step_worksWith huse
  · intro hlater
    rw [List.append_cons, after_append, settings?_after hlater]

/-- A reader that finds one entry where nothing is written, and fails on all else. -/
def blankReader : DocumentReader Unit := fun text =>
  if text.isEmpty then .ok (some (.map [(.text "extensions", .list [.text ".x"])])) else .error ()

/-- An empty world. -/
def bareWorld : World where
  tree := .empty
  directory := []

/-- The path of a settings file. -/
def blankFile : Path where
  anchor := ""
  parts := ["a"]

/-- Makes a settings file and sets a variable. -/
def preparation : List Step :=
  [.write blankFile [], .setVariable "DOCCHECK_LOG_LEVEL" "debug"]

/-- Spoils the file, tries to load it again, and unsets the variable. -/
def spoiling : List Step :=
  [.write blankFile [0x21], .obtain (some blankFile), .unsetVariable "DOCCHECK_LOG_LEVEL"]

/-- What the file and the variable say before the file is spoilt. -/
def blankLoad : Load where
  settings := { extensions := .list [.text ".x"], level := .text "debug", file? := some blankFile }
  failed := []

theorem preparation_evaluates :
    Evaluates blankReader (bareWorld.after preparation) (some blankFile) (.ok blankLoad) := by
  have hread : (bareWorld.after preparation).read blankFile.text = .ok [] := by decide
  have hloads : Settings.Loads blankReader (bareWorld.after preparation) blankFile
      [(.text "extensions", .list [.text ".x"])] :=
    ⟨[], _, ⟨by decide, [], hread, by decide⟩, rfl, .map _⟩
  have hlevel : (bareWorld.after preparation).valueOf? "DOCCHECK_LOG_LEVEL" = some "debug" := by
    decide
  have hpaths : [blankFile] = [] ++ blankFile :: [] := rfl
  refine ⟨[blankFile], .explicit blankFile, .found hpaths nofun hloads rfl rfl ?_⟩
  intro k
  cases k with
  | extensions => exact .file rfl ⟨[], [], rfl, nofun⟩
  | excludedDirectories => exact .fallback rfl (by simp [Setting.key])
  | printTokens => exact .fallback (by decide) (by simp [Setting.key])
  | level => exact .environment (congrArg (Option.map Value.text) hlevel)

theorem spoilt_evaluates :
    Evaluates blankReader
      (bareWorld.after (preparation ++ .obtain (some blankFile) :: [.write blankFile [0x21]]))
      (some blankFile) (.error { cause := (), failed := [] }) := by
  have hread : (bareWorld.after
      (preparation ++ .obtain (some blankFile) :: [.write blankFile [0x21]])).read blankFile.text =
        .ok [0x21] := by decide
  have hpaths : [blankFile] = [] ++ blankFile :: [] := rfl
  refine ⟨[blankFile], .explicit blankFile, .broken hpaths nofun ?_ rfl⟩
  exact ⟨['!'], ⟨by decide, [0x21], hread, by decide⟩, rfl⟩

theorem isLatestLoad_spoiling :
    IsLatestLoad blankReader bareWorld preparation (.obtain (some blankFile)) spoiling
      (some blankFile) blankLoad := by
  have hload : (Step.obtain (some blankFile)).Loads blankReader bareWorld preparation
      (some blankFile) blankLoad := ⟨rfl, nofun, preparation_evaluates⟩
  have hwrite : IsLatestLoad blankReader bareWorld preparation (.obtain (some blankFile))
      ([] ++ [.write blankFile [0x21]]) (some blankFile) blankLoad :=
    hload.isLatestLoad.concat rfl nofun
  have hobtain : IsLatestLoad blankReader bareWorld preparation (.obtain (some blankFile))
      ([.write blankFile [0x21]] ++ [.obtain (some blankFile)]) (some blankFile) blankLoad := by
    refine isLatestLoad_concat.2 ⟨hwrite, nofun, ?_⟩
    -- The spoilt file cannot be loaded again.
    rintro later? l' ⟨huse, _, hevaluates⟩
    obtain rfl := Option.some.inj huse
    cases (Settings.evaluates_iff.1 spoilt_evaluates).symm.trans
      (Settings.evaluates_iff.1 hevaluates)
  have hunset : Step.unsetVariable "DOCCHECK_LOG_LEVEL" ≠ .forget := nofun
  exact hobtain.concat rfl hunset

/-- The spoilt file cannot be loaded again, and the variable is gone, but a use that names no file still
    works with what both said at the load. -/
theorem spoilt_worksWith_blankLoad :
    let start : Session := { world := bareWorld }
    let steps := preparation ++ .obtain (some blankFile) :: spoiling ++ [.obtain none]
    (Step.obtain (some blankFile)).use? = some (some blankFile) ∧
    (Step.obtain none).use? = some none ∧
    (start.results blankReader steps)[4]? = some (.error { cause := (), failed := [] }) ∧
    ∃ same, (start.results blankReader steps)[6]? =
      some (.ok
        { answer := .obtained same
            { suffixes := [".x"], excluded := [".git", "target"], showTokens := false,
              logLevel := "DEBUG", file? := some blankFile } }) := by
  intro start steps
  refine ⟨rfl, rfl, ?_, ?_⟩
  · obtain ⟨_, hworks, _⟩ := steps_worksWith_latestLoad blankReader bareWorld
      (preparation ++ .obtain (some blankFile) :: [.write blankFile [0x21]])
      (.obtain (some blankFile)) (some blankFile) rfl
      [.unsetVariable "DOCCHECK_LOG_LEVEL", .obtain none]
    obtain ⟨result, hresult, hfails⟩ := hworks _ (.loads nofun spoilt_evaluates)
    cases hfails with
    | broken => exact hresult
  · obtain ⟨_, hworks, _⟩ := steps_worksWith_latestLoad blankReader bareWorld
      (preparation ++ .obtain (some blankFile) :: spoiling) (.obtain none) none rfl []
    obtain ⟨result, hresult, hanswer⟩ := hworks _ (.kept rfl isLatestLoad_spoiling)
    cases hanswer with
    | obtain l explicit? same =>
      have hlevel : blankLoad.settings.logLevel = "DEBUG" := by decide +kernel
      refine ⟨same, hresult.trans ?_⟩
      rw [showSettings, Settings.view?, hlevel]
      rfl

end Session

end DocAudit
