import DocAudit.Proofs.Text.Reading
import DocAudit.Session.Basic

namespace DocAudit

open Settings (DocumentReader)
open Text (Reads Respells LineEnding ofSourceBytes)

/-!
# What a session makes of a source file

A session sees the text of a source file and not its bytes, so it does not matter how the text is
written.

* `Step.source?` — the steps that read a source file;
* `Session.step_congr` — what comes of them is told by what the bytes decode to;
* `Session.source_respelled` — every file has a text, and the other ways to write it have the same
  outcome.
-/

/-- The source file that a step reads. -/
def Step.source? : Step → Option String
  | .read name => some name
  | .tokens name => some name
  | .check name _ => some name
  | _ => none

namespace Session

variable {Failure : Type} {document : DocumentReader Failure} {s s' : Session} {step : Step}
  {name : String} {bytes bytes' : List UInt8}

theorem withSource_of_read (hread : s.world.read name = .ok bytes) (answer : List Char → Answer) :
    withSource s.world name answer = { answer := answer (ofSourceBytes bytes).text } := by
  rw [withSource, hread]

/-- The check of a file is told by what its bytes decode to. -/
theorem checkFile_congr (hread : s.world.read name = .ok bytes) (hread' : s'.world.read name = .ok bytes')
    (h : ofSourceBytes bytes' = ofSourceBytes bytes) (showTokens : Bool) :
    Command.checkFile s'.world showTokens name = Command.checkFile s.world showTokens name := by
  rw [Command.checkFile, Command.checkFile, hread, hread']
  dsimp only
  rw [h]

/-- **A step that reads a source file is told by what the bytes of the file decode to.** -/
theorem step_congr (hsource : step.source? = some name) (hread : s.world.read name = .ok bytes)
    (hread' : s'.world.read name = .ok bytes') (h : ofSourceBytes bytes' = ofSourceBytes bytes) :
    (s'.step document step).2 = (s.step document step).2 := by
  cases step with
  | read =>
    obtain rfl := Option.some.inj hsource
    simp only [Session.step, withSource_of_read hread, withSource_of_read hread', h]
  | tokens =>
    obtain rfl := Option.some.inj hsource
    simp only [Session.step, withSource_of_read hread, withSource_of_read hread', h]
  | check _ showTokens =>
    obtain rfl := Option.some.inj hsource
    simp only [Session.step, checkFile_congr hread hread' h showTokens]
  | _ => cases hsource

/-- **How a source file is written does not matter.**  Whatever the bytes of a file are, it has a text,
    and this is read wherever the file can be opened.  If there are no carriage returns, each line feed may
    become another line ending; if it is UTF-8 without a byte order mark, one may be put in front: the text
    stays the same, and so does all that comes of a step that reads the file. -/
theorem source_respelled (document : DocumentReader Failure) (bytes : List UInt8) :
    Reads bytes (ofSourceBytes bytes).text ∧
    (∀ (s : Session) (name : String), s.world.read name = .ok bytes →
      (s.step document (.read name)).2 = .ok { answer := .text (ofSourceBytes bytes).text }) ∧
    ∀ bytes', Respells bytes bytes' →
      (ofSourceBytes bytes').text = (ofSourceBytes bytes).text ∧
      ∀ (s s' : Session) (step : Step) (name : String), step.source? = some name →
        s.world.read name = .ok bytes → s'.world.read name = .ok bytes' →
          (s'.step document step).2 = (s.step document step).2 := by
  refine ⟨Text.ofSourceBytes_reads bytes,
    fun s name hread => congrArg Except.ok (withSource_of_read hread .text), fun bytes' hrespells => ?_⟩
  have hdecoded := Text.ofSourceBytes_of_respells hrespells
  refine ⟨congrArg Text.Decoded.text hdecoded, ?_⟩
  intro s s' step name hsource hread hread'
  exact step_congr hsource hread hread' hdecoded

/-- A session in a world with one file. -/
def withFile (bytes : List UInt8) : Session where
  world :=
    { tree := { entries := [(["a"], .file bytes)], nodup := by simp, grounded := by simp [IsDirectory] }
      directory := [] }

theorem withFile_read (bytes : List UInt8) : (withFile bytes).world.read "a" = .ok bytes :=
  rfl

/-- The file holds a comment with a byte that is no UTF-8, and a word.  With other line endings it is read
    byte by byte as well, and its check has the same outcome. -/
theorem withFile_latin_respelled :
    let document : DocumentReader Empty := fun _ => .ok none
    ((withFile [0x2F, 0x2F, 0xE9, 0x0D, 0x0A, 0x66]).step document (.read "a")).2 =
      .ok { answer := .text ['/', '/', 'é', '\n', 'f'] } ∧
    ((withFile [0x2F, 0x2F, 0xE9, 0x0D, 0x0A, 0x66]).step document (.check "a" true)).2 =
      ((withFile [0x2F, 0x2F, 0xE9, 0x0A, 0x66]).step document (.check "a" true)).2 := by
  intro document
  have hrespells : Respells [0x2F, 0x2F, 0xE9, 0x0A, 0x66] [0x2F, 0x2F, 0xE9, 0x0D, 0x0A, 0x66] :=
    .endings .crlf (by decide)
  obtain ⟨_, hopened, hsame⟩ := source_respelled document [0x2F, 0x2F, 0xE9, 0x0A, 0x66]
  obtain ⟨_, hsteps⟩ := hsame _ hrespells
  have hread := hopened (withFile _) "a" (withFile_read _)
  refine ⟨?_, hsteps _ _ _ "a" rfl (withFile_read _) (withFile_read _)⟩
  rw [hsteps _ _ (.read "a") "a" rfl (withFile_read _) (withFile_read _), hread]
  have hdecoded : (ofSourceBytes [0x2F, 0x2F, 0xE9, 0x0A, 0x66]).text = ['/', '/', 'é', '\n', 'f'] := by
    decide
  rw [hdecoded]

end Session

end DocAudit
