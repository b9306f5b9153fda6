import DocAudit.Audit
import DocAudit.Proofs.Declaration.Unplaced
import DocAudit.Proofs.Token.Blanks

namespace DocAudit

/-!
# The verdict does not depend on the layout

Blanks between the tokens of a text change the places of what stands behind them and nothing else: the
declarations are the same, and so is what is said about them.

* `Finding.unplaced`, `firstFinding?_unplaced` — findings do not depend on places, nor do their
  messages;
* `outlineOfSource?_of_tokenize`, `audit_problem?_of_tokenize` — the outline and the problem of a text,
  from its tokens;
* `verdict_insert_blanks` — with blanks put in between tokens, a text has the same tokens, declarations
  and verdict.
-/

variable {source : List Char} {ts : List Token}

/-! ### Findings -/

/-- The finding without its place. -/
def Finding.unplaced (f : Finding) : Finding :=
  { f with span := {}, position? := none }

@[simp] theorem Finding.message_unplaced (f : Finding) : f.unplaced.message = f.message := rfl

@[simp] theorem Finding.message_locate (f : Finding) (text : List Char) :
    (f.locate text).message = f.message := rfl

theorem undocumented?_unplaced (subject : Subject) (name docs : String) (span : Span) :
    undocumented? subject name docs {} =
      (undocumented? subject name docs span).map Finding.unplaced := by
  rw [undocumented?, undocumented?]
  split <;> rfl

theorem Struct.fieldFinding?_unplaced (s : Struct) :
    s.unplaced.fieldFinding? = s.fieldFinding?.map Finding.unplaced := by
  obtain ⟨name, fields, docs, span⟩ := s
  show (fields.map Field.unplaced).findSome? _ = (fields.findSome? _).map _
  induction fields with
  | nil => rfl
  | cons f fields ih =>
    have hfield : undocumented? .field f.unplaced.name f.unplaced.docs f.unplaced.span =
        (undocumented? .field f.name f.docs f.span).map Finding.unplaced :=
      undocumented?_unplaced .field f.name f.docs f.span
    rw [List.map_cons, List.findSome?_cons, List.findSome?_cons, ih, hfield]
    cases undocumented? .field f.name f.docs f.span <;> rfl

theorem Node.finding?_unplaced (node : Node) :
    node.unplaced.finding? = node.finding?.map Finding.unplaced := by
  cases node with
  | struct s =>
    show s.unplaced.ownFinding?.or s.unplaced.fieldFinding? = (s.ownFinding?.or s.fieldFinding?).map _
    have hown : s.unplaced.ownFinding? = s.ownFinding?.map Finding.unplaced :=
      undocumented?_unplaced .struct s.name s.docs s.span
    rw [hown, s.fieldFinding?_unplaced]
    cases s.ownFinding? <;> rfl
  | function f =>
    show f.gap?.map _ = (f.gap?.map _).map _
    rw [Option.map_map]
    rfl
  | named n => exact undocumented?_unplaced (.named n.kind) n.name n.docs n.span
  | other t span => rfl
  | field f => rfl
  | blank span => rfl

/-- **Findings do not depend on places.** -/
theorem firstFinding?_unplaced (nodes : List Node) :
    firstFinding? (nodes.map Node.unplaced) = (firstFinding? nodes).map Finding.unplaced := by
  rw [firstFinding?, firstFinding?]
  induction nodes with
  | nil => rfl
  | cons node nodes ih =>
    rw [List.map_cons, List.findSome?_cons, List.findSome?_cons, node.finding?_unplaced, ih]
    cases node.finding? <;> rfl

/-! ### The verdict -/

/-- The tokens of a text stand in source order. -/
theorem checkOrder_of_tokenize (h : tokenize true source = .ok ts) (text : Option (List Char)) :
    checkOrder (ts.map Item.token) text = .ok ts := by
  have hcut : Cut [] source ts := cut_of_tokenize h
  refine checkOrder_of_inOrder ⟨hcut.coversText.apart, fun t ht => ?_⟩ hcut.coversText.start_le text
  exact Int.le_of_lt (hcut.spelledIn t ht).2.start_lt_stop

theorem outlineOfSource?_of_tokenize (h : tokenize true source = .ok ts) :
    outlineOfSource? source = .ok (outline ts) := by
  simp only [outlineOfSource?, outline?, h, checkOrder_of_tokenize h, bind, Except.bind, pure,
    Except.pure]

/-- The problem of a text is the first declaration that falls short, placed in the text, whatever the
    label and whether tokens are shown. -/
theorem audit_problem?_of_tokenize (h : tokenize true source = .ok ts) (label : String)
    (showTokens : Bool) :
    (audit label showTokens source).problem? =
      (firstFinding? (outline ts)).map fun f => .finding (f.locate source) := by
  cases source with
  | nil =>
    obtain rfl : ts = [] := (cut_of_tokenize h).eq .done
    rw [outline_nil]
    rfl
  | cons c source =>
    have houtline : outline? (ts.map Item.token) (some (c :: source)) = .ok (outline ts) := by
      rw [outline?, checkOrder_of_tokenize h]
      rfl
    simp [audit, auditNodes, h, houtline]

theorem audit_problem?_eq (label : String) (showTokens : Bool) (source : List Char) :
    (audit label showTokens source).problem? = problem? source := by
  obtain ⟨ts, hts, _⟩ := exists_tokenize source
  rw [problem?, audit_problem?_of_tokenize hts, audit_problem?_of_tokenize hts]

/-- The message about a text is that about the first declaration that falls short. -/
theorem message_of_tokenize (h : tokenize true source = .ok ts) :
    (problem? source).map Problem.message = (firstFinding? (outline ts)).map Finding.message := by
  rw [problem?, audit_problem?_of_tokenize h, Option.map_map]
  simp only [Function.comp_def, Problem.message, Finding.message_locate]

/-- Tokens that differ in their places only give the same message. -/
theorem message_eq_of_unplaced {us : List Token}
    (h : (outline us).map Node.unplaced = (outline ts).map Node.unplaced) :
    (firstFinding? (outline us)).map Finding.message =
      (firstFinding? (outline ts)).map Finding.message := by
  have hmessage : ∀ nodes : List Node, (firstFinding? nodes).map Finding.message =
      (firstFinding? (nodes.map Node.unplaced)).map Finding.message := by
    intro nodes
    rw [firstFinding?_unplaced, Option.map_map]
    simp only [Function.comp_def, Finding.message_unplaced]
  rw [hmessage, h, ← hmessage]

/-- **The verdict does not depend on the layout.** Every text has tokens and an outline.  With blanks
    put in anywhere but inside a token, it has the same tokens, of the same kinds and with the same
    texts, the same nodes but for their spans, and either no problem or one with the same message. -/
theorem verdict_insert_blanks (source : List Char) :
    ∃ ts nodes, tokenize true source = .ok ts ∧ outlineOfSource? source = .ok nodes ∧
      ∀ front w back, source = front ++ back → AllBlank w →
        (∀ t ∈ ts, ¬ t.span.Surrounds front.length) →
        ∃ ts' nodes', tokenize true (front ++ w ++ back) = .ok ts' ∧
          ts'.map (fun t => (t.kind, t.text)) = ts.map (fun t => (t.kind, t.text)) ∧
          outlineOfSource? (front ++ w ++ back) = .ok nodes' ∧
          nodes'.map Node.unplaced = nodes.map Node.unplaced ∧
          (problem? (front ++ w ++ back)).map Problem.message =
            (problem? source).map Problem.message := by
  obtain ⟨ts, hts, _⟩ := exists_tokenize source
  refine ⟨ts, outline ts, hts, outlineOfSource?_of_tokenize hts, ?_⟩
  rintro front w back rfl hw hout
  obtain ⟨ts', hts', heq⟩ := tokenize_insert_blanks hw hts hout
  have hnodes : (outline ts').map Node.unplaced = (outline ts).map Node.unplaced := by
    rw [← outline_unplaced, ← outline_unplaced, heq]
  refine ⟨ts', outline ts', hts', ?_, outlineOfSource?_of_tokenize hts', hnodes, ?_⟩
  · have hpairs := congrArg (List.map fun t => (t.kind, t.text)) heq
    rwa [List.map_map, List.map_map] at hpairs
  · rw [message_of_tokenize hts', message_of_tokenize hts, message_eq_of_unplaced hnodes]

/-- The tokens of `enum E`. -/
def enumTokens : List Token :=
  [⟨.identifier, "enum", ⟨0, 4⟩⟩, ⟨.identifier, "E", ⟨5, 6⟩⟩]

/-- The enumeration has no documentation, written in one line or in two. -/
theorem verdict_enum_in_two_lines :
    tokenize true "enum E".toList = .ok enumTokens ∧ AllBlank ['\n', '\t'] ∧
    (∀ t ∈ enumTokens, ¬ t.span.Surrounds 4) ∧
    (problem? "enum\n\t E".toList).map Problem.message =
      (problem? "enum E".toList).map Problem.message := by
  have htokens : tokenize true "enum E".toList = .ok enumTokens := by cbv
  have hblank : AllBlank ['\n', '\t'] :=
    List.forall_mem_cons.2 ⟨by decide, List.forall_mem_singleton.2 (by decide)⟩
  have hout : ∀ t ∈ enumTokens, ¬ t.span.Surrounds 4 := by
    simp [enumTokens, Span.Surrounds]
  obtain ⟨ts, _, hts, _, hinsert⟩ := verdict_insert_blanks "enum E".toList
  obtain rfl : enumTokens = ts := Except.ok.inj (htokens.symm.trans hts)
  obtain ⟨_, _, _, _, _, _, hmessage⟩ := hinsert "enum".toList ['\n', '\t'] " E".toList rfl hblank hout
  exact ⟨htokens, hblank, hout, hmessage⟩

end DocAudit
