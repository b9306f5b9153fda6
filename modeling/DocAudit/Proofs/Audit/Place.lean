import DocAudit.Proofs.Audit.Verdict
import DocAudit.Proofs.Documentation.Completeness
import DocAudit.Proofs.Outline.Comments
import DocAudit.Proofs.Text.Position

namespace DocAudit

open Reader

/-!
# The place of a problem

What is reported about a text is a declaration of the text that falls short, at its place, and nothing
else is.

* `Node.Declares` — what a node declares: itself, and a struct its fields;
* `HasBlock` — the tokens of a declaration among those of the text;
* `hasBlock_of_declares` — every declaration of an outline has its tokens;
* `IsPlaced` — a span in a text, from the first character of a declaration's first token on;
* `audit_problem?_isPlaced` — a text has no problem, or one about a declaration that is placed in it.
-/

variable {source : List Char} {ts block behind : List Token} {node : Node} {subject : Subject}
  {name docs : String} {s : Span}

/-! ### Declarations -/

/-- The node declares something of this kind, with this name, documentation and span: itself, or a
    field of a struct. -/
inductive Node.Declares : Node → Subject → (name docs : String) → Span → Prop where
  /-- A struct. -/
  | struct (d : Struct) : Declares (.struct d) .struct d.name d.docs d.span
  /-- A field of a struct. -/
  | field {d : Struct} {f : Field} (h : f ∈ d.fields) :
      Declares (.struct d) .field f.name f.docs f.span
  /-- A function. -/
  | function (f : Function) : Declares (.function f) .function f.name f.docs f.span
  /-- An enumeration, a trait or a constant. -/
  | named (d : Named) : Declares (.named d) (.named d.kind) d.name d.docs d.span

/-- A rule that a node breaks is about something that the node declares. -/
theorem Node.Breaks.declares {finding : Finding} (h : node.Breaks finding) :
    ∃ docs, node.Declares finding.subject finding.name docs finding.span := by
  cases h with
  | struct _ => exact ⟨_, .struct _⟩
  | field _ hsplit _ _ => exact ⟨_, .field (by simp [hsplit])⟩
  | function _ => exact ⟨_, .function _⟩
  | named _ => exact ⟨_, .named _⟩

/-! ### Its tokens -/

/-- The block is what a declaration with this documentation and span takes of the tokens: the span
    covers the block, and the documentation is that of the whole run of comments at its start. -/
def HasBlock (ts block : List Token) (docs : String) (s : Span) : Prop :=
  ∃ before after, ts = before ++ (block ++ after) ∧ s.Covers block ∧
    IsWholeRun docs before (block ++ after)

/-- What a node declares has a block of the tokens from the node's own block. -/
theorem hasBlock_of_hasWholeRun {before after : List Token} (hd : node.Declares subject name docs s)
    (hocc : Occupies node block) (hrun : node.HasWholeRun before block after) :
    ∃ inside, HasBlock (before ++ (block ++ after)) inside docs s := by
  cases hd with
  | struct d => exact ⟨block, before, after, rfl, hocc.1, hrun.1⟩
  | @field d f hf =>
    -- The field is one of those that the loop over the body takes.
    obtain ⟨_, head, tail, members, rfl, hc, hfields, hmembers⟩ := hrun
    rw [← hfields] at hf
    obtain ⟨⟨_, inside⟩, hmem, rfl⟩ := List.mem_map.1 hf
    obtain ⟨first, last, rfl⟩ := List.append_of_mem hmem
    obtain ⟨hne, hread⟩ := hc.read?_append
    refine ⟨inside, before ++ (head ++ (first.map Prod.snd).flatten),
      (last.map Prod.snd).flatten ++ (tail ++ after), by simp, ?_, hmembers first _ inside last rfl⟩
    rw [span_of_field? hread]
    exact covers_covering hne
  | function f => exact ⟨block, before, after, rfl, hocc, hrun⟩
  | named d => exact ⟨block, before, after, rfl, hocc, hrun⟩

/-- **Every declaration has its tokens.** -/
theorem hasBlock_of_declares (hnode : node ∈ outline ts) (hd : node.Declares subject name docs s) :
    ∃ block, HasBlock ts block docs s := by
  obtain ⟨entries, hc, hnodes⟩ := outline_chain ts
  rw [← hnodes] at hnode
  obtain ⟨⟨_, block⟩, hmem, rfl⟩ := List.mem_map.1 hnode
  obtain ⟨before, after, rfl⟩ := List.append_of_mem hmem
  have hocc : Occupies _ block := hc.forall_mem occupies_of_nextNode? _ hmem
  have hflat := hc.flatten_append
  simp only [List.map_append, List.map_cons, List.flatten_append, List.flatten_cons,
    List.append_nil] at hflat
  rw [← hflat]
  exact hasBlock_of_hasWholeRun hd hocc (hasWholeRun_of_chain hc)

/-! ### Its place -/

/-- A span over tokens of a text is not empty and lies in the text. -/
theorem Span.Covers.bounds (h : s.Covers block)
    (hapart : block.Pairwise fun t u => t.span.stop ≤ u.span.start)
    (hspelled : ∀ t ∈ block, t.SpelledIn source) :
    0 ≤ s.start ∧ s.start < s.stop ∧ s.stop ≤ source.length := by
  obtain ⟨first, last, hfirst, hlast, rfl⟩ := h
  have hf := hspelled first (List.mem_of_head? hfirst)
  have hl := hspelled last (List.mem_of_getLast? hlast)
  obtain ⟨i, _, hi, _⟩ := hf.start
  have hwidth := hf.start_lt_stop
  have hwidth' := hl.start_lt_stop
  have hlength := hl.stop_le_length
  show 0 ≤ first.span.start ∧ first.span.start < last.span.stop ∧ last.span.stop ≤ source.length
  refine ⟨by omega, ?_, hlength⟩
  cases block with
  | nil => cases hfirst
  | cons t more =>
    cases hfirst
    rcases List.mem_cons.1 (List.mem_of_getLast? hlast) with rfl | hmem
    · exact hwidth
    · have hstop := List.rel_of_pairwise_cons hapart hmem
      omega

/-- The span is not empty and lies in the text, and it is that of a declaration with this
    documentation: at its start the text spells the first token of the block that the declaration
    takes, the first of its comments if it has any. -/
structure IsPlaced (source : List Char) (ts : List Token) (docs : String) (s : Span) : Prop where
  /-- The span is not empty and lies in the text. -/
  bounds : 0 ≤ s.start ∧ s.start < s.stop ∧ s.stop ≤ source.length
  /-- The first token of the declaration starts where the span does. -/
  first : ∃ first more c chars after, HasBlock ts (first :: more) docs s ∧
    source.drop s.start.toNat = c :: chars ++ after ∧
    Spells first.kind first.text.toList (c :: chars) after

theorem isPlaced_of_hasBlock (hts : tokenize true source = .ok ts) (h : HasBlock ts block docs s) :
    IsPlaced source ts docs s := by
  have hcut : Cut [] source ts := cut_of_tokenize hts
  obtain ⟨before, after, rfl, hcovers, hrun⟩ := h
  have hspelled : ∀ t ∈ block, t.SpelledIn source := by
    intro t ht
    exact (hcut.spelledIn t (by simp [ht])).2
  have hapart := (List.pairwise_append.1 hcut.coversText.apart).2.1
  refine ⟨hcovers.bounds (List.pairwise_append.1 hapart).1 hspelled, ?_⟩
  obtain ⟨first, more, rfl⟩ := List.exists_cons_of_ne_nil hcovers.ne_nil
  obtain ⟨front, chars, rest, hsource, hspan, hspells⟩ := hspelled first (by simp)
  obtain ⟨c, chars, rfl, _⟩ := hspells.exists_cons
  refine ⟨first, more, c, chars, rest, ⟨before, after, rfl, hcovers, hrun⟩, ?_, hspells⟩
  -- The span starts where its first token does.
  obtain ⟨_, last, hhead, _, rfl⟩ := hcovers
  cases hhead
  show source.drop first.span.start.toNat = _
  rw [hspan, hsource, List.append_assoc]
  exact List.drop_left

/-! ### What is reported -/

/-- **A problem is a declaration at its place.** Every text has tokens and an outline.  Its audit finds
    no problem, or one about a declaration of the outline whose documentation is not complete: the
    finding has the kind, the name and the span of that declaration, the span is placed in the text, and
    line and column are those behind the text in front of it. -/
theorem audit_problem?_isPlaced (source : List Char) :
    ∃ ts nodes, tokenize true source = .ok ts ∧ outlineOfSource? source = .ok nodes ∧
      ∀ label showTokens p, (audit label showTokens source).problem? = some p →
        ∃ (f : Finding) (node : Node) (docs : String) (place : Position),
          p = .finding f ∧ node ∈ nodes ∧ ¬node.Complete ∧
          node.Declares f.subject f.name docs f.span ∧ IsPlaced source ts docs f.span ∧
          f.position? = some place ∧ place.Follows (source.take f.span.start.toNat) := by
  obtain ⟨ts, hts, _⟩ := exists_tokenize source
  refine ⟨ts, outline ts, hts, outlineOfSource?_of_tokenize hts, ?_⟩
  intro label showTokens p hp
  rw [audit_problem?_of_tokenize hts, Option.map_eq_some_iff] at hp
  obtain ⟨f, hf, rfl⟩ := hp
  obtain ⟨node, hnode, hfinding⟩ := List.exists_of_findSome?_eq_some hf
  have hincomplete : ¬node.Complete := by
    rw [← Node.finding?_eq_none_iff, hfinding]
    exact Option.some_ne_none f
  obtain ⟨docs, hdeclares⟩ := (Node.finding?_eq_some_iff.1 hfinding).declares
  obtain ⟨block, hblock⟩ := hasBlock_of_declares hnode hdeclares
  exact ⟨f.locate source, node, docs, _, rfl, hnode, hincomplete, hdeclares,
    isPlaced_of_hasBlock hts hblock, rfl, Position.follows_after _⟩

/-- A word and, in the next lines, an empty comment and an enumeration. -/
def emptyCommentText : List Char :=
  "mod\n  ///\nenum E".toList

/-- The tokens of that text. -/
def emptyCommentTokens : List Token :=
  [⟨.identifier, "mod", ⟨0, 3⟩⟩, ⟨.comment, "", ⟨6, 9⟩⟩, ⟨.identifier, "enum", ⟨10, 14⟩⟩,
    ⟨.identifier, "E", ⟨15, 16⟩⟩]

/-- An enumeration below an empty comment has no documentation, and it starts with that comment, in the
    second line. -/
theorem enum_below_empty_comment_isPlaced :
    (audit "" false emptyCommentText).problem? =
      some (.finding ⟨.named .enum, "E", ⟨6, 16⟩, .undocumented, some ⟨2, 3⟩⟩) ∧
    (∃ docs, IsPlaced emptyCommentText emptyCommentTokens docs ⟨6, 16⟩) ∧
    (⟨2, 3⟩ : Position).Follows "mod\n  ".toList := by
  have htokens : tokenize true emptyCommentText = .ok emptyCommentTokens := by cbv
  have hnext : nextNode? emptyCommentTokens =
      some (.other ⟨.identifier, "mod", ⟨0, 3⟩⟩ ⟨0, 3⟩, emptyCommentTokens.tail) := by cbv
  have hnext' : nextNode? emptyCommentTokens.tail =
      some (.named ⟨.enum, "E", "", ⟨6, 16⟩⟩, []) := by cbv
  have hproblem : (audit "" false emptyCommentText).problem? =
      some (.finding ⟨.named .enum, "E", ⟨6, 16⟩, .undocumented, some ⟨2, 3⟩⟩) := by
    rw [audit_problem?_of_tokenize htokens, outline_of_nextNode? hnext, outline_of_nextNode? hnext',
      outline_nil]
    decide
  obtain ⟨ts, nodes, hts, hnodes, hplaced⟩ := audit_problem?_isPlaced emptyCommentText
  obtain rfl : emptyCommentTokens = ts := Except.ok.inj (htokens.symm.trans hts)
  obtain ⟨f, _, docs, place, hf, _, _, _, h, hplace, hfollows⟩ := hplaced "" false _ hproblem
  obtain rfl := Problem.finding.inj hf
  obtain rfl := Option.some.inj hplace
  exact ⟨hproblem, ⟨docs, h⟩, hfollows⟩

end DocAudit
