import DocAudit.Proofs.Audit.Verdict
import DocAudit.Proofs.Declaration.Names
import DocAudit.Proofs.Text.LineFeeds
import DocAudit.Proofs.Token.Strict

namespace DocAudit

/-!
# Lines of a listing

A listing has a title line, a rule and an empty line, and what it shows in between.  Names hold no line
feed and documentation is quoted, so a declaration is shown on one line.  A documentation block is shown
as it stands in the text, with its line feeds.

* `Token.SpelledIn.count_describe` — a token is shown with the line feeds that it covers;
* `Node.count_describe` — a node with those of the token that was passed through, if it is one;
* `IsLineByLine`, `isLineByLine_listing_iff` — a listing that takes one line for each entry;
* `listing_lines` — the lines of a listing, and when it takes one for each entry.
-/

open Text

variable {source chars after text : List Char} {ts : List Token} {t : Token} {node : Node} {e : Entry}
  {entries : List Entry} {title : String}

/-! ### Tokens -/

/-- Trimming adds nothing. -/
theorem Text.Stripped.subset {cs : List Char} (h : Stripped cs text) : text ⊆ cs := by
  obtain ⟨_, _, _, _⟩ := h
  simp

/-- The characters that the span covers in the text. -/
def Span.covered (s : Span) (source : List Char) : List Char :=
  (source.take s.stop.toNat).drop s.start.toNat

theorem Token.SpelledIn.spells_covered (h : t.SpelledIn source) :
    ∃ after, source.drop t.span.start.toNat = t.span.covered source ++ after ∧
      Spells t.kind t.text.toList (t.span.covered source) after := by
  obtain ⟨before, chars, after, rfl, hspan, hs⟩ := h
  have hcovered : t.span.covered (before ++ chars ++ after) = chars := by
    have hstop : ((before.length : Int) + chars.length).toNat = (before ++ chars).length := by
      rw [List.length_append]
      omega
    simp only [Span.covered, hspan, hstop, Int.toNat_natCast]
    rw [List.take_left, List.drop_left]
  refine ⟨after, ?_, by rwa [hcovered]⟩
  rw [hcovered, hspan, Int.toNat_natCast, List.append_assoc, List.drop_left]

/-- A token that covers a line feed is a documentation block. -/
theorem Spells.block_of_lineFeed {kind : TokenKind} (h : Spells kind text chars after)
    (hmem : '\n' ∈ chars) : kind = .comment ∧ StartsBlock (chars ++ after) := by
  cases h with
  | lineComment hrun =>
    -- A line comment ends in front of the line feed.
    exact absurd (hrun.all '\n' (by simpa using hmem)) (by decide)
  | @blockComment marker _ _ hm => exact ⟨rfl, marker, text, after, hm, by simp⟩
  | arrow => simp at hmem
  | delimiter hc =>
    rw [← List.mem_singleton.1 hmem] at hc
    exact absurd hc (by decide)
  | word hc hrun =>
    rcases List.mem_cons.1 hmem with rfl | hmore
    · exact absurd hc (by decide)
    · exact absurd (hrun.all '\n' hmore) (by decide)
  | single hb =>
    rw [← List.mem_singleton.1 hmem] at hb
    exact absurd hb (by decide)

theorem Spells.lineFeed_not_mem {kind : TokenKind} (h : Spells kind text chars after)
    (hkind : kind ≠ .comment) : '\n' ∉ chars :=
  fun hmem => hkind (h.block_of_lineFeed hmem).1

/-- What a token records holds the line feeds that the token covers. -/
theorem Spells.count_lineFeed {kind : TokenKind} (h : Spells kind text chars after) :
    text.count '\n' = chars.count '\n' := by
  cases h with
  | @lineComment body _ _ hrun ht =>
    have hbody : '\n' ∉ body := fun hmem => by simpa using hrun.all '\n' hmem
    have hmarker : '\n' ∉ Lexeme.dropMarker body := by
      cases body with
      | nil => exact hbody
      | cons c body =>
        rw [Lexeme.dropMarker]
        split
        · exact fun hmem => hbody (List.mem_cons_of_mem c hmem)
        · exact hbody
    have htext : '\n' ∉ text := fun hmem => hmarker (ht.subset hmem)
    rw [List.count_eq_zero_of_not_mem htext, List.count_eq_zero_of_not_mem (by simpa using hbody)]
  | @blockComment marker _ _ hm =>
    have hmarker : marker ≠ '\n' := by
      rintro rfl
      simp at hm
    simp [hmarker]
  | arrow => rfl
  | delimiter => rfl
  | word => rfl
  | single => rfl

theorem TokenKind.lineFeed_not_mem_title (kind : TokenKind) : '\n' ∉ kind.title.toList := by
  cases kind <;> decide

/-- A token is shown with the line feeds that it covers. -/
theorem Token.SpelledIn.count_describe (h : t.SpelledIn source) :
    t.describe.toList.count '\n' = (t.span.covered source).count '\n' := by
  obtain ⟨after, _, hs⟩ := h.spells_covered
  have htitle : t.kind.title.toList.count '\n' = 0 :=
    List.count_eq_zero_of_not_mem t.kind.lineFeed_not_mem_title
  have hquoted : (quoted t.text).toList.count '\n' = 0 :=
    List.count_eq_zero_of_not_mem (lineFeed_not_mem_quoted t.text)
  rw [describe]
  split
  case _ hkind | _ hkind =>
    have hnone : '\n' ∉ t.span.covered source := hs.lineFeed_not_mem (by rw [hkind]; decide)
    rw [List.count_eq_zero_of_not_mem hnone]
    simp [ToString.toString, htitle, hquoted]
  case _ =>
    rw [← hs.count_lineFeed]
    simp [ToString.toString, htitle]

/-- Where a token covers a line feed, a documentation block starts in the text. -/
theorem Token.SpelledIn.block_of_covered (h : t.SpelledIn source)
    (hcount : (t.span.covered source).count '\n' ≠ 0) :
    t.kind = .comment ∧ StartsBlock (source.drop t.span.start.toNat) := by
  obtain ⟨after, hdrop, hs⟩ := h.spells_covered
  rw [hdrop]
  exact hs.block_of_lineFeed (List.count_pos_iff.1 (Nat.pos_of_ne_zero hcount))

/-! ### Nodes -/

/-- A word of a text holds no line feed. -/
theorem IsNameIn.lineFeed_not_mem {name : String} (h : IsNameIn ts name)
    (hts : ∀ t ∈ ts, t.SpelledIn source) : '\n' ∉ name.toList := by
  obtain ⟨t, ht, hword, rfl⟩ := h
  obtain ⟨after, _, hs⟩ := (hts t ht).spells_covered
  have hkind : t.kind ≠ .comment := by
    rintro hkind
    simp [Token.isIdentifier, hkind] at hword
  rw [← List.count_eq_zero, hs.count_lineFeed, List.count_eq_zero]
  exact hs.lineFeed_not_mem hkind

theorem lineFeed_not_mem_nameList {names : List String} (h : ∀ name ∈ names, '\n' ∉ name.toList) :
    '\n' ∉ (nameList names).toList := by
  have hnames : '\n' ∉ (", ".intercalate (names.map fun name => s!"\"{name}\"")).toList := by
    refine lineFeed_not_mem_intercalate (by decide) ?_
    rw [List.forall_mem_map]
    intro name hname
    simp [ToString.toString, h name hname]
  rw [nameList, String.toList_append, String.toList_append]
  simp only [List.mem_append, hnames, or_false, not_or]
  decide

-- The definition unfolds to these equations.  Those that `simp` derives from it take too long.
theorem Node.describe_struct (s : Struct) : (Node.struct s).describe =
    "Struct(name=\"" ++ s.name ++ "\", fields=" ++ nameList (s.fields.map Field.name) ++ ", docs=" ++
      quoted s.docs ++ ")" := rfl

theorem Node.describe_function (f : Function) : (Node.function f).describe =
    "Function(name=\"" ++ f.name ++ "\", args=" ++ nameList f.arguments ++ ", " ++
      ("void_return=" ++ truthWord f.returnsNothing ++ ", docs=" ++ quoted f.docs ++ ")") := rfl

theorem Node.describe_named (d : Named) : (Node.named d).describe =
    d.kind.title ++ "(name=\"" ++ d.name ++ "\", docs=" ++ quoted d.docs ++ ")" := rfl

theorem Node.describe_other (t : Token) (span : Span) :
    (Node.other t span).describe = "Other(" ++ t.describe ++ ")" := rfl

theorem Struct.lineFeed_not_mem_describe {s : Struct} (h : (Node.struct s).MadeOf ts)
    (hts : ∀ t ∈ ts, t.SpelledIn source) : '\n' ∉ (Node.struct s).describe.toList := by
  have hname := h.1.lineFeed_not_mem hts
  have hfields : '\n' ∉ (nameList (s.fields.map Field.name)).toList := by
    refine lineFeed_not_mem_nameList ?_
    rw [List.forall_mem_map]
    exact fun f hf => (h.2 f hf).lineFeed_not_mem hts
  have hdocs := lineFeed_not_mem_quoted s.docs
  simp [Node.describe_struct, hname, hfields, hdocs]

theorem Function.lineFeed_not_mem_describe {f : Function} (h : (Node.function f).MadeOf ts)
    (hts : ∀ t ∈ ts, t.SpelledIn source) : '\n' ∉ (Node.function f).describe.toList := by
  have hname := h.1.lineFeed_not_mem hts
  have harguments : '\n' ∉ (nameList f.arguments).toList := by
    refine lineFeed_not_mem_nameList fun a ha => ?_
    rcases h.2 a ha with rfl | hword
    · decide
    · exact hword.lineFeed_not_mem hts
  have hdocs := lineFeed_not_mem_quoted f.docs
  have hword : '\n' ∉ (truthWord f.returnsNothing).toList := by
    cases f.returnsNothing <;> decide
  simp [Node.describe_function, hname, harguments, hword, hdocs]

theorem Named.lineFeed_not_mem_describe {d : Named} (h : (Node.named d).MadeOf ts)
    (hts : ∀ t ∈ ts, t.SpelledIn source) : '\n' ∉ (Node.named d).describe.toList := by
  have hname := IsNameIn.lineFeed_not_mem h hts
  have hdocs := lineFeed_not_mem_quoted d.docs
  have hkind : '\n' ∉ d.kind.title.toList := by
    cases d.kind <;> decide
  simp [Node.describe_named, hname, hkind, hdocs]

/-- The token that the entry shows: itself, or the one that was passed through. -/
def Entry.token? : Entry → Option Token
  | .token t => some t
  | .node (.other t _) => some t
  | .node _ => none

/-- How many line feeds of the text the token of the entry covers. -/
def Entry.breaks (source : List Char) (e : Entry) : Nat :=
  (e.token?.map fun t => (t.span.covered source).count '\n').getD 0

/-- A node is shown with the line feeds of the token that was passed through, if it is one. -/
theorem Node.count_describe (h : node.MadeOf ts) (hts : ∀ t ∈ ts, t.SpelledIn source) :
    node.describe.toList.count '\n' = (Entry.node node).breaks source := by
  cases node with
  | struct s => exact List.count_eq_zero_of_not_mem (Struct.lineFeed_not_mem_describe h hts)
  | function f => exact List.count_eq_zero_of_not_mem (Function.lineFeed_not_mem_describe h hts)
  | named d => exact List.count_eq_zero_of_not_mem (Named.lineFeed_not_mem_describe h hts)
  | other t span =>
    have ht := (hts t h).count_describe
    simp [describe_other, ht, Entry.breaks, Entry.token?]
  | field f => exact h.elim
  | blank span => exact h.elim

/-! ### Entries -/

/-- The entries are the tokens of the text, or the nodes of its outline. -/
inductive Listed (source : List Char) : List Entry → Prop where
  | tokens {catchAll : Bool} {ts : List Token} (h : tokenize catchAll source = .ok ts) :
      Listed source (ts.map .token)
  | nodes {nodes : List Node} (h : outlineOfSource? source = .ok nodes) :
      Listed source (nodes.map .node)

/-- The entry is made of the tokens. -/
def Entry.MadeOf (ts : List Token) : Entry → Prop
  | .token t => t ∈ ts
  | .node n => n.MadeOf ts

theorem Entry.mem_of_token? (h : e.MadeOf ts) (ht : e.token? = some t) : t ∈ ts := by
  cases e with
  | token u => exact Option.some.inj ht ▸ h
  | node n =>
    cases n with
    | other u span => exact Option.some.inj ht ▸ h
    | _ => cases ht

/-- An entry is shown with the line feeds that its token covers. -/
theorem Entry.count_describe (h : e.MadeOf ts) (hts : ∀ t ∈ ts, t.SpelledIn source) :
    e.describe.toList.count '\n' = e.breaks source := by
  cases e with
  | token t => exact (hts t h).count_describe
  | node n => exact n.count_describe h hts

/-- What is listed is made of tokens that the text spells. -/
theorem Listed.exists_madeOf (h : Listed source entries) :
    ∃ ts, (∀ t ∈ ts, t.SpelledIn source) ∧ ∀ e ∈ entries, e.MadeOf ts := by
  obtain ⟨ts, hts, hcut⟩ := exists_tokenize source
  refine ⟨ts, fun t ht => (hcut.spelledIn t ht).2, ?_⟩
  cases h with
  | tokens h =>
    obtain rfl := Except.ok.inj (hts.symm.trans (tokenize_true_of_ok h))
    rw [List.forall_mem_map]
    exact fun t ht => ht
  | nodes h =>
    obtain rfl := Except.ok.inj ((outlineOfSource?_of_tokenize hts).symm.trans h)
    rw [List.forall_mem_map]
    exact fun node hnode => madeOf_of_mem_outline hnode

/-! ### Lines -/

/-- What the line of an entry starts with: the place where the entry starts in the text. -/
def Entry.tag (source : List Char) (e : Entry) : List Char :=
  let place := Position.ofOffset source e.span.start
  s!"[line {place.line}, column {place.column}] ".toList

theorem Entry.toList_line (source : List Char) (e : Entry) :
    (e.line source).toList = e.tag source ++ e.describe.toList := by
  show (s!"[line {_}, column {_}] " ++ e.describe).toList = _
  rw [String.toList_append]
  rfl

theorem Entry.lineFeed_not_mem_tag (source : List Char) (e : Entry) : '\n' ∉ e.tag source := by
  have hdigits := lineFeed_not_mem_toDigits (show 1 < 10 by decide)
  simp [tag, ToString.toString, hdigits]

/-- The lines that show an entry. -/
structure Entry.ShownBy (source : List Char) (e : Entry) (block : List (List Char)) : Prop where
  /-- They hold the place of the entry and its description. -/
  chars : joinedLines block = e.tag source ++ e.describe.toList ++ ['\n']
  /-- None of them is broken. -/
  lines : ∀ line ∈ block, '\n' ∉ line
  /-- The first one starts with the place. -/
  tag : ∃ first more, block = (e.tag source ++ first) :: more
  /-- There is one more than the token of the entry covers line feeds. -/
  length : block.length = e.breaks source + 1

theorem Entry.exists_shownBy (h : e.describe.toList.count '\n' = e.breaks source) :
    ∃ block, e.ShownBy source block := by
  obtain ⟨first, more, hchars, hlines, hlength⟩ :=
    exists_lines (e.lineFeed_not_mem_tag source) e.describe.toList
  exact ⟨_, hchars, hlines, ⟨first, more, rfl⟩, by rw [List.length_cons, hlength, h]⟩

theorem joinedLines_map_toList (lines : List String) :
    joinedLines (lines.map String.toList) = (joinLines lines).toList := by
  simp [joinLines, joinedLines, String.toList_join, List.flatMap_map]

/-- The entries of a text are shown by blocks of lines, one block for each. -/
theorem exists_blocks (h : ∀ e ∈ entries, e.describe.toList.count '\n' = e.breaks source) :
    ∃ blocks, List.Forall₂ (Entry.ShownBy source) entries blocks ∧
      joinedLines blocks.flatten = joinedLines (entries.map fun e => (e.line source).toList) := by
  induction entries with
  | nil => exact ⟨[], .nil, rfl⟩
  | cons e entries ih =>
    rw [List.forall_mem_cons] at h
    obtain ⟨block, hblock⟩ := Entry.exists_shownBy h.1
    obtain ⟨blocks, hblocks, hchars⟩ := ih h.2
    refine ⟨block :: blocks, .cons hblock hblocks, ?_⟩
    rw [List.flatten_cons, joinedLines_append, hblock.chars, hchars, List.map_cons, joinedLines_cons,
      e.toList_line]
    simp

/-- The lines of a listing: the title, the lines of the entries, the rule and an empty line. -/
def framed (title : String) (lines : List (List Char)) : List (List Char) :=
  (title ++ ":").toList :: lines ++ [listingRule.toList, []]

theorem length_framed (title : String) (lines : List (List Char)) :
    (framed title lines).length = lines.length + 3 := by
  simp [framed]

theorem lineFeed_not_mem_framed_iff {lines : List (List Char)} :
    (∀ line ∈ framed title lines, '\n' ∉ line) ↔
      '\n' ∉ title.toList ∧ ∀ line ∈ lines, '\n' ∉ line := by
  have htitle : '\n' ∉ (title ++ ":").toList ↔ '\n' ∉ title.toList := by simp
  have hend : ∀ line ∈ [listingRule.toList, []], '\n' ∉ line := by decide
  rw [framed, List.cons_append, List.forall_mem_cons, List.forall_mem_append, htitle]
  exact and_congr_right' (and_iff_left hend)

theorem joinedLines_framed (lines : List (List Char)) :
    joinedLines (framed title lines) =
      joinedLines [(title ++ ":").toList] ++ joinedLines lines ++
        joinedLines [listingRule.toList, []] := by
  rw [← joinedLines_append, ← joinedLines_append]
  rfl

theorem toList_listing (title : String) (source : List Char) (entries : List Entry) :
    (listing title source entries).toList =
      joinedLines (framed title (entries.map fun e => (e.line source).toList)) := by
  rw [listing, ← joinedLines_map_toList]
  show joinedLines (List.map _ ((title ++ ":") :: entries.map (Entry.line source) ++ _)) = _
  simp [framed, Function.comp_def]

/-- What is printed is a title line, a line for each entry, which starts with the place of the entry, a
    rule and an empty line. -/
def IsLineByLine (title : String) (source : List Char) (entries : List Entry) (printed : String) :
    Prop :=
  ∃ lines, printed.toList = joinedLines (framed title lines) ∧
    (∀ line ∈ framed title lines, '\n' ∉ line) ∧
    List.Forall₂ (fun e line => e.tag source <+: line) entries lines

/-- A listing takes one line for each entry just if neither the title nor a description is broken. -/
theorem isLineByLine_listing_iff :
    IsLineByLine title source entries (listing title source entries) ↔
      '\n' ∉ title.toList ∧ ∀ e ∈ entries, '\n' ∉ e.describe.toList := by
  have hline (e : Entry) : '\n' ∉ (e.line source).toList ↔ '\n' ∉ e.describe.toList := by
    rw [e.toList_line, List.mem_append, not_or]
    exact and_iff_right (e.lineFeed_not_mem_tag source)
  have hframed : (∀ line ∈ framed title (entries.map fun e => (e.line source).toList), '\n' ∉ line) ↔
      '\n' ∉ title.toList ∧ ∀ e ∈ entries, '\n' ∉ e.describe.toList := by
    simp only [lineFeed_not_mem_framed_iff, List.forall_mem_map, hline]
  rw [← hframed]
  constructor
  · -- The lines of the entries have as many line feeds as there are lines in the listing.
    rintro ⟨lines, hprinted, hlines, hentries⟩
    rw [← count_joinedLines_eq_length_iff, ← toList_listing, hprinted,
      count_joinedLines_eq_length_iff.2 hlines, length_framed, length_framed, List.length_map,
      hentries.length_eq]
  · intro hlines
    refine ⟨_, toList_listing title source entries, hlines, ?_⟩
    rw [List.forall₂_map_right_iff, List.forall₂_same]
    intro e _
    rw [e.toList_line]
    exact List.prefix_append _ _

/-- **The lines of a listing.**  Each entry is shown by a block of lines of its own, in order, with a line
    more for each line feed that its token covers in the text.  So there is one line for each entry just
    if no token covers one, and only documentation blocks do. -/
theorem listing_lines (title : String) (h : Listed source entries) :
    (∃ blocks, List.Forall₂ (Entry.ShownBy source) entries blocks ∧
      (listing title source entries).toList = joinedLines (framed title blocks.flatten)) ∧
    (IsLineByLine title source entries (listing title source entries) ↔
      '\n' ∉ title.toList ∧ ∀ e ∈ entries, e.breaks source = 0) ∧
    ∀ e ∈ entries, e.breaks source ≠ 0 →
      ∃ t, e.token? = some t ∧ t.kind = .comment ∧ StartsBlock (source.drop t.span.start.toNat) := by
  obtain ⟨ts, hts, hmade⟩ := h.exists_madeOf
  have hcount : ∀ e ∈ entries, e.describe.toList.count '\n' = e.breaks source :=
    fun e he => e.count_describe (hmade e he) hts
  refine ⟨?_, ?_, fun e he hbreaks => ?_⟩
  · obtain ⟨blocks, hblocks, hchars⟩ := exists_blocks hcount
    refine ⟨blocks, hblocks, ?_⟩
    rw [toList_listing, joinedLines_framed, joinedLines_framed, hchars]
  · rw [isLineByLine_listing_iff]
    refine and_congr_right' (forall₂_congr fun e he => ?_)
    rw [← hcount e he, List.count_eq_zero]
  · cases ht : e.token? with
    | none => simp [Entry.breaks, ht] at hbreaks
    | some t =>
      have hcovered : (t.span.covered source).count '\n' ≠ 0 := by simpa [Entry.breaks, ht] using hbreaks
      have hspelled : t.SpelledIn source := hts t (Entry.mem_of_token? (hmade e he) ht)
      exact ⟨t, rfl, hspelled.block_of_covered hcovered⟩

/-! ### A comment over two lines -/

/-- A text that is a documentation block over two lines. -/
def noteText : List Char :=
  "/** a\nb */".toList

/-- The token of that text. -/
def note : Token :=
  ⟨.comment, " a\nb ", ⟨0, 10⟩⟩

theorem tokenize_noteText : tokenize true noteText = .ok [note] := by cbv

/-- Its listing has a block of two lines for it. -/
theorem listing_noteText :
    Listed noteText [.token note] ∧ (Entry.token note).breaks noteText = 1 ∧
    (∃ blocks, List.Forall₂ (Entry.ShownBy noteText) [.token note] blocks ∧
      (listing "parsed tokens" noteText [.token note]).toList =
        joinedLines (framed "parsed tokens" blocks.flatten)) ∧
    StartsBlock noteText := by
  have hlisted : Listed noteText [.token note] := .tokens tokenize_noteText
  have hbreaks : (Entry.token note).breaks noteText = 1 := by decide
  obtain ⟨hblocks, _, hcomment⟩ := listing_lines "parsed tokens" hlisted
  obtain ⟨t, ht, _, hstarts⟩ := hcomment (.token note) (by simp) (by rw [hbreaks]; decide)
  obtain rfl : note = t := Option.some.inj ht
  exact ⟨hlisted, hbreaks, hblocks, hstarts⟩

/-- **The listings of that text are broken**, the one of its tokens and the one of its nodes: there is a
    line more than the title, one line for the entry, the rule and an empty line. -/
theorem listing_breaks_comment :
    tokenize true noteText = .ok [note] ∧
    outlineOfSource? noteText = .ok [.other note note.span] ∧
    ¬IsLineByLine "parsed tokens" noteText [.token note]
      (listing "parsed tokens" noteText [.token note]) ∧
    ¬IsLineByLine "parsed complex tokens" noteText [.node (.other note note.span)]
      (listing "parsed complex tokens" noteText [.node (.other note note.span)]) := by
  have houtline : outlineOfSource? noteText = .ok [.other note note.span] := by
    have hnode : nextNode? [note] = some (.other note note.span, []) := by cbv
    rw [outlineOfSource?_of_tokenize tokenize_noteText, outline_of_nextNode? hnode, outline_nil]
  refine ⟨tokenize_noteText, houtline, fun h => ?_, fun h => ?_⟩
  · obtain ⟨_, hdescribe⟩ := isLineByLine_listing_iff.1 h
    exact hdescribe (.token note) (by simp) (by decide)
  · obtain ⟨_, hdescribe⟩ := isLineByLine_listing_iff.1 h
    exact hdescribe (.node (.other note note.span)) (by simp) (by decide)

end DocAudit
