import DocAudit.Documentation.Rule
import Mathlib.Data.List.Basic

namespace DocAudit

/-!
# Complete documentation, and the first gap

What complete documentation is, said without the order in which the rules are tried, and that
`firstFinding?` finds nothing exactly if all is complete, else the first gap.

* `Function.Complete`, `Node.Complete` — the documentation that is asked for;
* `Function.Breaks`, `Node.Breaks` — a rule that is broken while all rules before it hold;
* `Function.gap?_eq_some_iff`, `Node.finding?_eq_some_iff` — one declaration;
* `firstFinding?_reports_first` — a list of nodes.
-/

open Documentation

/-! ### Words in a text -/

theorem occursIn_iff {word cs : List Char} : occursIn word cs = true ↔ word <:+: cs := by
  induction cs with
  | nil => simp [occursIn]
  | cons c rest ih =>
    rw [occursIn, Bool.or_eq_true, ih, List.isPrefixOf_iff_prefix, List.infix_cons_iff]

/-- The text holds a stretch that reads `return`, in any case. -/
def MentionsReturning (docs : String) : Prop :=
  ∃ stretch, stretch <:+: docs.toList ∧ stretch.map Char.toLower = "return".toList

theorem mentionsReturn_iff {docs : String} :
    mentionsReturn docs = true ↔ MentionsReturning docs := by
  rw [mentionsReturn, occursIn_iff, List.infix_map_iff]
  exact exists_congr fun stretch => and_congr_right fun _ => eq_comm

/-- The text is ASCII throughout. -/
def IsAscii (docs : String) : Prop :=
  ∀ c ∈ docs.toList, c.toNat < 0x80

theorem all_toNat_lt_iff {docs : String} :
    docs.toList.all (·.toNat < 0x80) = true ↔ IsAscii docs := by
  simp only [List.all_eq_true, decide_eq_true_eq, IsAscii]

/-! ### Functions -/

namespace Function

variable {f : Function} {gap : Gap} {a : String}

/-- An argument needs a bullet, unless it is the receiver. -/
def Documents (f : Function) (a : String) : Prop :=
  a = receiverName ∨ a ∈ documentedNames f.docs.toList

/-- The documentation is there, in ASCII, and mentions returning exactly if there is a return type. -/
structure Worded (f : Function) : Prop where
  /-- There is documentation. -/
  documented : f.docs ≠ ""
  /-- It is ASCII. -/
  ascii : IsAscii f.docs
  /-- It mentions returning exactly if there is a return type. -/
  returning : MentionsReturning f.docs ↔ f.returnsNothing = false

/-- The documentation of the function fits its signature. -/
structure Complete (f : Function) : Prop extends f.Worded where
  /-- Every argument but the receiver has a bullet. -/
  arguments : ∀ a ∈ f.arguments, f.Documents a
  /-- Every bullet names an argument. -/
  bullets : ∀ name ∈ documentedNames f.docs.toList, name ∈ f.arguments

/-- A rule that the documentation of a function breaks, while it keeps the rules before that one. -/
inductive Breaks (f : Function) : Gap → Prop where
  /-- There is no documentation. -/
  | undocumented (h : f.docs = "") : Breaks f .undocumented
  /-- There is, but it leaves ASCII. -/
  | notAscii (hd : f.docs ≠ "") (h : ¬IsAscii f.docs) : Breaks f .notAscii
  /-- There is a return type that the documentation does not speak of. -/
  | returnMissing (hd : f.docs ≠ "") (ha : IsAscii f.docs) (hr : f.returnsNothing = false)
      (h : ¬MentionsReturning f.docs) : Breaks f .returnMissing
  /-- The documentation speaks of returning without a return type. -/
  | returnSuperfluous (hd : f.docs ≠ "") (ha : IsAscii f.docs) (hr : f.returnsNothing = true)
      (h : MentionsReturning f.docs) : Breaks f .returnSuperfluous
  /-- The first argument without a bullet. -/
  | argumentMissing {before after : List String} {a : String} (hw : f.Worded)
      (hsplit : f.arguments = before ++ a :: after) (hbefore : ∀ b ∈ before, f.Documents b)
      (h : ¬f.Documents a) : Breaks f (.argumentMissing a)
  /-- The first bullet that names no argument, where all arguments have theirs. -/
  | argumentUnknown {before after : List String} {a : String} (hw : f.Worded)
      (ha : ∀ b ∈ f.arguments, f.Documents b)
      (hsplit : documentedNames f.docs.toList = before ++ a :: after)
      (hbefore : ∀ b ∈ before, b ∈ f.arguments) (h : a ∉ f.arguments) :
      Breaks f (.argumentUnknown a)

/-- The first argument without a bullet. -/
def missing? (f : Function) : Option String :=
  f.arguments.find? fun a => a != receiverName && !(documentedNames f.docs.toList).contains a

/-- The first bullet that names no argument. -/
def unknown? (f : Function) : Option String :=
  (documentedNames f.docs.toList).find? fun name => !f.arguments.contains name

theorem not_documents_iff :
    (a != receiverName && !(documentedNames f.docs.toList).contains a) = true ↔ ¬f.Documents a := by
  simp [Documents]

theorem missing?_eq_none_iff : f.missing? = none ↔ ∀ b ∈ f.arguments, f.Documents b := by
  simp only [missing?, List.find?_eq_none, not_documents_iff, not_not]

theorem missing?_eq_some_iff : f.missing? = some a ↔
    ¬f.Documents a ∧ ∃ before after, f.arguments = before ++ a :: after ∧
      ∀ b ∈ before, f.Documents b := by
  simp only [missing?, List.find?_eq_some_iff_append, not_documents_iff, Bool.not_eq_true',
    Bool.eq_false_iff, ne_eq, not_not]

theorem unknown?_eq_none_iff :
    f.unknown? = none ↔ ∀ b ∈ documentedNames f.docs.toList, b ∈ f.arguments := by
  simp [unknown?, List.find?_eq_none]

theorem unknown?_eq_some_iff : f.unknown? = some a ↔
    a ∉ f.arguments ∧ ∃ before after, documentedNames f.docs.toList = before ++ a :: after ∧
      ∀ b ∈ before, b ∈ f.arguments := by
  simp only [unknown?, List.find?_eq_some_iff_append, Bool.not_eq_true', List.contains_eq_mem,
    decide_eq_false_iff_not, Bool.not_not, decide_eq_true_eq]

/-- The wording is right, or one of its rules is broken, and that is the gap. -/
theorem worded_or (f : Function) : f.Worded ∨ ∃ gap, f.gap? = some gap ∧ f.Breaks gap := by
  by_cases hd : f.docs = ""
  · exact .inr ⟨.undocumented, by simp [gap?, hd], .undocumented hd⟩
  have hd' : f.docs.isEmpty = false := by simpa using hd
  by_cases ha : IsAscii f.docs
  · have ha' := all_toNat_lt_iff.2 ha
    by_cases hm : MentionsReturning f.docs <;> cases hr : f.returnsNothing
    · exact .inl ⟨hd, ha, by simp [hm, hr]⟩
    · have hm' := mentionsReturn_iff.2 hm
      exact .inr ⟨.returnSuperfluous, by simp [gap?, hd', ha', hm', hr],
        .returnSuperfluous hd ha hr hm⟩
    · have hm' := Bool.eq_false_iff.2 (mt mentionsReturn_iff.1 hm)
      exact .inr ⟨.returnMissing, by simp [gap?, hd', ha', hm', hr], .returnMissing hd ha hr hm⟩
    · exact .inl ⟨hd, ha, by simp [hm, hr]⟩
  · have ha' := Bool.eq_false_iff.2 (mt all_toNat_lt_iff.1 ha)
    exact .inr ⟨.notAscii, by simp [gap?, hd', ha'], .notAscii hd ha⟩

/-- With the wording right, the gap is the first argument without a bullet, else the first bullet
    without an argument. -/
theorem Worded.gap?_eq (hw : f.Worded) :
    f.gap? = (f.missing?.map Gap.argumentMissing).or (f.unknown?.map Gap.argumentUnknown) := by
  have hd : f.docs.isEmpty = false := by simpa using hw.documented
  have ha := all_toNat_lt_iff.2 hw.ascii
  have hr : mentionsReturn f.docs = !f.returnsNothing := by
    rw [Bool.eq_iff_iff, mentionsReturn_iff, hw.returning, Bool.not_eq_true']
  cases h : f.returnsNothing <;> simp [gap?, missing?, unknown?, hd, ha, hr, h]

/-- **No gap is found exactly in complete documentation.** -/
theorem gap?_eq_none_iff : f.gap? = none ↔ f.Complete := by
  constructor
  · intro h
    obtain hw | ⟨gap, hgap, _⟩ := f.worded_or
    · rw [hw.gap?_eq, Option.or_eq_none_iff, Option.map_eq_none_iff, Option.map_eq_none_iff] at h
      exact ⟨hw, missing?_eq_none_iff.1 h.1, unknown?_eq_none_iff.1 h.2⟩
    · rw [hgap] at h
      cases h
  · intro h
    rw [h.toWorded.gap?_eq, missing?_eq_none_iff.2 h.arguments, unknown?_eq_none_iff.2 h.bullets]
    rfl

/-- **The gap that is found is the first rule broken.** -/
theorem gap?_eq_some_iff : f.gap? = some gap ↔ f.Breaks gap := by
  constructor
  · intro h
    obtain hw | ⟨gap', hgap, hbreaks⟩ := f.worded_or
    · rw [hw.gap?_eq, Option.or_eq_some_iff] at h
      simp only [Option.map_eq_some_iff, Option.map_eq_none_iff] at h
      rcases h with ⟨a, ha, rfl⟩ | ⟨hnone, a, ha, rfl⟩
      · obtain ⟨hn, before, after, hsplit, hbefore⟩ := missing?_eq_some_iff.1 ha
        exact .argumentMissing hw hsplit hbefore hn
      · obtain ⟨hn, before, after, hsplit, hbefore⟩ := unknown?_eq_some_iff.1 ha
        exact .argumentUnknown hw (missing?_eq_none_iff.1 hnone) hsplit hbefore hn
    · obtain rfl : gap' = gap := Option.some.inj (hgap.symm.trans h)
      exact hbreaks
  · intro h
    cases h with
    | undocumented h => simp [gap?, h]
    | notAscii hd h =>
      have ha := Bool.eq_false_iff.2 (mt all_toNat_lt_iff.1 h)
      simp [gap?, hd, ha]
    | returnMissing hd ha hr h =>
      have hm := Bool.eq_false_iff.2 (mt mentionsReturn_iff.1 h)
      simp [gap?, hd, all_toNat_lt_iff.2 ha, hr, hm]
    | returnSuperfluous hd ha hr h =>
      simp [gap?, hd, all_toNat_lt_iff.2 ha, hr, mentionsReturn_iff.2 h]
    | argumentMissing hw hsplit hbefore h =>
      rw [hw.gap?_eq, missing?_eq_some_iff.2 ⟨h, _, _, hsplit, hbefore⟩]
      rfl
    | argumentUnknown hw ha hsplit hbefore h =>
      rw [hw.gap?_eq, missing?_eq_none_iff.2 ha, unknown?_eq_some_iff.2 ⟨h, _, _, hsplit, hbefore⟩]
      rfl

end Function

/-! ### Nodes -/

variable {nodes : List Node} {finding : Finding}

theorem undocumented?_eq_none_iff {subject : Subject} {name docs : String} {span : Span} :
    undocumented? subject name docs span = none ↔ docs ≠ "" := by
  simp [undocumented?]

theorem undocumented?_eq_some_iff {subject : Subject} {name docs : String} {span : Span} :
    undocumented? subject name docs span = some finding ↔
      docs = "" ∧ finding = { subject, name, span, gap := .undocumented } := by
  simp only [undocumented?, String.isEmpty_iff, Option.ite_none_right_eq_some, Option.some.injEq]
  exact and_congr_right fun _ => eq_comm

namespace Node

variable {node : Node}

/-- The documentation of the node is complete.  Single tokens and fields on their own need none. -/
def Complete : Node → Prop
  | .struct s => s.docs ≠ "" ∧ ∀ f ∈ s.fields, f.docs ≠ ""
  | .function f => f.Complete
  | .named n => n.docs ≠ ""
  | .other _ _ => True
  | .field _ => True
  | .blank _ => True

/-- The finding about the first rule that the documentation of a node breaks. -/
inductive Breaks : Node → Finding → Prop where
  /-- A struct without documentation. -/
  | struct {s : Struct} (h : s.docs = "") :
      Breaks (.struct s) { subject := .struct, name := s.name, span := s.span, gap := .undocumented }
  /-- The first field without documentation, in a struct that has some. -/
  | field {s : Struct} {before after : List Field} {f : Field} (hd : s.docs ≠ "")
      (hsplit : s.fields = before ++ f :: after) (hbefore : ∀ b ∈ before, b.docs ≠ "")
      (h : f.docs = "") :
      Breaks (.struct s) { subject := .field, name := f.name, span := f.span, gap := .undocumented }
  /-- A function. -/
  | function {f : Function} {gap : Gap} (h : f.Breaks gap) :
      Breaks (.function f) { subject := .function, name := f.name, span := f.span, gap }
  /-- An enumeration, a trait or a constant without documentation. -/
  | named {n : Named} (h : n.docs = "") :
      Breaks (.named n)
        { subject := .named n.kind, name := n.name, span := n.span, gap := .undocumented }

theorem finding?_eq_none_iff : node.finding? = none ↔ node.Complete := by
  cases node with
  | struct s =>
    simp only [finding?, Struct.ownFinding?, Struct.fieldFinding?, Option.or_eq_none_iff,
      List.findSome?_eq_none_iff, undocumented?_eq_none_iff, Complete]
  | function f =>
    simp only [finding?, Function.finding?, Option.map_eq_none_iff, Function.gap?_eq_none_iff,
      Complete]
  | named n => exact undocumented?_eq_none_iff
  | other _ _ => exact iff_of_true rfl trivial
  | field _ => exact iff_of_true rfl trivial
  | blank _ => exact iff_of_true rfl trivial

theorem finding?_eq_some_iff : node.finding? = some finding ↔ node.Breaks finding := by
  constructor
  · intro h
    cases node with
    | struct s =>
      simp only [finding?, Struct.ownFinding?, Struct.fieldFinding?, Option.or_eq_some_iff,
        List.findSome?_eq_some_iff, undocumented?_eq_some_iff, undocumented?_eq_none_iff] at h
      rcases h with ⟨hd, rfl⟩ | ⟨hd, before, f, after, hsplit, ⟨hf, rfl⟩, hbefore⟩
      · exact .struct hd
      · exact .field hd hsplit hbefore hf
    | function f =>
      obtain ⟨gap, hgap, rfl⟩ := Option.map_eq_some_iff.1 h
      exact .function (Function.gap?_eq_some_iff.1 hgap)
    | named n =>
      obtain ⟨hd, rfl⟩ := undocumented?_eq_some_iff.1 h
      exact .named hd
    | other _ _ => cases h
    | field _ => cases h
    | blank _ => cases h
  · intro h
    cases h with
    | struct h =>
      exact Option.or_eq_some_iff.2 (.inl (undocumented?_eq_some_iff.2 ⟨h, rfl⟩))
    | field hd hsplit hbefore h =>
      refine Option.or_eq_some_iff.2 (.inr ⟨undocumented?_eq_none_iff.2 hd, ?_⟩)
      exact List.findSome?_eq_some_iff.2 ⟨_, _, _, hsplit, undocumented?_eq_some_iff.2 ⟨h, rfl⟩,
        fun b hb => undocumented?_eq_none_iff.2 (hbefore b hb)⟩
    | function h => exact Option.map_eq_some_iff.2 ⟨_, Function.gap?_eq_some_iff.2 h, rfl⟩
    | named h => exact undocumented?_eq_some_iff.2 ⟨h, rfl⟩

end Node

/-! ### Lists of nodes -/

/-- **The first gap is reported.** Nothing is found in a list of nodes exactly if all are complete.
    Else the finding is about the first rule that the first incomplete node breaks, whatever stands
    behind that node. -/
theorem firstFinding?_reports_first (nodes : List Node) :
    (firstFinding? nodes = none ↔ ∀ node ∈ nodes, node.Complete) ∧
    ∀ finding, firstFinding? nodes = some finding ↔
      ∃ before node after, nodes = before ++ node :: after ∧ node.Breaks finding ∧
        ∀ n ∈ before, n.Complete := by
  simp only [firstFinding?, List.findSome?_eq_none_iff, List.findSome?_eq_some_iff,
    Node.finding?_eq_none_iff, Node.finding?_eq_some_iff, implies_true, and_self]

end DocAudit
