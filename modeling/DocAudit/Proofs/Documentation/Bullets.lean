import DocAudit.Proofs.Documentation.Completeness
import Mathlib.Data.Finset.Dedup
import Mathlib.Data.Finset.Erase

namespace DocAudit

open Documentation

/-!
# The bullets of a function

Which names the bullets of a function have to give, as sets: neither their order nor their number
counts.

* `Function.bulletNames`, `Function.ownArguments` — the names in bullets, and the arguments but for
  the receiver;
* `Function.complete_iff_between` — the bullets have to name at least the one set and at most the
  other;
* `Function.finding?_eq_none_iff_bulletNames` — so they name the arguments exactly, but for the
  receiver, which may have a bullet or none;
* `Function.receiver_bullet_accepted` — a receiver with a bullet.
-/

namespace Function

variable {f : Function}

/-- The names that the bullets give. -/
def bulletNames (f : Function) : Finset String :=
  (documentedNames f.docs.toList).toFinset

/-- The arguments but for the receiver. -/
def ownArguments (f : Function) : Finset String :=
  f.arguments.toFinset.erase receiverName

theorem ownArguments_subset_bulletNames_iff :
    f.ownArguments ⊆ f.bulletNames ↔ ∀ a ∈ f.arguments, f.Documents a := by
  simp only [Finset.subset_iff, ownArguments, bulletNames, Finset.mem_erase, List.mem_toFinset]
  constructor
  · intro h a ha
    by_cases hr : a = receiverName
    · exact .inl hr
    · exact .inr (h ⟨hr, ha⟩)
  · rintro h a ⟨hr, ha⟩
    exact (h a ha).resolve_left hr

theorem bulletNames_subset_iff :
    f.bulletNames ⊆ f.arguments.toFinset ↔
      ∀ name ∈ documentedNames f.docs.toList, name ∈ f.arguments := by
  simp only [Finset.subset_iff, bulletNames, List.mem_toFinset]

/-- With the wording right, documentation is complete if the bullets name at least the arguments but
    for the receiver, and at most all arguments. -/
theorem complete_iff_between (hw : f.Worded) :
    f.Complete ↔ f.ownArguments ⊆ f.bulletNames ∧ f.bulletNames ⊆ f.arguments.toFinset := by
  rw [ownArguments_subset_bulletNames_iff, bulletNames_subset_iff]
  constructor
  · intro h
    exact ⟨h.arguments, h.bullets⟩
  · rintro ⟨harguments, hbullets⟩
    exact ⟨hw, harguments, hbullets⟩

/-- Between the arguments without the receiver and all of them there is no third set. -/
theorem between_iff {names : Finset String} :
    f.ownArguments ⊆ names ∧ names ⊆ f.arguments.toFinset ↔
      names = f.ownArguments ∨ names = f.arguments.toFinset := by
  constructor
  · rintro ⟨hown, hall⟩
    by_cases hr : receiverName ∈ names
    · -- The receiver is the only argument that the smaller set lacks.
      right
      apply hall.antisymm
      intro a ha
      by_cases h : a = receiverName
      · exact h ▸ hr
      · exact hown (Finset.mem_erase.2 ⟨h, ha⟩)
    · left
      apply Finset.Subset.antisymm _ hown
      intro a ha
      exact Finset.mem_erase.2 ⟨fun h => hr (h ▸ ha), hall ha⟩
  · rintro (rfl | rfl)
    · exact ⟨subset_rfl, Finset.erase_subset _ _⟩
    · exact ⟨Finset.erase_subset _ _, subset_rfl⟩

theorem finding?_eq_none_iff_complete : f.finding? = none ↔ f.Complete := by
  rw [finding?, Option.map_eq_none_iff, gap?_eq_none_iff]

/-- **The bullets name the arguments, and the receiver or not.** Take documentation that is there, in
    ASCII, and mentions returning exactly if there is a return type.  It is accepted if its bullets name
    exactly the arguments but for the receiver, or exactly all arguments.  So acceptance means the first
    of these, unless the function has a receiver and the bullets name it with all other arguments. -/
theorem finding?_eq_none_iff_bulletNames (hw : f.Worded) :
    (f.finding? = none ↔
      f.bulletNames = f.ownArguments ∨ f.bulletNames = f.arguments.toFinset) ∧
    ((f.finding? = none ↔ f.bulletNames = f.ownArguments) ↔
      ¬(receiverName ∈ f.arguments ∧ f.bulletNames = f.arguments.toFinset)) := by
  have haccept : f.finding? = none ↔
      f.bulletNames = f.ownArguments ∨ f.bulletNames = f.arguments.toFinset := by
    rw [finding?_eq_none_iff_complete, complete_iff_between hw, between_iff]
  refine ⟨haccept, ?_⟩
  rw [haccept]
  by_cases hr : receiverName ∈ f.arguments
  · -- The two sets differ, so bullets for all arguments are too many.
    have hne : f.arguments.toFinset ≠ f.ownArguments := by
      intro h
      have hmem : receiverName ∈ f.ownArguments := h ▸ List.mem_toFinset.2 hr
      exact (Finset.mem_erase.1 hmem).1 rfl
    constructor
    · rintro h ⟨_, hall⟩
      exact hne (hall ▸ h.1 (.inr hall))
    · intro h
      exact ⟨fun hor => hor.resolve_right fun hall => h ⟨hr, hall⟩, .inl⟩
  · have heq : f.ownArguments = f.arguments.toFinset :=
      Finset.erase_eq_of_notMem (by rwa [List.mem_toFinset])
    rw [heq, or_self]
    exact iff_of_true Iff.rfl fun h => hr h.1

/-- A method with a receiver and, in the list as given, one argument twice. -/
def putMethod : Function where
  name := "put"
  arguments := ["self", "a", "a"]
  returnsNothing := true
  docs := "* `a`: what is put"
  span := {}

/-- The method documents its argument and leaves the receiver out. -/
theorem putMethod_bulletNames :
    putMethod.Worded ∧ putMethod.bulletNames = putMethod.ownArguments ∧
      putMethod.finding? = none := by
  have hw : putMethod.Worded := by
    refine ⟨by decide, all_toNat_lt_iff.1 (by decide), ?_⟩
    rw [← mentionsReturn_iff]
    decide
  have hnames : putMethod.bulletNames = putMethod.ownArguments := by decide
  exact ⟨hw, hnames, (finding?_eq_none_iff_bulletNames hw).1.2 (.inl hnames)⟩

/-- A method whose only bullet is about its receiver. -/
def clearMethod : Function where
  name := "clear"
  arguments := ["self"]
  returnsNothing := true
  docs := "* `self`: the list"
  span := {}

/-- A bullet about the receiver is accepted, though the receiver does not count among the arguments
    that need one. -/
theorem receiver_bullet_accepted :
    clearMethod.Worded ∧ clearMethod.finding? = none ∧
      clearMethod.bulletNames ≠ clearMethod.ownArguments := by
  refine ⟨⟨by decide, all_toNat_lt_iff.1 (by decide), ?_⟩, by decide, by decide⟩
  rw [← mentionsReturn_iff]
  decide

end Function

end DocAudit
