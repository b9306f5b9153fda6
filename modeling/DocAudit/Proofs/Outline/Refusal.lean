import DocAudit.Proofs.Outline.Coverage

namespace DocAudit

/-!
# Which lists have no outline

A list of items is refused just where one of them is no token or stands out of order, and what is
reported is the first such item.

* `Item.Misplaced`, `MisplacedAt`, `FirstMisplaced` — the items that are refused, and the first of them;
* `checkOrderFrom_eq_ok`, `checkOrderFrom_eq_error` — what the order check says about a list;
* `Fault.Reports` — what a fault has to say about an item;
* `outline?_refuses` — a list has a fault, which reports its first misplaced item, or an outline.
-/

variable {items : List Item} {item : Item} {t : Token} {previousEnd : Int} {i : Nat}

/-! ### Misplaced items -/

namespace Item

/-- The token, if the item is one. -/
def token? : Item → Option Token
  | .token t => some t
  | .foreign _ => none

/-- Where the item starts; a value that is no token counts as standing at 0. -/
def start (item : Item) : Int :=
  (item.token?.map (·.span.start)).getD 0

/-- What is wrong with the item, if it is refused. -/
def cause : Item → Cause
  | .token t => .misordered t
  | .foreign shape => .notToken shape

/-- The item is no token, or it starts in front of `previousEnd`, or it ends in front of its start. -/
inductive Misplaced (previousEnd : Int) : Item → Prop where
  /-- A value that is no token. -/
  | foreign (shape : String) : Misplaced previousEnd (.foreign shape)
  /-- A token that starts too early. -/
  | early {t : Token} (h : t.span.start < previousEnd) : Misplaced previousEnd (.token t)
  /-- A token that runs backward. -/
  | backward {t : Token} (h : t.span.stop < t.span.start) : Misplaced previousEnd (.token t)

theorem misplaced_token_iff : Misplaced previousEnd (.token t) ↔
    t.span.start < previousEnd ∨ t.span.stop < t.span.start := by
  constructor
  · rintro (h | h | h)
    · exact .inl h
    · exact .inr h
  · rintro (h | h)
    · exact .early h
    · exact .backward h

end Item

/-- Where the last token of the items ends, or `previousEnd` if there is none. -/
def endOf (previousEnd : Int) (items : List Item) : Int :=
  ((items.filterMap Item.token?).getLast?.map (·.span.stop)).getD previousEnd

@[simp] theorem endOf_nil : endOf previousEnd [] = previousEnd := rfl

@[simp] theorem endOf_cons_token : endOf previousEnd (.token t :: items) = endOf t.span.stop items := by
  have htokens : (Item.token t :: items).filterMap Item.token? = t :: items.filterMap Item.token? := rfl
  rw [endOf, htokens, List.getLast?_cons, endOf]
  cases (items.filterMap Item.token?).getLast? <;> rfl

/-- The item at the index is misplaced behind the tokens in front of it. -/
def MisplacedAt (previousEnd : Int) (items : List Item) (i : Nat) : Prop :=
  ∃ item, items[i]? = some item ∧ item.Misplaced (endOf previousEnd (items.take i))

theorem misplacedAt_zero : MisplacedAt previousEnd (item :: items) 0 ↔ item.Misplaced previousEnd := by
  simp [MisplacedAt]

theorem misplacedAt_succ : MisplacedAt previousEnd (.token t :: items) (i + 1) ↔
    MisplacedAt t.span.stop items i := by
  simp [MisplacedAt]

/-- The index is the least one with a misplaced item. -/
def FirstMisplaced (previousEnd : Int) (items : List Item) (i : Nat) : Prop :=
  MisplacedAt previousEnd items i ∧ ∀ j < i, ¬MisplacedAt previousEnd items j

theorem firstMisplaced_zero (h : item.Misplaced previousEnd) :
    FirstMisplaced previousEnd (item :: items) 0 :=
  ⟨misplacedAt_zero.2 h, fun _ hj => absurd hj (Nat.not_lt_zero _)⟩

theorem FirstMisplaced.succ (h : FirstMisplaced t.span.stop items i)
    (ht : ¬(Item.token t).Misplaced previousEnd) :
    FirstMisplaced previousEnd (.token t :: items) (i + 1) := by
  refine ⟨misplacedAt_succ.2 h.1, fun j hj => ?_⟩
  cases j with
  | zero => rwa [misplacedAt_zero]
  | succ j =>
    rw [misplacedAt_succ]
    exact h.2 j (Nat.lt_of_succ_lt_succ hj)

/-! ### The order check -/

/-- In a list that passes, no item is misplaced. -/
theorem checkOrderFrom_eq_ok {ts : List Token} (h : checkOrderFrom previousEnd items = .ok ts) (i : Nat) :
    ¬MisplacedAt previousEnd items i := by
  induction items generalizing previousEnd ts i with
  | nil => simp [MisplacedAt]
  | cons item items ih =>
    cases item with
    | foreign shape => cases h
    | token t =>
      rw [checkOrderFrom] at h
      split at h
      · cases h
      · rename_i hplace
        cases i with
        | zero => rwa [misplacedAt_zero, Item.misplaced_token_iff]
        | succ i =>
          rw [misplacedAt_succ]
          cases hrest : checkOrderFrom t.span.stop items with
          | ok us => exact ih hrest i
          | error fault =>
            rw [hrest] at h
            cases h

/-- A list is refused for its first misplaced item. -/
theorem checkOrderFrom_eq_error {fault : Cause × Int}
    (h : checkOrderFrom previousEnd items = .error fault) :
    ∃ i item, items[i]? = some item ∧ FirstMisplaced previousEnd items i ∧
      fault = (item.cause, item.start) := by
  induction items generalizing previousEnd with
  | nil => cases h
  | cons item items ih =>
    cases item with
    | foreign shape =>
      cases h
      exact ⟨0, _, rfl, firstMisplaced_zero (.foreign shape), rfl⟩
    | token t =>
      rw [checkOrderFrom] at h
      split at h
      · rename_i hplace
        cases h
        exact ⟨0, _, rfl, firstMisplaced_zero (Item.misplaced_token_iff.2 hplace), rfl⟩
      · rename_i hplace
        -- The token is in place, so the fault lies further on.
        cases hrest : checkOrderFrom t.span.stop items with
        | ok us =>
          rw [hrest] at h
          cases h
        | error fault' =>
          rw [hrest] at h
          cases h
          obtain ⟨i, item, hget, hfirst, hfault⟩ := ih hrest
          exact ⟨i + 1, item, hget, hfirst.succ (by rwa [Item.misplaced_token_iff]), hfault⟩

/-! ### Faults -/

/-- The fault of the outline reports the item: the token that is misplaced and where it starts, or that
    the item is no token, and the line and column of that offset in the text, if a text is given. -/
structure Fault.Reports (f : Fault) (item : Item) (source : Option (List Char)) : Prop where
  /-- The fault arises before any declaration is looked for. -/
  stage_eq : f.stage = .statements
  /-- The cause is the item. -/
  cause_eq : f.cause = item.cause
  /-- The token is that of the item, if it is one. -/
  token?_eq : f.token? = item.token?
  /-- The offset is the start of the token. -/
  offset_eq : f.offset = item.start
  /-- The place is that of the offset in the text. -/
  of_text : ∀ text, source = some text →
    f.line = (Position.ofOffset text f.offset).line ∧
      f.column = (Position.ofOffset text f.offset).column
  /-- Without a text there is no line and no column. -/
  of_no_text : source = none → f.line = 0 ∧ f.column = 0

/-- The order check refuses a list for its first misplaced item. -/
theorem checkOrder_eq_error {source : Option (List Char)} {f : Fault}
    (h : checkOrder items source = .error f) :
    ∃ i item, items[i]? = some item ∧ FirstMisplaced 0 items i ∧ f.Reports item source := by
  unfold checkOrder at h
  split at h
  · cases h
  · rename_i cause offset hfault
    obtain ⟨i, item, hget, hfirst, heq⟩ := checkOrderFrom_eq_error hfault
    obtain ⟨rfl, rfl⟩ := Prod.mk.inj heq
    have htoken (f : Fault) (hf : f.cause = item.cause) : f.token? = item.token? := by
      rw [Fault.token?, hf]
      cases item <;> rfl
    refine ⟨i, item, hget, hfirst, ?_⟩
    split at h
    · cases h
      exact ⟨rfl, rfl, htoken _ rfl, rfl, fun text htext => by cases htext; exact ⟨rfl, rfl⟩, nofun⟩
    · cases h
      exact ⟨rfl, rfl, htoken _ rfl, rfl, nofun, fun _ => ⟨rfl, rfl⟩⟩

/-- In a list that passes the order check, no item is misplaced. -/
theorem checkOrder_eq_ok {source : Option (List Char)} {ts : List Token}
    (h : checkOrder items source = .ok ts) (i : Nat) : ¬MisplacedAt 0 items i := by
  unfold checkOrder at h
  split at h
  · rename_i us hus
    exact checkOrderFrom_eq_ok hus i
  · split at h <;> cases h

/-- **A list is refused just where an item is misplaced**, and the fault reports the first such item.
    Every other list has an outline, whose nodes occupy blocks that make up the list. -/
theorem outline?_refuses (items : List Item) (source : Option (List Char)) :
    ((∃ f, outline? items source = .error f) ↔ ∃ i, MisplacedAt 0 items i) ∧
    (∀ f, outline? items source = .error f →
      ∃ i item, items[i]? = some item ∧ FirstMisplaced 0 items i ∧ f.Reports item source) ∧
    ((∀ i, ¬MisplacedAt 0 items i) →
      ∃ entries : List (Node × List Token), outline? items source = .ok (entries.map Prod.fst) ∧
        items = (entries.map Prod.snd).flatten.map Item.token ∧
        ∀ e ∈ entries, Occupies e.1 e.2) := by
  cases hcheck : checkOrder items source with
  | error f =>
    have hrefused : outline? items source = .error f := by
      rw [outline?, hcheck]
      rfl
    obtain ⟨i, item, hget, hfirst, hreports⟩ := checkOrder_eq_error hcheck
    refine ⟨⟨fun _ => ⟨i, hfirst.1⟩, fun _ => ⟨f, hrefused⟩⟩, fun f' hf' => ?_, fun hnone => ?_⟩
    · obtain rfl := Except.error.inj (hrefused.symm.trans hf')
      exact ⟨i, item, hget, hfirst, hreports⟩
    · exact absurd hfirst.1 (hnone i)
  | ok ts =>
    obtain ⟨entries, hchain, houtline, hitems, _⟩ := outline_entries hcheck
    have hplace : ∀ i, ¬MisplacedAt 0 items i := checkOrder_eq_ok hcheck
    have haccepted : ∀ f, outline? items source ≠ .error f := by
      intro f hf
      rw [houtline] at hf
      cases hf
    refine ⟨⟨?_, ?_⟩, fun f hf => absurd hf (haccepted f), fun _ => ?_⟩
    · rintro ⟨f, hf⟩
      exact absurd hf (haccepted f)
    · rintro ⟨i, hi⟩
      exact absurd hi (hplace i)
    · exact ⟨entries, houtline, hitems, hchain.forall_mem occupies_of_nextNode?⟩

end DocAudit
