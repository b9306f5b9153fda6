import DocAudit.Yaml.Mark

namespace DocAudit.Yaml

/-!
# The value of a document

`read?` gives the value of the only document in a text, and nothing if the text is malformed or
holds two documents.  It reads the part of YAML that settings are written in: block and flow lists and
mappings of plain and quoted scalars.  Anchors, tags, block scalars and merge keys are not among them and
count as malformed, and a date is a text.  The readers in `Marks` take values from the marks; each returns
what it read together with the marks behind it.
-/

/-- The mapping that the pairs of keys and values make up, unless one of them may not be a key.  Of
    equal keys the last one counts. -/
def mapping? (pairs : List (Value × Value)) : Option Value :=
  if pairs.all fun pair => pair.1.isKey then
    some (.map (pairs.foldl (fun entries pair => Value.set entries pair.1 pair.2) []))
  else none

namespace Marks

/-- Whether an indicator or an end stands where an indented value could, which is then null. -/
def lacksValue : List Mark → Bool
  | .key :: _ | .value :: _ | .blockEnd :: _ => true
  | _ => false

/-- Whether an indicator or an end stands where a value in brackets could, which is then null. -/
def lacksFlowValue : List Mark → Bool
  | .value :: _ | .comma :: _ | .closeList :: _ | .closeMap :: _ => true
  | _ => false

/-- Whether a hyphen comes next. -/
def startsItem : List Mark → Bool
  | .item :: _ => true
  | _ => false

mutual

/-- A scalar, or a list or mapping that has a mark for its start. -/
def node? (ms : List Mark) : Option (Value × List Mark) :=
  match ms with
  | .scalar v :: rest => some (v, rest)
  | .blockList :: rest => do
    match ← items? rest with
    | (vs, .blockEnd :: behind) => some (.list vs, behind)
    | _ => none
  | .blockMap :: rest => do
    let (pairs, behind) ← entries? rest
    return (← mapping? pairs, behind)
  | .openList :: rest => do
    let (vs, behind) ← flowItems? rest
    return (.list vs, behind)
  | .openMap :: rest => do
    let (pairs, behind) ← flowEntries? rest
    return (← mapping? pairs, behind)
  | _ => none
termination_by (ms.length, 0)

/-- The items of an indented list.  One without a value is null. -/
def items? (ms : List Mark) : Option (List Value × List Mark) :=
  match ms with
  | .item :: rest => do
    let (v, behind) ← if lacksValue rest || startsItem rest then some (.null, rest) else node? rest
    if _h : behind.length ≤ rest.length then
      let (vs, last) ← items? behind
      return (v :: vs, last)
    else none
  | _ => some ([], ms)
termination_by (ms.length, 0)

/-- The key or value of an indented mapping: there a list needs no indentation of its own. -/
def part? (ms : List Mark) : Option (Value × List Mark) :=
  if lacksValue ms then some (.null, ms)
  else if startsItem ms then do
    let (vs, behind) ← items? ms
    return (.list vs, behind)
  else node? ms
termination_by (ms.length, 1)

/-- The value of an indented mapping behind its key.  It may be missing together with its
    indicator. -/
def valueOfKey? (ms : List Mark) : Option (Value × List Mark) :=
  match ms with
  | .value :: rest => part? rest
  | _ => some (.null, ms)
termination_by (ms.length, 2)

/-- The entries of an indented mapping up to its end. -/
def entries? (ms : List Mark) : Option (List (Value × Value) × List Mark) :=
  match ms with
  | .key :: rest => do
    let (k, behindKey) ← part? rest
    if _h : behindKey.length ≤ rest.length then
      let (v, behind) ← valueOfKey? behindKey
      if _h : behind.length ≤ rest.length then
        let (pairs, last) ← entries? behind
        return ((k, v) :: pairs, last)
      else none
    else none
  | .blockEnd :: rest => some ([], rest)
  | _ => none
termination_by (ms.length, 0)

/-- A value in brackets, which may be missing. -/
def flowPart? (ms : List Mark) : Option (Value × List Mark) :=
  if lacksFlowValue ms then some (.null, ms) else node? ms
termination_by (ms.length, 1)

/-- A key in brackets and its value, behind the mark of the key. -/
def pair? (ms : List Mark) : Option ((Value × Value) × List Mark) := do
  let (k, behindKey) ← flowPart? ms
  match behindKey with
  | .value :: rest =>
    if _h : rest.length < ms.length then
      let (v, behind) ← flowPart? rest
      return ((k, v), behind)
    else none
  | _ => return ((k, .null), behindKey)
termination_by (ms.length, 2)

/-- An item of a list in brackets; a key with its value is a mapping of one entry. -/
def flowItem? (ms : List Mark) : Option (Value × List Mark) :=
  match ms with
  | .key :: rest => do
    let (pair, behind) ← pair? rest
    return (← mapping? [pair], behind)
  | other => node? other
termination_by (ms.length, 1)

/-- The items of a list in brackets up to the closing one.  A comma may follow the last item. -/
def flowItems? (ms : List Mark) : Option (List Value × List Mark) :=
  match ms with
  | .closeList :: rest => some ([], rest)
  | other => do
    match ← flowItem? other with
    | (v, .closeList :: rest) => some ([v], rest)
    | (v, .comma :: rest) =>
      if _h : rest.length < other.length then
        let (vs, behind) ← flowItems? rest
        return (v :: vs, behind)
      else none
    | _ => none
termination_by (ms.length, 2)

/-- An entry of a mapping in braces; one without a mark for its key has no value. -/
def flowEntry? (ms : List Mark) : Option ((Value × Value) × List Mark) :=
  match ms with
  | .key :: rest => pair? rest
  | other => do
    let (k, behind) ← node? other
    return ((k, .null), behind)
termination_by (ms.length, 1)

/-- The entries of a mapping in braces up to the closing one.  A comma may follow the last entry. -/
def flowEntries? (ms : List Mark) : Option (List (Value × Value) × List Mark) :=
  match ms with
  | .closeMap :: rest => some ([], rest)
  | other => do
    match ← flowEntry? other with
    | (pair, .closeMap :: rest) => some ([pair], rest)
    | (pair, .comma :: rest) =>
      if _h : rest.length < other.length then
        let (pairs, behind) ← flowEntries? rest
        return (pair :: pairs, behind)
      else none
    | _ => none
termination_by (ms.length, 2)

end

/-- Whether a document may be empty here: a mark between documents or nothing follows. -/
def lacksDocument : List Mark → Bool
  | [] | .documentStart :: _ | .documentEnd :: _ => true
  | _ => false

/-- Whether only ends of documents follow. -/
def areEnds (ms : List Mark) : Bool :=
  ms.all fun
    | .documentEnd => true
    | _ => false

/-- The value of the only document.  Where its start is not marked, it cannot be empty unless there
    are no marks at all. -/
def document? (ms : List Mark) : Option Value := do
  let (v, behind) ← match ms with
    | [] => some (.null, [])
    | .documentStart :: rest => if lacksDocument rest then some (.null, rest) else node? rest
    | _ => node? ms
  if areEnds behind then some v else none

end Marks

/-- The value of the only document in the text. -/
def read? (text : List Char) : Option Value := do
  Marks.document? (← marks? text)

end DocAudit.Yaml
