namespace DocAudit.Documentation

/-!
# Argument bullets

Documentation names an argument by a bullet: a star, a space and the name between backticks.
`documentedNames` lists the names of all bullets of a text, in their order.
-/

/-- What starts a bullet. -/
def bulletMarker : List Char :=
  ['*', ' ', '`']

/-- The name behind a marker: without further backticks in front, up to the next one or the end of
    the text. -/
def bulletName (cs : List Char) : List Char :=
  (cs.dropWhile (· == '`')).takeWhile (· != '`')

/-- The names of the bullets of a text, one for each place where the marker stands. -/
def documentedNames : List Char → List String
  | [] => []
  | c :: rest =>
    if bulletMarker.isPrefixOf (c :: rest) then
      String.ofList (bulletName ((c :: rest).drop bulletMarker.length)) :: documentedNames rest
    else documentedNames rest

example : documentedNames "* `a`: x\n* ``b``\n* `".toList = ["a", "b", ""] := by decide

end DocAudit.Documentation
