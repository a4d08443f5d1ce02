import CallManual.Page.Overstrike

/-!
# The synopsis of a page

The synopsis block lies between the headers `SYNOPSIS` and `DESCRIPTION`. A block with the marker
`Unimplemented` documents no call. Otherwise every line that may start a declaration is joined with
a bounded number of lines after it, until it ends in a semicolon. Joined lines are not used up:
each may start a declaration of its own.
-/
namespace CallManual.Page

def synopsisHeader : Text := "SYNOPSIS"
def descriptionHeader : Text := "DESCRIPTION"
def unimplementedMarker : Text := "Unimplemented"
def typedefWord : Text := "typedef"
def commentOpen : Text := ['/', '*']
def commentClose : Text := ['*', '/']

/-- The lines between the two headers. Without the second one the block runs to the end. -/
def synopsisBlock (plain : Text) : List Text :=
  ((Text.lines plain).dropWhile fun l => Text.trimEnd l != synopsisHeader).drop 1
    |>.takeWhile fun l => Text.trimEnd l != descriptionHeader

/-- Cuts from the first comment opening to the last comment closing after it. -/
def stripComment (line : Text) : Text :=
  match Text.cutAt? commentOpen line with
  | none => line
  | some (before, rest) =>
    match Text.afterLast? commentClose rest.tail with
    | none => line
    | some after => Text.trim (before ++ after)

/-- At least two words and an opening parenthesis. -/
def startsDeclaration (line : Text) : Bool :=
  2 ≤ (Text.words line).length && line.any (· == '(')

def endsInSemicolon (line : Text) : Bool := line.getLast? = some ';'

/-- Joins up to `limit` of the lines `rest` to a line that has no semicolon at its end. -/
def joinLines : (limit : Nat) → (line : Text) → (rest : List Text) → Text
  | 0, line, _ => line
  | _, line, [] => line
  | limit + 1, line, next :: rest =>
    if endsInSemicolon line then line
    else joinLines limit (stripComment (line ++ ' ' :: Text.trim next)) rest

/-- The declaration that starts on a line, given the lines after it. -/
def declarationAt? (limit : Nat) (line : Text) (rest : List Text) : Option Text :=
  let start := Text.trim line
  if typedefWord.isPrefixOf start then none
  else
    let first := stripComment start
    if startsDeclaration first then
      let joined := joinLines limit first rest
      if startsDeclaration joined && [')', ';'].isSuffixOf joined then some joined else none
    else none

def declarationsFrom (limit : Nat) : List Text → List Text
  | [] => []
  | line :: rest => (declarationAt? limit line rest).toList ++ declarationsFrom limit rest

inductive Synopsis
  | unimplemented
  | declarations (lines : List Text)
  deriving DecidableEq, Repr

def marked (block : List Text) : Bool :=
  block.any fun l => Text.contains unimplementedMarker l

/-- The synopsis of a rendered page, at most `limit` lines joined to the first line of a
declaration. -/
def synopsis (page : Text) (limit : Nat) : Synopsis :=
  let block := synopsisBlock (removeOverstrike page)
  if marked block then .unimplemented else .declarations (declarationsFrom limit block)

end CallManual.Page
