import CallManual.Declaration.Basic
import CallManual.Parameter.Parser

/-!
# Reading declarations

The head ends at the first opening parenthesis and the list at the closing one in front of the
optional semicolon. The list splits at every comma with a space after it; each piece is respaced,
read, and must render back to itself.
-/
namespace CallManual

inductive DeclarationError
  | missingOpenParen (line : Text)
  | missingCloseParen (line : Text)
  | missingName (line : Text)
  | emptyParameterList (line : Text)
  | parameter (token : Text) (cause : ParameterError)
  | notWrittenBack (token rendered : Text)
  deriving DecidableEq, Repr

def DeclarationError.message : DeclarationError → Text
  | missingOpenParen l => "declaration `" ++ l ++ "` has no opening parenthesis"
  | missingCloseParen l => "declaration `" ++ l ++ "` has no closing parenthesis"
  | missingName l => "declaration `" ++ l ++ "` has no separable return type and name"
  | emptyParameterList l => "declaration `" ++ l ++ "` has an empty parameter list"
  | parameter t cause => "malformed parameter `" ++ t ++ "`: " ++ cause.message
  | notWrittenBack t r => "parameter `" ++ t ++ "` renders back as `" ++ r ++ "`"

namespace Declaration

/-- Splits a head into return type and name. Stars in front of the name belong to the return
type. -/
def splitHead? (head : Text) : Option (Text × Text) :=
  match Text.cutLast? Text.isBlank (Text.trim head) with
  | none => none
  | some (front, last) =>
    let returnType := Text.trimEnd front ++ last.takeWhile (· == '*')
    let name := last.dropWhile (· == '*')
    if returnType.isEmpty || name.isEmpty then none else some (returnType, name)

/-- The pieces of a parameter list, cut at every `, `. -/
def splitParameters : Text → List Text
  | [] => [[]]
  | ',' :: ' ' :: t => [] :: splitParameters t
  | c :: t => (splitParameters t).modifyHead (c :: ·)

/-- Takes the space out of every `* `. -/
def glueStars : Text → Text
  | [] => []
  | '*' :: ' ' :: t => '*' :: glueStars t
  | c :: t => c :: glueStars t

/-- A piece of a parameter list with single spaces between its words, a star that stands alone
glued to the word after it. -/
def respace (raw : Text) : Text := glueStars (Text.unwords (Text.words raw))

def parseParameter (raw : Text) : Except DeclarationError Parameter :=
  let token := respace raw
  match Parameter.parse token with
  | .error cause => .error (.parameter token cause)
  | .ok p => if p.render = token then .ok p else .error (.notWrittenBack token p.render)

def parseParameters (list : Text) : Except DeclarationError (List Parameter) :=
  let pieces := splitParameters list
  if pieces = [noParameters] then .ok [] else pieces.mapM parseParameter

/-- The parameter list in what follows the opening parenthesis. -/
def parameterList? (tail : Text) : Option Text :=
  let tail := Text.trimEnd tail
  let tail := Text.trimEnd ((Text.dropSuffix? [';'] tail).getD tail)
  (Text.dropSuffix? [')'] tail).map Text.trim

def parse (source : Text) : Except DeclarationError Declaration :=
  let line := Text.trim source
  match Text.cutFirst? (· == '(') line with
  | none => .error (.missingOpenParen line)
  | some (head, tail) =>
    match splitHead? head with
    | none => .error (.missingName line)
    | some (returnType, name) =>
      match parameterList? tail with
      | none => .error (.missingCloseParen line)
      | some [] => .error (.emptyParameterList line)
      | some list => (parseParameters list).map fun parameters => { returnType, name, parameters }

end Declaration

end CallManual
