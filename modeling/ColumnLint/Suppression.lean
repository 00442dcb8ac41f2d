import ColumnLint.Rule.Name
import ColumnLint.Sql.Token.Lexer
import ColumnLint.Text.Search

/-
  Suppression of issues by comments. A comment `noqa` suppresses every issue of its line, a
  comment `noqa: names` those of the named rules.
-/

namespace ColumnLint

open Text Sql

/-- What a comment suppresses. -/
inductive Directive where
  | all
  | rules (list : List Rule)
deriving DecidableEq, Repr

namespace Directive

/-- The characters that may stand around the name of a rule. -/
def isWrapping (c : Char) : Bool := c == '"' || c == '\'' || c == '\x60' || c == ';'

/-- The rule of an item of a list. -/
def itemRule? (item : List Char) : Option Rule :=
  Rule.ofName? (String.ofList (stripBy isWrapping (trim item)))

/-- What the text of a comment suppresses, if anything. -/
def ofComment? (comment : List Char) : Option Directive :=
  let comment := trim comment
  if !sameLetters (comment.take 4) "noqa".toList then none
  else
    match trim (comment.drop 4) with
    | [] => some .all
    | ':' :: list =>
      if (trim list).isEmpty then some .all
      else
        match (cutAt ',' (trim list)).filterMap itemRule? with
        | [] => none
        | found => some (.rules found)
    | _ => none

/-- The directive covers issues of a code. -/
def covers (code : String) : Directive → Bool
  | all => true
  | rules list => list.any fun r => Rule.ofName? code == some r

end Directive

/-- The directives of a text, each with its line. -/
structure Suppression where
  directives : List (Nat × Directive) := []
deriving DecidableEq, Repr, Inhabited

namespace Suppression

/-- Nothing is suppressed. -/
def isEmpty (s : Suppression) : Bool := s.directives.isEmpty

/-- Issues of a code are suppressed on a line. -/
def suppresses (s : Suppression) (line : Nat) (code : String) : Bool :=
  s.directives.any fun d => d.1 == line && d.2.covers code

/-- The directives of comments, each given by the line it starts on and its text. -/
def ofComments (comments : List (Nat × List Char)) : Suppression :=
  ⟨comments.filterMap fun c => (Directive.ofComment? c.2).map fun d => (c.1, d)⟩

/-- The line that a comment starts on, if the text has the comment's place. -/
def commentLine? (text : List Char) (c : Comment) : Option Nat :=
  (span? text c.region).map fun s => lineAt text s.start

/-- The directives in the comments of a text. One that the lexer refuses has none. -/
def ofText (d : Dialect) (text : List Char) : Suppression :=
  match lex d text with
  | .ok lexed =>
    ofComments (lexed.comments.filterMap fun c =>
      (commentLine? text c).map fun line => (line, c.text))
  | .error _ => {}

end Suppression

end ColumnLint
