import ColumnLint.Sql.Extent
import ColumnLint.Sql.Printer
import ColumnLint.Text.Blank

/-
  Column references: how an expression names columns, and the references of a text. A reference
  keeps the text it is written as, and where, if the text has that place.
-/

namespace ColumnLint

open Text Sql

/-- A column reference has a prefix or it has none. -/
inductive Qualification where
  | qualified
  | unqualified
deriving DecidableEq, Repr

namespace Qualification

def word : Qualification → String
  | qualified => "qualified"
  | unqualified => "unqualified"

/-- The word at the start of a sentence. -/
def capitalized : Qualification → String
  | qualified => "Qualified"
  | unqualified => "Unqualified"

end Qualification

/-- A reference to a column, or by a star to all columns. -/
structure Reference where
  text : String
  kind : Qualification
  wildcard : Bool
  span : Option Span
deriving DecidableEq, Repr

/-- An unqualified star says nothing about how columns are referred to. -/
def Reference.isBareStar (r : Reference) : Bool := r.wildcard && r.kind == .unqualified

/-- What an expression names: a column, all columns, or all columns behind a prefix. -/
inductive Leaf where
  | column (name : List Ident)
  | star
  | starOf (printed : String) (extent : Option Region)
deriving DecidableEq, Repr

mutual
/-- The columns and stars of an expression, in the order they are met. Nested queries, fields of a
value, names of arguments, the bounds of sort keys and what is set aside are left out. -/
def Sql.Expr.leaves : Expr → List Leaf
  | .column name => [.column name]
  | .star _ => [.star]
  | .starOf name _ => [.starOf (Name.print name) (Name.extent name)]
  | .constant .. => []
  | .form _ operands => listLeaves operands
  | .access root path => root.leaves ++ pathLeaves path
  | .named _ _ value => value.leaves
  | .filled key _ _ => key.leaves
  | .aside _ | .query _ | .join _ => []

def listLeaves : List Expr → List Leaf
  | [] => []
  | e :: es => e.leaves ++ listLeaves es

def pathLeaves : List Access → List Leaf
  | [] => []
  | .field _ :: path => pathLeaves path
  | .subscript _ es :: path => listLeaves es ++ pathLeaves path
end

/-- The text under a span, or a text to take its place. -/
def textUnder (text : List Char) (span : Option Span) (otherwise : String) : String :=
  match span.bind (slice? text) with
  | some cs => String.ofList cs
  | none => otherwise

/-- Where a star behind a prefix is written: from the prefix over a period to the star, with
nothing but blanks between them. -/
def starSpan (text : List Char) (extent : Option Region) : Option Span := do
  let s ← (← extent) |> span? text
  let rest ← dropBytes text s.stop
  match rest.dropWhile isBlank with
  | '.' :: rest =>
    match rest.dropWhile isBlank with
    | '*' :: rest => return ⟨s.start, byteSize text - byteSize rest⟩
    | _ => none
  | _ => none

/-- The reference of a leaf in a text. -/
def Reference.ofLeaf (text : List Char) : Leaf → Reference
  | .column name =>
    let span := (identsExtent name).bind (span? text)
    let printed := ".".intercalate (name.map Ident.print)
    ⟨textUnder text span printed, if name.length > 1 then .qualified else .unqualified, false, span⟩
  | .star => ⟨"*", .unqualified, true, none⟩
  | .starOf printed extent =>
    let span := starSpan text extent
    ⟨textUnder text span (printed ++ ".*"), .qualified, true, span⟩

/-- The order of references in a text; those without a place come last. -/
def Reference.before (a b : Reference) : Bool :=
  match a.span, b.span with
  | some s, some t => s.start ≤ t.start
  | some _, none => true
  | none, some _ => false
  | none, none => true

end ColumnLint
