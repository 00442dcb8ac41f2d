import ColumnLint.Sql.Syntax

/-
  The stretch of text that a syntax tree is known to cover: the smallest region around the names,
  literals and keywords in it that have one. Parentheses and most words of a form have none.
-/

namespace ColumnLint.Sql

open ColumnLint.Text

/-- The region around the parts of a column's name. -/
def identsExtent (parts : List Ident) : Option Region :=
  parts.foldl (fun r i => joinRegions r i.region) none

mutual
def NamePart.extent : NamePart → Option Region
  | .ident i => i.region
  | .call f arguments => joinRegions f.region (listExtent arguments)

def nameExtent : List NamePart → Option Region
  | [] => none
  | p :: rest => joinRegions p.extent (nameExtent rest)

def namesExtent : List (List NamePart) → Option Region
  | [] => none
  | n :: rest => joinRegions (nameExtent n) (namesExtent rest)

def Alias.extent : Alias → Option Region
  | ⟨name, columns⟩ => joinRegions name.region (listExtent columns)

def labelExtent : Option Alias → Option Region
  | none => none
  | some a => a.extent

def Expr.extent : Expr → Option Region
  | .column name => identsExtent name
  | .star region => region
  | .starOf name region => joinRegions (nameExtent name) region
  | .constant _ region => region
  | .form f operands =>
    match f.reach with
    | .operands => listExtent operands
    | .marked region => joinRegions region (listExtent operands)
    | .unknown => none
  | .access root path => joinRegions root.extent (pathExtent path)
  | .named _ _ value => value.extent
  | .filled key _ bounds => joinRegions key.extent (listExtent bounds)
  | .aside _ => none
  | .query q => q.extent
  | .join j => j.extent

def listExtent : List Expr → Option Region
  | [] => none
  | e :: es => joinRegions e.extent (listExtent es)

def pathExtent : List Access → Option Region
  | [] => none
  | .field e :: path => joinRegions e.extent (pathExtent path)
  | .subscript _ es :: path => joinRegions (listExtent es) (pathExtent path)

def Query.extent : Query → Option Region
  | ⟨region, _, ctes, body, keys, clauses⟩ =>
    joinRegions (joinRegions region (ctesExtent ctes))
      (joinRegions body.extent (joinRegions (listExtent keys) (listExtent clauses)))

def ctesExtent : List Cte → Option Region
  | [] => none
  | ⟨label, _, query, _⟩ :: rest =>
    joinRegions (joinRegions label.extent query.extent) (ctesExtent rest)

def Body.extent : Body → Option Region
  | .select s => s.extent
  | .query q => q.extent
  | .operation left _ right => joinRegions left.extent right.extent
  | .values rows => listExtent rows
  | .table _ => none
  | .statement s => s.extent

def Select.extent : Select → Option Region
  | ⟨region, quantifiers, projection, into, sources, views, prewhere, selection, groups, others,
      sorting, having, qualify, windows, _, hierarchy⟩ =>
    joinRegions region <| joinRegions (listExtent quantifiers) <|
      joinRegions (itemsExtent projection) <| joinRegions (listExtent into) <|
      joinRegions (sourcesExtent sources) <| joinRegions (listExtent views) <|
      joinRegions (listExtent prewhere) <| joinRegions (listExtent selection) <|
      joinRegions (listExtent groups) <| joinRegions (listExtent others) <|
      joinRegions (listExtent sorting) <| joinRegions (listExtent having) <|
      joinRegions (listExtent qualify) <|
      joinRegions (windowsExtent windows) (listExtent hierarchy)

def windowsExtent : List Window → Option Region
  | [] => none
  | .spec name e :: rest => joinRegions (joinRegions name.region e.extent) (windowsExtent rest)
  | .reference name window :: rest =>
    joinRegions (joinRegions name.region window.region) (windowsExtent rest)

def itemsExtent : List Item → Option Region
  | [] => none
  | item :: rest => joinRegions item.extent (itemsExtent rest)

def Item.extent : Item → Option Region
  | .expr e label => joinRegions e.extent (label.bind fun i => i.region)
  | .star options => listExtent options
  | .starOf name options => joinRegions (nameExtent name) (listExtent options)
  | .starOfExpr e options => joinRegions e.extent (listExtent options)

def sourcesExtent : List Joined → Option Region
  | [] => none
  | t :: rest => joinRegions t.extent (sourcesExtent rest)

def Joined.extent : Joined → Option Region
  | ⟨source, joins⟩ => joinRegions source.extent (joinsExtent joins)

def joinsExtent : List Join → Option Region
  | [] => none
  | j :: rest => joinRegions j.extent (joinsExtent rest)

def Join.extent : Join → Option Region
  | ⟨_, source, matching, on, shared⟩ =>
    joinRegions source.extent <| joinRegions (listExtent matching) <|
      joinRegions (listExtent on) (namesExtent shared)

def Source.extent : Source → Option Region
  | .table name details label hints =>
    joinRegions (joinRegions (nameExtent name) (listExtent details))
      (joinRegions (labelExtent label) (listExtent hints))
  | .derived _ q label => joinRegions q.extent (labelExtent label)
  | .nested tables label => joinRegions tables.extent (labelExtent label)
  | .computed e label _ => joinRegions e.extent (labelExtent label)
  | .reshaped source e label =>
    joinRegions (joinRegions source.extent e.extent) (labelExtent label)

def Statement.extent : Statement → Option Region
  | .query q => q.extent
  | .insert name source others =>
    joinRegions (joinRegions (nameExtent name) (optionExtent source)) (listExtent others)
  | .createView name q others =>
    joinRegions (joinRegions (nameExtent name) q.extent) (listExtent others)
  | .createTable name q others =>
    joinRegions (joinRegions (nameExtent name) (optionExtent q)) (listExtent others)
  | .explain lead s => joinRegions (listExtent lead) s.extent
  | .other tables parts => joinRegions (sourcesExtent tables) (listExtent parts)

def optionExtent : Option Query → Option Region
  | none => none
  | some q => q.extent
end

def Name.extent (n : Name) : Option Region := nameExtent n

end ColumnLint.Sql
