import ColumnLint.Sql.Grammar.Property

/-
  Names of data types. A type is of a kind and prints as texts around the expressions in it, such as
  the defaults of the columns of a nested table.
-/

namespace ColumnLint.Sql.Grammar

open ColumnLint.Text ColumnLint.Sql.Parser

inductive TypeKind where
  | builtin
  | interval
  /-- A type known by its name only. -/
  | custom
deriving DecidableEq

structure DataType where
  kind : TypeKind
  parts : List Part

/-- How a type prints. -/
def DataType.print (t : DataType) : String := (assemble t.parts).print

/-- `(n)`, if a parenthesis follows. -/
def precision? : Parser String := do
  if ← symbol "(" then
    let n ← wholeNumber
    expectSymbol ")"
    return "(" ++ n ++ ")"
  else return ""

/-- `(n)` or `(n,m)`, if a parenthesis follows. -/
def precisionAndScale? : Parser String := do
  if ← symbol "(" then
    let n ← wholeNumber
    let scale ← do
      if ← symbol "," then pure ("," ++ (← signedWholeNumber)) else pure ""
    expectSymbol ")"
    return "(" ++ n ++ scale ++ ")"
  else return ""

/-- `(n)`, `(n CHARACTERS)` or `(MAX)`, if a parenthesis follows; not all types have units. -/
def length? (units : Bool) : Parser String := do
  if ← symbol "(" then
    if ← word "MAX" then
      expectSymbol ")"
      return "(MAX)"
    else
      let n ← wholeNumber
      let unit ← if units then oneOf ["CHARACTERS", "OCTETS"] else pure none
      expectSymbol ")"
      return "(" ++ n ++ spaced (unit.getD "") ++ ")"
  else return ""

/-- `UNSIGNED` behind a number type, if it follows. -/
def unsigned? : Parser String := do
  if ← word "UNSIGNED" then return " UNSIGNED" else return ""

/-- Whole number types whose name tells their bytes; `SIGNED` never follows them. -/
def sizedTypes : List String := ["INT2", "INT4", "INT8"]

/-- `UNSIGNED`, or `SIGNED` in some dialects, behind a whole number type. -/
def signedness (g : Grammar) (k : String) : Parser String := do
  if ← word "UNSIGNED" then return " UNSIGNED"
  else
    if g.dialect.signedTypes && !sizedTypes.contains k then
      let _ ← word "SIGNED"
    return ""

/-- `WITH TIME ZONE` or `WITHOUT TIME ZONE`, if such words follow. -/
def timeZone? : Parser String := do
  if ← word "WITH" then
    expectWords ["TIME", "ZONE"]
    return " WITH TIME ZONE"
  else if ← word "WITHOUT" then
    expectWords ["TIME", "ZONE"]
    return " WITHOUT TIME ZONE"
  else return ""

/-- The fields of an interval type, if some follow. -/
def intervalFields? : Parser String := do
  let upTo (first : String) (last : Parser String) : Parser String := do
    if ← word "TO" then return " " ++ first ++ " TO " ++ (← last) else return " " ++ first
  let only (k : String) : Parser String := do
    expectWord k
    return k
  match ← oneOf ["YEAR", "DAY", "HOUR", "MINUTE", "MONTH", "SECOND"] with
  | some "YEAR" => upTo "YEAR" (only "MONTH")
  | some "DAY" => upTo "DAY" (expectOneOf ["HOUR", "MINUTE", "SECOND"])
  | some "HOUR" => upTo "HOUR" (expectOneOf ["MINUTE", "SECOND"])
  | some "MINUTE" => upTo "MINUTE" (only "SECOND")
  | some k => return " " ++ k
  | none => return ""

/-- The modifiers of a type known by name, if a parenthesis follows. -/
def modifiers? : Parser String := do
  if ← symbol "(" then
    let (items, _) ← repeatStep (fun (items, done) => do
      if done then return none
      else
        match ← peek with
        | some x =>
          match x.token with
          | .word .. =>
            skip
            return some (x.token.render :: items, false)
          | .number digits _ =>
            skip
            return some (digits :: items, false)
          | .literal .single s =>
            skip
            return some (s :: items, false)
          | .symbol "," =>
            skip
            return some (items, false)
          | .symbol ")" =>
            skip
            return some (items, true)
          | _ => expected "type modifiers"
        | none => expected "type modifiers") ([], false)
    return if items.isEmpty then "" else inParentheses items.reverse
  else return ""

/-- The members of an enumeration, each of which may have a number. -/
def enumMembers (g : Grammar) : Parser String := do
  let members ← parenthesized <| commaList g do
    let name := quotedPrint '\'' (← literalString g)
    if ← symbol "=" then return name ++ " = " ++ (← signedNumber g).print else return name
  return inParentheses members

/-- The members of a set. -/
def setMembers : Parser String := do
  expectSymbol "("
  let (members, _) ← repeatStep (fun (members, done) => do
    if done then return none
    else
      match ← peekToken with
      | some (.literal .single s) =>
        skip
        let members := quotedPrint '\'' s :: members
        if ← symbol "," then return some (members, false)
        else if ← symbol ")" then return some (members, true)
        else expected ", or \x7d"
      | _ => expected "a string") ([], false)
  return inParentheses members.reverse

/-- Closes an angle bracket. The flag tells that one was closed already by `>>`, and the result
that another one is closed now. -/
def closeAngle (closed : Bool) : Parser Bool := do
  if closed then return false
  else if ← symbol ">" then return false
  else if ← symbol ">>" then return true
  else expected ">"

/-- Types that are one word and print as that word. -/
def plainTypes : List String :=
  ["BOOLEAN", "BOOL", "FLOAT4", "FLOAT64", "FLOAT8", "INT64", "HUGEINT", "UHUGEINT", "UBIGINT",
   "USMALLINT", "UTINYINT", "UUID", "DATE", "JSON", "JSONB", "REGCLASS", "TEXT", "TINYTEXT",
   "MEDIUMTEXT", "LONGTEXT", "TINYBLOB", "MEDIUMBLOB", "LONGBLOB", "BYTEA", "TRIGGER",
   "TIMESTAMP_NTZ"]

/-- Types that are one word and print in a spelling of their own. -/
def spelledTypes : List (String × String) :=
  [("FLOAT32", "Float32"), ("INT16", "Int16"), ("INT32", "Int32"), ("INT128", "Int128"),
   ("INT256", "Int256"), ("UINT8", "UInt8"), ("UINT16", "UInt16"), ("UINT32", "UInt32"),
   ("UINT64", "UInt64"), ("UINT128", "UInt128"), ("UINT256", "UInt256"), ("DATE32", "Date32")]

/-- Whole number types, which take a precision and a sign. -/
def integerTypes : List String :=
  ["TINYINT", "INT2", "SMALLINT", "MEDIUMINT", "INT", "INT4", "INT8", "INTEGER", "BIGINT"]

/-- Types that take a precision and a scale. -/
def decimalTypes : List String := ["NUMERIC", "BIGNUMERIC", "BIGDECIMAL"]

/-- Types that take a precision, a scale and `UNSIGNED`. -/
def signedDecimalTypes : List String := ["DECIMAL", "DEC", "FLOAT"]

/-- Types that take a precision. -/
def precisionTypes : List String :=
  ["CLOB", "BINARY", "BLOB", "BYTES", "VARBIT", "DATETIME", "STRING", "TIMESTAMPTZ", "TIMETZ"]

/-- A field of a structured type: a name and a type, or a type. -/
def structField (g : Grammar) (inner : Parser (DataType × Bool)) :
    Parser (List Part × Bool) := do
  let isWord (x : Option Lexeme) : Bool := match x.map Lexeme.token with
    | some (.word ..) => true
    | _ => false
  let named := isWord (← peek) && isWord (← peekAt 1)
  let name ← if named then (fun i => i.print ++ " ") <$> identifier else pure ""
  let (t, closed) ← inner
  let tail ← do
    if ← atWord "OPTIONS" then
      pure (.text " OPTIONS" :: Part.inParentheses (← options g "OPTIONS"))
    else pure []
  return ([.text name] ++ t.parts ++ tail, closed)

/-- The fields of a structured type in angle brackets, if a bracket follows. -/
def structFields (g : Grammar) (inner : Parser (DataType × Bool)) :
    Parser (List (List Part) × Bool) := do
  if ← symbol "<" then
    let (fields, closed, _) ← repeatStep (fun (fields, _, done) => do
      if done then return none
      else
        let (f, closed) ← structField g inner
        if closed then return some (f :: fields, true, true)
        else return some (f :: fields, false, !(← symbol ","))) ([], false, false)
    return (fields.reverse, ← closeAngle closed)
  else return ([], false)

/-- A type that closes its own brackets, given how to read a type. -/
def closedType (inner : Parser (DataType × Bool)) : Parser DataType := do
  let (t, closed) ← inner
  if closed then
    let behind := ((← peek).map fun x => x.token.render).getD "EOF"
    fail (.broken ("unmatched > after parsing data type " ++ t.print ++ behind) none)
  else return t

/-- A name and a type for each field, in parentheses. -/
def fieldList (g : Grammar) (type : Parser DataType) : Parser (List Part) := do
  let fields ← parenthesized <| commaList g do
    let i ← identifier
    return .text (i.print ++ " ") :: (← type).parts
  return Part.inParentheses fields

/-- Definitions of columns in parentheses. -/
def columnTypes (g : Grammar) (type : Parser DataType) : Parser (List Part) := do
  return Part.inParentheses (← parenthesized (commaList g (columnWith g (DataType.parts <$> type))))

/-- A data type, with enough `fuel` for types inside types. The flag tells that a closing angle
bracket of a surrounding type was taken. -/
def dataTypeWithin (g : Grammar) : Nat → Parser (DataType × Bool)
  | 0 => expected "a data type name"
  | fuel + 1 => do
    let d := g.dialect
    let inner := dataTypeWithin g fuel
    let type := closedType inner
    let first ← peek
    let k := (first.map fun x => x.token.keyword).getD ""
    let isWord := match first.map Lexeme.token with
      | some (.word ..) => true
      | _ => false
    let composed (lead : String) (tail : Parser (List Part)) : Parser (DataType × Bool) := do
      skip
      return (⟨.builtin, .text lead :: (← tail)⟩, false)
    let spelled (lead : String) (tail : Parser String) : Parser (DataType × Bool) := do
      skip
      return (⟨.builtin, [.text (lead ++ (← tail))]⟩, false)
    let builtin := spelled k
    let clickhouseTypes := d.oneOf [.generic, .clickhouse]
    let enclosed : Parser (List Part) := do
      return Part.inParentheses [(← parenthesized type).parts]
    let (t, closed) ←
      if !isWord then expected "a data type name"
      else if plainTypes.contains k then builtin (pure "")
      else if let some (_, name) := spelledTypes.find? fun p => p.1 == k then
        spelled name (pure "")
      else if integerTypes.contains k then builtin do return (← precision?) ++ (← signedness g k)
      else if decimalTypes.contains k then builtin precisionAndScale?
      else if signedDecimalTypes.contains k then
        builtin do return (← precisionAndScale?) ++ (← unsigned?)
      else if k == "VARCHAR" || k == "NVARCHAR" then builtin (length? true)
      else if k == "VARBINARY" then builtin (length? false)
      else if precisionTypes.contains k then builtin precision?
      else if k == "REAL" then builtin unsigned?
      else if k == "DOUBLE" then
        builtin do
          if ← word "PRECISION" then return " PRECISION" ++ (← unsigned?)
          else return (← precisionAndScale?) ++ (← unsigned?)
      else if k == "CHAR" || k == "CHARACTER" then
        builtin do
          if ← word "VARYING" then return " VARYING" ++ (← length? true)
          else if ← words ["LARGE", "OBJECT"] then return " LARGE OBJECT" ++ (← precision?)
          else length? true
      else if k == "BIT" then
        builtin do
          if ← word "VARYING" then return " VARYING" ++ (← precision?)
          else precision?
      else if k == "TIMESTAMP" || k == "TIME" then
        builtin do return (← precision?) ++ (← timeZone?)
      else if k == "DATETIME64" then
        spelled "DateTime64" do
          parenthesized do
            let n ← wholeNumber
            let zone ← do
              if ← symbol "," then pure (", '" ++ (← literalString g) ++ "'") else pure ""
            return "(" ++ n ++ zone ++ ")"
      else if k == "FIXEDSTRING" then
        spelled "FixedString" do return "(" ++ (← parenthesized wholeNumber) ++ ")"
      else if k == "INTERVAL" then
        skip
        if d.intervalOptions then
          pure (⟨.interval, [.text ("INTERVAL" ++ (← intervalFields?) ++ (← precision?))]⟩, false)
        else pure (⟨.interval, [.text "INTERVAL"]⟩, false)
      else if k == "ENUM" || k == "ENUM8" || k == "ENUM16" then builtin (enumMembers g)
      else if k == "SET" then builtin setMembers
      else if k == "ARRAY" then
        skip
        if d.oneOf [.snowflake] then pure (⟨.builtin, [.text "ARRAY"]⟩, false)
        else if d.oneOf [.clickhouse] then pure (⟨.builtin, .text "Array" :: (← enclosed)⟩, false)
        else do
          expectSymbol "<"
          let (t, closed) ← inner
          let closed ← closeAngle closed
          pure (⟨.builtin, [.text "ARRAY<"] ++ t.parts ++ [.text ">"]⟩, closed)
      else if k == "STRUCT" && d.oneOf [.duckdb] then composed k (fieldList g type)
      else if k == "STRUCT" && d.structTypes then
        skip
        let (fields, closed) ← structFields g inner
        let list := if fields.isEmpty then []
          else [Part.text "<"] ++ Part.joined ", " fields ++ [.text ">"]
        pure (⟨.builtin, .text "STRUCT" :: list⟩, closed)
      else if k == "UNION" && d.oneOf [.generic, .duckdb] then composed k (fieldList g type)
      else if k == "NULLABLE" && clickhouseTypes then composed "Nullable" enclosed
      else if k == "LOWCARDINALITY" && clickhouseTypes then composed "LowCardinality" enclosed
      else if k == "MAP" && clickhouseTypes then
        composed "Map" do
          parenthesized do
            let key ← type
            expectSymbol ","
            return Part.inParentheses [key.parts, (← type).parts]
      else if k == "NESTED" && clickhouseTypes then composed "Nested" (columnTypes g type)
      else if k == "TUPLE" && clickhouseTypes then
        composed "Tuple" do
          let fields ← parenthesized (commaList g (structField g inner))
          return Part.inParentheses (fields.map fun f => f.1)
      else if k == "ANY" && (← atOneOfAt 1 ["TYPE"]) then
        builtin do
          skip
          return " TYPE"
      else if k == "TABLE" then
        composed k do if ← atSymbol "(" then columnTypes g type else return []
      else if k == "SIGNED" || k == "UNSIGNED" then
        builtin do if ← word "INTEGER" then return " INTEGER" else return ""
      else if (k == "TSVECTOR" || k == "TSQUERY") && d.oneOf [.generic, .postgres] then
        builtin (pure "")
      else do
        let name ← objectName g false
        pure (⟨.custom, nameParts name ++ [.text (← modifiers?)]⟩, false)
    if d.bracketArrays then
      let t ← repeatStep (fun (t : DataType) => do
        if ← symbol "[" then
          let size ← attempt wholeNumber
          expectSymbol "]"
          return some ⟨.builtin, t.parts ++ [.text ("[" ++ size.getD "" ++ "]")]⟩
        else return none) t
      return (t, closed)
    else return (t, closed)

/-- A data type that closes its own brackets. The expressions in it are set aside. -/
def dataType (g : Grammar) : Parser DataType := do
  let t ← closedType (dataTypeWithin g ((← get).rest.length + 1))
  return { t with parts := Part.setAside t.parts }

/-- The definition of a column: its name, its type and its properties. -/
def columnDefinition (g : Grammar) : Parser (List Part) :=
  columnWith g (DataType.parts <$> dataType g)

end ColumnLint.Sql.Grammar
