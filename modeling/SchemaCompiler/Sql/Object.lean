import SchemaCompiler.FileSize
import SchemaCompiler.Schema.CustomType
import SchemaCompiler.Schema.Function
import SchemaCompiler.Schema.StorageBucket
import SchemaCompiler.Sql.Table

/-!
# Statements for other objects

* `Sql.createFunction` — `CREATE OR REPLACE FUNCTION`; a body in PL/pgSQL is put into a block;
* `Sql.createView` — `CREATE VIEW`, materialized or not;
* `Sql.createType` — `CREATE TYPE` for an enum or a composite, `CREATE DOMAIN` for a domain;
* `Sql.upsertBucket` — the row of a storage bucket, inserted or brought up to date.
-/

namespace SchemaCompiler.Sql

open Text (joinWith)

/-- The types of the arguments of a function, numbered from `position`. -/
def argumentList (position : Nat) : List Value → Except Fault (List String)
  | [] => .ok []
  | arg :: args => do
    let type ← typeName arg
    let rest ← argumentList (position + 1) args
    return ("$" ++ toString position ++ " " ++ type.toText) :: rest

/-- The body of a function. -/
def functionBody (f : Function) : String :=
  if f.options.language.equal (.text "plpgsql") then "BEGIN\n  " ++ f.body.toText ++ "\nEND;"
  else f.body.toText

/-- The statement that creates a function. -/
def createFunction (f : Function) : Except Fault String := do
  let o := f.options
  let args ← argumentList 1 f.args
  let returnType ← typeName f.returnType
  return "CREATE OR REPLACE FUNCTION " ++ f.name.toText ++ "(" ++ joinWith ", " args ++ ")\n" ++
    "RETURNS " ++ returnType.toText ++
    (match o.volatility with
      | some v => " " ++ Vocabulary.keyword v
      | none => "") ++
    (match o.security with
      | some s => " SECURITY " ++ Vocabulary.keyword s
      | none => "") ++
    " AS $$\n" ++ functionBody f ++ "\n$$ LANGUAGE " ++ o.language.toText ++ ";"

/-- The statements that create a view. -/
def createView (v : View) : Except Fault String := do
  let query ← v.query.textOnly .noSuchPart
  let kind := if v.options.materialized.isTrue then "MATERIALIZED VIEW" else "VIEW"
  return joinWith "\n" (("CREATE " ++ kind ++ " " ++ v.name.toText ++ " AS\n" ++
    Text.strip query ++ ";") :: commentOn (kind ++ " " ++ v.name.toText) v.options.comment)

/-- One column of a composite type: a name and a type. -/
def compositeColumn (column : Value) : Except Fault String := do
  match ← column.items with
  | [name, type] => return name.toText ++ " " ++ (← typeName type).toText
  | _ => .error (.misuse .wrongValue)

/-- The statement that creates a custom type. -/
def createType (t : CustomType) : Except Fault String := do
  let name := t.name.toText
  match t.kind with
  | some .enum =>
    return "CREATE TYPE " ++ name ++ " AS ENUM (" ++
      joinWith ", " ((← t.values.items).map literal) ++ ");"
  | some .composite =>
    return "CREATE TYPE " ++ name ++ " AS (" ++
      joinWith ", " (← (← t.fields.items).mapM compositeColumn) ++ ");"
  | _ =>
    let base ← typeName t.baseType
    return "CREATE DOMAIN " ++ name ++ " AS " ++ base.toText ++
      (if t.constraint.isTrue then
        " CONSTRAINT " ++ name ++ "_check CHECK (" ++ t.constraint.toText ++ ")"
      else "") ++ ";"

/-- The size limit of a bucket; what is no size is logged and set no limit. -/
def fileSizeLimit (limit : Value) : Traced String :=
  if limit.isNull then return "NULL"
  else do
    match ← FileSize.parse limit with
    | some size => wholeText size
    | none =>
      Traced.note .warning ("Could not parse file size limit " ++ limit.quoted ++ ", using NULL")
      return "NULL"

/-- The content types that a bucket takes. -/
def mimeTypes (types : Value) : Except Fault String := do
  if types.isNull then return "NULL"
  else if types.isTrue then
    return "ARRAY[" ++ joinWith ", " ((← types.items).map literal) ++ "]"
  else return "ARRAY[]::text[]"

/-- The statement that inserts a bucket or brings it up to date. -/
def upsertBucket (b : StorageBucket) : Traced String := do
  let o := b.options
  let id := literal b.name
  let limit ← fileSizeLimit o.fileSizeLimit
  let types ← mimeTypes o.mimeTypes
  return "INSERT INTO storage.buckets (id, name, public, file_size_limit, allowed_mime_types)\n" ++
    "VALUES (" ++ id ++ ", " ++ id ++ ", " ++
    (if o.isPublic.isTrue then "true" else "false") ++ ", " ++ limit ++ ", " ++ types ++ ")\n" ++
    "ON CONFLICT (id) DO UPDATE SET\n" ++
    "  name = EXCLUDED.name,\n" ++
    "  public = EXCLUDED.public,\n" ++
    "  file_size_limit = EXCLUDED.file_size_limit,\n" ++
    "  allowed_mime_types = EXCLUDED.allowed_mime_types;"

end SchemaCompiler.Sql
