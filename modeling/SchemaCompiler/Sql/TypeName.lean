import SchemaCompiler.Value.Reading

/-!
# Type names

Definitions may use short names for common types; `typeName` gives the name that PostgreSQL knows.
Any other name stands for itself, so `varchar(255)` or a custom type needs no entry.
-/

namespace SchemaCompiler.Sql

/-- The names that PostgreSQL has for its own types. -/
def knownTypes : List String :=
  ["smallint", "integer", "bigint", "decimal", "numeric", "real", "double_precision",
    "smallserial", "serial", "bigserial", "money", "varchar", "char", "text", "bytea",
    "timestamp", "timestamptz", "date", "time", "timetz", "interval", "boolean", "enum",
    "point", "line", "lseg", "box", "path", "polygon", "circle", "cidr", "inet", "macaddr",
    "macaddr8", "bit", "bit_varying", "tsvector", "tsquery", "uuid", "xml", "json", "jsonb",
    "array", "int4range", "int8range", "numrange", "tsrange", "tstzrange", "daterange"]

/-- Short names and what they stand for. -/
def typeAliases : List (String × String) :=
  [("string", "text"), ("text", "text"), ("integer", "integer"), ("bigint", "bigint"),
    ("float", "real"), ("decimal", "decimal"), ("boolean", "boolean"), ("uuid", "uuid"),
    ("timestamptz", "timestamptz"), ("timestamp", "timestamp"), ("date", "date"),
    ("time", "time"), ("json", "json"), ("jsonb", "jsonb")]

/-- The name under which a type is looked up: the label of a member, otherwise the value. -/
def identifier : Value → Value
  | .member m => .text m.label
  | v => v

/-- The name for a type. -/
def typeName (type : Value) : Except Fault Value :=
  match identifier type with
  | .text s => .ok (.text ((typeAliases.lookup s).getD s))
  | v => if v.isHashable then .ok v else .error (.misuse .wrongType)

/-- Whether a value names one of PostgreSQL's own types. -/
def isKnownType (type : Value) : Except Fault Bool :=
  match identifier type with
  | .text s => .ok (knownTypes.contains s)
  | v => if v.isHashable then .ok false else .error (.misuse .wrongType)

/-- Whether a value names an action that a policy can be for. -/
def isPolicyAction (action : Value) : Bool :=
  match identifier action with
  | .text s => ((Vocabulary.members (α := PolicyAction)).map Vocabulary.label).contains s
  | _ => false

end SchemaCompiler.Sql
