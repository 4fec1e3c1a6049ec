import SchemaCompiler.Text.Case

/-!
# Vocabularies

The closed lists of words that a definition chooses from: policy actions, referential actions,
trigger timings and scopes, function volatilities and security modes, kinds of custom types and of
relationships.  A `Vocabulary` gives each list its title and each member its label, the word that a
definition uses for it; `Member` is a member of any of them.
-/

namespace SchemaCompiler

/-- What a row level security policy applies to. -/
inductive PolicyAction where
  | select | insert | update | delete | all
  deriving DecidableEq, Repr

/-- What a foreign key does when the row it points to changes or goes. -/
inductive ReferentialAction where
  | cascade | restrict | setNull | setDefault
  deriving DecidableEq, Repr

/-- When a trigger fires. -/
inductive TriggerTiming where
  | before | after | insteadOf
  deriving DecidableEq, Repr

/-- What a trigger fires for. -/
inductive TriggerScope where
  | row | statement
  deriving DecidableEq, Repr

/-- What the result of a function may depend on. -/
inductive Volatility where
  | immutable | stable | volatile
  deriving DecidableEq, Repr

/-- Whose rights a function runs with. -/
inductive SecurityMode where
  | definer | invoker
  deriving DecidableEq, Repr

/-- The kinds of custom types. -/
inductive TypeKind where
  | enum | composite | domain
  deriving DecidableEq, Repr

/-- The kinds of relationships between tables. -/
inductive RelationshipKind where
  | belongsTo | hasOne | hasMany | manyToMany
  deriving DecidableEq, Repr

/-- A member of one of the vocabularies. -/
inductive Member where
  | policyAction (m : PolicyAction)
  | referentialAction (m : ReferentialAction)
  | triggerTiming (m : TriggerTiming)
  | triggerScope (m : TriggerScope)
  | volatility (m : Volatility)
  | securityMode (m : SecurityMode)
  | typeKind (m : TypeKind)
  | relationshipKind (m : RelationshipKind)
  deriving DecidableEq, Repr

/-- A closed list of words. -/
class Vocabulary (α : Type) where
  /-- The name of the list. -/
  title : String
  /-- All members, in the order in which an error message offers them. -/
  members : List α
  /-- The word for a member. -/
  label : α → String
  /-- The member among those of all vocabularies. -/
  toMember : α → Member
  /-- The member of this vocabulary, if it is one. -/
  ofMember? : Member → Option α

instance : Vocabulary PolicyAction where
  title := "PolicyAction"
  members := [.select, .insert, .update, .delete, .all]
  label
    | .select => "select"
    | .insert => "insert"
    | .update => "update"
    | .delete => "delete"
    | .all => "all"
  toMember := .policyAction
  ofMember?
    | .policyAction m => some m
    | _ => none

instance : Vocabulary ReferentialAction where
  title := "ReferentialAction"
  members := [.cascade, .restrict, .setNull, .setDefault]
  label
    | .cascade => "cascade"
    | .restrict => "restrict"
    | .setNull => "set_null"
    | .setDefault => "set_default"
  toMember := .referentialAction
  ofMember?
    | .referentialAction m => some m
    | _ => none

instance : Vocabulary TriggerTiming where
  title := "TriggerTiming"
  members := [.before, .after, .insteadOf]
  label
    | .before => "before"
    | .after => "after"
    | .insteadOf => "instead_of"
  toMember := .triggerTiming
  ofMember?
    | .triggerTiming m => some m
    | _ => none

instance : Vocabulary TriggerScope where
  title := "TriggerScope"
  members := [.row, .statement]
  label
    | .row => "row"
    | .statement => "statement"
  toMember := .triggerScope
  ofMember?
    | .triggerScope m => some m
    | _ => none

instance : Vocabulary Volatility where
  title := "Volatility"
  members := [.immutable, .stable, .volatile]
  label
    | .immutable => "immutable"
    | .stable => "stable"
    | .volatile => "volatile"
  toMember := .volatility
  ofMember?
    | .volatility m => some m
    | _ => none

instance : Vocabulary SecurityMode where
  title := "SecurityMode"
  members := [.definer, .invoker]
  label
    | .definer => "definer"
    | .invoker => "invoker"
  toMember := .securityMode
  ofMember?
    | .securityMode m => some m
    | _ => none

instance : Vocabulary TypeKind where
  title := "TypeKind"
  members := [.enum, .composite, .domain]
  label
    | .enum => "enum"
    | .composite => "composite"
    | .domain => "domain"
  toMember := .typeKind
  ofMember?
    | .typeKind m => some m
    | _ => none

instance : Vocabulary RelationshipKind where
  title := "RelationshipKind"
  members := [.belongsTo, .hasOne, .hasMany, .manyToMany]
  label
    | .belongsTo => "belongs_to"
    | .hasOne => "has_one"
    | .hasMany => "has_many"
    | .manyToMany => "many_to_many"
  toMember := .relationshipKind
  ofMember?
    | .relationshipKind m => some m
    | _ => none

namespace Vocabulary

/-- The member whose label is `word`. -/
def ofLabel? (α : Type) [Vocabulary α] (word : String) : Option α :=
  (members (α := α)).find? fun m => label m == word

/-- The label of a member in capitals, as SQL writes it. -/
def keyword {α : Type} [Vocabulary α] (m : α) : String := Text.upper (label m)

end Vocabulary

namespace Member

/-- The vocabulary that a member belongs to. -/
def title : Member → String
  | .policyAction _ => Vocabulary.title PolicyAction
  | .referentialAction _ => Vocabulary.title ReferentialAction
  | .triggerTiming _ => Vocabulary.title TriggerTiming
  | .triggerScope _ => Vocabulary.title TriggerScope
  | .volatility _ => Vocabulary.title Volatility
  | .securityMode _ => Vocabulary.title SecurityMode
  | .typeKind _ => Vocabulary.title TypeKind
  | .relationshipKind _ => Vocabulary.title RelationshipKind

/-- The word for a member. -/
def label : Member → String
  | .policyAction m => Vocabulary.label m
  | .referentialAction m => Vocabulary.label m
  | .triggerTiming m => Vocabulary.label m
  | .triggerScope m => Vocabulary.label m
  | .volatility m => Vocabulary.label m
  | .securityMode m => Vocabulary.label m
  | .typeKind m => Vocabulary.label m
  | .relationshipKind m => Vocabulary.label m

/-- The name of a member: its vocabulary and its label in capitals. -/
def name (m : Member) : String := m.title ++ "." ++ Text.upper m.label

/-- The member of the vocabulary `title` with the label `word`. -/
def ofLabel? (title word : String) : Option Member :=
  let find (α : Type) [Vocabulary α] : Option Member :=
    if title = Vocabulary.title α then (Vocabulary.ofLabel? α word).map Vocabulary.toMember
    else none
  find PolicyAction <|> find ReferentialAction <|> find TriggerTiming <|> find TriggerScope
    <|> find Volatility <|> find SecurityMode <|> find TypeKind <|> find RelationshipKind

end Member
end SchemaCompiler
