import SchemaMigration.Object.Id

/-!
# Looking names up

A name as it stands in an expression may be quoted and may name its schema. It is looked up among
the identities of a snapshot without regard to the case of ASCII letters: with a schema only there,
without one in the schema of the object that mentions it, and then anywhere if just one identity
has the name.
-/

namespace SchemaMigration

/-- A name without the quotation marks, grave accents and brackets around it. -/
def unquoted (ident : String) : String :=
  Text.trimWhere (fun c => c == '"' || c == Char.ofNat 96 || c == '[' || c == ']')
    (Text.trim ident)

namespace NameLookup

/-- The identities of some kinds that have a name, kind by kind. -/
def candidates (ids : List ObjectId) (kinds : List ObjectKind) (name : String) : List ObjectId :=
  kinds.flatMap fun kind =>
    ids.filter fun id => id.kind = kind && Text.sameIgnoringCase id.bareName name

/-- The first of some identities in a schema. -/
def inSchema? (ids : List ObjectId) (schema : String) : Option ObjectId :=
  ids.find? fun id => (id.schemaName?.map (Text.sameIgnoringCase · schema)).getD false

/-- The only element of a list. -/
def only? : List ObjectId → Option ObjectId
  | [id] => some id
  | _ => none

/-- The identity that the parts of a name stand for, among those of some kinds; `near` is the
schema that a name without one is looked up in first. -/
def resolve? (ids : List ObjectId) (kinds : List ObjectKind) (near : Option String)
    (parts : List String) : Option ObjectId :=
  match parts.reverse with
  | [] => none
  | name :: outer =>
    let found := candidates ids kinds (unquoted name)
    match outer, near with
    | schema :: _, _ => inSchema? found (unquoted schema)
    | [], some near => inSchema? found near <|> only? found
    | [], none => only? found

end NameLookup

end SchemaMigration
