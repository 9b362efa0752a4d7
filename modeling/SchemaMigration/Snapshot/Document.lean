import SchemaMigration.Snapshot.Builder

/-!
# Snapshot documents

A snapshot document names the dialect and lists the objects as a tree of nodes. A node has the
members of its definition beside its name, owner, comment, dependencies and children. The members
of the definition are looked at after the whole node was read.
-/

namespace SchemaMigration

/-- An object with those under it. -/
structure Node where
  name : String
  owner : Option String
  comment : Option String
  dependencies : List ObjectId
  children : List Node
  definition : Definition
  deriving Inhabited

/-- The members of a node that were read so far; those not known are kept for the definition. -/
structure NodeParts where
  name : Option String := none
  owner : Option (Option String) := none
  comment : Option (Option String) := none
  dependencies : Option (List ObjectId) := none
  children : Option (List Node) := none
  others : List (String × Json) := []

namespace Node

open Codec

mutual

/-- A node as a document. -/
def write : Node → Json
  | ⟨name, owner, comment, dependencies, children, definition⟩ =>
    .record ([("name", .string name), ("owner", text?.write owner),
      ("comment", text?.write comment),
      ("depends_on", (list ObjectId.layout.codec).write dependencies),
      ("children", .list (writeAll children)), ("kind", .string definition.kind.name)] ++
      definition.members)

/-- Nodes as documents. -/
def writeAll : List Node → List Json
  | [] => []
  | node :: nodes => node.write :: writeAll nodes

end

/-- The fault of a member that was read before. -/
def fresh {α : Type} (name : String) (part : Option α) : Except DecodeError Unit :=
  if part.isSome then .error (.duplicateField name) else .ok ()

/-- The node of its parts. -/
def ofParts (parts : NodeParts) (closed : Bool) : Except DecodeError Node :=
  match closed, parts.name with
  | false, _ => .error .malformed
  | true, none => .error (.missingField "name")
  | true, some name => do
    let definition ← Definition.ofMembers .buffered parts.others true
    return {
      name
      owner := parts.owner.getD none
      comment := parts.comment.getD none
      dependencies := parts.dependencies.getD []
      children := parts.children.getD []
      definition }

mutual

/-- Reads a node. -/
def read : Json → Except DecodeError Node
  | .object members closed => do ofParts (← readMembers {} members) closed
  | .refused (some (.object ..)) => .error .malformed
  | other => .error (other.mismatch "struct ObjectNode")

/-- Reads the members of a node one after the other. -/
def readMembers (parts : NodeParts) : List (String × Json) → Except DecodeError NodeParts
  | [] => .ok parts
  | (name, document) :: rest =>
    match name with
    | "name" => do
      fresh name parts.name
      readMembers { parts with name := ← string.read .streamed document } rest
    | "owner" => do
      fresh name parts.owner
      readMembers { parts with owner := ← text?.read .streamed document } rest
    | "comment" => do
      fresh name parts.comment
      readMembers { parts with comment := ← text?.read .streamed document } rest
    | "depends_on" => do
      fresh name parts.dependencies
      let dependencies ← (list ObjectId.layout.codec).read .streamed document
      readMembers { parts with dependencies } rest
    | "children" => do
      fresh name parts.children
      readMembers { parts with children := ← readList document } rest
    | _ =>
      if document.isUsable then
        readMembers { parts with others := parts.others ++ [(name, document)] } rest
      else .error .malformed

/-- Reads a list of nodes. -/
def readList : Json → Except DecodeError (List Node)
  | .array items closed => do whole closed (← readAll items)
  | .refused (some (.array ..)) => .error .malformed
  | other => .error (other.mismatch "a sequence")

/-- Reads nodes one after the other. -/
def readAll : List Json → Except DecodeError (List Node)
  | [] => .ok []
  | item :: items => do
    let node ← read item
    return node :: (← readAll items)

end

/-- Lists of nodes. -/
def listCodec : Codec (List Node) where
  write nodes := .list (writeAll nodes)
  read _ document := readList document

end Node

/-- What a snapshot document holds. -/
structure SnapshotDocument where
  dialect : Dialect := .postgres
  objects : List Node := []

namespace SnapshotDocument

/-- The layout of a snapshot document. -/
def layout : Layout SnapshotDocument where
  name := "SnapshotDocument"
  blank := {}
  fields :=
    [.needed "dialect" Dialect.codec (·.dialect) (fun v r => { r with dialect := v }),
      .defaulted "objects" Node.listCodec (·.objects) (fun v r => { r with objects := v })]

/-- A builder with the dependencies that were stated on the way to it. -/
structure Growth where
  builder : Builder
  stated : List (ObjectId × List ObjectId) := []

mutual

/-- Adds a node and those under it. -/
def grow (growth : Growth) (parent : ObjectId) : Node → Except MigrationError Growth
  | ⟨name, owner, comment, dependencies, children, definition⟩ => do
    let dialect := growth.builder.dialect
    if !dialect.supports definition.kind then throw (.unsupportedKind dialect definition.kind)
    let (id, builder) ← growth.builder.add parent name definition
    let builder ← match owner with
      | some owner => builder.setOwner id owner
      | none => pure builder
    let builder ← match comment with
      | some comment => builder.setComment id comment
      | none => pure builder
    growAll { growth with builder, stated := growth.stated ++ [(id, dependencies)] } id children

/-- Adds nodes one after the other. -/
def growAll (growth : Growth) (parent : ObjectId) : List Node → Except MigrationError Growth
  | [] => .ok growth
  | node :: nodes => do growAll (← grow growth parent node) parent nodes

end

/-- The builder of a document. Dependencies are stated after the whole tree was added, since they
may point forward. -/
def builder (document : SnapshotDocument) : Except MigrationError Builder := do
  let growth ← growAll { builder := .new document.dialect Sql.read } .database document.objects
  growth.stated.foldlM (fun builder (id, dependencies) =>
    dependencies.foldlM (fun builder dependency => builder.depend id dependency) builder)
    growth.builder

end SnapshotDocument

namespace Snapshot

/-- The builder of the text of a snapshot document; `path` stands in messages. -/
def parse (path text : String) : Except MigrationError Builder := do
  match SnapshotDocument.layout.codec.ofText text with
  | .ok document => document.builder
  | .error fault => .error (.badDocument path fault)

/-- The snapshot of the text of a snapshot document. -/
def ofText (path text : String) : Except MigrationError Snapshot := do
  (← parse path text).drain.finish

end Snapshot

end SchemaMigration
