import SchemaMigration.Digest
import SchemaMigration.Object.DefinitionDocument
import SchemaMigration.Snapshot.Statement

/-!
# Fingerprints of statements

Three digests tell whether anything of a statement has changed: that of its own content, that of
its element, which adds its columns in their order, and that of its tree, which adds every other
child whatever their order.
-/

namespace SchemaMigration

/-- The digests of a statement. -/
structure Fingerprint where
  own : Digest
  element : Digest
  tree : Digest
  deriving DecidableEq, Repr, Inhabited

namespace Fingerprint

/-- The bytes of a text. -/
def bytes (text : String) : List UInt8 := text.toUTF8.data.toList

/-- The bytes of an optional text under a tag; nothing if it is absent. -/
def tagged (tag : String) : Option String → List UInt8
  | some value => bytes tag ++ 0 :: bytes value ++ [0]
  | none => []

/-- The bytes that stand for the content of a statement. -/
def ownBytes (s : Statement) : List UInt8 :=
  bytes s.kind.keyword ++ bytes s.definition.text ++ tagged "owner" s.owner ++
    tagged "comment" s.comment

/-- The bytes that stand for an element: its own digest, and name and own digest of each column. -/
def elementBytes (own : Digest) (columns : List (String × Digest)) : List UInt8 :=
  own.bytes ++ columns.flatMap fun (name, digest) => bytes name ++ digest.bytes

/-- The children of a tree in the order in which their digests enter it. -/
def sortedChildren (children : List (String × Digest)) : List (String × Digest) :=
  children.mergeSort fun a b => (compare a.1 b.1).isLE

/-- The bytes that stand for a tree: its element's digest, and the text and tree digest of each
other child. -/
def treeBytes (element : Digest) (children : List (String × Digest)) : List UInt8 :=
  element.bytes ++
    (sortedChildren children).flatMap fun (text, digest) => bytes text ++ digest.bytes

/-- The fingerprint of a statement, given those of its children. -/
def ofStatement (s : Statement) (children : List (ObjectId × Fingerprint)) : Fingerprint :=
  let own := Digest.sha256 (ownBytes s)
  let (columns, others) := children.partition fun child => child.1.kind = .column
  let element := Digest.sha256
    (elementBytes own (columns.map fun (id, print) => (id.name, print.own)))
  let tree := Digest.sha256
    (treeBytes element (others.map fun (id, print) => (id.display, print.tree)))
  ⟨own, element, tree⟩

/-- The fingerprints of statements of which each one's children stand behind it. -/
def table : List Statement → List (ObjectId × Fingerprint)
  | [] => []
  | s :: rest =>
    let known := table rest
    let children := s.children.filterMap fun child => (known.lookup child).map fun p => (child, p)
    (s.id, ofStatement s children) :: known

end Fingerprint

end SchemaMigration
