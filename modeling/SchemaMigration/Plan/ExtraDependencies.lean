import SchemaMigration.Object.DefinitionDocument
import SchemaMigration.Snapshot.Basic

/-!
# Extra dependencies

The user may state dependencies that neither definitions nor queries show, for each of the two
snapshots apart. Both ends of a pair have to be in the snapshot of their side.
-/

namespace SchemaMigration

/-- One object needs another. -/
structure DependencyPair where
  dependent : ObjectId := .database
  dependency : ObjectId := .database
  deriving DecidableEq, Repr, Inhabited

/-- Dependencies beside those of the snapshots, for either side. -/
structure ExtraDependencies where
  old : List DependencyPair := []
  new : List DependencyPair := []
  deriving DecidableEq, Repr, Inhabited

open Codec SchemaMigration.Field

/-- The layout of a pair. -/
def DependencyPair.layout : Layout DependencyPair where
  name := "DependencyPair"
  blank := {}
  fields :=
    [needed "dependent" ObjectId.layout.codec (·.dependent) (fun v r => { r with dependent := v }),
      needed "dependency" ObjectId.layout.codec (·.dependency)
        (fun v r => { r with dependency := v })]

namespace ExtraDependencies

/-- The layout of the pairs of both sides. -/
def layout : Layout ExtraDependencies where
  name := "AdditionalDependencies"
  blank := {}
  fields :=
    [defaulted "old" (list DependencyPair.layout.codec) (·.old) (fun v r => { r with old := v }),
      defaulted "new" (list DependencyPair.layout.codec) (·.new) (fun v r => { r with new := v })]

/-- Whether no pair is stated. -/
def isEmpty (extra : ExtraDependencies) : Bool := extra.old.isEmpty && extra.new.isEmpty

/-- The first identity of some pairs that a snapshot does not hold. -/
def missing? (pairs : List DependencyPair) (snapshot : Snapshot) : Option ObjectId :=
  (pairs.flatMap fun pair => [pair.dependent, pair.dependency]).find? (!snapshot.contains ·)

/-- Refuses pairs that name what their snapshot does not hold; the old side comes first. -/
def check (extra : ExtraDependencies) (old new : Snapshot) : Except MigrationError Unit :=
  match missing? extra.old old, missing? extra.new new with
  | some id, _ => .error (.unresolvedReference id .old)
  | none, some id => .error (.unresolvedReference id .new)
  | none, none => .ok ()

end ExtraDependencies

/-- What an object needs by some pairs, in their order. -/
def DependencyPair.dependenciesOf (pairs : List DependencyPair) (id : ObjectId) : List ObjectId :=
  (pairs.filter (·.dependent == id)).map (·.dependency)

/-- What needs an object by some pairs, in their order. -/
def DependencyPair.dependentsOf (pairs : List DependencyPair) (id : ObjectId) : List ObjectId :=
  (pairs.filter (·.dependency == id)).map (·.dependent)

end SchemaMigration
