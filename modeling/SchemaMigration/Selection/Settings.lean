import SchemaMigration.Object.DefinitionDocument
import SchemaMigration.Selection.Filter

/-!
# Settings

The settings of a run, all of which have defaults, and their document.
-/

namespace SchemaMigration

/-- The settings of a run. An empty list of patterns selects everything, an empty list of kinds
allows every kind. -/
structure Settings where
  select : List String := []
  ignore : List IgnoreRule := []
  allowedKinds : List ObjectKind := []
  transaction : Bool := true
  /-- Paths of the scripts in front. -/
  pre : List String := []
  /-- Paths of the scripts behind. -/
  post : List String := []
  checkFunctionBodies : Bool := true
  deriving DecidableEq, Repr, Inhabited

open Codec SchemaMigration.Field

/-- Paths, which are strings. -/
def Codec.path : Codec String where
  write := .string
  read
    | _, .string value => .ok value
    | _, other => .error (other.mismatch "path string")

/-- The layout of an ignore rule. -/
def IgnoreRule.layout : Layout IgnoreRule where
  name := "IgnoreSpec"
  blank := {}
  fields :=
    [needed "pattern" string (·.pattern) (fun v r => { r with pattern := v }),
      defaulted "kinds" (list ObjectKind.codec) (·.kinds) (fun v r => { r with kinds := v })]

namespace Settings

/-- The layout of the settings. -/
def layout : Layout Settings where
  name := "DiffSettings"
  blank := {}
  fields :=
    [defaulted "select" texts (·.select) (fun v r => { r with select := v }),
      defaulted "ignore" (list IgnoreRule.layout.codec) (·.ignore)
        (fun v r => { r with ignore := v }),
      defaulted "allowed_types" (list ObjectKind.codec) (·.allowedKinds)
        (fun v r => { r with allowedKinds := v }),
      defaulted "transaction" bool (·.transaction) (fun v r => { r with transaction := v }),
      defaulted "pre" (list path) (·.pre) (fun v r => { r with pre := v }),
      defaulted "post" (list path) (·.post) (fun v r => { r with post := v }),
      defaulted "check_function_bodies" bool (·.checkFunctionBodies)
        (fun v r => { r with checkFunctionBodies := v })]

/-- The filter that the settings describe. -/
def filter (settings : Settings) : SelectionFilter where
  selection := .ofPatterns settings.select
  ignore := settings.ignore
  allowed := if settings.allowedKinds.isEmpty then none else some settings.allowedKinds

end Settings

end SchemaMigration
