import SchemaMigration.Plan.Step

/-!
# The steps of a plan and their precedences

Every entry of a plan asks for steps. Columns are created and dropped with their table, and so are
constraints unless they are detached; these have no steps of their own, and the step of their table
takes over what they depend on. An object is created after what it needs and dropped before it.
Where a chain of untouched objects leads from one step to another, pass-through steps carry the
order along.
-/

namespace SchemaMigration

/-- What was given up to break cycles: constraints are taken out of the definitions of their tables,
and single precedences through pass-through steps are dropped. -/
structure Breaks where
  detached : List ObjectId := []
  severed : List (StepKey × StepKey) := []
  deriving DecidableEq, Repr, Inhabited

/-- A plan with everything that the order of its steps depends on. -/
structure Staging where
  plan : Plan
  extra : ExtraDependencies := {}
  breaks : Breaks := {}
  deriving Repr

namespace Staging

variable (st : Staging)

/-! ## Steps -/

/-- Whether a sub-element is created and dropped together with its table. -/
def travels (id : ObjectId) : Bool :=
  match id.kind with
  | .column => true
  | .constraint => !st.breaks.detached.contains id
  | _ => false

/-- The steps of one entry. -/
def entrySteps (entry : PlanEntry) : Except MigrationError (List Step) := do
  let id := entry.id
  let step (kind : StepKind) (statement : Statement) : Step := ⟨⟨kind, id⟩, statement, entry.order⟩
  let dropped ←
    if entry.treatment.drops && !(st.plan.droppedWithTable id && st.travels id) then
      pure [step .drop (← st.plan.old.require id .old)]
    else pure []
  let absorbed := st.plan.createdWithTable id && st.travels id
  let created ←
    if entry.treatment.creates && !absorbed then
      pure [step .create (← st.plan.new.require id .new)]
    else pure []
  let altered ←
    if entry.treatment.alters && !absorbed then
      pure [step .alter (← st.plan.new.require id .new)]
    else pure []
  return dropped ++ created ++ altered

/-- The steps of all entries, in the order of the plan. -/
def plannedSteps : Except MigrationError (List Step) := do
  return (← st.plan.entries.mapM st.entrySteps).flatten

/-- The step of a detached constraint that goes with a step of its table, unless it has one. -/
def stepBeside (planned : List Step) (kind : StepKind) (snapshot : Snapshot) (id : ObjectId) :
    List Step :=
  match snapshot.get? id, planned.find? (·.key == ⟨kind, snapshot.topLevel id⟩) with
  | some statement, some table =>
    if Steps.has planned ⟨kind, id⟩ then [] else [⟨⟨kind, id⟩, statement, table.order⟩]
  | _, _ => []

/-- The steps of detached constraints whose tables are created or dropped. -/
def detachedSteps (planned : List Step) : List Step :=
  (ObjectId.sortedSet st.breaks.detached).flatMap fun id =>
    stepBeside planned .create st.plan.new id ++ stepBeside planned .drop st.plan.old id

/-! ## Precedences -/

/-- A precedence, unless it is of a step and itself or was severed. -/
def precede (earlier later : StepKey) (reason : Reason) : List Precedence :=
  if earlier = later || (reason = .soft && st.breaks.severed.contains (earlier, later)) then []
  else [⟨earlier, later, reason⟩]

/-- A statement with those under it whose step it takes over; for a constraint its identity. -/
def carried (s : Statement) (children : List Statement) : List (Statement × Option ObjectId) :=
  (s, none) :: (children.filter fun child => st.travels child.id).map fun child =>
    (child, if child.kind = .constraint then some child.id else none)

/-- What the new form of an object needs. -/
def newNeeds (s : Statement) : List ObjectId :=
  s.dependencies ++ DependencyPair.dependenciesOf st.extra.new s.id

/-- What the old form of an object needs. -/
def oldNeeds (s : Statement) : List ObjectId :=
  s.dependencies ++ DependencyPair.dependenciesOf st.extra.old s.id

/-- The step that brings an object to its new form, directly or with its table. -/
def installer? (steps : List Step) (id : ObjectId) : Option (StepKey × Reason) :=
  let table : StepKey := ⟨.create, st.plan.new.topLevel id⟩
  if Steps.has steps ⟨.create, id⟩ then some (⟨.create, id⟩, .hard)
  else if Steps.has steps ⟨.alter, id⟩ then some (⟨.alter, id⟩, .hard)
  else if id.kind.isSubElement && st.travels id && Steps.has steps table then
    some (table, if id.kind = .constraint then .inline id else .hard)
  else none

/-- The step that drops an object, directly or with its table. -/
def remover? (steps : List Step) (id : ObjectId) : Option StepKey :=
  let table : StepKey := ⟨.drop, st.plan.old.topLevel id⟩
  if Steps.has steps ⟨.drop, id⟩ then some ⟨.drop, id⟩
  else if id.kind.isSubElement && st.travels id && Steps.has steps table then some table
  else none

/-- Precedences in the making, with the pass-through steps found so far. -/
structure Web where
  passes : List Step := []
  precedences : List Precedence := []
  /-- For each untouched object that was looked at, its pass-through step if it has one. -/
  known : List (ObjectId × Option StepKey) := []
  deriving Repr

/-- Adds precedences. -/
def Web.add (web : Web) (precedences : List Precedence) : Web :=
  { web with precedences := web.precedences ++ precedences }

/-- The pass-through step of an untouched object. It has one if something that it needs leads to a
step. Objects on the way here, which `path` lists, are not followed again. -/
def passThrough (steps : List Step) : Nat → List ObjectId → Web → ObjectId → Web × Option StepKey
  | 0, _, web, _ => (web, none)
  | depth + 1, path, web, id =>
    match web.known.lookup id, st.plan.new.get? id with
    | some step, _ => (web, step)
    | none, none => (web, none)
    | none, some statement =>
      if path.contains id then (web, none)
      else
        let (web, sources) := (st.newNeeds statement).foldl (fun (web, sources) need =>
          let (web, source) :=
            match st.installer? steps need with
            | some (step, _) => (web, some step)
            | none => passThrough steps depth (id :: path) web need
          (web, sources ++ source.toList)) (web, [])
        if sources.isEmpty then ({ web with known := (id, none) :: web.known }, none)
        else
          let key : StepKey := ⟨.passThrough, id⟩
          ({ passes := web.passes ++ [⟨key, statement, st.plan.nextOrder⟩]
             precedences :=
               web.precedences ++ sources.flatMap fun source => st.precede source key .soft
             known := (id, some key) :: web.known }, some key)

/-- The step after which an object has its new form, if any step leads to it. -/
def source (steps : List Step) (web : Web) (id : ObjectId) : Web × Option (StepKey × Reason) :=
  match st.installer? steps id with
  | some found => (web, some found)
  | none =>
    let (web, step) := st.passThrough steps (st.plan.new.size + 1) [] web id
    (web, step.map (·, .soft))

/-- A step runs after the source of something it needs, which may be on account of a constraint. -/
def needOf (steps : List Step) (key : StepKey) (web : Web) (need : ObjectId × Option ObjectId) :
    Web :=
  match st.source steps web need.1 with
  | (web, none) => web
  | (web, some (earlier, reason)) =>
    let reason := match reason, need.2 with
      | .soft, _ => .soft
      | _, some constraint => .inline constraint
      | reason, none => reason
    web.add (st.precede earlier key reason)

/-- The objects that carried statements need, outside the object itself and what it owns. -/
def foreignNeeds (snapshot : Snapshot) (id : ObjectId) (needs : Statement → List ObjectId)
    (carried : List (Statement × Option ObjectId)) : List (ObjectId × Option ObjectId) :=
  (carried.flatMap fun (s, constraint) => (needs s).map (·, constraint)).filter fun (need, _) =>
    need ≠ id && !snapshot.isDescendant need id

/-- An object is created after its parent, after its own drop and after the drops of all relations
of its name. -/
def afterDrops (steps : List Step) (planned : List Step) (step : Step) : List Precedence :=
  let parent := step.statement.parent.toList.map (StepKey.mk .create)
  let same := (planned.filter fun other =>
    other.key.kind = .drop && step.key.id.relationKey?.isSome &&
      other.key.id.relationKey? == step.key.id.relationKey?).map (·.key)
  let own := StepKey.mk .drop step.key.id
  ((parent ++ [own]).filter (Steps.has steps) ++ same).flatMap fun earlier =>
    st.precede earlier step.key .hard

/-- An object is altered before what it no longer needs is dropped. -/
def beforeReleased (steps : List Step) (step : Step) : List Precedence :=
  match st.plan.old.get? step.key.id with
  | none => []
  | some previous =>
    let released := (st.oldNeeds previous).filter (!step.statement.dependencies.contains ·)
    (released.filterMap (st.remover? steps)).flatMap fun later => st.precede step.key later .hard

/-- The precedences of a step that creates or alters. -/
def creation (steps planned : List Step) (web : Web) (step : Step) : Web :=
  let creates := step.key.kind = .create
  let children := if creates then st.plan.new.children step.key.id else []
  let carried := st.carried step.statement children
  let needs := foreignNeeds st.plan.new step.key.id st.newNeeds carried
  let web := needs.foldl (st.needOf steps step.key) web
  web.add (if creates then st.afterDrops steps planned step else st.beforeReleased steps step)

/-- The precedences of a step that drops: it runs before the drop and before the alteration of what
the object needed, and before the drop of its parent. -/
def removal (steps : List Step) (step : Step) : List Precedence :=
  let id := step.key.id
  let children := if id.kind.isSubElement then []
    else (st.plan.old.children id).filter (·.kind.isSubElement)
  let needs := foreignNeeds st.plan.old id st.oldNeeds (st.carried step.statement children)
  let before := needs.flatMap fun (need, constraint) =>
    let altered := [StepKey.mk .alter need].filter (Steps.has steps)
    ((st.remover? steps need).toList ++ altered).flatMap fun later =>
      st.precede step.key later ((constraint.map Reason.inline).getD .hard)
  let parent := step.statement.parent.toList.map (StepKey.mk .drop)
  before ++ (parent.filter (Steps.has steps)).flatMap fun later => st.precede step.key later .hard

/-- The precedences of one step. -/
def precedencesOf (steps planned : List Step) (web : Web) (step : Step) : Web :=
  match step.key.kind with
  | .create | .alter => st.creation steps planned web step
  | .drop => web.add (st.removal steps step)
  | .passThrough => web

/-- The graph of all steps. -/
def stepGraph : Except MigrationError StepGraph := do
  let planned ← st.plannedSteps
  let steps := planned ++ st.detachedSteps planned
  let web := steps.foldl (st.precedencesOf steps planned) {}
  return { steps := steps ++ web.passes, precedences := web.precedences }

end Staging

end SchemaMigration
