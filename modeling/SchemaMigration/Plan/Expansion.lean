import SchemaMigration.Plan.Basic

/-!
# Expansion of plans

Dropping or altering an object may force others into the plan. What depends on an object that goes
away has to go first; what depends on an object that is altered may be refreshed in place. The
children of a recreated object come back with it. Expansion works through a queue of such changes
until nothing is left to do.
-/

namespace SchemaMigration

/-- How a change reaches what depends on the changed object. -/
inductive Trigger where
  /-- The old definition goes away, so dependents are dropped before. -/
  | removal
  /-- The object is altered in place, so dependents may be refreshed without a drop. -/
  | inPlace
  deriving DecidableEq, Repr

/-- How a treatment reaches dependents, if it does. -/
def Treatment.trigger? : Treatment → Option Trigger
  | drop | recreate => some .removal
  | alterWithDependents => some .inPlace
  | _ => none

/-- A changed object whose dependents are still to be looked at. -/
abbrev Change := ObjectId × Trigger

namespace Plan

/-- What depends in the old snapshot, or by extra pairs, on an object or on what it owns; the
object and what it owns are left out. -/
def dependents (plan : Plan) (extra : List DependencyPair) (id : ObjectId) : List ObjectId :=
  let sources := id :: (plan.old.descendants id).map (·.id)
  let found := sources.flatMap fun source =>
    plan.old.dependents source ++ DependencyPair.dependentsOf extra source
  (found.filter fun dependent => dependent ≠ id && !plan.old.isDescendant dependent id).eraseDups

/-- Puts one dependent of a changed object into the plan, or has it recreated instead of altered.
Gives the change that this is in turn, if any. -/
def refresh (plan : Plan) (trigger : Trigger) (id : ObjectId) : Plan × Option Change :=
  if plan.droppedWithTable id || !plan.old.contains id then (plan, none)
  else
    let inPlace :=
      if trigger = .inPlace then (plan.new.get? id).bind plan.new.dialect.refresh? else none
    match plan.get? id, inPlace with
    | some entry, none =>
      if entry.treatment.alters then (plan.reassign id .recreate, some (id, .removal))
      else (plan, none)
    | some _, some _ => (plan, none)
    | none, some statement =>
      (plan.derive id .alter .refreshedInPlace [statement], some (id, .inPlace))
    | none, none =>
      let treatment := if plan.new.contains id then .recreate else .drop
      (plan.derive id treatment .refreshed [], some (id, .removal))

/-- Brings back one child of a recreated object. Sub-elements are created again with their owner,
other children are recreated themselves. -/
def restoreChild (plan : Plan) (child : ObjectId) : Plan × Option Change :=
  let existed := plan.old.contains child
  match plan.get? child, child.kind.isSubElement with
  | some entry, true =>
    (if entry.treatment ≠ .create && existed then plan.reassign child .create else plan, none)
  | some entry, false =>
    if entry.treatment.alters then (plan.reassign child .recreate, some (child, .removal))
    else (plan, none)
  | none, false =>
    if existed then (plan.derive child .recreate .recreatedChild [], some (child, .removal))
    else (plan.derive child .create .recreatedChild [], none)
  | none, true => (plan.derive child .create .recreatedChild [], none)

/-- Drops one child of a recreated object that the new snapshot does not hold. -/
def removeChild (plan : Plan) (child : ObjectId) : Plan × Option Change :=
  (plan.derive child .drop .recreatedChild [], some (child, .removal))

/-- The children of a recreated object that come back, columns aside. -/
def restored (plan : Plan) (parent : ObjectId) : List ObjectId :=
  ((plan.new.children parent).filter (·.kind ≠ .column)).map (·.id)

/-- The children of a recreated object that go away for good and have no entry yet. -/
def removed (plan : Plan) (parent : ObjectId) : List ObjectId :=
  ((plan.old.children parent).filter fun child =>
    !child.kind.isSubElement && !plan.new.contains child.id && !plan.contains child.id).map (·.id)

end Plan

/-- A plan that is being expanded. -/
structure Expansion where
  plan : Plan
  /-- Changes whose dependents are still to be looked at. -/
  queue : List Change := []
  /-- Recreated objects whose children are in the plan. -/
  restored : List ObjectId := []
  deriving Repr

namespace Expansion

/-- Applies a change of the plan and queues what follows from it. -/
def apply (e : Expansion) (change : Plan → Plan × Option Change) : Expansion :=
  let (plan, next) := change e.plan
  { e with plan, queue := e.queue ++ next.toList }

/-- Applies a change of the plan for each of some objects. -/
def applyAll (e : Expansion) (change : ObjectId → Plan → Plan × Option Change)
    (ids : List ObjectId) : Expansion :=
  ids.foldl (fun e id => e.apply (change id)) e

/-- The expansion with the changes that the entries of a plan are. -/
def start (plan : Plan) : Expansion where
  plan
  queue := plan.entries.filterMap fun entry =>
    entry.treatment.trigger?.map fun trigger => (entry.id, trigger)

/-- The recreated objects whose children are still to be looked at. -/
def pending (e : Expansion) : List ObjectId :=
  ((e.plan.entries.filter (·.treatment = .recreate)).map (·.id)).filter (!e.restored.contains ·)

/-- Brings the children of one recreated object into the plan. -/
def restore (e : Expansion) (parent : ObjectId) : Expansion :=
  let e := e.applyAll (fun child plan => plan.restoreChild child) (e.plan.restored parent)
  let e := e.applyAll (fun child plan => plan.removeChild child) (e.plan.removed parent)
  { e with restored := e.restored ++ [parent] }

/-- One step: the dependents of the first queued change, or with an empty queue the children of
all recreated objects that are still to be looked at. -/
def step? (extra : List DependencyPair) (e : Expansion) : Option Expansion :=
  match e.queue, e.pending with
  | (id, trigger) :: rest, _ =>
    some ({ e with queue := rest }.applyAll (fun dependent plan => plan.refresh trigger dependent)
      (e.plan.dependents extra id))
  | [], [] => none
  | [], parents => some (parents.foldl restore e)

/-- Steps until none is left, at most so many. -/
def run (extra : List DependencyPair) : Nat → Expansion → Expansion
  | 0, e => e
  | fuel + 1, e =>
    match e.step? extra with
    | some next => run extra fuel next
    | none => e

end Expansion

/-- The plan with everything that its entries force into it. An object is queued at most once for
either trigger and its children are restored at most once, which bounds the steps. -/
def Plan.expand (plan : Plan) (extra : List DependencyPair) : Plan :=
  let objects := plan.old.size + plan.new.size + plan.entries.length
  (Expansion.run extra (3 * objects + 1) (.start plan)).plan

end SchemaMigration
