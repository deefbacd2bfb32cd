import RecordQuery.Aggregate.Registry
import RecordQuery.Plan.Run

/-! Plans run with a registry of aggregate functions. A call of a function that is not registered
ends the run, and with the standard registry there is no such call. -/
namespace RecordQuery

/-- The call of a function that is not registered. -/
structure Unregistered where
  call : Aggregate.Call

def Unregistered.message (error : Unregistered) : String :=
  "query execution failed: no aggregate registered for " ++ error.call.text

namespace Aggregate.Registry

def start (registry : Registry) (policy : MissingPolicy) (call : Call) : Except Unregistered Tally :=
  match registry.find? call.function with
  | some function => .ok (.start function policy)
  | none => .error ⟨call⟩

/-- All tallies are started before the first row is read. -/
def results (registry : Registry) (policy : MissingPolicy) (rows : Relation) (calls : List (Call × String)) :
    Except Unregistered Record :=
  (calls.mapM fun call => registry.start policy call.1).map fun started =>
    .ofList (calls.zipWith (fun call tally => (call.2, tally.result)) (rows.foldl (addRow calls) started))

def withResults (registry : Registry) (policy : MissingPolicy) (base : Record) (members : Relation)
    (calls : List NamedCall) : Except Unregistered Record :=
  (registry.results policy members (calls.map fun named => (named.call, named.key))).map fun results =>
    calls.foldl (Record.addResult results) base

def groupRows (registry : Registry) (policy : MissingPolicy) (keys : List String) (calls : List NamedCall)
    (rows : Relation) : Except Unregistered Relation :=
  if keys.isEmpty then (registry.withResults policy .empty rows calls).map ([·])
  else (Group.ofRows keys rows).mapM fun group =>
    registry.withResults policy (group.base keys) group.members calls

def runStage (registry : Registry) (policy : MissingPolicy) (stage : Stage) (rows : Relation) :
    Except Unregistered Relation :=
  match stage with
  | .group keys calls => registry.groupRows policy keys calls rows
  | stage => .ok (stage.run policy rows)

def run (registry : Registry) (policy : MissingPolicy) (plan : Plan) (rows : Relation) :
    Except Unregistered Relation :=
  plan.foldlM (fun rows stage => registry.runStage policy stage rows) rows

end Aggregate.Registry

/-- The calls of a stage, from left to right. -/
def Stage.calls : Stage → List Aggregate.Call
  | group _ calls => calls.map NamedCall.call
  | _ => []

namespace Aggregate.Registry

variable {registry : Registry} {policy : MissingPolicy}

theorem start_eq (registry : Registry) (policy : MissingPolicy) (call : Call) :
    registry.start policy call =
      if registry.contains call.function then .ok (.start call.function policy) else .error ⟨call⟩ := by
  rw [start, find?]
  cases registry.contains call.function <;> rfl

/-- The first call that is not registered ends the run; without one the tallies of all calls start. -/
theorem mapM_start (calls : List (Call × String)) :
    calls.mapM (fun call => registry.start policy call.1) =
      match calls.find? fun call => !registry.contains call.1.function with
      | some call => .error ⟨call.1⟩
      | none => .ok (calls.map fun call => .start call.1.function policy) := by
  induction calls with
  | nil => rfl
  | cons call calls ih =>
    rw [List.mapM_cons, start_eq, List.find?_cons, ih]
    cases registry.contains call.1.function with
    | false => rfl
    | true =>
      simp only [Bool.not_true]
      cases calls.find? fun call => !registry.contains call.1.function <;> rfl

/-- The results do not depend on the registry, unless it lacks the function of a call. -/
theorem results_eq_find? (rows : Relation) (calls : List (Call × String)) :
    registry.results policy rows calls =
      match calls.find? fun call => !registry.contains call.1.function with
      | some call => .error ⟨call.1⟩
      | none => .ok (Aggregate.results policy rows calls) := by
  rw [results, mapM_start]
  cases calls.find? fun call => !registry.contains call.1.function <;> rfl

example : (empty.results .zero [] [(⟨.sum, some "sales"⟩, "total")]).mapError Unregistered.message =
    .error "query execution failed: no aggregate registered for SUM(sales)" := rfl

section

variable {calls : List NamedCall} (registered : ∀ named ∈ calls, registry.contains named.call.function = true)

include registered

theorem withResults_of_registered (base : Record) (members : Relation) :
    registry.withResults policy base members calls = .ok (Record.withResults policy base members calls) := by
  have none : ((calls.map fun named => (named.call, named.key)).find? fun call =>
      !registry.contains call.1.function) = none := by
    simpa using registered
  rw [withResults, results_eq_find?, none]
  rfl

theorem groupRows_of_registered (keys : List String) (rows : Relation) :
    registry.groupRows policy keys calls rows = .ok (RecordQuery.groupRows policy keys calls rows) := by
  simp only [groupRows, RecordQuery.groupRows, withResults_of_registered registered]
  split
  · rfl
  · exact List.mapM_pure

end

theorem runStage_of_registered {stage : Stage}
    (registered : ∀ call ∈ stage.calls, registry.contains call.function = true) (rows : Relation) :
    registry.runStage policy stage rows = .ok (stage.run policy rows) := by
  cases stage with
  | group keys calls =>
    exact groupRows_of_registered (fun named member => registered _ (List.mem_map_of_mem member)) keys rows
  | _ => rfl

/-- A plan whose calls are registered runs to its end. -/
theorem run_of_registered {plan : Plan}
    (registered : ∀ stage ∈ plan, ∀ call ∈ stage.calls, registry.contains call.function = true) (rows : Relation) :
    registry.run policy plan rows = .ok (plan.run policy rows) := by
  induction plan generalizing rows with
  | nil => rfl
  | cons stage plan ih =>
    have first : registry.runStage policy stage rows = _ :=
      runStage_of_registered (registered stage List.mem_cons_self) rows
    rw [run, List.foldlM_cons, first]
    exact ih (fun later member => registered later (List.mem_cons_of_mem _ member)) _

/-- With all functions registered every plan runs to its end, whatever calls its query makes. -/
theorem run_standard (policy : MissingPolicy) (plan : Plan) (rows : Relation) :
    standard.run policy plan rows = .ok (plan.run policy rows) :=
  run_of_registered (fun _ _ call _ => standard_contains call.function) rows

end Aggregate.Registry
end RecordQuery
