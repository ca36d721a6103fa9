import GatewayDocs.Value.Failure

/-! # The interface of a stack

A stack that was deployed with documentation has an output that tells its interface
(`apiOutput`).  `apiOfStacks` looks for it in the description of stacks. -/

namespace GatewayDocs

/-- The output that tells the interface. -/
def apiOutput : String := "AwsDocApiId"

namespace Stack

/-- The items under a key; there are none if it is absent. -/
def listed (key : String) (v : Value) : Result (List Value) := do
  match (← v.asObject).get? key with
  | some items => items.members
  | none => return []

/-- The value of an output, if it is the one that tells the interface. -/
def apiOfOutput (output : Value) : Result (Option Value) := do
  let fields ← output.asObject
  return if (fields.get "OutputKey").equals (.str apiOutput) then some (fields.get "OutputValue")
    else none

/-- The interface that a stack tells. -/
def apiOfStack (stack : Value) : Result (Option Value) := do
  (← listed "Outputs" stack).findSomeM? apiOfOutput

/-- The interface that the first of several stacks tells that tells one. -/
def apiOfStacks (response : Value) : Result (Option Value) := do
  (← listed "Stacks" response).findSomeM? apiOfStack

end Stack
end GatewayDocs
