/-
Case executions: their variables and their life cycle.

Whatever can be wrong with a request is found before the engine is asked, so a command
is either not made at all or made as a whole.  Removals come before new values in every
command.
-/
import CaseGateway.Config
import CaseGateway.Http.Exchange
import CaseGateway.Http.Input
import CaseGateway.Http.Multipart
import CaseGateway.Value.Decode

namespace CaseGateway.Http

/-- The scope that a path segment names. -/
def scopeOf (segment : String) : Except RestError VariableScope :=
  if segment = "variables" then .ok .global
  else if segment = "localVariables" then .ok .localOnly
  else .error (.notFound (.executionResource segment))

/-- The scope of a change that is marked as local or not. -/
def scopeOfMark (isLocal : Bool) : VariableScope :=
  if isLocal then .localOnly else .global

/-- The value of a variable, for an attempt that needs it. -/
def valueFor (formats : DataFormats) (attempt : Attempt) (name : String) (w : WireValue) :
    Except RestError TypedValue :=
  (formats.decode w).mapError fun e => .invalidRequest (.variableValue attempt name e)

/-- A response without content, whatever was done. -/
def done (_ : Unit) : Except RestError Response := .ok .noContent

/-! ### Looking at variables -/

/-- How a variable is to be shown: its scope, and whether as a decoded object. -/
def readView (r : Request) (segment : String) : Except RestError (VariableScope × Bool) := do
  let scope ← scopeOf segment
  let ps ← r.parameters
  return (scope, ← ps.deserializeValues)

/-- Shows all variables in a scope. -/
def getVariables (r : Request) (id segment : String) : Exchange :=
  .given (readView r segment) fun (scope, deserialize) =>
    .asking (.scopedVariables id scope) fun values =>
      .ok (.json 200 (.ofDictionary (values.map fun _ v => (v.encode ⟨true, deserialize⟩).toJson)))

/-- Shows a variable. -/
def getVariable (r : Request) (id segment name : String) : Exchange :=
  .given (readView r segment) fun (scope, deserialize) =>
    .attempting (.getVariable name) (.scopedVariable id name scope) fun
      | some v => .ok (.json 200 (v.encode ⟨true, deserialize⟩).toJson)
      | none => .error (.notFound (.executionVariable name))

/-- Hands out the binary content of a variable. -/
def getVariableData (id segment name : String) : Exchange :=
  .given (scopeOf segment) fun scope =>
    .attempting (.getVariable name) (.scopedVariable id name scope) fun value =>
      binaryResponse value (.executionVariable name) (.executionVariable name id)

/-! ### Changing variables -/

/-- The values of a dictionary of variables; of several faults the one with the first name
counts. -/
def readValues (formats : DataFormats) (attempt : Attempt) (wires : Dictionary WireValue) :
    Except RestError (Dictionary TypedValue) := do
  let values ← wires.entries.mapM fun e => do
    return (e.1, ← valueFor formats attempt e.1 e.2)
  return .ofList values

/-- The command that removes and sets variables. -/
def readModification (formats : DataFormats) (r : Request) (id segment : String) :
    Except RestError Command := do
  let scope ← scopeOf segment
  let patch ← r.read PatchBody.empty PatchBody.ofJson?
  let values ← patch.modifications.mapM (readValues formats (.modifyVariables id))
  let removals := patch.deletions.map fun names => CommandCall.removeVariables names scope
  let settings := values.map fun d => CommandCall.setVariables d scope
  return ⟨id, removals.toList ++ settings.toList⟩

/-- Removes and sets variables. -/
def modifyVariables (formats : DataFormats) (r : Request) (id segment : String) : Exchange :=
  .given (readModification formats r id segment) fun command =>
    .attempting (.modifyVariables id) (.execute command) done

/-- The command that sets a variable. -/
def readPut (formats : DataFormats) (r : Request) (id segment name : String) :
    Except RestError Command := do
  let scope ← scopeOf segment
  let wire ← r.read WireValue.empty WireValue.ofJson?
  let value ← valueFor formats (.putVariable name) name wire
  return ⟨id, [.setVariable name value scope]⟩

/-- Sets a variable. -/
def putVariable (formats : DataFormats) (r : Request) (id segment name : String) : Exchange :=
  .given (readPut formats r id segment name) fun command =>
    .attempting (.putVariable name) (.execute command) done

/-- Removes a variable. -/
def deleteVariable (id segment name : String) : Exchange :=
  .given (scopeOf segment) fun scope =>
    .attempting (.deleteVariable name) (.execute ⟨id, [.removeVariable name scope]⟩) done

/-! ### Uploads -/

/-- The last part of a name. -/
def lastPart? (parts : List Part) (name : String) : Option Part :=
  parts.reverse.find? fun p => p.name == some name

/-- The value that the parts of an upload make up: the content of `data`, which is an object if
there is a `type`. -/
def uploadedValue (formats : DataFormats) (name : String) (parts : List Part) :
    Except RestError TypedValue := do
  let some data := lastPart? parts "data" | throw (.invalidRequest (.missingPart "data"))
  let typeName := (lastPart? parts "type").map (·.text)
  (formats.decodeUpload data.content typeName (data.contentType.map (·.text))).mapError fun
    | .unrecognizedFormat format => .invalidRequest (.contentType format)
    | e => .invalidRequest (.variableValue (.putVariable name) name e)

/-- The command that sets a variable to an upload; there are no parts where the body is
malformed. -/
def readUpload (formats : DataFormats) (id segment name : String) (parts? : Option (List Part)) :
    Except RestError Command := do
  let scope ← scopeOf segment
  let some parts := parts? | throw (.invalidRequest .multipartBody)
  let value ← uploadedValue formats name parts
  return ⟨id, [.setVariable name value scope]⟩

/-- Sets a variable to an upload. -/
def postVariableData (formats : DataFormats) (id segment name : String)
    (parts? : Option (List Part)) : Exchange :=
  .given (readUpload formats id segment name parts?) fun command =>
    .attempting (.putVariable name) (.execute command) done

/-! ### Life cycle -/

/-- The command that goes with a transition. -/
def readTrigger (formats : DataFormats) (r : Request) (id : String) (t : Transition) :
    Except RestError Command := do
  let body ← r.read TriggerBody.empty TriggerBody.ofJson?
  let settings ← body.settings.entries.mapM fun e => do
    let value ← valueFor formats (.transition id t) e.1 e.2.1
    return CommandCall.setVariable e.1 value (scopeOfMark e.2.2)
  let removals := body.deletions.map fun d => CommandCall.removeVariable d.1 (scopeOfMark d.2)
  return ⟨id, removals ++ settings⟩

/-- What is reported of a transition that the engine refuses: a refused authorization as such,
everything else as a fault of the request. -/
def transitionError (attempt : Attempt) (e : EngineError) : RestError :=
  if e.kind = .authorization then .engine (e.withContext attempt.failed)
  else .invalidRequest (.refused attempt e.message)

/-- Changes variables and takes an execution through a transition. -/
def trigger (formats : DataFormats) (r : Request) (id : String) (t : Transition) : Exchange :=
  .given (readTrigger formats r id t) fun command =>
    .ask (.trigger command t) fun
      | .ok () => .noContent
      | .error e => .ofError (transitionError (.transition id t) e)

end CaseGateway.Http
