/-
What can go wrong, and what is said about it.

A failure of the engine keeps its kind all the way to the client, so that a refused
authorization is never mistaken for a malformed request.  Everything else is a fault of
the request, given as its cause; the wording stands here and nowhere else.
-/
import CaseGateway.Lifecycle
import CaseGateway.Value.Error

namespace CaseGateway

/-! ### Failures of the engine -/

/-- How the engine classifies a failure. -/
inductive EngineErrorKind
  | badUserRequest
  | authorization
  | notFound
  | internal
  deriving DecidableEq, Repr

/-- A failure of the engine. -/
structure EngineError where
  kind : EngineErrorKind
  message : String
  deriving DecidableEq, Repr

namespace EngineError

/-- The same failure, its message preceded by what was being done. -/
def withContext (e : EngineError) (context : String) : EngineError :=
  { e with message := context ++ ": " ++ e.message }

/-- There is no case execution of the given id. -/
def unknownExecution (id : String) : EngineError :=
  ⟨.notFound, "Case execution with id '" ++ id ++ "' does not exist"⟩

/-- The life cycle has no such edge. -/
def illegalTransition (id : String) (current : Lifecycle) (t : Transition) : EngineError :=
  ⟨.badUserRequest,
    "Cannot " ++ t.name ++ " case execution '" ++ id ++ "': it is " ++ current.name⟩

/-- A query for one row found several. -/
def ambiguous (count : Nat) : EngineError :=
  ⟨.badUserRequest, "Query return " ++ toString count ++ " results instead of max 1"⟩

end EngineError

/-! ### Attempts on a case execution -/

/-- What a request tries to do with a case execution or a variable of it. -/
inductive Attempt
  | getVariable (name : String)
  | putVariable (name : String)
  | deleteVariable (name : String)
  | modifyVariables (execution : String)
  | transition (execution : String) (t : Transition)
  deriving DecidableEq, Repr

namespace Attempt

/-- The wording of a failed attempt. -/
def failed : Attempt → String
  | .getVariable name => "Cannot get case execution variable " ++ name
  | .putVariable name => "Cannot put case execution variable " ++ name
  | .deleteVariable name => "Cannot delete case execution variable " ++ name
  | .modifyVariables execution => "Cannot modify variables for case execution " ++ execution
  | .transition execution .manualStart =>
    "Cannot start case execution with id '" ++ execution ++ "' manually."
  | .transition execution .disable => "Cannot disable case execution with id '" ++ execution ++ "'."
  | .transition execution .reenable =>
    "Cannot re-enable case execution with id '" ++ execution ++ "'."
  | .transition execution .complete =>
    "Cannot complete case execution with id '" ++ execution ++ "'."

/-- The wording of an attempt that failed over the value of a variable. -/
def failedOver (a : Attempt) (name : String) (e : ValueError) : String :=
  match a with
  | .getVariable _ => "Cannot get case execution variable " ++ e.describeFor name
  | .putVariable _ => "Cannot put case execution variable " ++ e.describeFor name
  | .deleteVariable _ => "Cannot delete case execution variable " ++ e.describeFor name
  | .modifyVariables _ => a.failed ++ ": " ++ e.describeFor name
  | .transition _ _ => a.failed ++ " " ++ e.describeFor name

end Attempt

/-! ### Failures of requests -/

/-- What is wrong with a request. -/
inductive InvalidRequest
  /-- A parameter that its filter cannot take, with its value as text. -/
  | parameter (name value : String)
  /-- One of the two sorting parameters without the other. -/
  | loneSortParameter
  | sortKey (key : String)
  | sortOrder (order : String)
  /-- A query body that is no object, as text. -/
  | notAnObject (found : String)
  /-- A body that is not JSON, or not of the expected form.  What its reader found wrong is not
  kept. -/
  | body
  /-- A body that does not fall into parts.  What its reader found wrong is not kept. -/
  | multipartBody
  | missingPart (name : String)
  /-- A content type that names no data format. -/
  | contentType (name : String)
  /-- A value that cannot be read, of a variable that an attempt concerned. -/
  | variableValue (attempt : Attempt) (name : String) (e : ValueError)
  /-- An attempt that the engine refused, in its words. -/
  | refused (attempt : Attempt) (reason : String)
  /-- A fault in words of its own. -/
  | stated (message : String)
  deriving DecidableEq, Repr

/-- The wording of a fault in a request.  Of a body that cannot be read this is only the beginning:
the colon behind it and the words of the reader, which say what it found wrong and where, are not
kept. -/
def InvalidRequest.message : InvalidRequest → String
  | .parameter name value => "Cannot set query parameter '" ++ name ++ "' to value '" ++ value ++ "'"
  | .loneSortParameter =>
    "Only a single sorting parameter specified. sortBy and sortOrder required"
  | .sortKey key => "sortBy parameter has invalid value: " ++ key
  | .sortOrder order => "sortOrder parameter has invalid value: " ++ order
  | .notAnObject found => "Expected a JSON object as query body, found: " ++ found
  | .body => "Invalid request body"
  | .multipartBody => "Invalid multipart body"
  | .missingPart name => "Missing multipart part '" ++ name ++ "'"
  | .contentType name => "Unrecognized content type for serialized type: " ++ name
  | .variableValue attempt name e => attempt.failedOver name e
  | .refused attempt reason => attempt.failed ++ " " ++ reason
  | .stated message => message

/-- What a request asked for in vain. -/
inductive Missing
  | executionResource (segment : String)
  | variableInstance (id : String)
  | executionVariable (name : String)
  /-- Something in words of its own. -/
  | stated (message : String)
  deriving DecidableEq, Repr

/-- The wording of a vain request. -/
def Missing.message : Missing → String
  | .executionResource segment => "No case execution resource '" ++ segment ++ "'"
  | .variableInstance id => "Variable instance with Id '" ++ id ++ "' does not exist."
  | .executionVariable name =>
    "case execution variable with name " ++ name ++ " does not exist or is null"
  | .stated message => message

/-- What was taken for binary and is not. -/
inductive NotBinary
  | variableInstance (id : String)
  | executionVariable (name execution : String)
  /-- Something in words of its own. -/
  | stated (message : String)
  deriving DecidableEq, Repr

/-- The wording of a request for binary content that there is none of. -/
def NotBinary.message : NotBinary → String
  | .variableInstance id => "Variable instance with Id '" ++ id ++ "' is not a binary variable"
  | .executionVariable name execution =>
    "Value of variable " ++ name ++ " of case execution " ++ execution ++ " is not a binary value."
  | .stated message => message

/-- Why a request failed. -/
inductive RestError
  | invalidRequest (fault : InvalidRequest)
  | notFound (what : Missing)
  | notBinary (what : NotBinary)
  | engine (e : EngineError)
  deriving DecidableEq, Repr

namespace RestError

/-- The wording of an error. -/
def message : RestError → String
  | .invalidRequest fault => fault.message
  | .notFound what => what.message
  | .notBinary what => what.message
  | .engine e => e.message

/-- The status with which an error is reported. -/
def status : RestError → Nat
  | .invalidRequest _ | .notBinary _ => 400
  | .notFound _ => 404
  | .engine e =>
    match e.kind with
    | .badUserRequest => 400
    | .authorization => 403
    | .notFound => 404
    | .internal => 500

/-- The name under which an error is reported. -/
def typeName : RestError → String
  | .invalidRequest _ => "InvalidRequestError"
  | .notFound _ => "NotFoundError"
  | .notBinary _ => "NotBinaryError"
  | .engine e =>
    match e.kind with
    | .badUserRequest => "BadUserRequestError"
    | .authorization => "AuthorizationError"
    | .notFound => "NotFoundError"
    | .internal => "EngineError"

end RestError

end CaseGateway
