/-
The server: from a request to its response.

The method decides before the parameters of the path, these before the size of the
body, and that before anything in it.
-/
import CaseGateway.Config
import CaseGateway.Http.Collections
import CaseGateway.Http.Executions
import CaseGateway.Http.Route

namespace CaseGateway.Http

/-- An exchange for which the body is read as a whole, if it is not too long. -/
def withBody (config : Config) (r : Request) (x : Exchange) : Exchange :=
  if config.maxUploadBytes < r.body.length then
    .settled (.plain 413 "Failed to buffer the request body: length limit exceeded")
  else x

/-- An upload, for which the body is read in parts. -/
def withParts (config : Config) (r : Request)
    (x : Option (List Part) → Exchange) : Exchange :=
  match Multipart.boundary? r.contentType with
  | none => .settled (.plain 400 "Invalid `boundary` for `multipart/form-data` request")
  | some boundary =>
    x <| if config.maxUploadBytes < r.body.length then none else Multipart.parts? boundary r.body

/-- What a request to a route comes to. -/
def dispatch (config : Config) (r : Request) : Route → Exchange
  | .instances =>
    if r.method = .post then withBody config r (variableRows.listByBody r)
    else variableRows.listByQuery r
  | .instanceCount =>
    if r.method = .post then withBody config r (countByBody .instances r)
    else countByQuery .instances r
  | .variableInstance id => variableRows.single r id
  | .instanceData id => variableRows.data id
  | .historic =>
    if r.method = .post then withBody config r (historicRows.listByBody r)
    else historicRows.listByQuery r
  | .historicCount =>
    if r.method = .post then withBody config r (countByBody .historic r)
    else countByQuery .historic r
  | .historicVariable id => historicRows.single r id
  | .historicData id => historicRows.data id
  | .links => listByQuery .links IdentityLink.toJson r
  | .linkCount => countByQuery .links r
  | .report => listByQuery .reports CleanableReport.toJson r
  | .reportCount => countByQuery .reports r
  | .transition id t => withBody config r (trigger config.formats r id t)
  | .executionVariables id scope =>
    if r.method = .post then withBody config r (modifyVariables config.formats r id scope)
    else getVariables r id scope
  | .executionVariable id scope name =>
    match r.method with
    | .put => withBody config r (putVariable config.formats r id scope name)
    | .delete => deleteVariable id scope name
    | _ => getVariable r id scope name
  | .executionData id scope name =>
    if r.method = .post then withParts config r (postVariableData config.formats id scope name)
    else getVariableData id scope name

/-- What a request comes to.  Questions about options are answered for any path; a request for
the head alone is treated as one for the whole. -/
def exchange (config : Config) (r : Request) : Exchange :=
  if r.method = .options then .settled (.bare 200)
  else
    match Route.ofPath? config.basePath r.path with
    | none => .settled (.bare 404)
    | some route =>
      if route.allows (if r.method = .head then .get else r.method) then
        match route.unescaped with
        | .error name => .settled (.plain 400 ("Invalid URL: Invalid UTF-8 in `" ++ name ++ "`"))
        | .ok route => dispatch config r route
      else .settled (.bare 405)

/-- Answers a request with the help of an engine in a state. -/
def serve {σ : Type} [CaseEngine σ] (config : Config) (r : Request) (s : σ) : Response × σ :=
  let (response, s) := (exchange config r).run s
  (if r.method = .head then response.headOnly else response, s)

end CaseGateway.Http
