/-
What the engine is told.

A request that is to change a case execution dictates calls: the execution is named, then
variables are removed, then others are set, and one call ends the command.  `DictatesAt` says
which calls these are for each of the five kinds of such requests, in terms of what stands in
the request and of what its variables decode to.  It says nothing where the scope is unknown,
where the body is too long or stands for nothing, and where a single variable has no value.  How the
request is read and how the engine takes its notes does not come into it.

The engine hears just that.  A request that dictates something is answered 204 and has all of it
written down, in this order; one that dictates nothing is put down to the client before the
engine hears a word.
-/
import CaseGateway.Engine.Recorder
import CaseGateway.Proofs.Http.Contents
import CaseGateway.Proofs.Http.Routing

namespace CaseGateway.Http

/-! ### What is dictated -/

/-- What is said about an execution: the calls that remove variables, those that set variables,
and the name of the last call. -/
structure Dictation where
  execution : String
  removals : List String
  settings : List String
  ending : String

namespace Dictation

/-- A call as it is noted: its word, and in brackets what it is about. -/
def said (word : String) (about : List String) : String :=
  word ++ "(" ++ ",".intercalate about ++ ")"

/-- The word for a call in a scope. -/
def wordIn (word : String) : VariableScope → String
  | .global => word
  | .localOnly => word ++ "Local"

/-- All that is said, in order. -/
def entries (d : Dictation) : List String :=
  said "withCaseExecution" [d.execution] :: (d.removals ++ d.settings) ++ [said d.ending []]

/-- To remove a variable. -/
def removal (scope : VariableScope) (name : String) : String :=
  said (wordIn "removeVariable" scope) [name]

/-- To remove several variables at once, in the order in which they are named. -/
def jointRemoval (scope : VariableScope) (names : List String) : String :=
  said (wordIn "removeVariables" scope) names

/-- To set a variable, whose value is mentioned by its type. -/
def setting (scope : VariableScope) (name : String) (value : TypedValue) : String :=
  said (wordIn "setVariable" scope) [name, value.type.tag]

/-- To set several variables at once, which are mentioned by their names in ascending order. -/
def jointSetting (scope : VariableScope) (wires : Dictionary WireValue) : String :=
  said (wordIn "setVariables" scope) (wires.entries.map (·.1))

/-- The removal of a variable of a transition, in the scope that it is marked with. -/
def removalOf (e : String × Bool) : String :=
  removal (if e.2 then .localOnly else .global) e.1

/-- The call that sets a variable of a transition, in the scope that it is marked with. -/
def SettingOf (formats : DataFormats) (e : String × WireValue × Bool) (entry : String) : Prop :=
  ∃ value, formats.decode e.2.1 = .ok value ∧
    entry = setting (if e.2.2 then .localOnly else .global) e.1 value

end Dictation

namespace Request

/-- What a request with a method dictates at a route.  Dictionaries are gone through in the order
of their names, and lists as they are written. -/
inductive DictatesAt (config : Config) (r : Request) : Method → Route → Dictation → Prop
  | put {id segment name : String} {scope : VariableScope} {wire : WireValue} {value : TypedValue}
    (within : IsScope segment scope) (short : r.body.length ≤ config.maxUploadBytes)
    (body : r.Contains Json.IsWire .empty wire)
    (decoded : config.formats.decode wire = .ok value) :
    DictatesAt config r .put (.executionVariable id segment name)
      ⟨id, [], [Dictation.setting scope name value], "execute"⟩
  | delete {id segment name : String} {scope : VariableScope} (within : IsScope segment scope) :
    DictatesAt config r .delete (.executionVariable id segment name)
      ⟨id, [Dictation.removal scope name], [], "execute"⟩
  /-- However many variables there are, they are removed in one call and set in one call, even if
  there are none.  No call is made for a part that is missing or null. -/
  | modification {id segment : String} {scope : VariableScope} {patch : PatchBody}
    (within : IsScope segment scope) (short : r.body.length ≤ config.maxUploadBytes)
    (body : r.Contains Json.IsPatch .empty patch)
    (decoded : ∀ wires, patch.modifications = some wires →
      ∀ e ∈ wires.entries, ∃ value, config.formats.decode e.2 = .ok value) :
    DictatesAt config r .post (.executionVariables id segment)
      ⟨id, (patch.deletions.map (Dictation.jointRemoval scope)).toList,
        (patch.modifications.map (Dictation.jointSetting scope)).toList, "execute"⟩
  | upload {id segment name boundary : String} {scope : VariableScope} {parts : List Part}
    {value : TypedValue}
    (within : IsScope segment scope) (short : r.body.length ≤ config.maxUploadBytes)
    (bounded : Multipart.boundary? r.contentType = some boundary)
    (body : Multipart.parts? boundary r.body = some parts)
    (uploaded : IsUpload config.formats parts value) :
    DictatesAt config r .post (.executionData id segment name)
      ⟨id, [], [Dictation.setting scope name value], "execute"⟩
  /-- Every variable has a call of its own, in the scope that it is marked with. -/
  | transition {id : String} {t : Transition} {changes : TriggerBody} {settings : List String}
    (short : r.body.length ≤ config.maxUploadBytes)
    (body : r.Contains Json.IsTrigger .empty changes)
    (decoded : List.Forall₂ (Dictation.SettingOf config.formats) changes.settings.entries settings) :
    DictatesAt config r .post (.transition id t)
      ⟨id, changes.deletions.map Dictation.removalOf, settings, t.name⟩

/-- What a request dictates, wherever it goes. -/
def Dictates (config : Config) (r : Request) (d : Dictation) : Prop :=
  ∃ raw route, r.LeadsTo config raw route ∧ r.DictatesAt config r.method route d

end Request

/-! ### Exchanges that follow a dictation -/

namespace Exchange

/-- An exchange in which the engine is told something, and the client nothing more. -/
inductive Tells (entries : List String) : Exchange → Prop
  | ask {request : EngineRequest Unit} {respond : Except EngineError Unit → Response}
    (words : Recorder.wordings request = entries) (ok : respond (.ok ()) = .noContent) :
    Tells entries (.ask request respond)

/-- An exchange that is put down to the client. -/
inductive Refused : Exchange → Prop
  | settled (response : Response) (low : 400 ≤ response.status) (high : response.status < 500) :
    Refused (.settled response)

/-- An exchange in which the engine is told what is dictated, and that is refused if nothing is. -/
structure Obeys (dictates : Dictation → Prop) (x : Exchange) : Prop where
  tells : ∀ d, dictates d → x.Tells d.entries
  refused : (¬∃ d, dictates d) → x.Refused

theorem Tells.run {entries : List String} {x : Exchange} (h : x.Tells entries) {recorder : Recorder}
    (hsound : recorder.failure = none) :
    x.run recorder
      = (⟨204, none, .empty⟩, { recorder with journal := recorder.journal ++ entries }) := by
  cases h with
  | ask words ok =>
      rename_i request respond
      have hanswer : recorder.answer request = (.ok (), recorder.note entries) := by
        rw [Recorder.answer, hsound, words]
      show (respond (recorder.answer request).1, (recorder.answer request).2) = _
      rw [hanswer, ok]
      rfl

theorem refused_ofError {e : RestError} (h : BlamesRequest e) : (settled (.ofError e)).Refused := by
  have hstatus : (Response.ofError e).status = e.status := rfl
  refine .settled _ ?_ ?_ <;> rcases h with h | h <;> rw [hstatus, h] <;> decide

variable {dictates : Dictation → Prop}

/-- There is input if something is dictated and only then, and it leads to what is dictated. -/
theorem obeys_given {α : Type} {input : Except RestError α} {x : α → Exchange}
    (hblames : FailsOnlyWith BlamesRequest input)
    (htells : ∀ d, dictates d → ∃ a, input = .ok a ∧ (x a).Tells d.entries)
    (hread : ∀ a, input = .ok a → ∃ d, dictates d) : (given input x).Obeys dictates := by
  cases input with
  | error e =>
      refine ⟨?_, fun _ => refused_ofError (hblames e rfl)⟩
      intro d hd
      obtain ⟨a, ha, -⟩ := htells d hd
      cases ha
  | ok a =>
      refine ⟨?_, fun hnone => absurd (hread a rfl) hnone⟩
      intro d hd
      obtain ⟨a', ha', htold⟩ := htells d hd
      obtain rfl : a = a' := Except.ok.inj ha'
      exact htold

theorem obeys_withBody {config : Config} {r : Request} {x : Exchange}
    (hlong : ∀ d, dictates d → r.body.length ≤ config.maxUploadBytes)
    (h : r.body.length ≤ config.maxUploadBytes → x.Obeys dictates) :
    (withBody config r x).Obeys dictates := by
  unfold withBody
  split
  · rename_i htoo
    refine ⟨fun d hd => absurd (hlong d hd) (Nat.not_le.mpr htoo), fun _ => ?_⟩
    exact .settled _ (by decide) (by decide)
  · rename_i hfits
    exact h (Nat.not_lt.mp hfits)

end Exchange

/-! ### The handlers -/

section

variable {config : Config} {r : Request} {id segment name : String} {t : Transition}

open Exchange

theorem obeys_putVariable :
    (withBody config r (putVariable config.formats r id segment name)).Obeys
      (r.DictatesAt config .put (.executionVariable id segment name)) := by
  refine obeys_withBody ?_ fun hshort => obeys_given blames_readPut ?_ ?_
  · rintro d ⟨⟩
    assumption
  · intro d hd
    cases hd with
    | put within short body decoded =>
        have hscope := scopeOf_eq_ok_iff.mpr within
        have hbody := (Request.read_eq_ok_iff Json.recognizes_wire).mpr body
        refine ⟨_, readPut_eq_ok.mpr ⟨_, _, _, hscope, hbody, decoded, rfl⟩, .ask ?_ rfl⟩
        cases within <;> rfl
  · intro c hc
    obtain ⟨scope, wire, value, hscope, hbody, decoded, -⟩ := readPut_eq_ok.mp hc
    exact ⟨_, .put (scopeOf_eq_ok_iff.mp hscope) hshort
      ((Request.read_eq_ok_iff Json.recognizes_wire).mp hbody) decoded⟩

theorem obeys_deleteVariable :
    (deleteVariable id segment name).Obeys
      (r.DictatesAt config .delete (.executionVariable id segment name)) := by
  refine obeys_given blames_scopeOf ?_ ?_
  · intro d hd
    cases hd with
    | delete within =>
        refine ⟨_, scopeOf_eq_ok_iff.mpr within, .ask ?_ rfl⟩
        cases within <;> rfl
  · intro scope hscope
    exact ⟨_, .delete (scopeOf_eq_ok_iff.mp hscope)⟩

theorem obeys_postVariableData :
    (withParts config r (postVariableData config.formats id segment name)).Obeys
      (r.DictatesAt config .post (.executionData id segment name)) := by
  unfold withParts
  cases hboundary : Multipart.boundary? r.contentType with
  | none =>
      refine ⟨?_, fun _ => .settled _ (by decide) (by decide)⟩
      intro d hd
      cases hd with
      | upload within short bounded body uploaded =>
          rw [hboundary] at bounded
          cases bounded
  | some boundary =>
      refine obeys_given blames_readUpload ?_ ?_
      · intro d hd
        cases hd with
        | upload within short bounded body uploaded =>
            obtain rfl := Option.some.inj (hboundary.symm.trans bounded)
            rw [if_neg (Nat.not_lt.mpr short), body]
            refine ⟨_, readUpload_eq_ok.mpr ⟨_, _, _, scopeOf_eq_ok_iff.mpr within, rfl,
              uploadedValue_eq_ok_iff.mpr uploaded, rfl⟩, .ask ?_ rfl⟩
            cases within <;> rfl
      · intro c hc
        obtain ⟨scope, parts, value, hscope, hparts, hvalue, -⟩ := readUpload_eq_ok.mp hc
        by_cases hlong : config.maxUploadBytes < r.body.length
        · rw [if_pos hlong] at hparts
          cases hparts
        · rw [if_neg hlong] at hparts
          exact ⟨_, .upload (scopeOf_eq_ok_iff.mp hscope) (Nat.not_lt.mp hlong) hboundary hparts
            (uploadedValue_eq_ok_iff.mp hvalue)⟩

/-! ### Several variables at once -/

/-- The modifications, if there are any, are read when each of them has a value. -/
theorem exists_modifications_iff {attempt : Attempt} {wires? : Option (Dictionary WireValue)} :
    (∃ values?, wires?.mapM (readValues config.formats attempt) = .ok values?) ↔
      ∀ wires, wires? = some wires →
        ∀ e ∈ wires.entries, ∃ value, config.formats.decode e.2 = .ok value := by
  cases wires? with
  | none =>
      refine ⟨fun _ wires hwires => ?_, fun _ => ⟨none, rfl⟩⟩
      cases hwires
  | some wires =>
      constructor
      · rintro ⟨values?, hvalues⟩ wires' hwires
        obtain rfl := Option.some.inj hwires
        obtain ⟨values, hread, -⟩ := bind_eq_ok.mp hvalues
        exact exists_readValues_iff.mp ⟨values, hread⟩
      · intro h
        obtain ⟨values, hread⟩ := exists_readValues_iff.mpr (h wires rfl)
        exact ⟨some values, bind_eq_ok.mpr ⟨values, hread, rfl⟩⟩

/-- The call for the modifications names the variables as the body does. -/
theorem wording_modifications {attempt : Attempt} {wires? : Option (Dictionary WireValue)}
    {values? : Option (Dictionary TypedValue)}
    (h : wires?.mapM (readValues config.formats attempt) = .ok values?) (scope : VariableScope) :
    (values?.map fun values => CommandCall.setVariables values scope).toList.map
        Recorder.commandWording
      = (wires?.map (Dictation.jointSetting scope)).toList := by
  cases wires? with
  | none =>
      obtain rfl := pure_eq_ok.mp h
      rfl
  | some wires =>
      obtain ⟨values, hread, hvalues⟩ := bind_eq_ok.mp h
      obtain rfl := pure_eq_ok.mp hvalues
      have hkeys := keys_of_readValues hread
      cases scope <;> exact congrArg (fun names => [callText _ names]) hkeys

theorem wording_deletions (names? : Option (List String)) (scope : VariableScope) :
    (names?.map fun names => CommandCall.removeVariables names scope).toList.map
        Recorder.commandWording
      = (names?.map (Dictation.jointRemoval scope)).toList := by
  cases names? <;> cases scope <;> rfl

theorem obeys_modifyVariables :
    (withBody config r (modifyVariables config.formats r id segment)).Obeys
      (r.DictatesAt config .post (.executionVariables id segment)) := by
  refine obeys_withBody ?_ fun hshort => obeys_given blames_readModification ?_ ?_
  · rintro d ⟨⟩
    assumption
  · intro d hd
    cases hd with
    | modification within short body decoded =>
        obtain ⟨values?, hvalues⟩ := exists_modifications_iff.mpr decoded
        have hscope := scopeOf_eq_ok_iff.mpr within
        have hbody := (Request.read_eq_ok_iff Json.recognizes_patch).mpr body
        refine ⟨_, readModification_eq_ok.mpr ⟨_, _, values?, hscope, hbody, hvalues, rfl⟩, ?_⟩
        refine .ask ?_ rfl
        rw [← wording_modifications hvalues, ← wording_deletions, Dictation.entries,
          ← List.map_append]
        rfl
  · intro c hc
    obtain ⟨scope, patch, values?, hscope, hbody, hvalues, -⟩ := readModification_eq_ok.mp hc
    exact ⟨_, .modification (scopeOf_eq_ok_iff.mp hscope) hshort
      ((Request.read_eq_ok_iff Json.recognizes_patch).mp hbody)
      (exists_modifications_iff.mp ⟨values?, hvalues⟩)⟩

/-! ### Transitions -/

theorem wording_setting (e : String × WireValue × Bool) (value : TypedValue) :
    Recorder.commandWording (.setVariable e.1 value (scopeOfMark e.2.2))
      = Dictation.setting (if e.2.2 then .localOnly else .global) e.1 value := by
  obtain ⟨name, wire, isLocal⟩ := e
  cases isLocal <;> rfl

theorem wording_removal (e : String × Bool) :
    Recorder.commandWording (.removeVariable e.1 (scopeOfMark e.2)) = Dictation.removalOf e := by
  obtain ⟨name, isLocal⟩ := e
  cases isLocal <;> rfl

theorem exists_settles {formats : DataFormats} {es : List (String × WireValue × Bool)}
    {settings : List String} (h : List.Forall₂ (Dictation.SettingOf formats) es settings) :
    ∃ calls, List.Forall₂ (Settles formats) es calls ∧
      calls.map Recorder.commandWording = settings := by
  induction h with
  | nil => exact ⟨[], .nil, rfl⟩
  | @cons e entry es settings hentry _ ih =>
      obtain ⟨value, hvalue, rfl⟩ := hentry
      obtain ⟨calls, hcalls, rfl⟩ := ih
      exact ⟨.setVariable e.1 value (scopeOfMark e.2.2) :: calls, .cons ⟨value, hvalue, rfl⟩ hcalls,
        congrArg (· :: _) (wording_setting e value)⟩

theorem obeys_trigger :
    (withBody config r (trigger config.formats r id t)).Obeys
      (r.DictatesAt config .post (.transition id t)) := by
  refine obeys_withBody ?_ fun hshort => obeys_given blames_readTrigger ?_ ?_
  · rintro d ⟨⟩
    assumption
  · intro d hd
    cases hd with
    | @transition _ _ changes _ short body decoded =>
        obtain ⟨calls, hcalls, rfl⟩ := exists_settles decoded
        have hbody := (Request.read_eq_ok_iff Json.recognizes_trigger).mpr body
        refine ⟨_, readTrigger_eq_ok.mpr ⟨_, calls, hbody, hcalls, rfl⟩, .ask ?_ rfl⟩
        have hremovals : (changes.deletions.map fun e =>
            CommandCall.removeVariable e.1 (scopeOfMark e.2)).map Recorder.commandWording
              = changes.deletions.map Dictation.removalOf := by
          rw [List.map_map]
          exact List.map_congr_left fun e _ => wording_removal e
        rw [Dictation.entries, ← hremovals, ← List.map_append]
        rfl
  · intro c hc
    obtain ⟨body, calls, hbody, hcalls, -⟩ := readTrigger_eq_ok.mp hc
    have hsettings : List.Forall₂ (Dictation.SettingOf config.formats) body.settings.entries
        (calls.map Recorder.commandWording) := by
      refine List.forall₂_map_right_iff.mpr (hcalls.imp ?_)
      rintro e call ⟨value, hvalue, rfl⟩
      exact ⟨value, hvalue, wording_setting e value⟩
    exact ⟨_, .transition hshort ((Request.read_eq_ok_iff Json.recognizes_trigger).mp hbody)
      hsettings⟩

/-! ### Requests -/

theorem obeys_dispatch {route : Route} (h : route.isChange r.method) :
    (dispatch config r route).Obeys (r.DictatesAt config r.method route) := by
  cases route with
  | transition id t =>
      rw [of_decide_eq_true h]
      exact obeys_trigger
  | executionVariables id segment =>
      have hpost : r.method = .post := of_decide_eq_true h
      rw [dispatch, if_pos hpost, hpost]
      exact obeys_modifyVariables
  | executionData id segment name =>
      have hpost : r.method = .post := of_decide_eq_true h
      rw [dispatch, if_pos hpost, hpost]
      exact obeys_postVariableData
  | executionVariable id segment name =>
      rcases of_decide_eq_true h with hmethod | hmethod
      · simp only [dispatch, hmethod]
        exact obeys_putVariable
      · simp only [dispatch, hmethod]
        exact obeys_deleteVariable
  | _ => simp [Route.isChange] at h

theorem obeys_exchange (hchange : r.isChange config) :
    (exchange config r).Obeys (r.Dictates config) := by
  by_cases hleads : ∃ raw route, r.LeadsTo config raw route
  · obtain ⟨raw, route, hleads⟩ := hleads
    rw [Request.isChange_of_leadsTo hleads] at hchange
    rw [exchange_of_leadsTo hleads]
    refine ⟨?_, ?_⟩
    · rintro d ⟨raw', route', hleads', hd⟩
      obtain rfl := hleads.unique hleads'
      exact (obeys_dispatch hchange).tells d hd
    · intro hnone
      refine (obeys_dispatch hchange).refused ?_
      rintro ⟨d, hd⟩
      exact hnone ⟨d, raw, route, hleads, hd⟩
  · obtain ⟨response, hsettled, hrefused⟩ := exchange_of_not_leadsTo hleads
    obtain ⟨low, high⟩ := hrefused (Request.method_of_isChange hchange).1
    rw [hsettled]
    refine ⟨?_, fun _ => .settled response low high⟩
    rintro d ⟨raw, route, hleads', -⟩
    exact absurd ⟨raw, route, hleads'⟩ hleads

/-- **The engine is told all that a request dictates, or nothing.**

Of a request that is to change a case execution, either every call that it dictates is written
down, in the order of the dictation and with nothing between, before or behind, and the answer
is 204; or it dictates nothing, and then it is refused with a status of the client's and the
engine has not heard of it. -/
theorem serve_as_dictated (config : Config) {r : Request} (hchange : r.isChange config)
    (recorder : Recorder) (hsound : recorder.failure = none) :
    (∀ d, r.Dictates config d → serve config r recorder
        = (⟨204, none, .empty⟩, { recorder with journal := recorder.journal ++ d.entries })) ∧
      ((¬∃ d, r.Dictates config d) → ∃ response, 400 ≤ response.status ∧ response.status < 500 ∧
        serve config r recorder = (response, recorder)) := by
  have hobeys := obeys_exchange hchange
  obtain ⟨-, hhead⟩ := Request.method_of_isChange hchange
  have hserve : serve config r recorder = (exchange config r).run recorder := by
    rw [serve_eq, Request.shown, if_neg hhead]
  rw [hserve]
  refine ⟨fun d hd => (hobeys.tells d hd).run hsound, ?_⟩
  intro hnone
  have hrefused := hobeys.refused hnone
  generalize exchange config r = x at hrefused
  cases hrefused with
  | settled response low high => exact ⟨response, low, high, rfl⟩

end

/-- Requests of all five kinds are noted behind what was noted before: what is deleted comes before
what is set, in the order of the body, and what is set in the order of the names.  An empty list of
deletions is noted, and modifications that are null are not.  Where one of two variables has no value,
nothing is noted at all. -/
theorem serve_as_dictated_repaint :
    let recorder : Recorder := { Recorder.empty with journal := ["earlier()"] }
    let request (method : Method) (path text : String) : Request :=
      ⟨method, "/engine-rest/case-execution/task/" ++ path, "", none, Text.toUtf8 text⟩
    let put := request .put "localVariables/color" "\x7b\"value\":\"red\",\"type\":\"String\"\x7d"
    let delete := request .delete "variables/color" ""
    let patch := request .post "localVariables"
      ("\x7b\"modifications\":\x7b\"size\":\x7b\"value\":2\x7d," ++
        "\"color\":\x7b\"value\":\"red\"\x7d\x7d,\"deletions\":[\"b\",\"a\"]\x7d")
    let clear := request .post "variables" "\x7b\"modifications\":null,\"deletions\":[]\x7d"
    let upload : Request :=
      { request .post "variables/photo/data" "" with
        contentType := some "multipart/form-data; boundary=cut"
        body := Text.toUtf8 ("\r\n".intercalate
          ["--cut", "Content-Disposition: form-data; name=data", "", "blue", "--cut--"]) }
    let start := request .post "manual-start"
      ("\x7b\"variables\":\x7b\"size\":\x7b\"value\":7,\"local\":true\x7d," ++
        "\"color\":\x7b\"value\":true\x7d\x7d," ++
        "\"deletions\":[\x7b\"name\":\"b\"\x7d,\x7b\"name\":\"a\",\"local\":true\x7d]\x7d")
    let spoilt := request .post "variables"
      ("\x7b\"modifications\":\x7b\"a\":\x7b\"value\":1\x7d,\"b\":\x7b\"value\":[]\x7d\x7d," ++
        "\"deletions\":[\"c\"]\x7d")
    let noted (r : Request) (entries : List String) : Prop :=
      serve Config.standard r recorder
        = (⟨204, none, .empty⟩, { recorder with journal := "earlier()" :: entries })
    noted put ["withCaseExecution(task)", "setVariableLocal(color,String)", "execute()"] ∧
      noted delete ["withCaseExecution(task)", "removeVariable(color)", "execute()"] ∧
      noted patch ["withCaseExecution(task)", "removeVariablesLocal(b,a)",
        "setVariablesLocal(color,size)", "execute()"] ∧
      noted clear ["withCaseExecution(task)", "removeVariables()", "execute()"] ∧
      noted upload ["withCaseExecution(task)", "setVariable(photo,byte[])", "execute()"] ∧
      noted start ["withCaseExecution(task)", "removeVariable(b)", "removeVariableLocal(a)",
        "setVariable(color,Boolean)", "setVariableLocal(size,Integer)", "manualStart()"] ∧
      ∃ response, 400 ≤ response.status ∧ response.status < 500 ∧
        serve Config.standard spoilt recorder = (response, recorder) := by
  intro recorder request put delete patch clear upload start spoilt noted
  have hnoted {r : Request} {d : Dictation} {entries : List String}
      (hchange : r.isChange Config.standard) (hd : r.Dictates Config.standard d)
      (hentries : d.entries = entries) : noted r entries := by
    rw [← hentries]
    exact (serve_as_dictated Config.standard hchange recorder rfl).1 d hd
  -- What the bodies stand for is computed, and only then turned into what they contain.
  have hput : (do
      let wire ← (put.read .empty WireValue.ofJson?).toOption
      let value ← (Config.standard.formats.decode wire).toOption
      some value.type.tag) = some "String" := by decide +kernel
  have hpatch : (do
      let changes ← (patch.read .empty PatchBody.ofJson?).toOption
      let wires ← changes.modifications
      let values ← (readValues Config.standard.formats (.modifyVariables "task") wires).toOption
      some (changes.deletions, wires.keys)) = some (some ["b", "a"], ["color", "size"]) := by
    decide +kernel
  have hclear : (do
      let changes ← (clear.read .empty PatchBody.ofJson?).toOption
      some (changes.deletions, changes.modifications.isNone)) = some (some [], true) := by
    decide +kernel
  have hupload : (do
      let parts ← Multipart.parts? "cut" upload.body
      let value ← (uploadedValue Config.standard.formats "photo" parts).toOption
      some value.type.tag) = some "byte[]" := by decide +kernel
  have hstart : (do
      let changes ← (start.read .empty TriggerBody.ofJson?).toOption
      let settings ← changes.settings.entries.mapM fun e => do
        let value ← (Config.standard.formats.decode e.2.1).toOption
        some (Dictation.setting (if e.2.2 then .localOnly else .global) e.1 value)
      some (changes.deletions.map Dictation.removalOf, settings))
        = some (["removeVariable(b)", "removeVariableLocal(a)"],
          ["setVariable(color,Boolean)", "setVariableLocal(size,Integer)"]) := by decide +kernel
  simp only [Option.bind_eq_bind, Option.bind_eq_some_iff, toOption_eq_some, mapM_eq_some,
    Option.some.injEq, Prod.mk.injEq, Option.isNone_iff_eq_none] at hput hpatch hclear hupload hstart
  obtain ⟨wire, hwire, red, hred, hredTag⟩ := hput
  obtain ⟨changes, hchanges, wires, hwires, values, hvalues, hdeletions, hkeys⟩ := hpatch
  obtain ⟨cleared, hcleared, hempty, hnull⟩ := hclear
  obtain ⟨parts, hparts, photo, hphoto, hphotoTag⟩ := hupload
  obtain ⟨sent, hsent, _, hsettings, hremovals, rfl⟩ := hstart
  have hputs : put.Dictates Config.standard
      ⟨"task", [], [Dictation.setting .localOnly "color" red], "execute"⟩ :=
    ⟨.executionVariable "task" "localVariables" "color", _, by decide +kernel,
      .put .localOnly (by decide +kernel)
        ((Request.read_eq_ok_iff Json.recognizes_wire).mp hwire) hred⟩
  have hdeletes : delete.Dictates Config.standard
      ⟨"task", [Dictation.removal .global "color"], [], "execute"⟩ :=
    ⟨.executionVariable "task" "variables" "color", _,
      by decide +kernel, .delete .global⟩
  have hdecoded : ∀ wires', changes.modifications = some wires' →
      ∀ e ∈ wires'.entries, ∃ value, Config.standard.formats.decode e.2 = .ok value := by
    intro wires' hwires'
    obtain rfl := Option.some.inj (hwires.symm.trans hwires')
    exact exists_readValues_iff.mp ⟨values, hvalues⟩
  have hsettled : List.Forall₂ (Dictation.SettingOf Config.standard.formats) sent.settings.entries
      ["setVariable(color,Boolean)", "setVariableLocal(size,Integer)"] :=
    hsettings.imp fun e entry h => h.imp fun value hvalue => ⟨hvalue.1, hvalue.2.symm⟩
  have hpatches : patch.Dictates Config.standard _ :=
    ⟨.executionVariables "task" "localVariables", .executionVariables "task" "localVariables",
      by decide +kernel,
      .modification .localOnly (by decide +kernel)
        ((Request.read_eq_ok_iff Json.recognizes_patch).mp hchanges) hdecoded⟩
  have hclears : clear.Dictates Config.standard _ :=
    ⟨.executionVariables "task" "variables", .executionVariables "task" "variables",
      by decide +kernel, .modification .global (by decide +kernel)
        ((Request.read_eq_ok_iff Json.recognizes_patch).mp hcleared)
        fun wires hwires => absurd (hnull.symm.trans hwires) (Option.some_ne_none wires).symm⟩
  have huploads : upload.Dictates Config.standard
      ⟨"task", [], [Dictation.setting .global "photo" photo], "execute"⟩ :=
    ⟨.executionData "task" "variables" "photo", _, by decide +kernel,
      .upload .global (by decide +kernel) (by decide +kernel) hparts
        (uploadedValue_eq_ok_iff.mp hphoto)⟩
  have hstarts : start.Dictates Config.standard _ :=
    ⟨.transition "task" .manualStart, .transition "task" .manualStart, by decide +kernel,
      .transition (by decide +kernel) ((Request.read_eq_ok_iff Json.recognizes_trigger).mp hsent)
        hsettled⟩
  refine ⟨hnoted (by decide +kernel) hputs ?_, hnoted (by decide +kernel) hdeletes rfl,
    hnoted (by decide +kernel) hpatches ?_, hnoted (by decide +kernel) hclears ?_,
    hnoted (by decide +kernel) huploads ?_, hnoted (by decide +kernel) hstarts ?_, ?_⟩
  · simp only [Dictation.entries, Dictation.setting, hredTag]
    rfl
  · rw [hdeletions, hwires]
    show [_, _, Dictation.said _ wires.keys, _] = _
    rw [hkeys]
    rfl
  · rw [hempty, hnull]
    rfl
  · simp only [Dictation.entries, Dictation.setting, hphotoTag]
    rfl
  · simp only [Dictation.entries, hremovals]
    rfl
  · refine (serve_as_dictated Config.standard (by decide +kernel) recorder rfl).2 ?_
    rintro ⟨d, hd⟩
    have hserve := hnoted (by decide +kernel) hd rfl
    have hstatus : (serve Config.standard spoilt recorder).1.status = 400 := by decide +kernel
    rw [hserve] at hstatus
    cases hstatus

end CaseGateway.Http
