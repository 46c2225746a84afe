/-
What clients hear of a failure of the engine.

An engine that was set up to fail answers every request with its failure, and writes down what
it was asked for as if nothing were wrong.  So the journal shows whether the failure had a part
in an exchange, and the response has to agree with it.  Either something was carried out, and
then the client is told that this failed, in the engine's words and under the name of its kind.
Or the request was given up before, and then the failure is of no account.

A transition is refused rather than failed: all that its client learns of the kind of a failure
is whether authorization was lacking.
-/
import CaseGateway.Proofs.Engine.Journal
import CaseGateway.Proofs.Http.Handlers

namespace CaseGateway

/-- A recorder, set up to fail or not. -/
def Recorder.withFailure (recorder : Recorder) (failure : Option EngineError) : Recorder :=
  { recorder with failure }

/-- The status and the name under which a failure of the engine is reported, for a transition or
for anything else. -/
def EngineErrorKind.verdict : EngineErrorKind → (ofTransition : Bool) → Nat × String
  | .authorization, _ => (403, "AuthorizationError")
  | _, true => (400, "InvalidRequestError")
  | .badUserRequest, false => (400, "BadUserRequestError")
  | .notFound, false => (404, "NotFoundError")
  | .internal, false => (500, "EngineError")

namespace Http

/-! ### Reports -/

/-- A response that reports an error under a status and a name, in words that end in a message. -/
def Response.Reports (response : Response) (verdict : Nat × String) (message : String) : Prop :=
  ∃ context, response = .json verdict.1
    (.object [("type", .string verdict.2), ("message", .string (context ++ message))])

theorem Response.Reports.isSuccess {response : Response} {kind : EngineErrorKind}
    {ofTransition : Bool} {message : String}
    (h : response.Reports (kind.verdict ofTransition) message) : response.isSuccess = false := by
  obtain ⟨context, rfl⟩ := h
  cases kind <;> cases ofTransition <;> rfl

theorem reports_engine (f : EngineError) :
    (Response.ofError (.engine f)).Reports (f.kind.verdict false) f.message := by
  refine ⟨"", ?_⟩
  rw [String.empty_append]
  obtain ⟨kind, message⟩ := f
  cases kind <;> rfl

theorem reports_withContext (f : EngineError) (context : String) :
    (Response.ofError (.engine (f.withContext context))).Reports (f.kind.verdict false)
      f.message := by
  obtain ⟨kind, message⟩ := f
  refine ⟨context ++ ": ", ?_⟩
  cases kind <;> rfl

theorem reports_transitionError (f : EngineError) (attempt : Attempt) :
    (Response.ofError (transitionError attempt f)).Reports (f.kind.verdict true) f.message := by
  obtain ⟨kind, message⟩ := f
  cases kind with
  | authorization => exact ⟨attempt.failed ++ ": ", rfl⟩
  | badUserRequest | notFound | internal => exact ⟨attempt.failed ++ " ", rfl⟩

/-! ### Exchanges -/

namespace Exchange

/-- An exchange with an engine that may fail.  It is given up whether the engine fails or not, or
it is carried out and the failure is reported. -/
def Candid (ofTransition : Bool) (x : Exchange) : Prop :=
  ∀ (recorder : Recorder) (f : EngineError),
    (∃ response entries, response.isSuccess = false ∧ Preparing entries ∧
      ∀ failure, x.run (recorder.withFailure failure)
        = (response, (recorder.withFailure failure).note entries)) ∨
    ∃ response entries, response.Reports (f.kind.verdict ofTransition) f.message ∧
      CarriedOut entries ∧ x.run (recorder.withFailure (some f))
        = (response, (recorder.withFailure (some f)).note entries)

variable {ofTransition : Bool}

theorem candid_settled {response : Response} (h : response.isSuccess = false) :
    (settled response).Candid ofTransition := by
  intro recorder f
  refine Or.inl ⟨response, [], h, fun entry hentry => absurd hentry List.not_mem_nil, ?_⟩
  intro failure
  show (response, recorder.withFailure failure) = _
  rw [Recorder.note, List.append_nil]

theorem candid_abandoned {γ ρ : Type} (c : Collection γ ρ) (calls : List γ) (e : RestError) :
    (abandoned c calls e).Candid ofTransition := by
  intro recorder f
  exact Or.inl ⟨.ofError e, calls.map c.wording, isSuccess_ofError e,
    Recorder.preparing_wording c calls, fun failure => rfl⟩

theorem candid_ask {α : Type} (request : EngineRequest α)
    {respond : Except EngineError α → Response}
    (h : ∀ f, (respond (.error f)).Reports (f.kind.verdict ofTransition) f.message) :
    (ask request respond).Candid ofTransition := by
  intro recorder f
  exact Or.inr ⟨respond (.error f), Recorder.wordings request, h f,
    Recorder.carriedOut_wordings request, rfl⟩

theorem Ordinary.candid {changes : Bool} {x : Exchange} (h : x.Ordinary changes) :
    x.Candid false := by
  cases h with
  | settled response h => exact candid_settled h
  | abandoned c calls e => exact candid_abandoned c calls e
  | asking h show? => exact candid_ask _ reports_engine
  | attempting attempt h show? =>
      exact candid_ask _ fun f => reports_withContext f attempt.failed
  | executing h attempt c => exact candid_ask _ fun f => reports_withContext f attempt.failed

theorem Transitional.candid {id : String} {t : Transition} {x : Exchange}
    (h : x.Transitional id t) : x.Candid true := by
  cases h with
  | settled response h => exact candid_settled h
  | triggering c h => exact candid_ask _ fun f => reports_transitionError f (.transition id t)

end Exchange

theorem candid_exchange (config : Config) {r : Request} (hmethod : r.method ≠ .options) :
    (exchange config r).Candid (r.transition? config).isSome := by
  cases hasks : r.transition? config with
  | none => exact (ordinary_exchange config hmethod hasks).candid
  | some asked => exact (transitional_exchange hasks).candid

/-! ### Requests -/

theorem Request.isSuccess_shown (r : Request) (response : Response) :
    (r.shown response).isSuccess = response.isSuccess := by
  unfold shown
  split <;> rfl

/-- **A failure of the engine is neither hidden nor taken for something else.**

With an engine that fails, no request but a question about options is answered with success.
If the journal shows that something was carried out, this came last, and the response reports
the failure in the words of the engine and under the status and the name that belong to its
kind.  If it does not, the response is the one that an engine without the failure would have
led to. -/
theorem serve_reports_failure (config : Config) {r : Request} (hmethod : r.method ≠ .options)
    (recorder : Recorder) (f : EngineError) :
    let answer := serve config r (recorder.withFailure (some f))
    answer.1.isSuccess = false ∧
      ∃ entries, answer.2.journal = recorder.journal ++ entries ∧
        ((∃ entry ∈ entries, isExecuting entry) → CarriedOut entries ∧
          ∃ report, answer.1 = r.shown report ∧
            report.Reports (f.kind.verdict (r.transition? config).isSome) f.message) ∧
        ((¬∃ entry ∈ entries, isExecuting entry) →
          answer.1 = (serve config r (recorder.withFailure none)).1) := by
  intro answer
  rcases candid_exchange config hmethod recorder f with
    ⟨response, entries, hfailed, hpreparing, hrun⟩ | ⟨report, entries, hreports, hcarried, hrun⟩
  · have hanswer : ∀ failure, serve config r (recorder.withFailure failure)
        = (r.shown response, (recorder.withFailure failure).note entries) := by
      intro failure
      rw [serve_eq, hrun failure]
    refine ⟨?_, entries, congrArg (·.2.journal) (hanswer (some f)), ?_, ?_⟩
    · rw [show answer = _ from hanswer (some f), Request.isSuccess_shown]
      exact hfailed
    · rintro ⟨entry, hentry, hexecuting⟩
      rw [hpreparing entry hentry] at hexecuting
      cases hexecuting
    · intro _
      rw [show answer = _ from hanswer (some f), hanswer none]
  · have hanswer : answer = (r.shown report, (recorder.withFailure (some f)).note entries) := by
      show serve config r (recorder.withFailure (some f)) = _
      rw [serve_eq, hrun]
    refine ⟨?_, entries, congrArg (·.2.journal) hanswer, ?_, ?_⟩
    · rw [hanswer, Request.isSuccess_shown]
      exact hreports.isSuccess
    · intro _
      exact ⟨hcarried, report, congrArg Prod.fst hanswer, hreports⟩
    · intro hnone
      obtain ⟨calls, last, rfl, -, hlast⟩ := hcarried
      exact absurd ⟨last, by simp, hlast⟩ hnone

/-- An engine that breaks down over the completion of a task is reported as a refusal of the
request, with what the engine says at the end. -/
theorem serve_reports_failure_complete :
    let r : Request :=
      { method := .post
        path := "/engine-rest/case-execution/task/complete"
        queryString := ""
        contentType := none
        body := [] }
    let broken := Recorder.empty.withFailure (some ⟨.internal, "no connection"⟩)
    r.method ≠ .options ∧
      (serve Config.standard r broken).2.journal = ["withCaseExecution(task)", "complete()"] ∧
      (serve Config.standard r broken).1.Reports (400, "InvalidRequestError") "no connection" := by
  intro r broken
  have hjournal : (serve Config.standard r broken).2.journal
      = ["withCaseExecution(task)", "complete()"] := by decide +kernel
  have hmethod : r.method ≠ .options := by decide
  obtain ⟨-, entries, hentries, hcarried, -⟩ :=
    serve_reports_failure Config.standard hmethod Recorder.empty ⟨.internal, "no connection"⟩
  obtain rfl : ["withCaseExecution(task)", "complete()"] = entries := hjournal.symm.trans hentries
  obtain ⟨-, report, hreport, hreports⟩ := hcarried ⟨"complete()", by simp, by decide⟩
  have hasks : r.transition? Config.standard = some ("task", .complete) := by decide +kernel
  rw [hasks] at hreports
  refine ⟨hmethod, hjournal, ?_⟩
  rw [show (serve Config.standard r broken).1 = report from hreport]
  exact hreports

end Http

end CaseGateway
