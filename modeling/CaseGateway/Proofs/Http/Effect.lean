/-
What a request can do to the store.

Every exchange is of one of two kinds.  It only looks, and then the store is what it was
whatever comes of it; or it has one command carried out, answers 204 if that succeeds,
and reports an error if it does not.  Of the second kind are only requests that are to
change something, and the many ways in which such a request can be faulty need no cases:
a fault is found before there is a command, and then the exchange is settled.

The store itself leaves nothing behind of a command that fails.  Between them these two
facts make every request atomic, and they are all that runs of requests need to know of
the handlers.
-/
import CaseGateway.Engine.StoreEngine
import CaseGateway.Proofs.Http.Handlers
import CaseGateway.Proofs.Store.Reachable

namespace CaseGateway

theorem Store.answer_reading {α : Type} {request : EngineRequest α} (h : request.isReading)
    (s : Store) : (answer request s).2 = s := by
  cases request <;> first | rfl | simp [EngineRequest.isReading] at h

namespace Http

theorem ofError_status_ne (e : RestError) : (Response.ofError e).status ≠ 204 := by
  show e.status ≠ 204
  rcases RestError.status_cases e with h | h | h | h <;> rw [h] <;> decide

namespace Exchange

/-! ### The two kinds of exchanges -/

/-- An exchange that only looks. -/
inductive Reading : Exchange → Prop
  | settled (r : Response) : Reading (.settled r)
  | abandoned {γ ρ : Type} (c : Collection γ ρ) (calls : List γ) (e : RestError) :
    Reading (.abandoned c calls e)
  | ask {α : Type} {request : EngineRequest α} (h : request.isReading)
    (respond : Except EngineError α → Response) : Reading (.ask request respond)

/-- A way of responding to a command: nothing is said if it succeeds, and an error is reported if
it does not. -/
structure Responds (respond : Except EngineError Unit → Response) : Prop where
  ok : respond (.ok ()) = .noContent
  error : ∀ e, ∃ report, respond (.error e) = .ofError report

/-- An exchange that has a command carried out. -/
inductive Commanding (c : Command) : Exchange → Prop
  | execute {respond : Except EngineError Unit → Response} (h : Responds respond) :
    Commanding c (.ask (.execute c) respond)
  | trigger (t : Transition) {respond : Except EngineError Unit → Response}
    (h : Responds respond) : Commanding c (.ask (.trigger c t) respond)

theorem Reading.run_eq {x : Exchange} (h : x.Reading) (s : Store) : (x.run s).2 = s := by
  cases h with
  | settled r => rfl
  | abandoned c calls e => rfl
  | ask h respond => exact Store.answer_reading h s

/-- What is said of the outcome of a command, and the store it leaves. -/
theorem Responds.cases {respond : Except EngineError Unit → Response} (h : Responds respond)
    (s : Store) (outcome : Except EngineError Store) :
    (∃ report, (respond (s.settle outcome).1, (s.settle outcome).2) = (.ofError report, s)) ∨
      ∃ s', outcome = .ok s' ∧
        (respond (s.settle outcome).1, (s.settle outcome).2) = (.noContent, s') := by
  cases outcome with
  | error e =>
      obtain ⟨report, hreport⟩ := h.error e
      exact Or.inl ⟨report, by rw [Store.settle, hreport]⟩
  | ok s' => exact Or.inr ⟨s', rfl, by rw [Store.settle, h.ok]⟩

/-- **A command is carried out as a whole, or an error is reported and nothing has changed.** -/
theorem Commanding.run_cases {c : Command} {x : Exchange} (h : Commanding c x) (s : Store) :
    (∃ report, x.run s = (.ofError report, s)) ∨
      ∃ s', s.Commanded c s' ∧ x.run s = (.noContent, s') := by
  cases h with
  | execute h =>
      rcases h.cases s (s.execute c) with hfailed | ⟨s', hs', hrun⟩
      · exact Or.inl hfailed
      · exact Or.inr ⟨s', .execute hs', hrun⟩
  | trigger t h =>
      rcases h.cases s (s.trigger c t) with hfailed | ⟨s', hs', hrun⟩
      · exact Or.inl hfailed
      · exact Or.inr ⟨s', .trigger hs', hrun⟩

theorem commanding_attempting (attempt : Attempt) (c : Command) :
    Commanding c (attempting attempt (.execute c) done) :=
  .execute ⟨rfl, fun _ => ⟨_, rfl⟩⟩

/-- What is put together of the five pieces looks or commands, and commands only to change. -/
theorem Ordinary.kind {changes : Bool} {x : Exchange} (h : x.Ordinary changes) :
    x.Reading ∨ changes ∧ ∃ c, Commanding c x := by
  cases h with
  | settled r h => exact Or.inl (.settled r)
  | abandoned c calls e => exact Or.inl (.abandoned c calls e)
  | asking h show? => exact Or.inl (.ask h _)
  | attempting attempt h show? => exact Or.inl (.ask h _)
  | executing h attempt c => exact Or.inr ⟨h, c, commanding_attempting attempt c⟩

theorem Transitional.kind {id : String} {t : Transition} {x : Exchange} (h : x.Transitional id t) :
    x.Reading ∨ ∃ c, Commanding c x := by
  cases h with
  | settled r h => exact Or.inl (.settled r)
  | triggering c h => exact Or.inr ⟨c, .trigger t ⟨rfl, fun e => ⟨_, rfl⟩⟩⟩

end Exchange

/-! ### Requests -/

/-- Listings and counts of rows with values, which are asked for with a body as well. -/
def Route.isListing : Route → Bool
  | .instances | .instanceCount | .historic | .historicCount => true
  | _ => false

/-- A request looks or commands, and it commands only if it is to change something. -/
theorem exchange_kind (config : Config) (r : Request) :
    (exchange config r).Reading ∨ r.isChange config ∧ ∃ c, (exchange config r).Commanding c := by
  by_cases hoptions : r.method = .options
  · rw [exchange, if_pos hoptions]
    exact Or.inl (.settled _)
  · cases hasks : r.transition? config with
    | none => exact (ordinary_exchange config hoptions hasks).kind
    | some asked =>
        have hchange := Request.isChange_of_transition? hasks
        exact (transitional_exchange hasks).kind.imp_right fun hcommands => ⟨hchange, hcommands⟩

theorem reading_exchange {config : Config} {r : Request} (h : r.isChange config = false) :
    (exchange config r).Reading := by
  rcases exchange_kind config r with hreading | ⟨hchange, -⟩
  · exact hreading
  · rw [h] at hchange
    cases hchange

theorem isChange_of_get (config : Config) {r : Request} (h : r.method = .get) :
    r.isChange config = false := by
  unfold Request.isChange
  rw [h]
  cases Route.ofPath? config.basePath r.path with
  | none => rfl
  | some raw => cases raw <;> rfl

theorem isChange_of_isListing {config : Config} {r : Request} {route : Route}
    (hpath : Route.ofPath? config.basePath r.path = some route) (h : route.isListing) :
    r.isChange config = false := by
  unfold Request.isChange
  rw [hpath]
  cases route <;> first | rfl | simp [Route.isListing] at h

/-- **A request leaves the store as it is, or is answered 204 and has carried out a command.** -/
theorem serve_cases (config : Config) (r : Request) (s : Store) :
    (serve config r s).2 = s ∨
      (serve config r s).1.status = 204 ∧ ∃ c, s.Commanded c (serve config r s).2 := by
  rw [serve_status, serve_state]
  rcases exchange_kind config r with h | ⟨-, c, h⟩
  · exact Or.inl (h.run_eq s)
  · rcases h.run_cases s with ⟨report, hrun⟩ | ⟨s', hs', hrun⟩
    · exact Or.inl (by rw [hrun])
    · exact Or.inr (by rw [hrun]; exact ⟨rfl, c, hs'⟩)

/-- Requests lead from reachable stores to reachable stores. -/
theorem serve_reachable (config : Config) (r : Request) {s : Store} (h : s.Reachable) :
    (serve config r s).2.Reachable := by
  rcases serve_cases config r s with hsame | ⟨-, c, hc⟩
  · rw [hsame]
    exact h
  · exact h.command hc

/-- **Requests are atomic.**

Whatever a request asks for and wherever it goes, the store changes only if success is
reported; and neither reading anything nor asking for a listing or a count with a body
changes it at all. -/
theorem serve_atomic (config : Config) (r : Request) (s : Store) :
    ((serve config r s).1.isSuccess = false → (serve config r s).2 = s) ∧
      (r.method = .get → (serve config r s).2 = s) ∧
      (r.method = .post → ∀ route, Route.ofPath? config.basePath r.path = some route →
        route.isListing → (serve config r s).2 = s) := by
  refine ⟨?_, ?_, ?_⟩
  · intro hfailed
    rcases serve_cases config r s with h | ⟨hstatus, -⟩
    · exact h
    · rw [Response.isSuccess, hstatus] at hfailed
      exact absurd hfailed (by decide)
  · intro hget
    exact (reading_exchange (isChange_of_get config hget)).run_eq s
  · intro _ route hpath hlisting
    exact (reading_exchange (isChange_of_isListing hpath hlisting)).run_eq s

/-- A task that has not been disabled cannot be enabled again, and then its variables are not set
either; and what is looked up is still there. -/
theorem serve_atomic_reenable :
    let r : Request :=
      { method := .post
        path := "/engine-rest/case-execution/task/reenable"
        queryString := ""
        contentType := none
        body := Text.toUtf8 "\x7b\"variables\":\x7b\"color\":\x7b\"value\":1,\"local\":true\x7d\x7d\x7d" }
    let listing : Request := { r with path := "/engine-rest/variable-instance" }
    (serve Config.standard r Store.paintShop).1.status = 400 ∧
      (serve Config.standard r Store.paintShop).2 = Store.paintShop ∧
      (serve Config.standard { r with method := .get } Store.paintShop).2 = Store.paintShop ∧
      (serve Config.standard listing Store.paintShop).2 = Store.paintShop := by
  intro r listing
  obtain ⟨hfailed, -, -⟩ := serve_atomic Config.standard r Store.paintShop
  obtain ⟨-, hget, -⟩ := serve_atomic Config.standard { r with method := .get } Store.paintShop
  obtain ⟨-, -, hlisting⟩ := serve_atomic Config.standard listing Store.paintShop
  refine ⟨by decide +kernel, hfailed (by decide +kernel), hget rfl, ?_⟩
  exact hlisting rfl .instances (by decide +kernel) rfl

end Http

end CaseGateway
