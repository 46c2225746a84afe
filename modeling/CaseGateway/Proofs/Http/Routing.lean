/-
Where requests go.

A request leads to a route if its path does and the route answers to its method; otherwise it is
settled at once.  Freeing a route of escapes changes its parameters and nothing else, so whatever
is decided by the kind of a route can be read off the path as it was sent.  Two such things are
named here, whether a request asks for a transition and whether it is to change anything at all.
-/
import CaseGateway.Http.Server
import CaseGateway.Proofs.Outcome
import CaseGateway.Proofs.Text.Pieces

namespace CaseGateway.Http

/-! ### Paths -/

theorem behind?_append (bs cs : List Char) : Route.behind? bs (bs ++ cs) = some cs := by
  induction bs with
  | nil => rfl
  | cons b bs ih => rw [List.cons_append, Route.behind?, if_pos rfl, ih]

/-- A path of segments leads where its segments lead. -/
theorem ofPath?_intercalate {basePath : String} {segments : List String}
    (hslash : ∀ t ∈ segments, '/' ∉ t.toList) (hlast : segments.getLast? ≠ some "")
    (hne : segments ≠ []) :
    Route.ofPath? basePath (basePath ++ ("/" ++ "/".intercalate segments))
      = Route.ofSegments? segments := by
  have hpath : (basePath ++ ("/" ++ "/".intercalate segments)).toList
      = basePath.toList ++ '/' :: ("/".intercalate segments).toList := by
    simp
  have hsegments : (Text.pieces '/' ("/".intercalate segments).toList).map String.ofList = segments :=
    Text.split_intercalate hslash hne
  unfold Route.ofPath?
  rw [hpath, behind?_append]
  simp only [hsegments, hlast, if_false]

/-! ### Kinds of routes -/

/-- The kind of a route, which is the route with its parameters left blank. -/
def Route.kind : Route → Route
  | .variableInstance _ => .variableInstance ""
  | .instanceData _ => .instanceData ""
  | .historicVariable _ => .historicVariable ""
  | .historicData _ => .historicData ""
  | .transition _ t => .transition "" t
  | .executionVariables _ _ => .executionVariables "" ""
  | .executionVariable _ _ _ => .executionVariable "" "" ""
  | .executionData _ _ _ => .executionData "" "" ""
  | route => route

/-- Freeing a route of escapes leaves its kind as it is. -/
theorem Route.kind_unescaped {raw route : Route} (h : raw.unescaped = .ok route) :
    route.kind = raw.kind := by
  cases raw with
  | variableInstance id | instanceData id | historicVariable id | historicData id
  | transition id t =>
      obtain ⟨id', -, hroute⟩ := bind_eq_ok.mp h
      rw [← pure_eq_ok.mp hroute]
      rfl
  | executionVariables id scope =>
      obtain ⟨id', -, hrest⟩ := bind_eq_ok.mp h
      obtain ⟨scope', -, hroute⟩ := bind_eq_ok.mp hrest
      rw [← pure_eq_ok.mp hroute]
      rfl
  | executionVariable id scope name | executionData id scope name =>
      obtain ⟨id', -, hrest⟩ := bind_eq_ok.mp h
      obtain ⟨scope', -, hrest⟩ := bind_eq_ok.mp hrest
      obtain ⟨name', -, hroute⟩ := bind_eq_ok.mp hrest
      rw [← pure_eq_ok.mp hroute]
      rfl
  | _ =>
      injection h with heq
      rw [← heq]

/-- What depends on the kind of a route only is left alone by freeing it of escapes. -/
theorem Route.eq_of_unescaped {α : Type} {f : Route → α}
    (hf : ∀ route : Route, f route.kind = f route) {raw route : Route}
    (h : raw.unescaped = .ok route) : f route = f raw := by
  rw [← hf route, Route.kind_unescaped h, hf raw]

theorem Route.allows_unescaped {raw route : Route} (h : raw.unescaped = .ok route) (m : Method) :
    route.allows m = raw.allows m :=
  Route.eq_of_unescaped (f := (·.allows m)) (fun route => by cases route <;> rfl) h

/-- Whether a request with a method is to change a case execution at a route. -/
def Route.isChange : Route → Method → Bool
  | .transition _ _, m | .executionVariables _ _, m | .executionData _ _ _, m => m = .post
  | .executionVariable _ _ _, m => m = .put ∨ m = .delete
  | _, _ => false

theorem Route.isChange_unescaped {raw route : Route} (h : raw.unescaped = .ok route) (m : Method) :
    route.isChange m = raw.isChange m :=
  Route.eq_of_unescaped (f := (·.isChange m)) (fun route => by cases route <;> rfl) h

theorem Route.method_of_isChange {route : Route} {m : Method} (h : route.isChange m) :
    m ≠ .options ∧ m ≠ .head := by
  cases route <;> cases m <;> simp_all [Route.isChange]

/-! ### Routes of requests -/

/-- Where a request goes: the route that its path leads to, freed of escapes, if the route answers
to its method. -/
structure Request.LeadsTo (config : Config) (r : Request) (raw route : Route) : Prop where
  options : r.method ≠ .options
  path : Route.ofPath? config.basePath r.path = some raw
  allows : raw.allows (if r.method = .head then .get else r.method)
  unescaped : raw.unescaped = .ok route

instance (config : Config) (r : Request) (raw route : Route) :
    Decidable (r.LeadsTo config raw route) :=
  decidable_of_iff
    (r.method ≠ .options ∧ Route.ofPath? config.basePath r.path = some raw ∧
      raw.allows (if r.method = .head then .get else r.method) ∧ raw.unescaped = .ok route)
    ⟨fun h => ⟨h.1, h.2.1, h.2.2.1, h.2.2.2⟩,
      fun h => ⟨h.options, h.path, h.allows, h.unescaped⟩⟩

theorem exchange_of_leadsTo {config : Config} {r : Request} {raw route : Route}
    (h : r.LeadsTo config raw route) : exchange config r = dispatch config r route := by
  unfold exchange
  rw [if_neg h.options, h.path]
  simp only [h.allows, h.unescaped, if_true]

/-- A request that leads nowhere is settled at once, and put down to the client unless it asks about
options. -/
theorem exchange_of_not_leadsTo {config : Config} {r : Request}
    (h : ¬∃ raw route, r.LeadsTo config raw route) :
    ∃ response, exchange config r = .settled response ∧
      (r.method ≠ .options → 400 ≤ response.status ∧ response.status < 500) := by
  unfold exchange
  by_cases hoptions : r.method = .options
  · exact ⟨_, if_pos hoptions, fun hne => absurd hoptions hne⟩
  · rw [if_neg hoptions]
    cases hpath : Route.ofPath? config.basePath r.path with
    | none => exact ⟨_, rfl, fun _ => by decide⟩
    | some raw =>
        by_cases hallows : raw.allows (if r.method = .head then .get else r.method)
        · cases hroute : raw.unescaped with
          | error name =>
              refine ⟨.plain 400 ("Invalid URL: Invalid UTF-8 in `" ++ name ++ "`"), ?_, ?_⟩
              · simp only [hallows, hroute, if_true]
              · intro _
                show 400 ≤ 400 ∧ 400 < 500
                decide
          | ok route => exact absurd ⟨raw, route, hoptions, hpath, hallows, hroute⟩ h
        · exact ⟨_, if_neg hallows, fun _ => by decide⟩

/-- Paths lead to one place at most. -/
theorem Request.LeadsTo.unique {config : Config} {r : Request} {raw raw' route route' : Route}
    (h : r.LeadsTo config raw route) (h' : r.LeadsTo config raw' route') : route = route' := by
  obtain rfl := Option.some.inj (h.path.symm.trans h'.path)
  exact Except.ok.inj (h.unescaped.symm.trans h'.unescaped)

/-- Whether a request is to change a case execution, as its method and its path say. -/
def Request.isChange (config : Config) (r : Request) : Bool :=
  (Route.ofPath? config.basePath r.path).any (·.isChange r.method)

theorem Request.isChange_of_leadsTo {config : Config} {r : Request} {raw route : Route}
    (h : r.LeadsTo config raw route) : r.isChange config = route.isChange r.method := by
  rw [Request.isChange, h.path, Option.any_some, Route.isChange_unescaped h.unescaped]

theorem Request.method_of_isChange {config : Config} {r : Request} (h : r.isChange config) :
    r.method ≠ .options ∧ r.method ≠ .head := by
  unfold Request.isChange at h
  cases hpath : Route.ofPath? config.basePath r.path with
  | none => simp [hpath] at h
  | some raw =>
      rw [hpath] at h
      exact Route.method_of_isChange h

/-! ### Transitions -/

/-- The transition that a route leads to, with the execution that is to go through it. -/
def Route.transition? : Route → Option (String × Transition)
  | .transition id t => some (id, t)
  | _ => none

theorem Route.transition?_eq_some {route : Route} {id : String} {t : Transition} :
    route.transition? = some (id, t) ↔ route = .transition id t := by
  constructor
  · intro h
    cases route with
    | transition id' t' =>
        obtain ⟨rfl, rfl⟩ := Prod.mk.inj (Option.some.inj h)
        rfl
    | _ => simp [Route.transition?] at h
  · rintro rfl
    rfl

/-- The transition that a request asks for, as its method and its path say. -/
def Request.transition? (config : Config) (r : Request) : Option (String × Transition) :=
  if r.method = .post then
    match (Route.ofPath? config.basePath r.path).map Route.unescaped with
    | some (.ok route) => route.transition?
    | _ => none
  else none

theorem Request.transition?_of_leadsTo {config : Config} {r : Request} {raw route : Route}
    (h : r.LeadsTo config raw route) : r.transition? config = route.transition? := by
  unfold Request.transition?
  rw [h.path, Option.map_some, h.unescaped]
  by_cases hpost : r.method = .post
  · rw [if_pos hpost]
  · rw [if_neg hpost]
    -- A route to a transition answers to nothing but a post.
    cases hroute : route with
    | transition id t =>
        have hallows := h.allows
        rw [← Route.allows_unescaped h.unescaped, hroute, Route.allows] at hallows
        by_cases hhead : r.method = .head
        · simp [hhead] at hallows
        · simp [hhead, hpost] at hallows
    | _ => rfl

theorem Request.leadsTo_of_transition? {config : Config} {r : Request} {id : String}
    {t : Transition} (h : r.transition? config = some (id, t)) :
    ∃ raw, r.LeadsTo config raw (.transition id t) := by
  unfold Request.transition? at h
  by_cases hpost : r.method = .post
  · rw [if_pos hpost] at h
    cases hpath : Route.ofPath? config.basePath r.path with
    | none => simp [hpath] at h
    | some raw =>
        rw [hpath, Option.map_some] at h
        cases hroute : raw.unescaped with
        | error name => simp [hroute] at h
        | ok route =>
            rw [hroute] at h
            obtain rfl := Route.transition?_eq_some.mp h
            refine ⟨raw, by simp [hpost], hpath, ?_, hroute⟩
            rw [← Route.allows_unescaped hroute]
            simp [hpost, Route.allows]
  · rw [if_neg hpost] at h
    exact absurd h (by simp)

theorem Request.isChange_of_transition? {config : Config} {r : Request} {id : String}
    {t : Transition} (h : r.transition? config = some (id, t)) : r.isChange config := by
  obtain ⟨raw, hleads⟩ := Request.leadsTo_of_transition? h
  rw [Request.isChange_of_leadsTo hleads]
  unfold Request.transition? at h
  by_cases hpost : r.method = .post
  · rw [hpost]
    rfl
  · rw [if_neg hpost] at h
    cases h

/-! ### Responses -/

/-- What a client gets to see of a response; there is no body if it asked for the head only. -/
def Request.shown (r : Request) (response : Response) : Response :=
  if r.method = .head then response.headOnly else response

theorem serve_eq {σ : Type} [CaseEngine σ] (config : Config) (r : Request) (s : σ) :
    serve config r s
      = (r.shown ((exchange config r).run s).1, ((exchange config r).run s).2) := rfl

theorem serve_status {σ : Type} [CaseEngine σ] (config : Config) (r : Request) (s : σ) :
    (serve config r s).1.status = ((exchange config r).run s).1.status := by
  rw [serve_eq]
  unfold Request.shown
  split <;> rfl

theorem serve_state {σ : Type} [CaseEngine σ] (config : Config) (r : Request) (s : σ) :
    (serve config r s).2 = ((exchange config r).run s).2 := rfl

/-- A request that does not ask for the head alone is answered with what its route comes to. -/
theorem serve_of_leadsTo {σ : Type} [CaseEngine σ] {config : Config} {r : Request}
    {raw route : Route} (h : r.LeadsTo config raw route) (hhead : r.method ≠ .head) (s : σ) :
    serve config r s = (dispatch config r route).run s := by
  rw [serve_eq, exchange_of_leadsTo h, Request.shown, if_neg hhead]

end CaseGateway.Http
