/-
What listings give away of binary content.

Nothing.  A request for variables, for their number or for a single one of them is
answered from a store as it is from the outline of that store, in which there is no
binary content.  The requests withhold such content by calls on the query and write values
with the option to leave it out; but also in what is not withheld, in errors and in
counts, nothing may show.  The handlers are put together from a few combinators, so it is
enough that each of these answers alike when its parts do.
-/
import CaseGateway.Proofs.Http.Effect
import CaseGateway.Proofs.Query.Protocol
import CaseGateway.Proofs.Store.Outline

namespace CaseGateway

/-! ### Rows as documents -/

namespace Http

/-- Rows that are written in listings like their outlines. -/
def ValueRows.WrittenByOutline {χ ε κ ρ : Type} (rows : ValueRows χ ε κ ρ) : Prop :=
  ∀ deserialize row, rows.toJson (ValueRows.options deserialize) (rows.collection.outline row)
    = rows.toJson (ValueRows.options deserialize) row

theorem variableRows_writtenByOutline : variableRows.WrittenByOutline := by
  intro deserialize v
  have hvalue : v.value.outline.encode (ValueRows.options deserialize)
      = v.value.encode (ValueRows.options deserialize) := v.value.encode_outline rfl
  show VariableInstance.toJson _ v.outline = VariableInstance.toJson _ v
  unfold VariableInstance.toJson VariableInstance.outline
  rw [hvalue]

theorem historicRows_writtenByOutline : historicRows.WrittenByOutline := by
  intro deserialize v
  have hvalue : v.value.outline.encode (ValueRows.options deserialize)
      = v.value.encode (ValueRows.options deserialize) := v.value.encode_outline rfl
  show HistoricVariable.toJson _ v.outline = HistoricVariable.toJson _ v
  unfold HistoricVariable.toJson HistoricVariable.outline
  rw [hvalue]

/-! ### Exchanges -/

namespace Exchange

variable {α γ ρ : Type}

/-- An exchange that is answered from a store as from its outline. -/
def Discreet (x : Exchange) : Prop :=
  ∀ s : Store, (x.run s.outline).1 = (x.run s).1

theorem discreet_settled (r : Response) : (settled r).Discreet := fun _ => rfl

theorem discreet_abandoned (c : Collection γ ρ) (calls : List γ) (e : RestError) :
    (abandoned c calls e).Discreet := fun _ => rfl

theorem discreet_given {input : Except RestError α} {x : α → Exchange} (h : ∀ a, (x a).Discreet) :
    (given input x).Discreet := by
  cases input with
  | ok a => exact h a
  | error e => exact discreet_settled _

theorem discreet_withBody (config : Config) (r : Request) {x : Exchange} (h : x.Discreet) :
    (withBody config r x).Discreet := by
  unfold withBody
  split
  · exact discreet_settled _
  · exact h

theorem run_ask_query (c : Collection γ ρ) (calls : List γ) (execution : Execution ρ α)
    (respond : Except EngineError α → Response) (s : Store) :
    ((ask (.query c calls execution) respond).run s).1
      = respond (Store.runQuery c calls execution s) := rfl

/-- A query gives nothing away if what it yields is shown like its outline. -/
theorem discreet_asking (c : Collection γ ρ) (calls : List γ) (execution : Execution ρ α)
    {show? : α → Except RestError Response}
    (h : ∀ a, show? (execution.image c.outline a) = show? a) :
    (asking (.query c calls execution) show?).Discreet := by
  intro s
  unfold asking
  rw [run_ask_query, run_ask_query, s.runQuery_outline]
  cases Store.runQuery c calls execution s with
  | error e => rfl
  | ok a => exact congrArg report (h a)

end Exchange

/-! ### The handlers -/

section Collections

variable {γ ρ : Type}

theorem discreet_listRows (c : Collection γ ρ) {toJson : ρ → Json} (firstCalls : List γ)
    (ps : Parameters) (h : ∀ row, toJson (c.outline row) = toJson row) :
    (listRows c toJson firstCalls ps).Discreet := by
  obtain ⟨calls, outcome, hbinds⟩ := c.spec.exists_binds ps
  unfold listRows
  rw [hbinds.list_eq]
  cases outcome with
  | error e => exact Exchange.discreet_abandoned c (firstCalls ++ calls) e
  | ok u =>
      refine Exchange.discreet_asking c (firstCalls ++ calls) (QuerySpec.listing ps) fun rows => ?_
      -- Pages and whole listings are shown in the same way, and their outlines are, too.
      have himage : (QuerySpec.listing ps).image c.outline rows = rows.map c.outline := by
        unfold QuerySpec.listing
        split <;> rfl
      rw [himage]
      simp only [List.map_map, Function.comp_def, h]

theorem discreet_countRows (c : Collection γ ρ) (ps : Parameters) :
    (countRows c ps).Discreet := by
  obtain ⟨calls, outcome, hbinds⟩ := c.spec.exists_binds ps
  unfold countRows
  rw [hbinds.count_eq]
  cases outcome with
  | error e => exact Exchange.discreet_abandoned c calls e
  | ok u => exact Exchange.discreet_asking c calls .count fun _ => rfl

end Collections

namespace ValueRows

variable {χ ε κ ρ : Type} {rows : ValueRows χ ε κ ρ}

theorem discreet_listByQuery (h : rows.WrittenByOutline) (r : Request) :
    (rows.listByQuery r).Discreet :=
  Exchange.discreet_given fun _ => discreet_listRows _ _ _ (h _)

theorem discreet_listByBody (h : rows.WrittenByOutline) (r : Request) :
    (rows.listByBody r).Discreet :=
  Exchange.discreet_given fun _ => discreet_listRows _ _ _ (h _)

theorem discreet_single (h : rows.WrittenByOutline) (r : Request) (id : String) :
    (rows.single r id).Discreet := by
  refine Exchange.discreet_given fun deserialize => Exchange.discreet_asking _ _ _ fun row => ?_
  cases row with
  | none => rfl
  | some row =>
      show Except.ok (Response.json 200 (rows.toJson _ (rows.collection.outline row))) = _
      rw [h]

end ValueRows

theorem discreet_countByQuery {γ ρ : Type} (c : Collection γ ρ) (r : Request) :
    (countByQuery c r).Discreet :=
  Exchange.discreet_given fun _ => discreet_countRows c _

theorem discreet_countByBody {γ ρ : Type} (c : Collection γ ρ) (r : Request) :
    (countByBody c r).Discreet :=
  Exchange.discreet_given fun _ => discreet_countRows c _

/-! ### Routes -/

/-- Listings and counts of rows with values, and single ones of these rows. -/
def Route.showsRows : Route → Bool
  | .instances | .instanceCount | .variableInstance _ => true
  | .historic | .historicCount | .historicVariable _ => true
  | _ => false

theorem Route.showsRows_unescaped {raw route : Route} (h : raw.unescaped = .ok route) :
    route.showsRows = raw.showsRows :=
  Route.eq_of_unescaped (fun route => by cases route <;> rfl) h

theorem discreet_dispatch (config : Config) (r : Request) {route : Route} (h : route.showsRows) :
    (dispatch config r route).Discreet := by
  cases route with
  | instances =>
      rw [dispatch]
      split
      · exact Exchange.discreet_withBody _ _
          (ValueRows.discreet_listByBody variableRows_writtenByOutline r)
      · exact ValueRows.discreet_listByQuery variableRows_writtenByOutline r
  | historic =>
      rw [dispatch]
      split
      · exact Exchange.discreet_withBody _ _
          (ValueRows.discreet_listByBody historicRows_writtenByOutline r)
      · exact ValueRows.discreet_listByQuery historicRows_writtenByOutline r
  | instanceCount | historicCount =>
      rw [dispatch]
      split
      · exact Exchange.discreet_withBody _ _ (discreet_countByBody _ r)
      · exact discreet_countByQuery _ r
  | variableInstance id => exact ValueRows.discreet_single variableRows_writtenByOutline r id
  | historicVariable id => exact ValueRows.discreet_single historicRows_writtenByOutline r id
  | _ => exact absurd h (by simp [Route.showsRows])

theorem discreet_exchange (config : Config) {r : Request} {route : Route}
    (hpath : Route.ofPath? config.basePath r.path = some route) (h : route.showsRows) :
    (exchange config r).Discreet := by
  by_cases hleads : ∃ raw route, r.LeadsTo config raw route
  · obtain ⟨raw, route', hleads⟩ := hleads
    obtain rfl : raw = route := Option.some.inj (hleads.path.symm.trans hpath)
    rw [exchange_of_leadsTo hleads]
    exact discreet_dispatch config r ((Route.showsRows_unescaped hleads.unescaped).trans h)
  · obtain ⟨response, hsettled, -⟩ := exchange_of_not_leadsTo hleads
    rw [hsettled]
    exact Exchange.discreet_settled response

theorem serve_outline (config : Config) {r : Request} {route : Route}
    (hpath : Route.ofPath? config.basePath r.path = some route) (h : route.showsRows) (s : Store) :
    (serve config r s.outline).1 = (serve config r s).1 := by
  have hrun := discreet_exchange config hpath h s
  unfold serve
  simp only [hrun]

/-- **Listings give no binary content away.**

Two stores that are the same but for what their byte arrays hold, and for the payloads of
objects in the engine's own format as long as these keep their length, cannot be told
apart by asking for variables, for their number or for one of them, whatever is filtered
or sorted by and however values are to be written. -/
theorem serve_discreet (config : Config) (r : Request) {s t : Store} (h : s.SameButContent t)
    {route : Route} (hpath : Route.ofPath? config.basePath r.path = some route)
    (hroute : route.showsRows) : (serve config r s).1 = (serve config r t).1 := by
  rw [← serve_outline config hpath hroute s, ← serve_outline config hpath hroute t, h.outline_eq]

/-- Neither whether there is a photo nor what is in the cart shows in a sorted listing. -/
theorem serve_discreet_photo :
    let shop (photo : Option Bytes) (cart : Bytes) : Store :=
      { Store.empty with
        instances := [.plain "v1" "photo" (.bytes photo),
          .plain "v2" "cart"
            (.object ⟨some cart, some DataFormats.native, some "example.Cart", .empty⟩)] }
    let r : Request :=
      { method := .get
        path := "/engine-rest/variable-instance"
        queryString := "sortBy=variableType&sortOrder=asc"
        contentType := none
        body := [] }
    (serve Config.standard r (shop (some [0xFF, 0xD8]) [1, 2])).1.status = 200 ∧
      (serve Config.standard r (shop (some [0xFF, 0xD8]) [1, 2])).1
        = (serve Config.standard r (shop none [3, 4])).1 := by
  intro shop r
  have hcontent : (shop (some [0xFF, 0xD8]) [1, 2]).SameButContent (shop none [3, 4]) :=
    { instances :=
        .cons ⟨.bytes _ _, rfl⟩ (.cons ⟨.native (o := ⟨none, _, _, _⟩) rfl rfl, rfl⟩ .nil)
      historic := .nil
      links := rfl
      reports := rfl
      executions := rfl
      issued := rfl }
  have hpath : Route.ofPath? Config.standard.basePath r.path = some .instances := by decide +kernel
  exact ⟨by decide +kernel, serve_discreet Config.standard r hcontent hpath rfl⟩

end Http

end CaseGateway
