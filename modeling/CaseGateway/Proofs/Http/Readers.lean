/-
What is read from requests that change a case execution.

Each of these requests is read as one command before the engine hears of it.  For every reader
there are two facts.  One says exactly when it comes to a command, and to which, in terms of
what the request contains and of the values that its variables decode to.  The other says that
whatever stands in the way is put down to the request: its faults are reported with 400, or with
404 for a scope that there is none of, and never as a failure of the engine.
-/
import CaseGateway.Http.Executions
import CaseGateway.Proofs.Dictionary
import CaseGateway.Proofs.Outcome

namespace CaseGateway.Http

section

variable {formats : DataFormats} {r : Request} {attempt : Attempt} {c : Command}
  {id segment name : String} {t : Transition}

/-! ### When requests are read -/

/-- Null is read as the default, and any other document as what it stands for. -/
theorem read_eq_ok {α : Type} {default a : α} {read? : Json → Option α} :
    r.read default read? = .ok a ↔
      r.document = .ok .null ∧ default = a ∨
        ∃ j, r.document = .ok j ∧ j ≠ .null ∧ read? j = some a := by
  unfold Request.read
  rw [bind_eq_ok]
  constructor
  · rintro ⟨j, hj, h⟩
    cases j with
    | null => exact Or.inl ⟨hj, pure_eq_ok.mp h⟩
    | bool | number | string | array | object =>
        refine Or.inr ⟨_, hj, by simp, ?_⟩
        dsimp only at h
        split at h
        · rename_i a' ha'
          rw [ha', pure_eq_ok.mp h]
        · cases h
  · rintro (⟨hj, rfl⟩ | ⟨j, hj, hnull, ha⟩)
    · exact ⟨.null, hj, rfl⟩
    · refine ⟨j, hj, ?_⟩
      cases j with
      | null => exact absurd rfl hnull
      | bool | number | string | array | object =>
          dsimp only
          rw [ha]
          rfl

theorem valueFor_eq_ok {w : WireValue} {value : TypedValue} :
    valueFor formats attempt name w = .ok value ↔ formats.decode w = .ok value :=
  mapError_eq_ok

theorem readPut_eq_ok :
    readPut formats r id segment name = .ok c ↔
      ∃ scope wire value, scopeOf segment = .ok scope ∧
        r.read .empty WireValue.ofJson? = .ok wire ∧ formats.decode wire = .ok value ∧
        c = ⟨id, [.setVariable name value scope]⟩ := by
  constructor
  · intro h
    obtain ⟨scope, hscope, h⟩ := bind_eq_ok.mp h
    obtain ⟨wire, hwire, h⟩ := bind_eq_ok.mp h
    obtain ⟨value, hvalue, h⟩ := bind_eq_ok.mp h
    exact ⟨scope, wire, value, hscope, hwire, valueFor_eq_ok.mp hvalue, (pure_eq_ok.mp h).symm⟩
  · rintro ⟨scope, wire, value, hscope, hwire, hvalue, rfl⟩
    refine bind_eq_ok.mpr ⟨scope, hscope, bind_eq_ok.mpr ⟨wire, hwire, ?_⟩⟩
    exact bind_eq_ok.mpr ⟨value, valueFor_eq_ok.mpr hvalue, rfl⟩

/-- The content of an upload is read from the part `data`, and a part `type` makes an object of
it. -/
theorem uploadedValue_eq_ok {parts : List Part} {value : TypedValue} :
    uploadedValue formats name parts = .ok value ↔
      ∃ data, lastPart? parts "data" = some data ∧
        formats.decodeUpload data.content ((lastPart? parts "type").map (·.text))
          (data.contentType.map (·.text)) = .ok value := by
  unfold uploadedValue
  cases hdata : lastPart? parts "data" with
  | none => simp [throw_ne_ok]
  | some data =>
      simp only [Option.some.injEq, exists_eq_left']
      exact mapError_eq_ok

theorem readUpload_eq_ok {parts? : Option (List Part)} :
    readUpload formats id segment name parts? = .ok c ↔
      ∃ scope parts value, scopeOf segment = .ok scope ∧ parts? = some parts ∧
        uploadedValue formats name parts = .ok value ∧
        c = ⟨id, [.setVariable name value scope]⟩ := by
  constructor
  · intro h
    obtain ⟨scope, hscope, h⟩ := bind_eq_ok.mp h
    cases parts? with
    | none => exact absurd h throw_ne_ok
    | some parts =>
        obtain ⟨value, hvalue, h⟩ := bind_eq_ok.mp h
        exact ⟨scope, parts, value, hscope, rfl, hvalue, (pure_eq_ok.mp h).symm⟩
  · rintro ⟨scope, parts, value, hscope, rfl, hvalue, rfl⟩
    exact bind_eq_ok.mpr ⟨scope, hscope, bind_eq_ok.mpr ⟨value, hvalue, rfl⟩⟩

/-- A variable as it travels and as it is, under the same name. -/
def Decodes (formats : DataFormats) (e : String × WireValue) (e' : String × TypedValue) : Prop :=
  e'.1 = e.1 ∧ formats.decode e.2 = .ok e'.2

theorem ascending_of_decodes {wires : Dictionary WireValue} {es : List (String × TypedValue)}
    (h : List.Forall₂ (Decodes formats) wires.entries es) : es.Pairwise fun a b => a.1 < b.1 := by
  have hkeys : es.map (·.1) = wires.entries.map (·.1) := map_of_forall₂ h fun _ _ h => h.1
  rw [← List.pairwise_map (R := (· < ·)), hkeys, List.pairwise_map]
  exact wires.ascending

/-- Several variables are read when each of them is, and none is lost or added. -/
theorem readValues_eq_ok {wires : Dictionary WireValue} {values : Dictionary TypedValue} :
    readValues formats attempt wires = .ok values ↔
      List.Forall₂ (Decodes formats) wires.entries values.entries := by
  have hstep : ∀ (e : String × WireValue) (e' : String × TypedValue),
      (do return (e.1, ← valueFor formats attempt e.1 e.2)) = Except.ok (ε := RestError) e' ↔
        Decodes formats e e' := by
    rintro e ⟨name, value⟩
    rw [bind_eq_ok]
    constructor
    · rintro ⟨value', hvalue', heq⟩
      obtain ⟨rfl, rfl⟩ := Prod.mk.inj (pure_eq_ok.mp heq)
      exact ⟨rfl, valueFor_eq_ok.mp hvalue'⟩
    · rintro ⟨rfl, hvalue⟩
      exact ⟨value, valueFor_eq_ok.mpr hvalue, rfl⟩
  constructor
  · intro h
    obtain ⟨es, hes, h⟩ := bind_eq_ok.mp h
    have hall : List.Forall₂ (Decodes formats) wires.entries es :=
      (mapM_eq_ok.mp hes).imp fun e e' => (hstep e e').mp
    rw [← pure_eq_ok.mp h, Dictionary.ofList_of_ascending (ascending_of_decodes hall)]
    exact hall
  · intro h
    refine bind_eq_ok.mpr ⟨values.entries, mapM_eq_ok.mpr ?_, ?_⟩
    · exact h.imp fun e e' => (hstep e e').mpr
    · rw [Dictionary.ofList_of_ascending values.ascending]
      rfl

theorem keys_of_readValues {wires : Dictionary WireValue} {values : Dictionary TypedValue}
    (h : readValues formats attempt wires = .ok values) : values.keys = wires.keys :=
  map_of_forall₂ (readValues_eq_ok.mp h) fun _ _ h => h.1

theorem exists_readValues_iff {wires : Dictionary WireValue} :
    (∃ values, readValues formats attempt wires = .ok values) ↔
      ∀ e ∈ wires.entries, ∃ value, formats.decode e.2 = .ok value := by
  constructor
  · rintro ⟨values, hvalues⟩ e he
    obtain ⟨e', -, -, hvalue⟩ := exists_of_forall₂ (readValues_eq_ok.mp hvalues) he
    exact ⟨e'.2, hvalue⟩
  · intro h
    have hdecodes : ∀ e ∈ wires.entries, ∃ e', Decodes formats e e' := by
      intro e he
      obtain ⟨value, hvalue⟩ := h e he
      exact ⟨(e.1, value), rfl, hvalue⟩
    obtain ⟨es, hes⟩ := exists_forall₂ hdecodes
    exact ⟨⟨es, ascending_of_decodes hes⟩, readValues_eq_ok.mpr hes⟩

/-- The values of several variables are those of each of them. -/
theorem get?_readValues {wires : Dictionary WireValue} {values : Dictionary TypedValue}
    (h : readValues formats attempt wires = .ok values) {wire : WireValue} {value : TypedValue}
    (hwire : wires.get? name = some wire) (hvalue : formats.decode wire = .ok value) :
    values.get? name = some value := by
  obtain ⟨⟨name', value'⟩, hmem, hname, hvalue'⟩ :=
    exists_of_forall₂ (readValues_eq_ok.mp h) (Dictionary.mem_entries_iff.mpr hwire)
  obtain rfl : name' = name := hname
  rw [hvalue] at hvalue'
  rw [Except.ok.inj hvalue']
  exact Dictionary.mem_entries_iff.mp hmem

theorem readModification_eq_ok :
    readModification formats r id segment = .ok c ↔
      ∃ scope patch values?, scopeOf segment = .ok scope ∧
        r.read .empty PatchBody.ofJson? = .ok patch ∧
        patch.modifications.mapM (readValues formats (.modifyVariables id)) = .ok values? ∧
        c = ⟨id, (patch.deletions.map fun names => .removeVariables names scope).toList ++
          (values?.map fun values => .setVariables values scope).toList⟩ := by
  constructor
  · intro h
    obtain ⟨scope, hscope, h⟩ := bind_eq_ok.mp h
    obtain ⟨patch, hpatch, h⟩ := bind_eq_ok.mp h
    obtain ⟨values?, hvalues, h⟩ := bind_eq_ok.mp h
    exact ⟨scope, patch, values?, hscope, hpatch, hvalues, (pure_eq_ok.mp h).symm⟩
  · rintro ⟨scope, patch, values?, hscope, hpatch, hvalues, rfl⟩
    refine bind_eq_ok.mpr ⟨scope, hscope, bind_eq_ok.mpr ⟨patch, hpatch, ?_⟩⟩
    exact bind_eq_ok.mpr ⟨values?, hvalues, rfl⟩

/-- The call that sets a variable of a transition, in the scope that it is marked with. -/
def Settles (formats : DataFormats) (e : String × WireValue × Bool) (call : CommandCall) : Prop :=
  ∃ value, formats.decode e.2.1 = .ok value ∧
    call = .setVariable e.1 value (scopeOfMark e.2.2)

theorem readTrigger_eq_ok :
    readTrigger formats r id t = .ok c ↔
      ∃ body settings, r.read .empty TriggerBody.ofJson? = .ok body ∧
        List.Forall₂ (Settles formats) body.settings.entries settings ∧
        c = ⟨id, body.deletions.map (fun d => .removeVariable d.1 (scopeOfMark d.2))
          ++ settings⟩ := by
  have hstep : ∀ (e : String × WireValue × Bool) (call : CommandCall),
      (do
        let value ← valueFor formats (.transition id t) e.1 e.2.1
        return CommandCall.setVariable e.1 value (scopeOfMark e.2.2)) = .ok call ↔
      Settles formats e call := by
    intro e call
    rw [bind_eq_ok]
    constructor
    · rintro ⟨value, hvalue, hcall⟩
      exact ⟨value, valueFor_eq_ok.mp hvalue, (pure_eq_ok.mp hcall).symm⟩
    · rintro ⟨value, hvalue, rfl⟩
      exact ⟨value, valueFor_eq_ok.mpr hvalue, rfl⟩
  constructor
  · intro h
    obtain ⟨body, hbody, h⟩ := bind_eq_ok.mp h
    obtain ⟨settings, hsettings, h⟩ := bind_eq_ok.mp h
    exact ⟨body, settings, hbody, (mapM_eq_ok.mp hsettings).imp fun e call => (hstep e call).mp,
      (pure_eq_ok.mp h).symm⟩
  · rintro ⟨body, settings, hbody, hsettings, rfl⟩
    refine bind_eq_ok.mpr ⟨body, hbody, bind_eq_ok.mpr ⟨settings, mapM_eq_ok.mpr ?_, rfl⟩⟩
    exact hsettings.imp fun e call => (hstep e call).mpr

/-! ### What they are refused for -/

/-- An error that is put down to the request. -/
def BlamesRequest (e : RestError) : Prop := e.status = 400 ∨ e.status = 404

theorem blames_scopeOf : FailsOnlyWith BlamesRequest (scopeOf segment) := by
  unfold scopeOf
  split
  · exact .ok _
  · split
    · exact .ok _
    · exact .error (Or.inr rfl)

theorem blames_document : FailsOnlyWith BlamesRequest r.document := by
  unfold Request.document
  split
  · exact .ok _
  · split
    · exact .ok _
    · exact .error (Or.inl rfl)

theorem blames_read {α : Type} {default : α} {read? : Json → Option α} :
    FailsOnlyWith BlamesRequest (r.read default read?) := by
  refine blames_document.bind fun j => ?_
  cases j <;> first | exact .ok _ | skip
  all_goals
    dsimp only
    split
    · exact .ok _
    · exact .error (Or.inl rfl)

theorem blames_valueFor {w : WireValue} :
    FailsOnlyWith BlamesRequest (valueFor formats attempt name w) :=
  .mapError fun _ => Or.inl rfl

theorem blames_readPut : FailsOnlyWith BlamesRequest (readPut formats r id segment name) :=
  blames_scopeOf.bind fun _ => blames_read.bind fun _ => blames_valueFor.bind fun _ => .ok _

theorem blames_uploadedValue {parts : List Part} :
    FailsOnlyWith BlamesRequest (uploadedValue formats name parts) := by
  unfold uploadedValue
  split
  · refine .mapError fun e => ?_
    split <;> exact Or.inl rfl
  · exact .error (Or.inl rfl)

theorem blames_readUpload {parts? : Option (List Part)} :
    FailsOnlyWith BlamesRequest (readUpload formats id segment name parts?) := by
  refine blames_scopeOf.bind fun scope => ?_
  cases parts? with
  | none => exact .error (Or.inl rfl)
  | some parts => exact blames_uploadedValue.bind fun _ => .ok _

theorem blames_readValues {wires : Dictionary WireValue} :
    FailsOnlyWith BlamesRequest (readValues formats attempt wires) :=
  (FailsOnlyWith.mapM (fun _ => blames_valueFor.bind fun _ => .ok _) _).bind fun _ => .ok _

theorem blames_readModification :
    FailsOnlyWith BlamesRequest (readModification formats r id segment) := by
  refine blames_scopeOf.bind fun scope => blames_read.bind fun patch => ?_
  refine FailsOnlyWith.bind ?_ fun _ => .ok _
  cases patch.modifications with
  | none => exact .ok _
  | some wires => exact blames_readValues.bind fun _ => .ok _

theorem blames_readTrigger : FailsOnlyWith BlamesRequest (readTrigger formats r id t) := by
  refine blames_read.bind fun body => ?_
  exact (FailsOnlyWith.mapM (fun _ => blames_valueFor.bind fun _ => .ok _) _).bind fun _ => .ok _

end

end CaseGateway.Http
