/-
What is left of a store when binary content is forgotten.

The outline of a value holds nothing in a byte array, and in an object of the engine's own
format zeros, as many as there were bytes.  Values that differ in such content alone have
one outline.  So whatever is the same for a store and for its outline is the same for two
stores that differ in content alone, and an argument about two stores becomes one about a
single store and its outline.

Conditions and sort keys look at the columns of a row, and at the type and the rendering
of its value.  The outline keeps all of these, so it makes no difference whether it is
taken before rows are selected or after.
-/
import CaseGateway.Engine.StoreEngine
import CaseGateway.Http.View
import Mathlib.Data.List.Forall2

namespace CaseGateway

/-! ### Values -/

/-- The object with zeros in place of a payload that only the engine understands. -/
def ObjectValue.outline (o : ObjectValue) : ObjectValue :=
  if o.isNative then { o with data := o.data.map fun data => List.replicate data.length 0 } else o

namespace TypedValue

/-- Values that are the same but for the content of a byte array, or for the payload of an object
in the engine's own format, of the same length. -/
inductive SameButContent : TypedValue → TypedValue → Prop
  | refl (v : TypedValue) : SameButContent v v
  | bytes (bs bs' : Option Bytes) : SameButContent (.bytes bs) (.bytes bs')
  | native {o : ObjectValue} (h : o.isNative) {data data' : Bytes}
    (hlength : data.length = data'.length) :
    SameButContent (.object { o with data := some data }) (.object { o with data := some data' })

/-- The value without its binary content. -/
def outline : TypedValue → TypedValue
  | .bytes _ => .bytes none
  | .object o => .object o.outline
  | v => v

theorem SameButContent.outline_eq {v w : TypedValue} (h : v.SameButContent w) :
    v.outline = w.outline := by
  cases h with
  | refl v => rfl
  | bytes bs bs' => rfl
  | @native o hnative data data' hlength =>
      have hnative' : ∀ d, ({ o with data := d } : ObjectValue).isNative = true := fun _ => hnative
      simp [outline, ObjectValue.outline, hnative', hlength]

end TypedValue

theorem ObjectValue.isNative_outline (o : ObjectValue) : o.outline.isNative = o.isNative := by
  unfold ObjectValue.outline
  split <;> rfl

/-- How an object is written depends on the length of a payload in the engine's own format, and on
no more of it. -/
theorem ObjectValue.encode_outline (options : EncodeOptions) (o : ObjectValue) :
    o.outline.encode options = o.encode options := by
  unfold ObjectValue.outline
  split
  · rename_i hnative
    obtain ⟨data, format, typeName, configuration⟩ := o
    cases data with
    | none => rfl
    | some data =>
        have hpayload : ∀ zeros : Bytes,
            ObjectValue.isNative ⟨some zeros, format, typeName, configuration⟩ = true :=
          fun _ => hnative
        simp [encode, hpayload, descriptor, info, TypedValue.type]
  · rfl

namespace TypedValue

theorem type_outline (v : TypedValue) : v.outline.type = v.type := by
  cases v with
  | object o => simp [outline, type, o.isNative_outline]
  | _ => rfl

theorem rendersAs_outline (v : TypedValue) (text : String) :
    v.outline.rendersAs text = v.rendersAs text := by
  cases v <;> rfl

theorem withoutBytes_outline (v : TypedValue) :
    v.withoutBytes.outline = v.outline.withoutBytes := by
  cases v <;> rfl

/-- Where byte arrays are written without their content, a value is written like its outline. -/
theorem encode_outline {options : EncodeOptions} (h : options.binaryFetching = false)
    (v : TypedValue) : v.outline.encode options = v.encode options := by
  cases v with
  | object o => exact o.encode_outline options
  | bytes bs =>
      cases bs with
      | none => rfl
      | some bs => simp [outline, encode, scalarJson, type, h]
  | _ => rfl

end TypedValue

/-! ### Rows -/

/-- Variables that are the same but for binary content. -/
def VariableInstance.SameButContent (v w : VariableInstance) : Prop :=
  v.value.SameButContent w.value ∧ w = { v with value := w.value }

/-- Historic variables that are the same but for binary content. -/
def HistoricVariable.SameButContent (v w : HistoricVariable) : Prop :=
  v.value.SameButContent w.value ∧ w = { v with value := w.value }

/-- A variable without binary content. -/
def VariableInstance.outline (v : VariableInstance) : VariableInstance :=
  { v with value := v.value.outline }

/-- A historic variable without binary content. -/
def HistoricVariable.outline (v : HistoricVariable) : HistoricVariable :=
  { v with value := v.value.outline }

theorem VariableInstance.SameButContent.outline_eq {v w : VariableInstance}
    (h : v.SameButContent w) : v.outline = w.outline := by
  obtain ⟨hvalue, hrest⟩ := h
  rw [hrest]
  unfold VariableInstance.outline
  rw [hvalue.outline_eq]

theorem HistoricVariable.SameButContent.outline_eq {v w : HistoricVariable}
    (h : v.SameButContent w) : v.outline = w.outline := by
  obtain ⟨hvalue, hrest⟩ := h
  rw [hrest]
  unfold HistoricVariable.outline
  rw [hvalue.outline_eq]

/-! ### Selecting rows -/

section Selecting

variable {ρ χ ε κ α : Type} [Queryable ρ χ ε κ]

/-- A change of rows that no condition and no sort key notices. -/
structure Unnoticed (f : ρ → ρ) : Prop where
  column : ∀ row c, Queryable.column (f row) c = Queryable.column row c
  satisfies : ∀ row e, Queryable.satisfies (f row) e = Queryable.satisfies row e
  compareBy : ∀ k a b, Queryable.compareBy k (f a) (f b) = Queryable.compareBy k a b
  withoutBytes : ∀ row, Queryable.withoutBytes (f row) = f (Queryable.withoutBytes row)

namespace Unnoticed

variable {f : ρ → ρ}

theorem holds (h : Unnoticed f) (row : ρ) (c : Condition χ ε) : c.holds (f row) = c.holds row := by
  cases c with
  | equals c text | oneOf c texts | like c pattern => simp only [Condition.holds, h.column]
  | special e => exact h.satisfies row e

theorem compareIn (h : Unnoticed f) (key : SortKey χ κ) (order : SortOrder) (a b : ρ) :
    key.compareIn order (f a) (f b) = key.compareIn order a b := by
  have hkey : key.compare (f a) (f b) = key.compare a b := by
    cases key with
    | column c => simp only [SortKey.compare, h.column]
    | special k => exact h.compareBy k a b
  unfold SortKey.compareIn
  rw [hkey]

theorem compareRows (h : Unnoticed f) (orderings : List (SortKey χ κ × SortOrder)) (a b : ρ) :
    Selection.compareRows orderings (f a) (f b) = Selection.compareRows orderings a b := by
  unfold Selection.compareRows
  simp only [h.compareIn]

/-- The change can be made before rows are selected or after. -/
theorem rows (h : Unnoticed f) (s : Selection χ ε κ) (stored : List ρ) :
    s.rows (stored.map f) = (s.rows stored).map f := by
  have hmatching : ((stored.map f).filter fun row => s.conditions.all fun c => c.holds row)
      = (stored.filter fun row => s.conditions.all fun c => c.holds row).map f := by
    simp only [List.filter_map, Function.comp_def, h.holds]
  have hsorted : ∀ l : List ρ,
      (l.map f).mergeSort (fun a b => (Selection.compareRows s.orderings a b).isLE)
        = (l.mergeSort fun a b => (Selection.compareRows s.orderings a b).isLE).map f :=
    fun l => (List.map_mergeSort fun a _ b _ => by rw [h.compareRows]).symm
  simp only [Selection.rows, hmatching, hsorted]
  split
  · rfl
  · simp only [List.map_map, Function.comp_def, h.withoutBytes]

end Unnoticed

/-- What a change of rows makes of what a query yields. -/
def Execution.image (f : ρ → ρ) : {α : Type} → Execution ρ α → α → α
  | _, .list | _, .page _ _ => List.map f
  | _, .count => fun n => n
  | _, .single => Option.map f

theorem Execution.result_map (f : ρ → ρ) (execution : Execution ρ α) (rows : List ρ) :
    execution.result (rows.map f) = (execution.result rows).map (execution.image f) := by
  cases execution with
  | list => rfl
  | page first max => simp [result, image, Except.map, List.map_drop, List.map_take]
  | count => simp [result, image, Except.map]
  | single =>
      match rows with
      | [] => rfl
      | [row] => rfl
      | row :: row' :: rest => simp [result, Except.map]

theorem Unnoticed.query {f : ρ → ρ} (h : Unnoticed f) (stored : List ρ)
    (calls : List (QueryCall χ ε κ)) (execution : Execution ρ α) :
    Store.query (stored.map f) calls execution
      = (Store.query stored calls execution).map (execution.image f) := by
  unfold Store.query Selection.run
  cases (Selection.ofCalls calls).fault? with
  | some misuse => rfl
  | none =>
      show execution.result ((Selection.ofCalls calls).rows (stored.map f)) = _
      rw [h.rows, execution.result_map]
      rfl

theorem unnoticed_id : Unnoticed fun row : ρ => row :=
  ⟨fun _ _ => rfl, fun _ _ => rfl, fun _ _ _ => rfl, fun _ => rfl⟩

end Selecting

theorem VariableInstance.unnoticed_outline : Unnoticed outline where
  column _ c := by cases c <;> rfl
  satisfies _ e := e.elim
  compareBy k v w := by
    cases k
    show compare v.value.outline.type.tag w.value.outline.type.tag = _
    rw [TypedValue.type_outline, TypedValue.type_outline]
    rfl
  withoutBytes v := by
    show { v with value := v.value.outline.withoutBytes } = { v with value := _ }
    rw [← TypedValue.withoutBytes_outline]
    rfl

theorem HistoricVariable.unnoticed_outline : Unnoticed outline where
  column _ c := by cases c <;> rfl
  satisfies v e := by
    obtain ⟨name, value⟩ := e
    show (v.name == name && v.value.outline.rendersAs value) = _
    rw [TypedValue.rendersAs_outline]
    rfl
  compareBy k _ _ := k.elim
  withoutBytes v := by
    show { v with value := v.value.outline.withoutBytes } = { v with value := _ }
    rw [← TypedValue.withoutBytes_outline]
    rfl

/-! ### Stores -/

/-- What is left of a row when binary content is forgotten. -/
def Collection.outline {γ ρ : Type} : Collection γ ρ → ρ → ρ
  | .instances => VariableInstance.outline
  | .historic => HistoricVariable.outline
  | .links | .reports => fun row => row

namespace Store

/-- Stores that are the same but for binary content in the values of their rows. -/
structure SameButContent (s t : Store) : Prop where
  instances : List.Forall₂ VariableInstance.SameButContent s.instances t.instances
  historic : List.Forall₂ HistoricVariable.SameButContent s.historic t.historic
  links : s.links = t.links
  reports : s.reports = t.reports
  executions : s.executions = t.executions
  issued : s.issued = t.issued

/-- The store without binary content. -/
def outline (s : Store) : Store :=
  { s with
    instances := s.instances.map VariableInstance.outline
    historic := s.historic.map HistoricVariable.outline }

theorem SameButContent.outline_eq {s t : Store} (h : s.SameButContent t) :
    s.outline = t.outline := by
  have hinstances : s.instances.map VariableInstance.outline
      = t.instances.map VariableInstance.outline := by
    rw [← List.forall₂_eq_eq_eq, List.forall₂_map_left_iff, List.forall₂_map_right_iff]
    exact h.instances.imp fun _ _ hrow => hrow.outline_eq
  have hhistoric : s.historic.map HistoricVariable.outline
      = t.historic.map HistoricVariable.outline := by
    rw [← List.forall₂_eq_eq_eq, List.forall₂_map_left_iff, List.forall₂_map_right_iff]
    exact h.historic.imp fun _ _ hrow => hrow.outline_eq
  unfold outline
  rw [hinstances, hhistoric, h.links, h.reports, h.executions, h.issued]

/-- A query on the outline of a store yields the outline of what it yields on the store. -/
theorem runQuery_outline {γ ρ α : Type} (c : Collection γ ρ) (calls : List γ)
    (execution : Execution ρ α) (s : Store) :
    runQuery c calls execution s.outline
      = (runQuery c calls execution s).map (execution.image c.outline) := by
  cases c with
  | instances => exact VariableInstance.unnoticed_outline.query s.instances calls execution
  | historic => exact HistoricVariable.unnoticed_outline.query s.historic calls execution
  | links =>
      have hquery := unnoticed_id.query s.links calls execution
      rw [List.map_id'] at hquery
      exact hquery
  | reports =>
      have hquery := unnoticed_id.query s.reports calls execution
      rw [List.map_id'] at hquery
      exact hquery

end Store

end CaseGateway
