/-
What the options of a reader hold back.

For a value of any type the options answer one question, whether it is written out.  If it is
not, its form is the one it has in full, with a null in the place of the value: that is
`encode_eq`, one case for each way to write a value.  Byte arrays ask for one option and objects
for the other, whether or not there is anything that could be held back.

So the options matter where they refuse and the full form has a value to lose.  A byte array has
one unless it is a null, be the array empty or not.  With an object it depends on what is shown of
the payload, and that may be a null even though there is a payload.
-/
import CaseGateway.Proofs.Value.Objects

namespace CaseGateway

/-- Whether a value is written out. -/
def EncodeOptions.shows (options : EncodeOptions) : TypedValue → Bool
  | .bytes _ => options.binaryFetching
  | .object _ => options.objectDeserialization
  | _ => true

/-! ### Forms without their value -/

namespace WireValue

/-- The form with a null in the place of the value. -/
def withoutValue (form : WireValue) : WireValue := { form with value := .null }

theorem withoutValue_ne_iff (form : WireValue) :
    form.withoutValue ≠ form ↔ form.value ≠ .null := by
  refine not_congr ⟨fun h => ?_, fun h => ?_⟩
  · rw [← h]
    rfl
  · rw [withoutValue, ← h]

end WireValue

/-! ### One question to the options -/

theorem ObjectValue.encode_eq (options : EncodeOptions) (o : ObjectValue) :
    o.encode options
      = if options.objectDeserialization then o.encode .full
        else (o.encode .full).withoutValue := by
  cases hdata : o.data with
  | none =>
      rw [o.encode_of_none hdata, o.encode_of_none hdata]
      exact (ite_self _).symm
  | some data =>
      by_cases hnative : o.format = some DataFormats.native
      · rw [o.encode_native hdata hnative, o.encode_native hdata hnative]
        cases options.objectDeserialization <;> rfl
      · rw [o.encode_other hdata hnative, o.encode_other hdata hnative]
        cases options.objectDeserialization <;> rfl

namespace TypedValue

variable (options : EncodeOptions) (v : TypedValue)

theorem encode_bytes (data : Bytes) :
    (bytes (some data)).encode options
      = ⟨if options.binaryFetching then .string (Base64.encode data) else .null,
          some ValueType.bytes.tag, .empty, none⟩ := rfl

theorem encode_bytes_eq (bs : Option Bytes) :
    (bytes bs).encode options
      = if options.binaryFetching then (bytes bs).encode .full
        else ((bytes bs).encode .full).withoutValue := by
  cases bs with
  | none => exact (ite_self _).symm
  | some data =>
      rw [encode_bytes, encode_bytes]
      cases options.binaryFetching <;> rfl

/-- A value is written in full, or without the value and nothing else. -/
theorem encode_eq :
    v.encode options
      = if options.shows v then v.encode .full else (v.encode .full).withoutValue := by
  cases v with
  | null => rfl
  | string x | boolean x | integral _ x | double x | date x => cases x <;> rfl
  | bytes bs => exact encode_bytes_eq options bs
  | object o => exact o.encode_eq options

/-- The options matter where they refuse something. -/
theorem encode_ne_full_iff :
    v.encode options ≠ v.encode .full
      ↔ options.shows v = false ∧ (v.encode .full).value ≠ .null := by
  rw [encode_eq]
  cases options.shows v with
  | true => simp
  | false => simpa using (v.encode .full).withoutValue_ne_iff

/-! ### What can be refused -/

theorem value_encode_bytes_ne_null_iff (bs : Option Bytes) :
    ((bytes bs).encode .full).value ≠ .null ↔ bs.isSome := by
  cases bs with
  | none => exact iff_of_false (fun h => h rfl) nofun
  | some data => exact iff_of_true nofun rfl

/-- What the options refuse is the content of a byte array or the decoded form of an object. -/
theorem withheld_iff :
    options.shows v = false ∧ (v.encode .full).value ≠ .null ↔
      (∃ data, v = .bytes (some data)) ∧ options.binaryFetching = false ∨
        (∃ o, v = .object o) ∧ (v.encode .full).value ≠ .null ∧
          options.objectDeserialization = false := by
  cases v with
  | bytes bs =>
      rw [value_encode_bytes_ne_null_iff, Option.isSome_iff_exists]
      simp [EncodeOptions.shows, and_comm]
  | object o => simp [EncodeOptions.shows, and_comm]
  | null | string _ | boolean _ | integral _ _ | double _ | date _ => simp [EncodeOptions.shows]

/-- **The options hold back values and nothing else.**

Whatever the options, a form differs from the full one at most in its value, which is then a null.
It does so exactly if the value is a byte array, with bytes, and these are not wanted, or an
object of which the full form shows something, and its decoded form is not wanted.  The tag, the
information on the type and the stored payload are always those of the full form. -/
theorem encode_withholds :
    (v.encode options = v.encode .full ∨
      v.encode options = { v.encode .full with value := .null }) ∧
    (v.encode options ≠ v.encode .full ↔
      (∃ data, v = .bytes (some data)) ∧ options.binaryFetching = false ∨
        (∃ o, v = .object o) ∧ (v.encode .full).value ≠ .null ∧
          options.objectDeserialization = false) ∧
    (v.encode options).typeTag = (v.encode .full).typeTag ∧
    (v.encode options).info = (v.encode .full).info ∧
    (v.encode options).serialized = (v.encode .full).serialized := by
  refine ⟨?_, (encode_ne_full_iff options v).trans (withheld_iff options v), ?_⟩
  · rw [encode_eq]
    exact ite_eq_or_eq _ _ _
  · rw [encode_eq]
    split
    · exact ⟨rfl, rfl, rfl⟩
    · exact ⟨rfl, rfl, rfl⟩

end TypedValue

end CaseGateway
