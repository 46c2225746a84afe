/-
The type of a value is the one its tag declares.

A tag is looked up in a closed set of names, and the type it names chooses the reader.  Each
reader gives values of its own type, whatever kind of JSON it takes them from: a number read
as a string is a string.  None of them makes a value out of a null, or a null out of anything
else, so what is null is told by the JSON alone, with a tag or without.

Only of an object does the tag not tell the type.  An object is of the engine's own type if its
format is the engine's own, and which format that is may be declared beside the tag.
-/
import CaseGateway.Proofs.Outcome
import CaseGateway.Proofs.Value.Objects

namespace CaseGateway

open DataFormats (native)

/-! ### Names of types -/

namespace ValueType

/-- The names a type goes by. -/
def knownTags : ValueType → List String
  | .bytes => ["Bytes", "byte[]"]
  | t => [t.tag]

/-- A tag names a type if it is one of its names in letters of any case. -/
def NamedBy (t : ValueType) (tag : String) : Prop :=
  ∃ known ∈ t.knownTags, Text.sameLetters tag known

/-- Whether the values of a type are objects. -/
def isObject : ValueType → Bool
  | .object | .serializable => true
  | _ => false

/-- What is looked up is each name in lower case. -/
theorem tags_of_type (t : ValueType) :
    (tags.filter fun e => e.2 = t).map (·.1) = t.knownTags.map Text.lower := by
  cases t with
  | integral w => cases w <;> decide +kernel
  | _ => decide +kernel

theorem mem_tags_iff {name : String} {t : ValueType} :
    (name, t) ∈ tags ↔ ∃ known ∈ t.knownTags, Text.lower known = name := by
  rw [← List.mem_map, ← tags_of_type]
  simp

/-- A tag has a type exactly when it is one of its names. -/
theorem ofTag?_eq_some_iff {tag : String} {t : ValueType} : ofTag? tag = some t ↔ t.NamedBy tag := by
  have hdistinct : tags.Pairwise fun a b => a.1 ≠ b.1 := by decide
  rw [ofTag?, ← Dictionary.mem_iff_find? hdistinct, mem_tags_iff]
  simp only [NamedBy, Text.sameLetters, beq_iff_eq, eq_comm (a := Text.lower tag)]

theorem ofTag?_eq_none_iff {tag : String} : ofTag? tag = none ↔ ∀ t : ValueType, ¬ t.NamedBy tag := by
  simp only [Option.eq_none_iff_forall_ne_some, ne_eq, ofTag?_eq_some_iff]

end ValueType

/-! ### Nulls -/

namespace TypedValue

/-- The null of a type. -/
def nullOf : ValueType → TypedValue
  | .null => .null
  | .string => .string none
  | .boolean => .boolean none
  | .integral w => .integral w none
  | .double => .double none
  | .date => .date none
  | .bytes => .bytes none
  | .object => .object ⟨none, none, none, .empty⟩
  | .serializable => .object ⟨none, some native, none, .empty⟩

/-- A reader keeps nulls if it reads them, and nothing else, as no value. -/
def KeepsNull {α : Type} (read : Json → Except ValueError (Option α)) : Prop :=
  ∀ j x, read j = .ok x → (x.isNone ↔ j = .null)

theorem keepsNull_decodeString : KeepsNull decodeString := by
  intro j x h
  unfold decodeString at h
  split at h <;> cases h <;> simp

theorem keepsNull_decodeBoolean : KeepsNull decodeBoolean := by
  intro j x h
  unfold decodeBoolean at h
  (repeat' split at h) <;> cases h <;> simp

theorem keepsNull_decodeIntegral (w : IntWidth) : KeepsNull (decodeIntegral w) := by
  intro j x h
  unfold decodeIntegral at h
  (repeat' split at h) <;> cases h <;> simp

theorem keepsNull_decodeDouble : KeepsNull decodeDouble := by
  intro j x h
  unfold decodeDouble at h
  (repeat' split at h) <;> cases h <;> simp

theorem keepsNull_decodeDate : KeepsNull decodeDate := by
  intro j x h
  unfold decodeDate at h
  (repeat' split at h) <;> cases h <;> simp

theorem keepsNull_decodeBytes : KeepsNull decodeBytes := by
  intro j x h
  unfold decodeBytes at h
  split at h
  · cases h; simp
  · obtain ⟨bs, -, rfl⟩ := map_eq_ok.mp h
    simp
  · cases h

theorem keepsNull_payloadOf (f : String) (t : ValueType) :
    KeepsNull (DataFormats.payloadOf f t) := by
  intro j x h
  unfold DataFormats.payloadOf at h
  split at h
  · cases h; simp
  · split at h
    · obtain ⟨bs, -, rfl⟩ := map_eq_ok.mp h
      simp
    · cases h; simp
  · split at h
    · cases h; simp
    · cases h
  · split at h
    · cases h; simp
    · cases h
  · next hnull _ _ _ => cases h; simpa using hnull

/-- Without a type, too, nothing but a null is read as one, and nothing as an object. -/
theorem infer_eq_ok {j : Json} {v : TypedValue} (h : infer j = .ok v) :
    (v.isNull ↔ j = .null) ∧ v.isObject = false := by
  cases j with
  | number n =>
      unfold infer at h
      dsimp only at h
      split at h <;> cases h <;> exact ⟨iff_of_false nofun nofun, rfl⟩
  | array items => cases h
  | object members => cases h
  | null => cases h; exact ⟨iff_of_true rfl rfl, rfl⟩
  | bool b | string s => cases h; exact ⟨iff_of_false nofun nofun, rfl⟩

/-- What is null of a converted value. -/
theorem KeepsNull.map {α : Type} {read : Json → Except ValueError (Option α)}
    (hread : KeepsNull read) {make : Option α → TypedValue} {j : Json} {v : TypedValue}
    (hmake : ∀ x, (make x).isNull = x.isNone) (h : (read j).map make = .ok v) :
    (∃ x, v = make x) ∧ (v.isNull ↔ j = .null) := by
  obtain ⟨x, hx, rfl⟩ := map_eq_ok.mp h
  rw [hmake]
  exact ⟨⟨x, rfl⟩, hread j x hx⟩

end TypedValue

/-! ### Readers -/

namespace DataFormats

open TypedValue

variable {formats : DataFormats} {w : WireValue} {t : ValueType} {v : TypedValue}

/-- Of an object, the format is read beside the payload. -/
theorem decodeObject_eq_ok (h : formats.decodeObject t w = .ok v) :
    ∃ f o, formats.formatOf t w.info = .ok f ∧ v = .object o ∧ o.format = some f ∧
      (v.isNull ↔ w.value = .null) := by
  obtain ⟨f, hf, -⟩ := bind_eq_ok.mp h
  rw [decodeObject_of_format hf] at h
  obtain ⟨data, hdata, rfl⟩ := map_eq_ok.mp h
  exact ⟨f, _, hf, rfl, rfl, keepsNull_payloadOf f t _ _ hdata⟩

theorem decodeAs_of_isObject (ht : t.isObject) : formats.decodeAs w t = formats.decodeObject t w := by
  cases t <;> first | rfl | cases ht

/-- What is read as a type other than an object's is of this type. -/
theorem decodeAs_eq_ok (ht : t.isObject = false) (h : formats.decodeAs w t = .ok v) :
    v.type = t ∧ (v.isNull ↔ w.value = .null) := by
  cases t with
  | null =>
      unfold decodeAs at h
      dsimp only at h
      split at h
      · next hnull => cases h; exact ⟨rfl, iff_of_true rfl hnull⟩
      · cases h
  | string =>
      obtain ⟨⟨x, rfl⟩, hnull⟩ := keepsNull_decodeString.map (fun _ => rfl) h
      exact ⟨rfl, hnull⟩
  | boolean =>
      obtain ⟨⟨x, rfl⟩, hnull⟩ := keepsNull_decodeBoolean.map (fun _ => rfl) h
      exact ⟨rfl, hnull⟩
  | integral width =>
      obtain ⟨⟨x, rfl⟩, hnull⟩ := (keepsNull_decodeIntegral width).map (fun _ => rfl) h
      exact ⟨rfl, hnull⟩
  | double =>
      obtain ⟨⟨x, rfl⟩, hnull⟩ := keepsNull_decodeDouble.map (fun _ => rfl) h
      exact ⟨rfl, hnull⟩
  | date =>
      obtain ⟨⟨x, rfl⟩, hnull⟩ := keepsNull_decodeDate.map (fun _ => rfl) h
      exact ⟨rfl, hnull⟩
  | bytes =>
      obtain ⟨⟨x, rfl⟩, hnull⟩ := keepsNull_decodeBytes.map (fun _ => rfl) h
      exact ⟨rfl, hnull⟩
  | object => cases ht
  | serializable => cases ht

/-- A null is read as the null of any type but an object's. -/
theorem decodeAs_null (ht : t.isObject = false) (hnull : w.value = .null) :
    formats.decodeAs w t = .ok (nullOf t) := by
  cases t with
  | object => cases ht
  | serializable => cases ht
  | _ => simp only [decodeAs, hnull]; rfl

/-- With a tag or without, a null is read from a null and from nothing else. -/
theorem isNull_of_decode (h : formats.decode w = .ok v) : v.isNull ↔ w.value = .null := by
  unfold decode at h
  split at h
  · exact (infer_eq_ok h).1
  · split at h
    · cases h
    · next t _ =>
      by_cases ht : t.isObject
      · rw [decodeAs_of_isObject ht] at h
        obtain ⟨f, o, -, -, -, hnull⟩ := decodeObject_eq_ok h
        exact hnull
      · exact (decodeAs_eq_ok (by simpa using ht) h).2

/-- An object is read by no other reader than the one of objects. -/
theorem decode_eq_object {o : ObjectValue} (h : formats.decode w = .ok (.object o)) :
    ∃ t f, formats.formatOf t w.info = .ok f ∧ o.format = some f := by
  unfold decode at h
  split at h
  · exact nomatch (infer_eq_ok h).2
  · split at h
    · cases h
    · next t _ =>
      by_cases ht : t.isObject
      · rw [decodeAs_of_isObject ht] at h
        obtain ⟨f, _, hf, ⟨⟩, hformat, -⟩ := decodeObject_eq_ok h
        exact ⟨t, f, hf, hformat⟩
      · have htype := (decodeAs_eq_ok (by simpa using ht) h).1
        rw [← htype, type_object] at ht
        split at ht <;> exact absurd rfl ht

end DataFormats

/-! ### Tags -/

namespace TypedValue

theorem encode_typeTag (v : TypedValue) (options : EncodeOptions) :
    (v.encode options).typeTag = some v.type.tag := by
  cases v with
  | object o => exact (o.encode_header options).1
  | _ => rfl

/-- An object is of the engine's own type exactly when it is in the engine's own format. -/
theorem type_object_of_format {o : ObjectValue} {f : String} (hformat : o.format = some f) :
    ((TypedValue.object o).type = .serializable ↔ f = native) ∧
      ((TypedValue.object o).type = .object ↔ f ≠ native) := by
  have hnative : o.isNative ↔ f = native := by
    rw [ObjectValue.isNative_iff, hformat, Option.some.injEq]
  rw [type_object]
  by_cases h : f = native
  · rw [if_pos (hnative.mpr h)]
    exact ⟨iff_of_true rfl h, iff_of_false nofun fun hne => hne h⟩
  · rw [if_neg (mt hnative.mp h)]
    exact ⟨iff_of_false nofun h, iff_of_true rfl h⟩

/-- **A value is of the type that was declared, nulls included.**

A tag that is none of the known names is refused, whatever it stands beside.  A type other than an
object's is the type of whatever is read, and its null is always read.  An object is read as
one, and is of the engine's own type exactly when its format is the engine's own, whichever of the
two types was declared.  With a tag or without, nulls are read from nulls and from nothing
else, and the tag that is written names the type again. -/
theorem declared_type_kept (formats : DataFormats) (w : WireValue) :
    (∀ tag, w.typeTag = some tag →
      ((∀ t : ValueType, ¬ t.NamedBy tag) → formats.decode w = .error (.unsupportedType tag)) ∧
      ∀ t : ValueType, t.NamedBy tag →
        (t.isObject = false →
          (∀ v, formats.decode w = .ok v → v.type = t) ∧
          (w.value = .null → formats.decode w = .ok (nullOf t))) ∧
        (t.isObject → ∀ v, formats.decode w = .ok v →
          ∃ o f, v = .object o ∧ formats.formatOf t w.info = .ok f ∧ o.format = some f ∧
            (v.type = .serializable ↔ f = native) ∧ (v.type = .object ↔ f ≠ native))) ∧
    ∀ v, formats.decode w = .ok v →
      (v.isNull ↔ w.value = .null) ∧
      ∀ options, ∃ tag, (v.encode options).typeTag = some tag ∧
        ValueType.ofTag? tag = some v.type := by
  refine ⟨fun tag htag => ⟨fun hunknown => ?_, fun t ht => ?_⟩, fun v hv => ⟨?_, fun options => ?_⟩⟩
  · have hnone := ValueType.ofTag?_eq_none_iff.mpr hunknown
    simp only [DataFormats.decode, htag, hnone]
  · have hdecode := decode_of_tag formats w htag (ValueType.ofTag?_eq_some_iff.mpr ht)
    rw [hdecode]
    refine ⟨fun hscalar => ⟨fun v hv => ?_, fun hnull => ?_⟩, fun hobject v hv => ?_⟩
    · exact (DataFormats.decodeAs_eq_ok hscalar hv).1
    · exact DataFormats.decodeAs_null hscalar hnull
    · rw [DataFormats.decodeAs_of_isObject hobject] at hv
      obtain ⟨f, o, hf, rfl, hformat, -⟩ := DataFormats.decodeObject_eq_ok hv
      exact ⟨o, f, rfl, hf, hformat, type_object_of_format hformat⟩
  · exact DataFormats.isNull_of_decode hv
  · exact ⟨v.type.tag, v.encode_typeTag options, v.type.ofTag?_tag⟩

/-- A null keeps its type under a tag in capitals, and an object may turn out to be of the other of
the two types. -/
theorem declared_type_kept_order :
    let null : WireValue := ⟨.null, some "SHORT", .empty, none⟩
    let info : Dictionary Json :=
      .ofList [("serializationDataFormat", .string "Application/X-Java-Serialized-Object")]
    let order : WireValue := ⟨.null, some "Object", info, none⟩
    (ValueType.integral .short).NamedBy "SHORT" ∧
      DataFormats.builtIn.decode null = .ok (.integral .short none) ∧
      ValueType.object.NamedBy "Object" ∧
      ∃ v, DataFormats.builtIn.decode order = .ok v ∧ v.type = .serializable := by
  intro null info order
  have hshort : (ValueType.integral .short).NamedBy "SHORT" :=
    ValueType.ofTag?_eq_some_iff.mp (by decide +kernel)
  have hobject : ValueType.object.NamedBy "Object" :=
    ValueType.ofTag?_eq_some_iff.mp (by decide +kernel)
  have hnull := ((declared_type_kept .builtIn null).1 _ rfl).2 _ hshort
  have horder := ((declared_type_kept .builtIn order).1 _ rfl).2 _ hobject
  have hinfo : info.get? WireValue.serializationDataFormat
      = some (.string "Application/X-Java-Serialized-Object") := Dictionary.get?_insert_self _ _ _
  have hresolve : DataFormats.builtIn.resolve? "Application/X-Java-Serialized-Object"
      = some native := by decide +kernel
  have hformat : DataFormats.builtIn.formatOf .object info = .ok native := by
    rw [DataFormats.formatOf, hinfo]
    exact DataFormats.require_of_resolve? hresolve
  have hread : DataFormats.builtIn.decodeObject .object order = .ok _ :=
    DataFormats.decodeObject_of_format hformat
  have hv := (decode_of_tag _ order rfl (ValueType.ofTag?_eq_some_iff.mpr hobject)).trans hread
  obtain ⟨o, f, -, hf, -, htype, -⟩ := horder.2 rfl _ hv
  have hnative : f = native := (Except.ok.inj (hformat.symm.trans hf)).symm
  exact ⟨hshort, (hnull.1 rfl).2 rfl, hobject, _, hv, htype.mpr hnative⟩

end TypedValue

end CaseGateway
