/-
Values without a declared type.

The kind of JSON decides, and for an integer the narrowest width that holds it.  So what is
inferred is written as it was read, except for the integers that do not fit 64 bits with a
sign.  A document may hold those, while no type of integers does: they are taken for the
nearest double and written as that double, whose value is another one wherever the integer
had to be rounded.
-/
import CaseGateway.Proofs.Json.Documents
import CaseGateway.Proofs.Number.Rounding
import CaseGateway.Proofs.Value.Numerals

namespace CaseGateway

/-! ### Integers as doubles -/

/-- A number stands for a finite double. -/
theorem Number.isFinite_toDouble (n : Number) : n.toDouble.isFinite := by
  cases n with
  | double d finite => exact finite
  | integer n inRange =>
      have hbound : n.natAbs ≤ 2 ^ 64 := by omega
      have hsmall : (n.natAbs : ℚ) < 2 ^ (1023 : Int) :=
        calc (n.natAbs : ℚ) ≤ 2 ^ (64 : Int) := by exact_mod_cast hbound
          _ < 2 ^ (1023 : Int) := two_zpow_lt_iff.mpr (by decide)
      have hrank : Double.nearestRank n.natAbs 1 < Double.infinityRank := by
        refine Double.nearestRank_lt_infinityRank Nat.one_pos ?_
        rwa [Nat.cast_one, div_one]
      simp only [toDouble, Double.ofRank, dif_pos (Double.nearestRank_lt n.natAbs 1)]
      exact decide_eq_true hrank

theorem IntWidth.fits_long_of_integer {n : Int} (h : integer.Fits n) : long.Fits n := by
  simp only [Fits, half] at h ⊢
  omega

namespace TypedValue

/-- The JSON that a finite double is written as. -/
theorem encode_double {d : Double} (h : d.isFinite) :
    ((TypedValue.double (some d)).encode .full).value = .number (.double d h) :=
  dif_pos h

/-! ### Inference -/

section Integer

variable {n : Int} (inRange : -0x8000000000000000 ≤ n ∧ n < 0x10000000000000000)

theorem infer_of_fits_integer (h : IntWidth.integer.Fits n) :
    infer (.number (.integer n inRange)) = .ok (.integral .integer (some ⟨n, h⟩)) := by
  simp only [infer, Number.toSized?, SizedInt.ofInt?, dif_pos h]

theorem infer_of_fits_long (hinteger : ¬ IntWidth.integer.Fits n) (h : IntWidth.long.Fits n) :
    infer (.number (.integer n inRange)) = .ok (.integral .long (some ⟨n, h⟩)) := by
  simp only [infer, Number.toSized?, SizedInt.ofInt?, dif_neg hinteger, dif_pos h]

theorem infer_of_not_fits (h : ¬ IntWidth.long.Fits n) :
    infer (.number (.integer n inRange))
      = .ok (.double (some (Number.integer n inRange).toDouble)) := by
  have hinteger : ¬ IntWidth.integer.Fits n := mt IntWidth.fits_long_of_integer h
  simp only [infer, Number.toSized?, SizedInt.ofInt?, dif_neg hinteger, dif_neg h]

/-- An integer is read as the narrower of the two wider widths that holds it, and is written
unchanged if there is one. -/
theorem infer_integer :
    ∃ v, infer (.number (.integer n inRange)) = .ok v ∧
      ((v.encode .full).value = .number (.integer n inRange) ↔ IntWidth.long.Fits n) ∧
      (v.type = .integral .integer ↔ IntWidth.integer.Fits n) ∧
      (v.type = .integral .long ↔ IntWidth.long.Fits n ∧ ¬ IntWidth.integer.Fits n) ∧
      (¬ IntWidth.long.Fits n → v = .double (some (Number.integer n inRange).toDouble)) := by
  by_cases hinteger : IntWidth.integer.Fits n
  · have hlong := IntWidth.fits_long_of_integer hinteger
    refine ⟨_, infer_of_fits_integer inRange hinteger, iff_of_true rfl hlong,
      iff_of_true rfl hinteger, ?_, fun h => absurd hlong h⟩
    exact iff_of_false (fun h => nomatch h) fun h => h.2 hinteger
  by_cases hlong : IntWidth.long.Fits n
  · refine ⟨_, infer_of_fits_long inRange hinteger hlong, iff_of_true rfl hlong, ?_,
      iff_of_true rfl ⟨hlong, hinteger⟩, fun h => absurd hlong h⟩
    exact iff_of_false nofun hinteger
  · refine ⟨_, infer_of_not_fits inRange hlong, ?_, iff_of_false nofun hinteger,
      iff_of_false nofun fun h => hlong h.1, fun _ => rfl⟩
    rw [encode_double (Number.isFinite_toDouble _)]
    exact iff_of_false nofun hlong

end Integer

/-- Whatever else is not an array or an object is written as it was read. -/
theorem infer_scalar {j : Json} (hscalar : j.isScalar)
    (hno : ∀ n inRange, j ≠ .number (.integer n inRange)) :
    ∃ v, infer j = .ok v ∧ (v.encode .full).value = j := by
  cases j with
  | null => exact ⟨.null, rfl, rfl⟩
  | bool b => exact ⟨.boolean (some b), rfl, rfl⟩
  | string s => exact ⟨.string (some s), rfl, rfl⟩
  | number n =>
      cases n with
      | integer n inRange => exact absurd rfl (hno n inRange)
      | double d finite => exact ⟨.double (some d), rfl, encode_double finite⟩
  | array items => exact nomatch hscalar
  | object members => exact nomatch hscalar

/-- **What is read without a type is written unchanged, unless it is an integer beyond 64 bits.**

Everything but an array or an object is read.  An integer is of 32 bits if it fits these, of
64 bits if it fits only those, and a double if it fits neither, whatever the data formats. -/
theorem untyped_kept_iff (formats : DataFormats) {form : WireValue} (htag : form.typeTag = none)
    (hscalar : form.value.isScalar) :
    ∃ v, formats.decode form = .ok v ∧
      ((v.encode .full).value = form.value ↔
        ∀ (n : Int) inRange, form.value = .number (.integer n inRange) → IntWidth.long.Fits n) ∧
      ∀ (n : Int) inRange, form.value = .number (.integer n inRange) →
        (v.type = .integral .integer ↔ IntWidth.integer.Fits n) ∧
        (v.type = .integral .long ↔ IntWidth.long.Fits n ∧ ¬ IntWidth.integer.Fits n) ∧
        (¬ IntWidth.long.Fits n → v = .double (some (Number.integer n inRange).toDouble)) := by
  have hdecode : formats.decode form = infer form.value := by rw [DataFormats.decode, htag]
  rw [hdecode]
  generalize form.value = j at hscalar ⊢
  by_cases hinteger : ∃ n inRange, j = .number (.integer n inRange)
  · obtain ⟨n, inRange, rfl⟩ := hinteger
    obtain ⟨v, hv, hkept, htype⟩ := infer_integer inRange
    refine ⟨v, hv, hkept.trans ⟨?_, fun h => h n inRange rfl⟩, ?_⟩
    · rintro h _ _ ⟨⟩
      exact h
    · rintro _ _ ⟨⟩
      exact htype
  · have hno (n : Int) inRange (h : j = .number (.integer n inRange)) : False :=
      hinteger ⟨n, inRange, h⟩
    obtain ⟨v, hv, hkept⟩ := infer_scalar hscalar hno
    exact ⟨v, hv, iff_of_true hkept fun n inRange h => (hno n inRange h).elim,
      fun n inRange h => (hno n inRange h).elim⟩

/-- The first integer beyond 32 bits is of 64 bits. -/
theorem untyped_kept_long :
    let form : WireValue := ⟨.number (.integer 2147483648 (by decide)), none, .empty, none⟩
    form.typeTag = none ∧ form.value.isScalar ∧
      ∃ v, DataFormats.builtIn.decode form = .ok v ∧
        (v.encode .full).value = form.value ∧ v.type = .integral .long := by
  intro form
  have htag : form.typeTag = none := rfl
  have hscalar : form.value.isScalar := rfl
  obtain ⟨v, hv, hkept, htype⟩ := untyped_kept_iff .builtIn htag hscalar
  have hlong : IntWidth.long.Fits 2147483648 := by decide
  have hinteger : ¬ IntWidth.integer.Fits 2147483648 := by decide
  refine ⟨htag, hscalar, v, hv, hkept.mpr ?_, (htype _ _ rfl).2.1.mpr ⟨hlong, hinteger⟩⟩
  rintro _ _ ⟨⟩
  exact hlong

/-- The largest integer of a document is read as a double, which is larger by one. -/
theorem untyped_not_kept :
    let j : Json := .number (.integer 18446744073709551615 (by decide))
    let d : Double := ⟨false, 0x43F0000000000000, by decide⟩
    j.isScalar ∧
      DataFormats.builtIn.decode ⟨j, none, .empty, none⟩ = .ok (.double (some d)) ∧
      ((TypedValue.double (some d)).encode .full).value ≠ j ∧
      ((TypedValue.double (some d)).encode .full).value.text = "1.8446744073709552e+19" ∧
      j.text = "18446744073709551615" ∧
      Double.quotient d.rank = (18446744073709551616, 1) := by
  intro j d
  have hd : (Number.integer 18446744073709551615 (by decide)).toDouble = d := by decide +kernel
  have hdecode := infer_of_not_fits (n := 18446744073709551615) (by decide) (by decide)
  rw [hd] at hdecode
  refine ⟨rfl, hdecode, ?_, by decide +kernel, by decide +kernel, by decide +kernel⟩
  rw [encode_double (by decide)]
  intro h
  injection h with h
  exact nomatch h

end TypedValue

end CaseGateway
