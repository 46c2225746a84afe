/-
The data formats in use are closed under their names.

A name is brought into its canonical form when it is configured and again when it is looked
up.  Nothing is left to do the second time: the canonical form has no semicolon, no blank
at either end and no capital, and such a text is its own canonical form.  So what is found
under a name is itself a name, and is found under itself.

Configured names are put into a set, of which the first one is remembered as the default.
The order of the others is lost there, and so is how often they were given.

An object gets its format by a look-up or is in the default one, and nowhere else does a
format come from.  `Closed` is all that is needed to tell that it is in use.
-/
import CaseGateway.Proofs.Dictionary
import CaseGateway.Proofs.Outcome
import CaseGateway.Proofs.Text.Case
import CaseGateway.Proofs.Value.Types
import CaseGateway.Proofs.Value.Uploads

namespace CaseGateway.DataFormats

/-! ### Canonical names -/

/-- What a name in canonical form looks like. -/
structure IsCanonical (name : String) : Prop where
  semicolon : ';' ∉ name.toList
  first : ∀ c ∈ name.toList.head?, Text.isBlank c = false
  last : ∀ c ∈ name.toList.getLast?, Text.isBlank c = false
  lower : ∀ c ∈ name.toList, c.toLower = c

theorem toList_canonical (name : String) :
    (canonical name).toList
      = (Text.stripEnds Text.isBlank (name.toList.takeWhile (· ≠ ';'))).map Char.toLower := by
  simp [canonical, Text.lower, Text.trim, Text.cutAt]

theorem isCanonical_canonical (name : String) : IsCanonical (canonical name) := by
  refine ⟨?_, ?_, ?_, ?_⟩
  · rw [toList_canonical, List.mem_map]
    rintro ⟨c, hc, hlower⟩
    have hbefore := List.mem_takeWhile_imp (Text.mem_of_mem_stripEnds hc)
    exact of_decide_eq_true hbefore (Text.toLower_eq_semicolon hlower)
  · intro c hc
    rw [toList_canonical, List.head?_map] at hc
    obtain ⟨d, hd, rfl⟩ := Option.map_eq_some_iff.mp hc
    exact (Text.isBlank_toLower d).trans (Text.head?_stripEnds hd)
  · intro c hc
    rw [toList_canonical, List.getLast?_map] at hc
    obtain ⟨d, hd, rfl⟩ := Option.map_eq_some_iff.mp hc
    exact (Text.isBlank_toLower d).trans (Text.getLast?_stripEnds hd)
  · intro c hc
    rw [toList_canonical, List.mem_map] at hc
    obtain ⟨c, -, rfl⟩ := hc
    exact Text.toLower_toLower c

theorem IsCanonical.canonical_eq {name : String} (h : IsCanonical name) : canonical name = name := by
  have hcut : name.toList.takeWhile (· ≠ ';') = name.toList :=
    List.takeWhile_eq_self_iff.mpr fun c hc => by
      simpa using fun heq : c = ';' => h.semicolon (heq ▸ hc)
  rw [← String.toList_inj, toList_canonical, hcut, Text.stripEnds_eq_self h.first h.last]
  exact (List.map_congr_left h.lower).trans (List.map_id' _)

/-- A name is in canonical form once it has been brought into it. -/
theorem canonical_canonical (name : String) : canonical (canonical name) = canonical name :=
  (isCanonical_canonical name).canonical_eq

/-! ### Sets of names -/

theorem get?_namesOf (names : List String) (name : String) :
    (namesOf names).get? name = if name ∈ names then some () else none := by
  rw [namesOf, Dictionary.ofList,
    Dictionary.get?_foldl_insert (fun e : String × Unit => e.1) (·.2), Dictionary.get?_empty]
  by_cases h : name ∈ names
  · have hsome : ((names.map fun name => (name, ())).reverse.find? (·.1 == name)).isSome := by
      simpa using h
    obtain ⟨e, he⟩ := Option.isSome_iff_exists.mp hsome
    rw [if_pos h, he]
    rfl
  · have hnone : (names.map fun name => (name, ())).reverse.find? (·.1 == name) = none := by
      simp only [List.find?_eq_none, List.mem_reverse, List.mem_map, beq_iff_eq]
      rintro _ ⟨other, hother, rfl⟩ rfl
      exact h hother
    rw [if_neg h, hnone]
    rfl

theorem mem_keys_namesOf {names : List String} {name : String} :
    name ∈ (namesOf names).keys ↔ name ∈ names := by
  rw [Dictionary.mem_keys_iff, get?_namesOf]
  by_cases h : name ∈ names <;> simp [h]

/-- Neither the order of the names nor repetitions matter to their set. -/
theorem namesOf_congr {names names' : List String} (h : ∀ name, name ∈ names ↔ name ∈ names') :
    namesOf names = namesOf names' := by
  refine Dictionary.ext_get? fun name => ?_
  simp only [get?_namesOf, h]

/-! ### Closed sets of formats -/

/-- Formats are closed under their names if the default is one of them and each of them is found
under its own name. -/
structure Closed (formats : DataFormats) : Prop where
  standard : formats.standard ∈ formats.names.keys
  nonempty : ∀ name ∈ formats.names.keys, name ≠ ""
  canonical : ∀ name ∈ formats.names.keys, canonical name = name

theorem closed_builtIn : Closed builtIn where
  standard := mem_keys_namesOf.mpr List.mem_cons_self
  nonempty := by
    intro name hname
    have hlisted := mem_keys_namesOf.mp hname
    revert name
    decide +kernel
  canonical := by
    intro name hname
    have hlisted := mem_keys_namesOf.mp hname
    revert name
    decide +kernel

/-- What is configured is in canonical form. -/
theorem closed_ofNames (names : List String) : Closed (ofNames names) := by
  unfold ofNames
  split
  · exact closed_builtIn
  · next first rest hkept =>
    have hmem {name : String} (h : name ∈ (namesOf (first :: rest)).keys) :
        (∃ given, canonical given = name) ∧ name ≠ "" := by
      rw [mem_keys_namesOf, ← hkept, List.mem_filter, List.mem_map] at h
      obtain ⟨⟨given, -, hgiven⟩, hne⟩ := h
      exact ⟨⟨given, hgiven⟩, by simpa using hne⟩
    refine ⟨mem_keys_namesOf.mpr List.mem_cons_self, fun name h => (hmem h).2, fun name h => ?_⟩
    obtain ⟨⟨given, rfl⟩, -⟩ := hmem h
    exact canonical_canonical given

section Lookup

variable {formats : DataFormats} {name f : String}

theorem supports_iff : formats.supports name ↔ canonical name ∈ formats.names.keys :=
  Dictionary.mem_keys_iff.symm

theorem resolve?_eq_some_iff :
    formats.resolve? name = some f ↔ canonical name = f ∧ f ∈ formats.names.keys := by
  rw [resolve?, Option.ite_none_right_eq_some, supports_iff, Option.some.injEq]
  constructor
  · rintro ⟨hmem, rfl⟩
    exact ⟨rfl, hmem⟩
  · rintro ⟨rfl, hmem⟩
    exact ⟨hmem, rfl⟩

theorem require_eq_ok_iff : formats.require name = .ok f ↔ formats.resolve? name = some f := by
  unfold require
  cases formats.resolve? name <;> simp

theorem Closed.resolve?_self (h : Closed formats) (hmem : f ∈ formats.names.keys) :
    formats.resolve? f = some f :=
  resolve?_eq_some_iff.mpr ⟨h.canonical f hmem, hmem⟩

/-- Whichever format an object is given is in use. -/
theorem Closed.formatOf_mem (h : Closed formats) {t : ValueType} {info : Dictionary Json}
    (hf : formats.formatOf t info = .ok f) : f ∈ formats.names.keys := by
  have hrequire {name : String} (hf : formats.require name = .ok f) : f ∈ formats.names.keys :=
    (resolve?_eq_some_iff.mp (require_eq_ok_iff.mp hf)).2
  have hdefault (hf : (if t = .serializable then formats.require native
      else .ok formats.standard) = .ok f) : f ∈ formats.names.keys := by
    split at hf
    · exact hrequire hf
    · exact Except.ok.inj hf ▸ h.standard
  unfold formatOf at hf
  split at hf
  · exact hrequire hf
  · exact hdefault hf
  · exact hdefault hf
  · cases hf

theorem Closed.decode_mem (h : Closed formats) {w : WireValue} {o : ObjectValue}
    (ho : formats.decode w = .ok (.object o)) : ∃ f ∈ formats.names.keys, o.format = some f := by
  obtain ⟨t, f, hf, hformat⟩ := decode_eq_object ho
  exact ⟨f, h.formatOf_mem hf, hformat⟩

theorem Closed.decodeUpload_mem (h : Closed formats) {payload : Bytes}
    {typeName contentType : Option String} {o : ObjectValue}
    (ho : formats.decodeUpload payload typeName contentType = .ok (.object o)) :
    ∃ f ∈ formats.names.keys, o.format = some f := by
  cases typeName with
  | none => cases ho
  | some typeName =>
      rw [decodeUpload_eq] at ho
      obtain ⟨f, hf, hobject⟩ := map_eq_ok.mp ho
      obtain rfl := TypedValue.object.inj hobject
      refine ⟨f, ?_, rfl⟩
      cases contentType with
      | none => exact Except.ok.inj hf ▸ h.standard
      | some name => exact (resolve?_eq_some_iff.mp (require_eq_ok_iff.mp hf)).2

end Lookup

/-! ### Configurations -/

/-- Formats are configured by a list of names, or by a text with commas between them. -/
inductive ConfiguredBy (names : List String) : DataFormats → Prop
  | list : ConfiguredBy names (ofNames names)
  | text {list : String} (h : Text.split ',' list = names) : ConfiguredBy names (ofList list)

theorem ConfiguredBy.eq_ofNames {names : List String} {formats : DataFormats}
    (h : ConfiguredBy names formats) : formats = ofNames names := by
  cases h with
  | list => rfl
  | text h => rw [ofList, h]

/-- Two lists give the same names in another order, with repetitions or without, behind the first
one that is not empty. -/
inductive Reordered : List String → List String → Prop
  | intro {skipped : List String} {first : String} {rest rest' : List String}
    (hskipped : ∀ name ∈ skipped, canonical name = "") (hfirst : canonical first ≠ "")
    (hsame : ∀ name, name ∈ first :: rest ↔ name ∈ first :: rest') :
    Reordered (skipped ++ first :: rest) (skipped ++ first :: rest')

/-- The first name that is not empty is the default, and the order of the others is lost. -/
theorem ofNames_skipped {skipped : List String} {first : String}
    (hskipped : ∀ name ∈ skipped, canonical name = "") (hfirst : canonical first ≠ "")
    (rest : List String) :
    ofNames (skipped ++ first :: rest)
      = ⟨canonical first, namesOf (((first :: rest).map canonical).filter (!·.isEmpty))⟩ := by
  have hempty : (skipped.map canonical).filter (!·.isEmpty) = [] := by
    simpa using hskipped
  have hkept : ((first :: rest).map canonical).filter (!·.isEmpty)
      = canonical first :: (rest.map canonical).filter (!·.isEmpty) := by
    simp [hfirst]
  rw [ofNames, List.map_append, List.filter_append, hempty, List.nil_append, hkept]

theorem Reordered.ofNames_eq {names names' : List String} (h : Reordered names names') :
    ofNames names = ofNames names' := by
  obtain ⟨hskipped, hfirst, hsame⟩ := h
  rw [ofNames_skipped hskipped hfirst, ofNames_skipped hskipped hfirst]
  congr 1
  refine namesOf_congr fun name => ?_
  simp only [List.mem_filter, List.mem_map, hsame]

/-- **The formats in use are closed under their names.**

However they are configured, there are some, and the default is one of them.  All of them are
in canonical form, none is empty, and what is found is found again under the name it was
found as.  Only the first name that is not empty has its place.  Every object that is
read from a document or an upload is in one of the formats. -/
theorem closed_under_names {names : List String} {formats : DataFormats}
    (h : ConfiguredBy names formats) :
    formats.names.keys ≠ [] ∧ formats.standard ∈ formats.names.keys ∧
      (∀ f ∈ formats.names.keys, f ≠ "" ∧ canonical f = f) ∧
      (∀ name, (formats.resolve? name).isSome = formats.supports name ∧
        ∀ f, formats.resolve? name = some f →
          f ∈ formats.names.keys ∧ formats.resolve? f = some f) ∧
      (∀ names' formats', Reordered names names' → ConfiguredBy names' formats' →
        formats' = formats) ∧
      (∀ w o, formats.decode w = .ok (.object o) →
        ∃ f ∈ formats.names.keys, o.format = some f) ∧
      ∀ payload typeName contentType o,
        formats.decodeUpload payload typeName contentType = .ok (.object o) →
          ∃ f ∈ formats.names.keys, o.format = some f := by
  have hclosed : Closed formats := h.eq_ofNames ▸ closed_ofNames names
  refine ⟨List.ne_nil_of_mem hclosed.standard, hclosed.standard,
    fun f hf => ⟨hclosed.nonempty f hf, hclosed.canonical f hf⟩, fun name => ⟨?_, fun f hf => ?_⟩,
    fun names' formats' hsame h' => ?_, fun w o ho => hclosed.decode_mem ho,
    fun payload typeName contentType o ho => hclosed.decodeUpload_mem ho⟩
  · unfold resolve?
    cases formats.supports name <;> rfl
  · have hmem := (resolve?_eq_some_iff.mp hf).2
    exact ⟨hmem, hclosed.resolve?_self hmem⟩
  · rw [h'.eq_ofNames, h.eq_ofNames, hsame.ofNames_eq]

/-- A text and a list that differ behind the first name give the same formats, none of them
built in. -/
theorem closed_under_names_yaml :
    let text := " , Text/YAML;v=2,text/csv, text/yaml"
    let names := [" ", " Text/YAML;v=2", " text/yaml", "text/csv", "text/csv"]
    ConfiguredBy (Text.split ',' text) (ofList text) ∧
      Reordered (Text.split ',' text) names ∧ ofNames names = ofList text ∧
      (ofList text).standard ∈ (ofList text).names.keys ∧
      (ofList text).standard = "text/yaml" := by
  intro text names
  have hsplit : Text.split ',' text
      = [" "] ++ " Text/YAML;v=2" :: ["text/csv", " text/yaml"] := by decide +kernel
  have hskipped : ∀ name ∈ [" "], canonical name = "" := by decide +kernel
  have hsame : Reordered (Text.split ',' text) names := by
    rw [hsplit]
    refine .intro hskipped (by decide +kernel) fun name => ?_
    simp only [List.mem_cons, List.not_mem_nil, or_false, or_self]
    tauto
  have hconfigured : ConfiguredBy (Text.split ',' text) (ofList text) := .text rfl
  obtain ⟨-, hstandard, -, -, hreordered, -⟩ := closed_under_names hconfigured
  exact ⟨hconfigured, hsame, hreordered _ _ hsame .list, hstandard, by decide +kernel⟩

end CaseGateway.DataFormats
