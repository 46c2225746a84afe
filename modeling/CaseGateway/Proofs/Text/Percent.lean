/-
Every text has a spelling in a path and in a query string.

Escaping each of its bytes, whether that is needed or not, gives ASCII in which nothing is
left that has a meaning of its own, and freeing this of escapes gives the bytes back.  So any
list of names and values can be asked for: it is what a query string is read as in which
all of them are escaped.
-/
import CaseGateway.Proofs.Text.Base64
import CaseGateway.Proofs.Text.Pieces
import CaseGateway.Proofs.Text.Utf8
import CaseGateway.Text.Percent

namespace CaseGateway.Text

/-- The hexadecimal digit of a number below 16, as a byte. -/
def hexDigit (v : Nat) : UInt8 :=
  if v < 10 then .ofNat (0x30 + v) else .ofNat (0x37 + v)

/-- The escape of a byte. -/
def escapeByte (b : UInt8) : Bytes :=
  [0x25, hexDigit (b.toNat / 16), hexDigit (b.toNat % 16)]

/-- The spelling of a text in which every byte is escaped. -/
def escaped (s : String) : List Char :=
  ((toUtf8 s).flatMap escapeByte).map fun b => Char.ofNat b.toNat

/-- The path segment in which every byte of a text is escaped. -/
def toPathSegment (s : String) : String :=
  String.ofList (escaped s)

/-- The query string in which every byte of some names and values is escaped. -/
def toQueryString (pairs : List (String × String)) : String :=
  String.ofList (['&'].intercalate (pairs.map fun e => escaped e.1 ++ '=' :: escaped e.2))

/-! ### Escapes -/

theorem hexValue?_hexDigit : ∀ v, v < 16 → hexValue? (hexDigit v) = some (.ofNat v) := by decide

theorem unescape_escapeByte (b : UInt8) (bs : Bytes) :
    unescape (escapeByte b ++ bs) = b :: unescape bs := by
  have hlt := b.toNat_lt
  have hb : 16 * UInt8.ofNat (b.toNat / 16) + UInt8.ofNat (b.toNat % 16) = b := by
    rw [← UInt8.toNat_inj]
    simp
    omega
  unfold escapeByte
  simp only [List.cons_append, List.nil_append]
  rw [unescape, if_pos rfl, hexValue?_hexDigit _ (by omega), hexValue?_hexDigit _ (by omega)]
  simp only [hb]

theorem unescape_flatMap (bs : Bytes) : unescape (bs.flatMap escapeByte) = bs := by
  induction bs with
  | nil => rw [List.flatMap_nil, unescape]
  | cons b bs ih => rw [List.flatMap_cons, unescape_escapeByte, ih]

/-- The bytes of an escape are ASCII, and none has a meaning of its own but the sign that begins
the escape. -/
theorem escapeByte_plain (b : UInt8) :
    ∀ c ∈ escapeByte b, c.toNat < 0x80 ∧ c.toNat ∉ [0x26, 0x2B, 0x2F, 0x3D] := by
  have hdigit : ∀ v, v < 16 →
      (hexDigit v).toNat < 0x80 ∧ (hexDigit v).toNat ∉ [0x26, 0x2B, 0x2F, 0x3D] := by decide
  have hlt := b.toNat_lt
  intro c hc
  simp only [escapeByte, List.mem_cons, List.not_mem_nil, or_false] at hc
  obtain rfl | rfl | rfl := hc
  · decide
  · exact hdigit _ (by omega)
  · exact hdigit _ (by omega)

theorem mem_flatMap_escapeByte {bs : Bytes} {c : UInt8} (hc : c ∈ bs.flatMap escapeByte) :
    c.toNat < 0x80 ∧ c.toNat ∉ [0x26, 0x2B, 0x2F, 0x3D] := by
  obtain ⟨b, -, hb⟩ := List.mem_flatMap.mp hc
  exact escapeByte_plain b c hb

theorem toUtf8_escaped (s : String) :
    toUtf8 (String.ofList (escaped s)) = (toUtf8 s).flatMap escapeByte :=
  Base64.toUtf8_ascii fun _ hc => (mem_flatMap_escapeByte hc).1

theorem not_mem_escaped {c : Char} (hc : c ∈ ['&', '+', '/', '=']) (s : String) : c ∉ escaped s := by
  intro h
  obtain ⟨b, hb, rfl⟩ := List.mem_map.mp h
  obtain ⟨hlt, hplain⟩ := mem_flatMap_escapeByte hb
  have hchar : ∀ n, n < 0x80 → Char.ofNat n ∈ ['&', '+', '/', '='] → n ∈ [0x26, 0x2B, 0x2F, 0x3D] := by
    decide
  exact hplain (hchar _ hlt hc)

/-! ### Paths -/

/-- The segment is read as the text. -/
theorem ofPathSegment?_toPathSegment (s : String) : ofPathSegment? (toPathSegment s) = some s := by
  rw [ofPathSegment?, toPathSegment, toUtf8_escaped, unescape_flatMap, ofUtf8?_toUtf8]

/-- The segment is one. -/
theorem slash_not_mem_toPathSegment (s : String) : '/' ∉ (toPathSegment s).toList := by
  rw [toPathSegment, String.toList_ofList]
  exact not_mem_escaped (by decide) s

/-! ### Query strings -/

theorem ofFormText_escaped (s : String) : ofFormText (escaped s) = s := by
  have hplus : ((toUtf8 s).flatMap escapeByte).map (fun b => if b = 0x2B then 0x20 else b)
      = (toUtf8 s).flatMap escapeByte := by
    refine (List.map_congr_left fun b hb => ?_).trans (List.map_id' _)
    rw [if_neg]
    rintro rfl
    exact (mem_flatMap_escapeByte hb).2 (by decide)
  simp only [ofFormText, toUtf8_escaped, hplus, unescape_flatMap, ofUtf8Lossy_toUtf8]

theorem cutAt_append {sep : Char} {cs ds : List Char} (h : sep ∉ cs) :
    cutAt sep (cs ++ sep :: ds) = (cs, ds) := by
  have hcs : ∀ c ∈ cs, (decide (c ≠ sep)) = true := by
    intro c hc
    simpa using fun heq : c = sep => h (heq ▸ hc)
  rw [cutAt, List.takeWhile_append_of_pos hcs, List.dropWhile_append_of_pos hcs]
  simp

/-- The query string is read as the names and values, in their order. -/
theorem formPairs_toQueryString (pairs : List (String × String)) :
    formPairs (toQueryString pairs) = pairs := by
  cases pairs with
  | nil => rfl
  | cons e es =>
      have hpieces : pieces '&' (toQueryString (e :: es)).toList
          = (e :: es).map fun e => escaped e.1 ++ '=' :: escaped e.2 := by
        rw [toQueryString, String.toList_ofList, pieces_eq_splitOn,
          List.splitOn_intercalate '&' _ (by simp)]
        intro piece hpiece
        obtain ⟨e, -, rfl⟩ := List.mem_map.mp hpiece
        simp [not_mem_escaped]
      have hne : ∀ piece ∈ (e :: es).map fun e => escaped e.1 ++ '=' :: escaped e.2,
          (!piece.isEmpty) = true := by
        intro piece hpiece
        obtain ⟨e, -, rfl⟩ := List.mem_map.mp hpiece
        simp
      rw [formPairs, hpieces, List.filter_eq_self.mpr hne, List.map_map]
      refine (List.map_congr_left fun e _ => ?_).trans (List.map_id' _)
      simp [cutAt_append (not_mem_escaped (c := '=') (by decide) e.1), ofFormText_escaped]

end CaseGateway.Text
