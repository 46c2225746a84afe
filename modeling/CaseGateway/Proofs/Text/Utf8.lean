/-
Texts and the bytes they are sent as.

`Spells` says which bytes stand for a number, with the bits of the number as parameters and
nothing computed from it.  The bytes of a character spell its number, and both facts that
are needed of them are facts about spellings: the reader takes a spelling for what it is
whatever follows it, and of two numbers the smaller one has the smaller spelling, at a byte
that neither spelling lacks.

The first gives texts back from their bytes.  By the second, texts in the order of their
characters are in the order of their bytes.
-/
import CaseGateway.Text.Utf8
import Mathlib.Data.List.Lex

namespace CaseGateway.Text

/-- The bytes of a number: the first one says how many follow, and each that follows holds six bits.
Surrogates have none, and no number is written with more bytes than it needs. -/
inductive Spells : Nat → Bytes → Prop
  | one {a : Nat} (ha : a < 0x80) : Spells a [.ofNat a]
  | two {a b : Nat} (ha : 2 ≤ a ∧ a < 0x20) (hb : b < 64) :
    Spells (64 * a + b) [.ofNat (0xC0 + a), .ofNat (0x80 + b)]
  | three {a b c : Nat} (ha : a < 0x10) (hb : b < 64) (hc : c < 64) (hlong : 0x20 ≤ 64 * a + b)
    (hvalid : 64 * a + b < 0x360 ∨ 0x380 ≤ 64 * a + b) :
    Spells (64 * (64 * a + b) + c) [.ofNat (0xE0 + a), .ofNat (0x80 + b), .ofNat (0x80 + c)]
  | four {a b c d : Nat} (hb : b < 64) (hc : c < 64) (hd : d < 64) (hlong : 0x10 ≤ 64 * a + b)
    (hvalid : 64 * a + b < 0x110) :
    Spells (64 * (64 * (64 * a + b) + c) + d)
      [.ofNat (0xF0 + a), .ofNat (0x80 + b), .ofNat (0x80 + c), .ofNat (0x80 + d)]

theorem spells_utf8EncodeChar (c : Char) : Spells c.toNat (String.utf8EncodeChar c) := by
  have hvalid : c.val.toNat < 0xD800 ∨ 0xDFFF < c.val.toNat ∧ c.val.toNat < 0x110000 := c.valid
  unfold String.utf8EncodeChar
  show Spells c.val.toNat _
  generalize c.val.toNat = n at *
  dsimp only
  split
  · exact .one (by omega)
  split
  · have h := Spells.two (a := n / 64) (b := n % 64) (by omega) (by omega)
    rw [Nat.div_add_mod] at h
    rw [Nat.mod_eq_of_lt (a := n / 64) (by omega)]
    simpa only [Nat.add_comm] using h
  split
  · have h := Spells.three (a := n / 4096) (b := n / 64 % 64) (c := n % 64) (by omega) (by omega)
      (by omega) (by omega) (by omega)
    have hn : 64 * (64 * (n / 4096) + n / 64 % 64) + n % 64 = n := by omega
    rw [hn] at h
    rw [Nat.mod_eq_of_lt (a := n / 4096) (by omega)]
    simpa only [Nat.add_comm] using h
  · have h := Spells.four (a := n / 262144) (b := n / 4096 % 64) (c := n / 64 % 64) (d := n % 64)
      (by omega) (by omega) (by omega) (by omega) (by omega)
    have hn : 64 * (64 * (64 * (n / 262144) + n / 4096 % 64) + n / 64 % 64) + n % 64 = n := by omega
    rw [hn] at h
    rw [Nat.mod_eq_of_lt (a := n / 262144) (by omega)]
    simpa only [Nat.add_comm] using h

theorem toNat_ofNat {n : Nat} (h : n < 256) : (UInt8.ofNat n).toNat = n :=
  UInt8.toNat_ofNat_of_lt' h

/-! ### Bytes as texts -/

theorem follow_cons {code first last b : Nat} {ranges : List (Nat × Nat)} {bs : Bytes}
    (hrange : first ≤ 0x80 + b ∧ 0x80 + b ≤ last) (hb : b < 64) :
    follow code ((first, last) :: ranges) (.ofNat (0x80 + b) :: bs)
      = follow (64 * code + b) ranges bs := by
  rw [follow, toNat_ofNat (by omega), if_pos hrange, Nat.add_sub_cancel_left]

theorem followers_three {a b : Nat} (ha : a < 0x10) (hb : b < 64) (hlong : 0x20 ≤ 64 * a + b)
    (hvalid : 64 * a + b < 0x360 ∨ 0x380 ≤ 64 * a + b) :
    ∃ first last, followers (0xE0 + a) = some (a, [(first, last), (0x80, 0xBF)]) ∧
      first ≤ 0x80 + b ∧ 0x80 + b ≤ last := by
  by_cases hfirst : a = 0
  · subst hfirst
    exact ⟨0xA0, 0xBF, rfl, by omega, by omega⟩
  by_cases hsurrogates : a = 0x0D
  · subst hsurrogates
    exact ⟨0x80, 0x9F, rfl, by omega, by omega⟩
  refine ⟨0x80, 0xBF, ?_, by omega, by omega⟩
  unfold followers
  rw [if_neg (by omega), if_neg (by omega), if_neg (by omega), if_neg (by omega), if_neg (by omega),
    if_pos (by omega), Nat.add_sub_cancel_left]

theorem followers_four {a b : Nat} (hb : b < 64) (hlong : 0x10 ≤ 64 * a + b)
    (hvalid : 64 * a + b < 0x110) :
    ∃ first last, followers (0xF0 + a) = some (a, [(first, last), (0x80, 0xBF), (0x80, 0xBF)]) ∧
      first ≤ 0x80 + b ∧ 0x80 + b ≤ last := by
  by_cases hfirst : a = 0
  · subst hfirst
    exact ⟨0x90, 0xBF, rfl, by omega, by omega⟩
  by_cases hlast : a = 4
  · subst hlast
    exact ⟨0x80, 0x8F, rfl, by omega, by omega⟩
  refine ⟨0x80, 0xBF, ?_, by omega, by omega⟩
  unfold followers
  rw [if_neg (by omega), if_neg (by omega), if_neg (by omega), if_neg (by omega), if_neg (by omega),
    if_neg (by omega), if_neg (by omega), if_pos (by omega), Nat.add_sub_cancel_left]

/-- A spelling is read as what it spells, whatever follows it. -/
theorem Spells.read {n : Nat} {spelling : Bytes} (h : Spells n spelling) (rest : Bytes) :
    ∃ lead bs, spelling = lead :: bs ∧ readCharacter lead (bs ++ rest) = (some (.ofNat n), rest) := by
  cases h with
  | one ha =>
      refine ⟨_, _, rfl, ?_⟩
      rw [readCharacter, toNat_ofNat (by omega), followers, if_pos ha]
      rfl
  | @two a b ha hb =>
      refine ⟨_, _, rfl, ?_⟩
      have hfollowers : followers (0xC0 + a) = some (a, [(0x80, 0xBF)]) := by
        unfold followers
        rw [if_neg (by omega), if_neg (by omega), if_pos (by omega), Nat.add_sub_cancel_left]
      rw [readCharacter, toNat_ofNat (by omega), hfollowers]
      simp only [List.cons_append, List.nil_append]
      rw [follow_cons (by omega) hb]
      rfl
  | @three a b c ha hb hc hlong hvalid =>
      refine ⟨_, _, rfl, ?_⟩
      obtain ⟨first, last, hfollowers, hrange⟩ := followers_three ha hb hlong hvalid
      rw [readCharacter, toNat_ofNat (by omega), hfollowers]
      simp only [List.cons_append, List.nil_append]
      rw [follow_cons hrange hb, follow_cons (by omega) hc]
      rfl
  | @four a b c d hb hc hd hlong hvalid =>
      refine ⟨_, _, rfl, ?_⟩
      obtain ⟨first, last, hfollowers, hrange⟩ := followers_four hb hlong hvalid
      rw [readCharacter, toNat_ofNat (by omega), hfollowers]
      simp only [List.cons_append, List.nil_append]
      rw [follow_cons hrange hb, follow_cons (by omega) hc, follow_cons (by omega) hd]
      rfl

theorem characters_flatMap (cs : List Char) :
    characters (cs.flatMap String.utf8EncodeChar) = cs.map some := by
  induction cs with
  | nil => simp [characters]
  | cons c cs ih =>
      obtain ⟨lead, bs, hspelling, hread⟩ :=
        (spells_utf8EncodeChar c).read (cs.flatMap String.utf8EncodeChar)
      rw [List.flatMap_cons, hspelling, List.cons_append, characters, hread, ih, Char.ofNat_toNat]
      rfl

/-- Texts come back from their bytes. -/
theorem ofUtf8?_toUtf8 (s : String) : ofUtf8? (toUtf8 s) = some s := by
  have hmapM : ∀ cs : List Char, (cs.map some).mapM id = some cs := by
    intro cs
    induction cs with
    | nil => rfl
    | cons c cs ih => simp [List.mapM_cons, ih]
  unfold ofUtf8? toUtf8
  rw [characters_flatMap, hmapM]
  simp

theorem toUtf8_injective : Function.Injective toUtf8 := by
  intro s t h
  have hread := congrArg ofUtf8? h
  rw [ofUtf8?_toUtf8, ofUtf8?_toUtf8] at hread
  exact Option.some.inj hread

theorem ofUtf8Lossy_toUtf8 (s : String) : ofUtf8Lossy (toUtf8 s) = s := by
  have hkept : (fun c => Option.getD c (Char.ofNat 0xFFFD)) ∘ some = id := rfl
  unfold ofUtf8Lossy toUtf8
  rw [characters_flatMap, List.map_map, hkept, List.map_id, String.ofList_toList]

/-! ### The order of texts -/

/-- Bytes in the order of the first that differs, a beginning before all that begins with it. -/
def BytesBelow (bs bs' : Bytes) : Prop := List.Lex (fun b b' => b.toNat < b'.toNat) bs bs'

theorem Spells.below {m n : Nat} {spelling spelling' : Bytes} (h : Spells m spelling)
    (h' : Spells n spelling') (hlt : m < n) (bs bs' : Bytes) :
    BytesBelow (spelling ++ bs) (spelling' ++ bs') := by
  unfold BytesBelow
  cases h <;> cases h' <;>
    simp (disch := omega) only [List.cons_append, List.nil_append, List.cons_lex_cons_iff,
      ← UInt8.toNat_inj, toNat_ofNat] <;> omega

theorem bytesBelow_of_lt {cs ds : List Char} (h : List.Lex (· < ·) cs ds) :
    BytesBelow (cs.flatMap String.utf8EncodeChar) (ds.flatMap String.utf8EncodeChar) := by
  induction h with
  | @nil d ds =>
      obtain ⟨lead, bs, hspelling, -⟩ := (spells_utf8EncodeChar d).read []
      rw [List.flatMap_cons, hspelling]
      exact .nil
  | cons _ ih => exact ih.append_left _ _
  | rel hlt => exact (spells_utf8EncodeChar _).below (spells_utf8EncodeChar _) hlt _ _

/-- **Texts are compared by their bytes.** -/
theorem compare_eq_lt_iff {s t : String} :
    compare s t = .lt ↔ BytesBelow (toUtf8 s) (toUtf8 t) := by
  have hbelow : ∀ {s t : String}, compare s t = .lt → BytesBelow (toUtf8 s) (toUtf8 t) :=
    fun h => bytesBelow_of_lt (compareOfLessAndEq_eq_lt.mp h)
  refine ⟨hbelow, fun h => ?_⟩
  cases hcompare : compare s t with
  | lt => rfl
  | eq =>
      rw [Std.LawfulEqOrd.eq_of_compare hcompare] at h
      exact absurd h (List.lex_irrefl (fun b => Nat.lt_irrefl b.toNat) _)
  | gt =>
      exact absurd h (List.lex_asymm (fun hlt => Nat.lt_asymm hlt)
        (hbelow (Std.OrientedCmp.gt_iff_lt.mp hcompare)))

end CaseGateway.Text
