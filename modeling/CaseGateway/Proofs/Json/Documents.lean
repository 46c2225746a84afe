/-
Documents are read back from their texts.

Each kind of text is followed by something in a document, so all that is shown of a reader is
shown of its text with a rest behind it: the document is read and the rest handed on.  The
characters of a string are taken one by one, each written in one of three ways.  A
sequence is a text of elements with commas between them, whatever the elements are, and
arrays and objects are both read as sequences.

The induction is on the number of levels that a reader may descend.  It covers documents that
need more levels as well, because of these nothing is read at all: the element that is
nested too deeply fails, and with it every sequence around it.
-/
import CaseGateway.Json.Printer
import CaseGateway.Proofs.Dictionary
import CaseGateway.Proofs.Json.Numerals

namespace CaseGateway.Json

/-! ### Strings -/

/-- The ways to write a character in a string: behind a backslash another one that stands for it or
its number, or the character itself. -/
inductive Written (c : Char) : List Char → Prop
  | short {e : Char} (h : shortEscape? e = some c) (hne : e ≠ 'u') : Written c ['\\', e]
  | number (h : c.toNat < 0x20) : Written c ('\\' :: 'u' :: '0' :: '0' :: hexPair c.toNat)
  | plain (hquote : c ≠ '\"') (hbackslash : c ≠ '\\') (h : 0x20 ≤ c.toNat) : Written c [c]

theorem written_control {c e : Char} {n : Nat} (hc : c.toNat = n)
    (h : shortEscape? e = some (Char.ofNat n) ∧ e ≠ 'u') : Written c ['\\', e] := by
  subst hc
  rw [Char.ofNat_toNat] at h
  exact .short h.1 h.2

theorem written_escape (c : Char) : Written c (escape c) := by
  unfold escape
  split
  · next h => subst h; exact .short rfl (by decide)
  split
  · next h => subst h; exact .short rfl (by decide)
  split
  · next h => exact written_control h (by decide)
  split
  · next h => exact written_control h (by decide)
  split
  · next h => exact written_control h (by decide)
  split
  · next h => exact written_control h (by decide)
  split
  · next h => exact written_control h (by decide)
  split
  · next h => exact .number h
  · next hquote hbackslash _ _ _ _ _ h => exact .plain hquote hbackslash (Nat.le_of_not_lt h)

theorem hexDigit?_digitChar : ∀ n, n < 16 → hexDigit? (Nat.digitChar n) = some n := by decide

theorem hexUnit?_hexPair {n : Nat} (h : n < 0x20) :
    hexUnit? '0' '0' (Nat.digitChar (n / 16)) (Nat.digitChar (n % 16)) = some n := by
  have hzero : hexDigit? '0' = some 0 := by decide
  simp only [hexUnit?, hzero, hexDigit?_digitChar (n / 16) (by omega),
    hexDigit?_digitChar (n % 16) (by omega)]
  exact congrArg some (by omega)

theorem Written.read {c : Char} {cs : List Char} (h : Written c cs) (rest : List Char) :
    readQuoted (cs ++ rest) = prepend c (readQuoted rest) := by
  cases h with
  | @short e h hne =>
      rw [List.cons_append, List.cons_append, List.nil_append, readQuoted]
      · rw [h]
      · intro a b c d rest he
        exact absurd he hne
  | number h =>
      have hlow : c.toNat < 0xD800 ∨ 0xE000 ≤ c.toNat := Or.inl (by omega)
      simp only [hexPair, List.cons_append, List.nil_append, readQuoted, hexUnit?_hexPair h,
        if_pos hlow, Char.ofNat_toNat]
  | plain hquote hbackslash h =>
      have hplain : ¬ (c = '\\' ∨ c.toNat < 0x20) := by simp [hbackslash, h]
      rw [List.singleton_append, readQuoted, if_neg hplain]
      · exact hquote
      · exact fun _ _ _ _ _ hc _ => hbackslash hc
      · exact fun _ _ hc _ => hbackslash hc

/-- A string is read up to its closing quotation mark. -/
theorem readQuoted_flatMap_escape (cs rest : List Char) :
    readQuoted (cs.flatMap escape ++ '\"' :: rest) = some (cs, rest) := by
  induction cs with
  | nil => rfl
  | cons c cs ih =>
      rw [List.flatMap_cons, List.append_assoc, (written_escape c).read, ih]
      rfl

theorem Written.length_pos {c : Char} {cs : List Char} (h : Written c cs) : 0 < cs.length := by
  cases h <;> exact Nat.succ_pos _

theorem length_le_flatMap_escape (cs : List Char) : cs.length ≤ (cs.flatMap escape).length := by
  induction cs with
  | nil => exact Nat.le_refl 0
  | cons c cs ih =>
      have hc := (written_escape c).length_pos
      rw [List.flatMap_cons, List.length_append, List.length_cons]
      omega

/-- A string is shorter than its text. -/
theorem text_string_ne (s : String) : (Json.string s).text ≠ s := by
  intro h
  have hlength := congrArg (fun s : String => s.toList.length) h
  have hle := length_le_flatMap_escape s.toList
  simp only [text, chars, quoted, String.toList_ofList, List.cons_append, List.length_cons,
    List.length_append] at hlength
  omega

/-! ### Sequences -/

theorem skipSpace_cons {c : Char} (h : isSpace c = false) (cs : List Char) :
    skipSpace (c :: cs) = c :: cs := by
  rw [skipSpace, List.dropWhile_cons_of_neg (by simp [h])]

/-- The characters that close a sequence. -/
inductive Closes : Char → Prop
  | array : Closes ']'
  | object : Closes '\x7d'

namespace Closes

variable {close : Char} (h : Closes close)
include h

theorem not_space : isSpace close = false := by cases h <;> decide

theorem comma_ne : ',' ≠ close := by cases h <;> decide

theorem endsLiteral (rest : List Char) : EndsLiteral (close :: rest) := by
  refine endsLiteral_cons ?_ rest
  cases h <;> decide

end Closes

/-- A text that cannot be taken for a blank or for the end of a sequence. -/
def BeginsValue (cs : List Char) : Prop :=
  ∃ c ds, cs = c :: ds ∧ isSpace c = false ∧ ¬ Closes c

theorem BeginsValue.skipSpace_eq {cs : List Char} (h : BeginsValue cs) (rest : List Char) :
    skipSpace (cs ++ rest) = cs ++ rest := by
  obtain ⟨c, ds, rfl, hspace, -⟩ := h
  exact skipSpace_cons hspace _

theorem BeginsValue.length_pos {cs : List Char} (h : BeginsValue cs) : 0 < cs.length := by
  obtain ⟨c, ds, rfl, -⟩ := h
  exact Nat.succ_pos _

/-- How an element is read from its text, whatever follows: as it is if it passes `ok`, and not at
all if it does not. -/
structure Reads {α : Type} (item : Reader α) (text : α → List Char) (ok : α → Bool) (a : α) :
    Prop where
  begins : BeginsValue (text a)
  read : ∀ rest, EndsLiteral rest →
    item (text a ++ rest) = if ok a then some (a, rest) else none

section Sequences

variable {α : Type} {item : Reader α} {text : α → List Char} {ok : α → Bool} {close : Char}

theorem readItems_of_none {cs : List Char} (h : item (skipSpace cs) = none) (fuel : Nat) :
    readItems item close (fuel + 1) cs = none := by
  rw [readItems, h]
  rfl

/-- A sequence is at least as long as it has elements. -/
theorem length_le_intercalate {as : List α} (h : ∀ a ∈ as, Reads item text ok a) :
    as.length ≤ ([','].intercalate (as.map text)).length := by
  induction as with
  | nil => exact Nat.zero_le _
  | cons a as ih =>
      have ha := (h a List.mem_cons_self).begins.length_pos
      have has := ih fun b hb => h b (List.mem_cons_of_mem a hb)
      cases as with
      | nil =>
          rw [List.map_cons, List.map_nil, List.intercalate_singleton]
          exact ha
      | cons b bs =>
          rw [List.map_cons] at has
          simp only [List.map_cons, List.intercalate_cons_cons, List.length_append,
            List.length_cons] at has ⊢
          omega

variable (hclose : Closes close)
include hclose

theorem readItems_close {cs rest : List Char} {a : α}
    (h : item (skipSpace cs) = some (a, close :: rest)) (fuel : Nat) :
    readItems item close (fuel + 1) cs = some ([a], rest) := by
  rw [readItems, h]
  simp [skipSpace_cons hclose.not_space]

theorem readItems_comma {cs more : List Char} {a : α}
    (h : item (skipSpace cs) = some (a, ',' :: more)) (fuel : Nat) :
    readItems item close (fuel + 1) cs
      = (readItems item close fuel more).map fun (as, rest) => (a :: as, rest) := by
  have hcomma : skipSpace (',' :: more) = ',' :: more := skipSpace_cons (by decide) more
  rw [readItems, h]
  simp only [Option.bind_eq_bind, Option.bind_some, hcomma, if_neg hclose.comma_ne]
  cases readItems item close fuel more <;> rfl

/-- Elements with commas between them are read just if each of them is. -/
theorem readItems_intercalate {as : List α} (hne : as ≠ []) (h : ∀ a ∈ as, Reads item text ok a)
    {fuel : Nat} (hfuel : as.length ≤ fuel) (rest : List Char) :
    readItems item close fuel ([','].intercalate (as.map text) ++ close :: rest)
      = if as.all ok then some (as, rest) else none := by
  induction as generalizing fuel with
  | nil => exact absurd rfl hne
  | cons a as ih =>
      have ha := h a List.mem_cons_self
      obtain ⟨fuel, rfl⟩ : ∃ n, fuel = n + 1 :=
        ⟨fuel - 1, by rw [List.length_cons] at hfuel; omega⟩
      cases as with
      | nil =>
          have hread := ha.read _ (hclose.endsLiteral rest)
          rw [← ha.begins.skipSpace_eq] at hread
          rw [List.map_cons, List.map_nil, List.intercalate_singleton]
          by_cases hok : ok a
          · rw [if_pos hok] at hread
            rw [readItems_close hclose hread, if_pos (by simpa using hok)]
          · rw [if_neg hok] at hread
            rw [readItems_of_none hread, if_neg (by simpa using hok)]
      | cons b bs =>
          set more := [','].intercalate ((b :: bs).map text) ++ close :: rest with hmore
          have htext : [','].intercalate ((a :: b :: bs).map text) ++ close :: rest
              = text a ++ ',' :: more := by
            rw [hmore]
            simp only [List.map_cons, List.intercalate_cons_cons, List.append_assoc,
              List.cons_append, List.nil_append]
          have hread := ha.read _ (endsLiteral_cons (c := ',') (by decide) more)
          rw [← ha.begins.skipSpace_eq] at hread
          rw [htext, List.all_cons]
          by_cases hok : ok a
          · rw [if_pos hok] at hread
            rw [readItems_comma hclose hread,
              ih (List.cons_ne_nil b bs) (fun c hc => h c (List.mem_cons_of_mem a hc))
                (Nat.le_of_succ_le_succ hfuel), hok, Bool.true_and]
            split <;> rfl
          · rw [if_neg hok] at hread
            rw [readItems_of_none hread, if_neg (by simp [hok])]

/-- A sequence is read just if each of its elements is. -/
theorem readSequence_intercalate {as : List α} (h : ∀ a ∈ as, Reads item text ok a)
    (rest : List Char) :
    readSequence item close ([','].intercalate (as.map text) ++ close :: rest)
      = if as.all ok then some (as, rest) else none := by
  cases as with
  | nil => simp [readSequence, skipSpace_cons hclose.not_space]
  | cons a as =>
      obtain ⟨c, cs, htext, hspace, hfirst⟩ := (h a List.mem_cons_self).begins
      obtain ⟨ds, hds⟩ : ∃ ds, [','].intercalate ((a :: as).map text) = c :: ds := by
        cases as with
        | nil => exact ⟨cs, by simp [htext]⟩
        | cons b bs => exact ⟨cs ++ _, by simp [htext]; rfl⟩
      have hc : c ≠ close := by
        rintro rfl
        exact hfirst hclose
      have hfuel : (a :: as).length ≤
          ([','].intercalate ((a :: as).map text) ++ close :: rest).length + 1 := by
        have hlength := length_le_intercalate h
        rw [List.length_append]
        omega
      rw [← readItems_intercalate hclose (List.cons_ne_nil a as) h hfuel, readSequence, hds,
        List.cons_append, skipSpace_cons hspace]
      simp only [if_neg hc]

end Sequences

/-! ### Documents that a reader can yield -/

/-- Whether a document is neither an array nor an object. -/
def isScalar : Json → Bool
  | .array _ | .object _ => false
  | _ => true

/-- Whether at most so many arrays and objects stand inside each other. -/
def nestsWithin : (depth : Nat) → Json → Bool
  | 0, j => j.isScalar
  | depth + 1, .array items => items.all (nestsWithin depth)
  | depth + 1, .object members => members.all fun m => nestsWithin depth m.2
  | _ + 1, _ => true

/-- The documents that their texts show: the members of each object stand in the order in which a
reader puts them, and the doubles are legible. -/
inductive Legible : Json → Prop
  | null : Legible .null
  | bool (b : Bool) : Legible (.bool b)
  | integer (n : Int) (inRange : -0x8000000000000000 ≤ n ∧ n < 0x10000000000000000) :
    Legible (.number (.integer n inRange))
  | double {d : Double} {finite : d.isFinite} (h : (Number.double d finite).Legible) :
    Legible (.number (.double d finite))
  | string (s : String) : Legible (.string s)
  | array {items : List Json} (h : ∀ j ∈ items, Legible j) : Legible (.array items)
  | object {members : List (String × Json)} (ascending : members.Pairwise fun m m' => m.1 < m'.1)
    (h : ∀ m ∈ members, Legible m.2) : Legible (.object members)

theorem nestsWithin_of_scalar {j : Json} (h : j.isScalar) (depth : Nat) :
    j.nestsWithin depth := by
  cases depth with
  | zero => exact h
  | succ depth =>
      cases j with
      | array items => exact nomatch h
      | object members => exact nomatch h
      | _ => rfl

/-! ### Scalars -/

theorem readNested_scalar {c : Char} (harray : c ≠ '[') (hobject : c ≠ '\x7b') (depth : Nat)
    (cs : List Char) : readNested depth (c :: cs) = readScalar (c :: cs) := by
  cases depth with
  | zero => rfl
  | succ depth =>
      rw [readNested]
      · rintro rest ⟨⟩
        exact harray rfl
      · rintro rest ⟨⟩
        exact hobject rfl

theorem readNested_string (depth : Nat) (s : String) (rest : List Char) :
    readNested depth (quoted s ++ rest) = some (.string s, rest) := by
  have htext : quoted s ++ rest = '\"' :: (s.toList.flatMap escape ++ '\"' :: rest) := by
    simp [quoted]
  rw [htext, readNested_scalar (by decide) (by decide), readScalar, readQuoted_flatMap_escape]
  simp

section Literals

variable {cs : List Char} {l : Number.Literal} (h : readLiteral cs = some (l, []))
include h

theorem beginsValue_literal : BeginsValue cs := by
  obtain ⟨c, ds, htext, hc⟩ := begins_of_readLiteral h
  refine ⟨c, ds, htext, Bool.eq_false_iff.mpr fun hspace => ?_, ?_⟩
  · simp only [isSpace, Bool.or_eq_true, beq_iff_eq] at hspace
    rcases hspace with ((rfl | rfl) | rfl) | rfl <;> exact absurd hc (by decide)
  · rintro ⟨⟩ <;> exact absurd hc (by decide)

/-- A literal is read as the number it stands for, whether its text is that of the number or
another one. -/
theorem readNested_literal {n : Number} (hn : l.value? = some n) (depth : Nat) {rest : List Char}
    (hrest : EndsLiteral rest) : readNested depth (cs ++ rest) = some (.number n, rest) := by
  obtain ⟨c, ds, rfl, hc⟩ := begins_of_readLiteral h
  have hread := readLiteral_append hrest h
  rw [List.cons_append] at hread ⊢
  have hscalar : readScalar (c :: (ds ++ rest)) = some (.number n, rest) := by
    rw [readScalar, hread]
    · simp [hn]
    all_goals
      intro more hcons
      rw [(List.cons.inj hcons).1] at hc
      exact absurd hc (by decide)
  rw [readNested_scalar _ _ depth, hscalar]
  · rintro rfl
    exact absurd hc (by decide)
  · rintro rfl
    exact absurd hc (by decide)

end Literals

theorem beginsValue_chars {j : Json} (h : j.Legible) : BeginsValue (chars j) := by
  cases h with
  | null => exact ⟨_, _, rfl, by decide, nofun⟩
  | bool b => cases b <;> exact ⟨_, _, rfl, by decide, nofun⟩
  | integer n inRange =>
      obtain ⟨l, hread, -⟩ := Number.legible_integer n inRange
      exact beginsValue_literal hread
  | double h =>
      obtain ⟨l, hread, -⟩ := h
      exact beginsValue_literal hread
  | string s => exact ⟨_, _, rfl, by decide, nofun⟩
  | array h => exact ⟨_, _, rfl, by decide, nofun⟩
  | object ascending h => exact ⟨_, _, rfl, by decide, nofun⟩

/-- What is neither an array nor an object is read at any depth. -/
theorem readNested_of_scalar {j : Json} (h : j.Legible) (hscalar : j.isScalar) (depth : Nat)
    {rest : List Char} (hrest : EndsLiteral rest) :
    readNested depth (chars j ++ rest) = some (j, rest) := by
  cases h with
  | null => exact readNested_scalar (by decide) (by decide) depth _
  | bool b => cases b <;> exact readNested_scalar (by decide) (by decide) depth _
  | integer n inRange =>
      obtain ⟨l, hread, hvalue⟩ := Number.legible_integer n inRange
      exact readNested_literal hread hvalue depth hrest
  | double h =>
      obtain ⟨l, hread, hvalue⟩ := h
      exact readNested_literal hread hvalue depth hrest
  | string s => exact readNested_string depth s rest
  | array h => exact nomatch hscalar
  | object ascending h => exact nomatch hscalar

/-! ### Arrays and objects -/

/-- The text of a member of an object. -/
def memberText (m : String × Json) : List Char :=
  quoted m.1 ++ ':' :: chars m.2

theorem itemChars_eq (items : List Json) :
    itemChars items = [','].intercalate (items.map chars) := by
  induction items with
  | nil => rfl
  | cons j js ih =>
      cases js with
      | nil => simp [itemChars]
      | cons k ks =>
          rw [itemChars, ih]
          simp [List.intercalate_cons_cons]

theorem memberChars_eq (members : List (String × Json)) :
    memberChars members = [','].intercalate (members.map memberText) := by
  induction members with
  | nil => rfl
  | cons m ms ih =>
      cases ms with
      | nil => simp [memberChars, memberText]
      | cons k ks =>
          rw [memberChars, ih]
          simp [List.intercalate_cons_cons, memberText]

section Containers

variable {depth : Nat}
  (hreads : ∀ {j : Json}, j.Legible → Reads (readNested depth) chars (nestsWithin depth) j)
include hreads

theorem reads_member {m : String × Json} (h : m.2.Legible) :
    Reads (readMember (readNested depth)) memberText (fun m => nestsWithin depth m.2) m := by
  obtain ⟨name, j⟩ := m
  refine ⟨⟨_, _, rfl, by decide, nofun⟩, fun rest hrest => ?_⟩
  have htext : memberText (name, j) ++ rest
      = '\"' :: (name.toList.flatMap escape ++ '\"' :: ':' :: (chars j ++ rest)) := by
    simp [memberText, quoted]
  have hcolon (more : List Char) : skipSpace (':' :: more) = ':' :: more :=
    skipSpace_cons (by decide) more
  have hread := (hreads h).read rest hrest
  rw [← (hreads h).begins.skipSpace_eq] at hread
  rw [htext, readMember, readQuoted_flatMap_escape]
  simp only [Option.bind_eq_bind, Option.bind_some, hcolon, hread]
  by_cases hwithin : j.nestsWithin depth
  · simp [hwithin]
  · simp [hwithin]

theorem readNested_array {items : List Json} (h : ∀ j ∈ items, j.Legible) (rest : List Char) :
    readNested (depth + 1) (chars (.array items) ++ rest)
      = if items.all (nestsWithin depth) then some (.array items, rest) else none := by
  have hsequence := readSequence_intercalate .array (fun j hj => hreads (h j hj)) rest
  have htext : chars (.array items) ++ rest
      = '[' :: ([','].intercalate (items.map chars) ++ ']' :: rest) := by
    simp [chars, itemChars_eq]
  rw [htext, readNested, hsequence]
  split <;> rfl

theorem readNested_object {members : List (String × Json)}
    (ascending : members.Pairwise fun m m' => m.1 < m'.1) (h : ∀ m ∈ members, m.2.Legible)
    (rest : List Char) :
    readNested (depth + 1) (chars (.object members) ++ rest)
      = if members.all fun m => nestsWithin depth m.2 then some (.object members, rest)
        else none := by
  have hsequence :=
    readSequence_intercalate .object (fun m hm => reads_member hreads (h m hm)) rest
  have htext : chars (.object members) ++ rest
      = '\x7b' :: ([','].intercalate (members.map memberText) ++ '\x7d' :: rest) := by
    simp [chars, memberChars_eq]
  rw [htext, readNested, hsequence]
  split
  · simp only [Option.bind_eq_bind, Option.bind_some, Dictionary.ofList_of_ascending ascending]
    rfl
  · rfl

end Containers

/-- A text that begins with that of a document is read as the document and what follows, unless the
document is nested too deeply. -/
theorem readNested_chars {j : Json} (h : j.Legible) (depth : Nat) {rest : List Char}
    (hrest : EndsLiteral rest) :
    readNested depth (chars j ++ rest)
      = if j.nestsWithin depth then some (j, rest) else none := by
  induction depth generalizing j rest with
  | zero =>
      by_cases hscalar : j.isScalar
      · rw [if_pos (nestsWithin_of_scalar hscalar 0), readNested_of_scalar h hscalar 0 hrest]
      · rw [nestsWithin, if_neg hscalar]
        cases h with
        | array h => rfl
        | object ascending h => rfl
        | _ => exact absurd rfl hscalar
  | succ depth ih =>
      by_cases hscalar : j.isScalar
      · rw [if_pos (nestsWithin_of_scalar hscalar _), readNested_of_scalar h hscalar _ hrest]
      · have hreads {k : Json} (hk : k.Legible) :
            Reads (readNested depth) chars (nestsWithin depth) k :=
          ⟨beginsValue_chars hk, fun _ hmore => ih hk hmore⟩
        cases h with
        | array h => exact readNested_array hreads h rest
        | object ascending h => exact readNested_object hreads ascending h rest
        | _ => exact absurd rfl hscalar

/-! ### Texts -/

theorem ofChars?_of_begins {cs : List Char} (h : BeginsValue cs) :
    ofChars? cs = (readNested maximalDepth cs).bind fun (j, rest) =>
      if (skipSpace rest).isEmpty then some j else none := by
  have hskip := h.skipSpace_eq []
  rw [List.append_nil] at hskip
  rw [ofChars?, hskip]
  rfl

/-- A literal is the text of the number it stands for. -/
theorem parse?_literal {s : String} {l : Number.Literal} {n : Number}
    (h : readLiteral s.toList = some (l, [])) (hn : l.value? = some n) :
    parse? s = some (.number n) := by
  have hread := readNested_literal h hn maximalDepth endsLiteral_nil
  rw [List.append_nil] at hread
  rw [parse?, ofChars?_of_begins (beginsValue_literal h), hread]
  rfl

/-- **A document is read back from its text, unless it is nested too deeply to be read.** -/
theorem parse?_text {j : Json} (h : j.Legible) :
    parse? j.text = if j.nestsWithin maximalDepth then some j else none := by
  have hread := readNested_chars h maximalDepth endsLiteral_nil
  rw [List.append_nil] at hread
  rw [parse?, text, String.toList_ofList, ofChars?_of_begins (beginsValue_chars h), hread]
  split <;> rfl

end CaseGateway.Json
