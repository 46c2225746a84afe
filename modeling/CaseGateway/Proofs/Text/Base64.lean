/-
Every byte sequence is read back from its base64 text, and from no other.

The symbols are ASCII, so the bytes of the text are the symbols themselves.  They come
in groups of four, of which all but the last are read in one go; the last is taken
apart into the values of its symbols and the padding behind them.  A group of two or
three symbols has bits to spare.  There the encoder writes zeros, which is what the
decoder insists on.

The way back follows the decoder.  What it reads a group as are the values of the symbols
that stand there, so it is these symbols that spell the bytes it makes of them.
-/
import CaseGateway.Proofs.Outcome
import CaseGateway.Proofs.Text.Utf8
import CaseGateway.Text.Base64

namespace CaseGateway.Base64

/-! ### Symbols -/

theorem value?_symbol : ∀ v, v < 64 → value? (symbol v) = some v := by decide

theorem symbol_ne_pad : ∀ v, v < 64 → symbol v ≠ pad := by decide

theorem valueAt_symbol {v : Nat} (h : v < 64) (offset : Nat) :
    valueAt (symbol v) offset = .ok v := by
  rw [valueAt, value?_symbol v h]

theorem symbol_lt (v : Nat) : (symbol v).toNat < 0x80 := by
  unfold symbol
  split
  · rw [UInt8.toNat_ofNat']; omega
  · split
    · rw [UInt8.toNat_ofNat']; omega
    · split
      · rw [UInt8.toNat_ofNat']; omega
      · split <;> decide

theorem symbols_lt (bs : Bytes) : ∀ b ∈ symbols bs, b.toNat < 0x80 := by
  fun_induction symbols bs with
  | case1 => simp
  | case2 a n => simp [symbol_lt, pad]
  | case3 a b n => simp [symbol_lt, pad]
  | case4 a b c rest n ih => simpa [symbol_lt] using ih

theorem length_symbols (bs : Bytes) : (symbols bs).length % 4 = 0 := by
  fun_induction symbols bs with
  | case1 => rfl
  | case2 a n => simp
  | case3 a b n => simp
  | case4 a b c rest n ih =>
      simp only [List.length_cons]
      omega

/-! ### The bytes of the text -/

theorem utf8EncodeChar_ofNat : ∀ n, n < 0x80 →
    String.utf8EncodeChar (Char.ofNat n) = [UInt8.ofNat n] := by decide

/-- Bytes below 128 are the bytes of the text with those code points. -/
theorem toUtf8_ascii {bs : Bytes} (h : ∀ b ∈ bs, b.toNat < 0x80) :
    Text.toUtf8 (String.ofList (bs.map fun b => Char.ofNat b.toNat)) = bs := by
  unfold Text.toUtf8
  rw [String.toList_ofList]
  induction bs with
  | nil => rfl
  | cons b bs ih =>
      rw [List.map_cons, List.flatMap_cons, ih fun c hc => h c (List.mem_cons_of_mem b hc),
        utf8EncodeChar_ofNat _ (h b List.mem_cons_self), UInt8.ofNat_toNat]
      rfl

theorem toUtf8_encode (bs : Bytes) : Text.toUtf8 (encode bs) = symbols bs :=
  toUtf8_ascii (symbols_lt bs)

/-- A text of whole groups has no byte that stands alone at its end. -/
theorem strayByte?_symbols (bs : Bytes) : strayByte? (symbols bs) = none := by
  have hlength := length_symbols bs
  unfold strayByte?
  split
  · rw [if_neg]
    omega
  · rfl

/-! ### The last group -/

theorem lastGroup_pads (start count : Nat) :
    ∀ position padAt, 2 ≤ position →
      lastGroup start position padAt (List.replicate count pad) = .ok ([], count) := by
  induction count with
  | zero => intro position padAt _; rfl
  | succ count ih =>
      intro position padAt hposition
      rw [List.replicate_succ, lastGroup.eq_def]
      simp only [if_true]
      rw [if_neg (by omega), ih _ _ (by omega)]
      rfl

/-- Of a group with at least two symbols, their values are read and the paddings counted. -/
theorem lastGroup_symbols (start count : Nat) (vs : List Nat) :
    ∀ position, (∀ v ∈ vs, v < 64) → 2 ≤ position + vs.length →
      lastGroup start position none (vs.map symbol ++ List.replicate count pad)
        = .ok (vs, count) := by
  induction vs with
  | nil =>
      intro position _ hposition
      exact lastGroup_pads start count position none hposition
  | cons v vs ih =>
      intro position hvs hposition
      have hv : v < 64 := hvs v List.mem_cons_self
      rw [List.map_cons, List.cons_append, lastGroup, if_neg (symbol_ne_pad v hv)]
      rw [List.length_cons] at hposition
      have hrest := ih (position + 1) (fun w hw => hvs w (List.mem_cons_of_mem v hw)) (by omega)
      simp only [valueAt_symbol hv, hrest]
      rfl

/-! ### Groups of three bytes or fewer

First what the decoder makes of the values of a group, then that these are the bytes
the values were made from.
-/

section Values

variable {start a b c d : Nat} {group : Bytes}

theorem decodeLast_one (h : lastGroup start 0 none group = .ok ([a, b], 2)) (hb : b % 16 = 0) :
    decodeLast start group = .ok [UInt8.ofNat (a * 4 + b / 16)] := by
  unfold decodeLast
  rw [h]
  simp [bind, Except.bind, pure, Except.pure, hb]

theorem decodeLast_two (h : lastGroup start 0 none group = .ok ([a, b, c], 1)) (hc : c % 4 = 0) :
    decodeLast start group
      = .ok [UInt8.ofNat (a * 4 + b / 16), UInt8.ofNat (b % 16 * 16 + c / 4)] := by
  unfold decodeLast
  rw [h]
  simp [bind, Except.bind, pure, Except.pure, hc]

theorem decodeLast_three (h : lastGroup start 0 none group = .ok ([a, b, c, d], 0)) :
    decodeLast start group
      = .ok [UInt8.ofNat (a * 4 + b / 16), UInt8.ofNat (b % 16 * 16 + c / 4),
          UInt8.ofNat (c % 4 * 64 + d)] := by
  unfold decodeLast
  rw [h]
  simp [bind, Except.bind, pure, Except.pure]

end Values

theorem ofNat_eq {n : Nat} {b : UInt8} (h : n = b.toNat) : UInt8.ofNat n = b := by
  rw [h, UInt8.ofNat_toNat]

theorem decodeGroups_one (start : Nat) (a : UInt8) :
    decodeGroups start (symbols [a]) = .ok [a] := by
  have ha : a.toNat < 256 := a.toNat_lt
  have hgroup := lastGroup_symbols start 2 [a.toNat * 16 / 64, a.toNat * 16 % 64] 0
    (by simp; omega) (by simp)
  have hlast := decodeLast_one hgroup (by omega)
  rw [ofNat_eq (b := a) (by omega)] at hlast
  exact hlast

theorem decodeGroups_two (start : Nat) (a b : UInt8) :
    decodeGroups start (symbols [a, b]) = .ok [a, b] := by
  have ha : a.toNat < 256 := a.toNat_lt
  have hb : b.toNat < 256 := b.toNat_lt
  obtain ⟨n, hn⟩ : ∃ n, n = (a.toNat * 256 + b.toNat) * 4 := ⟨_, rfl⟩
  have hgroup := lastGroup_symbols start 1 [n / 4096, n / 64 % 64, n % 64] 0
    (by simp; omega) (by simp)
  have hlast := decodeLast_two hgroup (by omega)
  rw [ofNat_eq (b := a) (by omega), ofNat_eq (b := b) (by omega), hn] at hlast
  exact hlast

/-- Three bytes make a group without padding, which is read on its own if it is not the last. -/
theorem decodeGroups_three (start : Nat) (a b c : UInt8) {rest : Bytes}
    (h : decodeGroups (start + 4) (symbols rest) = .ok rest) :
    decodeGroups start (symbols (a :: b :: c :: rest)) = .ok (a :: b :: c :: rest) := by
  have ha : a.toNat < 256 := a.toNat_lt
  have hb : b.toNat < 256 := b.toNat_lt
  have hc : c.toNat < 256 := c.toNat_lt
  obtain ⟨n, hn⟩ : ∃ n, n = (a.toNat * 256 + b.toNat) * 256 + c.toNat := ⟨_, rfl⟩
  have hfirst : UInt8.ofNat (n / 262144 * 4 + n / 4096 % 64 / 16) = a := ofNat_eq (by omega)
  have hsecond : UInt8.ofNat (n / 4096 % 64 % 16 * 16 + n / 64 % 64 / 4) = b := ofNat_eq (by omega)
  have hthird : UInt8.ofNat (n / 64 % 64 % 4 * 64 + n % 64) = c := ofNat_eq (by omega)
  rw [symbols, ← hn]
  cases hrest : symbols rest with
  | nil =>
      obtain rfl : rest = [] := by
        rw [hrest] at h
        exact (Except.ok.inj h).symm
      have hgroup := lastGroup_symbols start 0 [n / 262144, n / 4096 % 64, n / 64 % 64, n % 64] 0
        (by simp; omega) (by simp)
      have hlast := decodeLast_three hgroup
      rw [hfirst, hsecond, hthird] at hlast
      exact hlast
  | cons e more =>
      rw [hrest] at h
      rw [decodeGroups, valueAt_symbol (by omega), valueAt_symbol (by omega),
        valueAt_symbol (by omega), valueAt_symbol (by omega), h]
      show Except.ok _ = _
      rw [hfirst, hsecond, hthird]

theorem decodeGroups_symbols (bs : Bytes) :
    ∀ start, decodeGroups start (symbols bs) = .ok bs := by
  induction bs using symbols.induct with
  | case1 => intro start; rfl
  | case2 a => intro start; exact decodeGroups_one start a
  | case3 a b => intro start; exact decodeGroups_two start a b
  | case4 a b c rest ih => intro start; exact decodeGroups_three start a b c (ih (start + 4))

/-- **Every byte sequence is read back from its text.** -/
theorem decode_encode (bs : Bytes) : decode (encode bs) = .ok bs := by
  simp only [decode, toUtf8_encode, strayByte?_symbols, decodeGroups_symbols]

/-! ### What is read is what is written -/

theorem all_value? : ∀ n, n < 256 →
    (value? (UInt8.ofNat n)).all (fun v => v < 64 ∧ symbol v = UInt8.ofNat n) := by decide +kernel

theorem symbol_of_value? {b : UInt8} {v : Nat} (h : value? b = some v) : v < 64 ∧ symbol v = b := by
  have hall := all_value? b.toNat b.toNat_lt
  rw [UInt8.ofNat_toNat, h] at hall
  simpa using hall

theorem symbol_of_valueAt {b : UInt8} {offset v : Nat} (h : valueAt b offset = .ok v) :
    v < 64 ∧ symbol v = b := by
  unfold valueAt at h
  split at h
  · rename_i w hw
    rw [← Except.ok.inj h]
    exact symbol_of_value? hw
  · cases h

/-- A last group that is read consists of the symbols of its values and the paddings, and no symbol
stands behind a padding. -/
theorem eq_of_lastGroup {start : Nat} {group : Bytes} :
    ∀ {position : Nat} {padAt : Option Nat} {vs : List Nat} {pads : Nat},
      lastGroup start position padAt group = .ok (vs, pads) →
        group = vs.map symbol ++ List.replicate pads pad ∧ (∀ v ∈ vs, v < 64) ∧
          (padAt.isSome → vs = []) := by
  induction group with
  | nil =>
      intro position padAt vs pads h
      obtain ⟨rfl, rfl⟩ := Prod.mk.inj (Except.ok.inj h)
      simp
  | cons b bs ih =>
      intro position padAt vs pads h
      unfold lastGroup at h
      split at h
      · rename_i hpad
        split at h
        · cases h
        · obtain ⟨⟨vs', pads'⟩, hrest, heq⟩ := bind_eq_ok.mp h
          obtain ⟨rfl, rfl⟩ := Prod.mk.inj (pure_eq_ok.mp heq)
          obtain ⟨hbs, hvs, hnone⟩ := ih hrest
          obtain rfl := hnone rfl
          refine ⟨?_, hvs, fun _ => rfl⟩
          rw [hpad, hbs]
          rfl
      · split at h
        · cases h
        · obtain ⟨v, hv, h⟩ := bind_eq_ok.mp h
          obtain ⟨⟨vs', pads'⟩, hrest, heq⟩ := bind_eq_ok.mp h
          obtain ⟨rfl, rfl⟩ := Prod.mk.inj (pure_eq_ok.mp heq)
          obtain ⟨hbs, hvs, -⟩ := ih hrest
          obtain ⟨hlt, hsymbol⟩ := symbol_of_valueAt hv
          refine ⟨by rw [hbs, List.map_cons, hsymbol, List.cons_append], ?_, by simp⟩
          simpa [hlt] using hvs

/-- The values and the number of paddings that fill a last group, with the bytes that they hold. -/
inductive Holds : List Nat → Nat → Bytes → Prop
  | nothing : Holds [] 0 []
  | one {a b : Nat} (spare : b % 16 = 0) : Holds [a, b] 2 [.ofNat (a * 4 + b / 16)]
  | two {a b c : Nat} (spare : c % 4 = 0) :
    Holds [a, b, c] 1 [.ofNat (a * 4 + b / 16), .ofNat (b % 16 * 16 + c / 4)]
  | three {a b c d : Nat} :
    Holds [a, b, c, d] 0
      [.ofNat (a * 4 + b / 16), .ofNat (b % 16 * 16 + c / 4), .ofNat (c % 4 * 64 + d)]

/-- A last group that is read has no more and no less than what holds its bytes. -/
theorem holds_of_decodeLast {start : Nat} {group bs : Bytes} (hlength : group.length ≤ 4)
    (h : decodeLast start group = .ok bs) :
    ∃ vs pads, lastGroup start 0 none group = .ok (vs, pads) ∧ Holds vs pads bs := by
  unfold decodeLast at h
  obtain ⟨⟨vs, pads⟩, hgroup, h⟩ := bind_eq_ok.mp h
  refine ⟨vs, pads, hgroup, ?_⟩
  have hcount : group.length = vs.length + pads := by
    rw [(eq_of_lastGroup hgroup).1, List.length_append, List.length_map, List.length_replicate]
  dsimp only at h
  split at h
  · obtain ⟨_, hthrow, -⟩ := bind_eq_ok.mp h
    exact absurd hthrow throw_ne_ok
  rename_i hshort
  split at h
  · obtain ⟨_, hthrow, -⟩ := bind_eq_ok.mp h
    exact absurd hthrow throw_ne_ok
  rename_i hfull
  have hfull : (vs.length + pads) % 4 = 0 := by simpa using hfull
  by_cases hempty : group = []
  · subst hempty
    obtain ⟨rfl, rfl⟩ : vs = [] ∧ pads = 0 := by simpa using hcount.symm
    rw [← pure_eq_ok.mp h]
    exact .nothing
  have htwo : 2 ≤ vs.length := Nat.not_lt.mp (by simpa [hempty] using hshort)
  have hfour : vs.length + pads = 4 := by
    have hpos := List.length_pos_iff.mpr hempty
    omega
  rcases vs with _ | ⟨a, _ | ⟨b, _ | ⟨c, _ | ⟨d, _ | ⟨e, vs⟩⟩⟩⟩⟩
  · simp at htwo
  · simp at htwo
  · obtain rfl : pads = 2 := by simp at hfour; omega
    dsimp only at h
    split at h
    · rename_i hspare
      rw [← pure_eq_ok.mp h]
      exact .one hspare
    · exact absurd h throw_ne_ok
  · obtain rfl : pads = 1 := by simp at hfour; omega
    dsimp only at h
    split at h
    · rename_i hspare
      rw [← pure_eq_ok.mp h]
      exact .two hspare
    · exact absurd h throw_ne_ok
  · obtain rfl : pads = 0 := by simp at hfour; omega
    rw [← pure_eq_ok.mp h]
    exact .three
  · simp at hfour
    omega

/-- Three bytes are spelled by the four values that hold them, whatever follows. -/
theorem symbols_three {a b c d : Nat} (ha : a < 64) (hb : b < 64) (hc : c < 64) (hd : d < 64)
    (rest : Bytes) :
    symbols (.ofNat (a * 4 + b / 16) :: .ofNat (b % 16 * 16 + c / 4) :: .ofNat (c % 4 * 64 + d) ::
        rest) = symbol a :: symbol b :: symbol c :: symbol d :: symbols rest := by
  have hn : ((a * 4 + b / 16) * 256 + (b % 16 * 16 + c / 4)) * 256 + (c % 4 * 64 + d)
      = ((a * 64 + b) * 64 + c) * 64 + d := by omega
  have hfirst : (((a * 64 + b) * 64 + c) * 64 + d) / 262144 = a := by omega
  have hsecond : (((a * 64 + b) * 64 + c) * 64 + d) / 4096 % 64 = b := by omega
  have hthird : (((a * 64 + b) * 64 + c) * 64 + d) / 64 % 64 = c := by omega
  have hfourth : (((a * 64 + b) * 64 + c) * 64 + d) % 64 = d := by omega
  simp (disch := omega) only [symbols, Text.toNat_ofNat, hn, hfirst, hsecond, hthird, hfourth]

/-- Bytes are spelled by what holds them. -/
theorem Holds.symbols_eq {vs : List Nat} {pads : Nat} {bs : Bytes} (h : Holds vs pads bs)
    (hvs : ∀ v ∈ vs, v < 64) : symbols bs = vs.map symbol ++ List.replicate pads pad := by
  cases h with
  | nothing => rfl
  | @one a b hspare =>
      have ha := hvs a (by simp)
      have hb := hvs b (by simp)
      have hn : (a * 4 + b / 16) * 16 = a * 64 + b := by omega
      have hfirst : (a * 64 + b) / 64 = a := by omega
      have hsecond : (a * 64 + b) % 64 = b := by omega
      simp (disch := omega) only [symbols, Text.toNat_ofNat, hn, hfirst, hsecond]
      rfl
  | @two a b c hspare =>
      have ha := hvs a (by simp)
      have hb := hvs b (by simp)
      have hc := hvs c (by simp)
      have hn : ((a * 4 + b / 16) * 256 + (b % 16 * 16 + c / 4)) * 4 = (a * 64 + b) * 64 + c := by
        omega
      have hfirst : ((a * 64 + b) * 64 + c) / 4096 = a := by omega
      have hsecond : ((a * 64 + b) * 64 + c) / 64 % 64 = b := by omega
      have hthird : ((a * 64 + b) * 64 + c) % 64 = c := by omega
      simp (disch := omega) only [symbols, Text.toNat_ofNat, hn, hfirst, hsecond, hthird]
      rfl
  | three =>
      rw [symbols_three (hvs _ (by simp)) (hvs _ (by simp)) (hvs _ (by simp)) (hvs _ (by simp))]
      rfl

theorem eq_symbols_of_decodeLast {start : Nat} {group bs : Bytes} (hlength : group.length ≤ 4)
    (h : decodeLast start group = .ok bs) : group = symbols bs := by
  obtain ⟨vs, pads, hgroup, hholds⟩ := holds_of_decodeLast hlength h
  obtain ⟨hspelled, hvs, -⟩ := eq_of_lastGroup hgroup
  rw [hspelled, hholds.symbols_eq hvs]

/-- A text that is read is spelled by the bytes it is read as. -/
theorem eq_symbols_of_decodeGroups {text : Bytes} :
    ∀ {start : Nat} {bs : Bytes}, decodeGroups start text = .ok bs → text = symbols bs := by
  intro start
  fun_induction decodeGroups start text with
  | case1 start a b c d e rest ih =>
      intro bs h
      obtain ⟨va, ha, h⟩ := bind_eq_ok.mp h
      obtain ⟨vb, hb, h⟩ := bind_eq_ok.mp h
      obtain ⟨vc, hc, h⟩ := bind_eq_ok.mp h
      obtain ⟨vd, hd, h⟩ := bind_eq_ok.mp h
      obtain ⟨more, hmore, h⟩ := bind_eq_ok.mp h
      obtain rfl := pure_eq_ok.mp h
      obtain ⟨halt, rfl⟩ := symbol_of_valueAt ha
      obtain ⟨hblt, rfl⟩ := symbol_of_valueAt hb
      obtain ⟨hclt, rfl⟩ := symbol_of_valueAt hc
      obtain ⟨hdlt, rfl⟩ := symbol_of_valueAt hd
      rw [symbols_three halt hblt hclt hdlt, ih hmore]
  | case2 start group hgroup =>
      intro bs h
      refine eq_symbols_of_decodeLast ?_ h
      rcases group with _ | ⟨a, _ | ⟨b, _ | ⟨c, _ | ⟨d, _ | ⟨e, rest⟩⟩⟩⟩⟩
      case cons.cons.cons.cons.cons => exact absurd rfl (hgroup a b c d e rest)
      all_goals simp

/-- **Exactly the text of a byte sequence is read as it.** -/
theorem decode_eq_ok_iff {s : String} {bs : Bytes} : decode s = .ok bs ↔ s = encode bs := by
  constructor
  · intro h
    unfold decode at h
    dsimp only at h
    split at h
    · cases h
    · refine Text.toUtf8_injective ?_
      rw [toUtf8_encode]
      exact eq_symbols_of_decodeGroups h
  · rintro rfl
    exact decode_encode bs

end CaseGateway.Base64
