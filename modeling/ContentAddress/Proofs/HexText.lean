import ContentAddress.BlobId
import Mathlib.Algebra.Order.Ring.Nat
import Mathlib.Data.List.Basic
import Mathlib.Data.List.Induction
import Mathlib.Tactic.IntervalCases

/-!
# Identifiers as hexadecimal text

Writing an identifier is an instance of writing a number with a fixed number of digits, and reading
one back of the value of such digits.  What is special to identifiers is which texts are accepted.
A text is accepted if it is sixteen bytes long and all its bytes are digits, and then a reader of
arbitrary numerals in base 16, which alone would take a sign and could run out of range, has nothing
to object to.
-/

namespace ContentAddress

/-! ## Numerals of fixed width -/

namespace Positional

variable {base : Nat}

theorem lt_of_mem_digits (hbase : 0 < base) {width n digit : Nat}
    (hmem : digit ∈ digits base width n) : digit < base := by
  induction width generalizing n with
  | zero => cases hmem
  | succ width ih =>
      rw [digits, List.mem_append, List.mem_singleton] at hmem
      rcases hmem with hmem | rfl
      · exact ih hmem
      · exact Nat.mod_lt n hbase

theorem value_lt {ds : List Nat} (hds : ∀ digit ∈ ds, digit < base) :
    value base ds < base ^ ds.length := by
  induction ds using List.reverseRecOn with
  | nil => exact Nat.one_pos
  | append_singleton ds digit ih =>
      obtain ⟨hinit, hlast⟩ := List.forall_mem_append.1 hds
      have hdigit : digit < base := hlast digit List.mem_cons_self
      rw [value_append_singleton, List.length_append, List.length_singleton, pow_succ]
      calc value base ds * base + digit < value base ds * base + base :=
            Nat.add_lt_add_left hdigit _
        _ = (value base ds + 1) * base := (Nat.succ_mul _ _).symm
        _ ≤ base ^ ds.length * base := Nat.mul_le_mul_right base (ih hinit)

theorem le_foldl (hbase : 0 < base) (ds : List Nat) (n : Nat) :
    n ≤ ds.foldl (fun n digit => n * base + digit) n := by
  induction ds generalizing n with
  | nil => exact Nat.le_refl n
  | cons digit ds ih =>
      calc n ≤ n * base := Nat.le_mul_of_pos_right n hbase
        _ ≤ n * base + digit := Nat.le_add_right _ _
        _ ≤ _ := ih (n * base + digit)

theorem digits_value {ds : List Nat} (hds : ∀ digit ∈ ds, digit < base) :
    digits base ds.length (value base ds) = ds := by
  induction ds using List.reverseRecOn with
  | nil => rfl
  | append_singleton ds digit ih =>
      obtain ⟨hinit, hlast⟩ := List.forall_mem_append.1 hds
      have hdigit : digit < base := hlast digit List.mem_cons_self
      have hdiv : (value base ds * base + digit) / base = value base ds := by
        rw [Nat.mul_comm, Nat.mul_add_div (Nat.zero_lt_of_lt hdigit), Nat.div_eq_of_lt hdigit,
          Nat.add_zero]
      have hmod : (value base ds * base + digit) % base = digit := by
        rw [Nat.mul_comm, Nat.mul_add_mod, Nat.mod_eq_of_lt hdigit]
      rw [List.length_append, List.length_singleton, digits, value_append_singleton, hdiv, hmod,
        ih hinit]

theorem digits_two_mul (base width n : Nat) :
    digits base (2 * width) n =
      (digits (base * base) width n).flatMap fun digit => [digit / base, digit % base] := by
  induction width generalizing n with
  | zero => rfl
  | succ width ih =>
      rw [Nat.mul_succ, digits, digits, ih, Nat.div_div_eq_div_mul, digits, List.flatMap_append,
        List.flatMap_singleton, Nat.mod_mul_right_div_self, Nat.mod_mul_right_mod,
        List.append_assoc]
      rfl

theorem digits_zero (base width : Nat) : digits base width 0 = List.replicate width 0 := by
  induction width with
  | zero => rfl
  | succ width ih => rw [digits, Nat.zero_div, Nat.zero_mod, ih, List.replicate_succ']

/-- The digits are those of the shortest numeral, with zeros in front. -/
theorem map_digitChar_digits (hbase : 1 < base) {width n : Nat} (hwidth : 0 < width)
    (hn : n < base ^ width) :
    (digits base width n).map Nat.digitChar = (Nat.toDigits base n).leftpad width '0' := by
  induction width generalizing n with
  | zero => cases hwidth
  | succ width ih =>
      rw [digits, List.map_append, List.map_singleton]
      -- The shortest numeral of a number below the base is one digit, and no quotient is left.
      rcases Nat.lt_or_ge n base with hlt | hge
      · rw [Nat.toDigits_of_lt_base hlt, Nat.div_eq_of_lt hlt, Nat.mod_eq_of_lt hlt, digits_zero,
          List.map_replicate]
        rfl
      · have hquot : n / base < base ^ width := by
          rwa [Nat.div_lt_iff_lt_mul (Nat.zero_lt_of_lt hbase), ← pow_succ]
        have hwidth' : 0 < width := by
          refine Nat.pos_of_ne_zero fun hzero => ?_
          rw [hzero, pow_zero, Nat.lt_one_iff] at hquot
          exact absurd hquot (Nat.div_pos hge (Nat.zero_lt_of_lt hbase)).ne'
        rw [ih hwidth' hquot, Nat.toDigits_of_base_le hbase hge]
        simp [List.leftpad]

end Positional

/-! ## Characters, bytes and digits -/

namespace BlobId

def lowerDigits : List Char := "0123456789abcdef".toList

def hexDigits : List Char := "0123456789abcdefABCDEF".toList

theorem hexDigit?_digitChar {digit : Nat} (hdigit : digit < 16) :
    hexDigit? (Nat.digitChar digit) = some digit ∧
      hexDigit? (Nat.digitChar digit).toUpper = some digit ∧
      Nat.digitChar digit ∈ lowerDigits := by
  interval_cases digit <;> decide

theorem toNat_lt_of_hexDigit? {char : Char} {digit : Nat} (h : hexDigit? char = some digit) :
    char.toNat < 128 := by
  have hle : ∀ high : Char, high.toNat < 128 → char ≤ high → char.toNat < 128 :=
    fun high hhigh hchar => Nat.lt_of_le_of_lt hchar hhigh
  unfold hexDigit? at h
  split at h
  · next hrange => exact hle '9' (by decide) hrange.2
  · split at h
    · next hrange => exact hle 'f' (by decide) hrange.2
    · split at h
      · next hrange => exact hle 'F' (by decide) hrange.2
      · cases h

theorem of_hexDigit?_eq_some {char : Char} {digit : Nat} (h : hexDigit? char = some digit) :
    digit < 16 ∧ Nat.digitChar digit = char.toLower ∧ char ∈ hexDigits := by
  have hascii : ∀ code < 128, ∀ digit ∈ hexDigit? (Char.ofNat code),
      digit < 16 ∧ Nat.digitChar digit = (Char.ofNat code).toLower ∧
        Char.ofNat code ∈ hexDigits := by
    -- Only ASCII characters have values, which leaves 128 cases to look at.
    decide
  have hchar := hascii char.toNat (toNat_lt_of_hexDigit? h)
  rw [Char.ofNat_toNat] at hchar
  exact hchar digit h

theorem exists_hexDigit? {char : Char} (hchar : char ∈ hexDigits) :
    ∃ digit, hexDigit? char = some digit := by
  have hsome : hexDigits.all fun char => (hexDigit? char).isSome := by decide
  exact Option.isSome_iff_exists.1 (List.all_eq_true.1 hsome char hchar)

theorem mapM_hexDigit?_eq_some_iff {chars : List Char} {ds : List Nat} :
    chars.mapM hexDigit? = some ds ↔ chars.map hexDigit? = ds.map some := by
  induction chars generalizing ds with
  | nil => cases ds <;> simp
  | cons char chars ih => cases ds <;> simp [Option.bind_eq_some_iff, ih]

theorem exists_mapM_hexDigit? {chars : List Char} (hchars : ∀ char ∈ chars, char ∈ hexDigits) :
    ∃ ds, chars.mapM hexDigit? = some ds := by
  induction chars with
  | nil => exact ⟨[], rfl⟩
  | cons char chars ih =>
      obtain ⟨hchar, hrest⟩ := List.forall_mem_cons.1 hchars
      obtain ⟨digit, hdigit⟩ := exists_hexDigit? hchar
      obtain ⟨ds, hds⟩ := ih hrest
      exact ⟨digit :: ds, by simp [hdigit, hds]⟩

theorem of_mapM_hexDigit? {chars : List Char} {ds : List Nat}
    (h : chars.mapM hexDigit? = some ds) :
    (∀ digit ∈ ds, digit < 16) ∧ ds.map Nat.digitChar = chars.map Char.toLower ∧
      ∀ char ∈ chars, char ∈ hexDigits := by
  rw [mapM_hexDigit?_eq_some_iff] at h
  induction chars generalizing ds with
  | nil =>
      rw [List.map_nil, eq_comm, List.map_eq_nil_iff] at h
      subst h
      simp
  | cons char chars ih =>
      cases ds with
      | nil => cases h
      | cons digit ds =>
          obtain ⟨hchar, hrest⟩ := List.cons.inj h
          obtain ⟨hdigit, hlower, hmem⟩ := of_hexDigit?_eq_some hchar
          obtain ⟨hdigits, hlowers, hmems⟩ := ih hrest
          exact ⟨List.forall_mem_cons.2 ⟨hdigit, hdigits⟩, by simp [hlower, hlowers],
            List.forall_mem_cons.2 ⟨hmem, hmems⟩⟩

def stored (text : String) : Bytes := text.toUTF8.data.toList

theorem stored_eq_flatMap (text : String) :
    stored text = text.toList.flatMap String.utf8EncodeChar := by
  rw [stored, String.toUTF8_eq_toByteArray, ← String.utf8Encode_toList, List.utf8Encode,
    List.data_toByteArray]

theorem length_stored (text : String) : (stored text).length = text.utf8ByteSize := by
  rw [stored, String.toUTF8_eq_toByteArray, Array.length_toList, ByteArray.size_data,
    String.size_toByteArray]

/-- A byte that stands for a digit by itself. -/
def IsHexByte (byte : UInt8) : Prop :=
  (48 ≤ byte.toNat ∧ byte.toNat ≤ 57) ∨ (97 ≤ byte.toNat ∧ byte.toNat ≤ 102) ∨
    (65 ≤ byte.toNat ∧ byte.toNat ≤ 70)

instance (byte : UInt8) : Decidable (IsHexByte byte) :=
  inferInstanceAs (Decidable (_ ∨ _ ∨ _))

theorem forall_isHexByte_iff (char : Char) :
    (∀ byte ∈ String.utf8EncodeChar char, IsHexByte byte) ↔ char ∈ hexDigits := by
  constructor
  · intro hbytes
    have hascii : ∀ code < 128, IsHexByte (UInt8.ofNat code) → Char.ofNat code ∈ hexDigits := by
      decide
    rcases Nat.lt_or_ge char.toNat 128 with hlt | hge
    · have hencode : String.utf8EncodeChar char = [UInt8.ofNat char.toNat] :=
        if_pos (Nat.le_of_lt_succ hlt)
      have hchar := hascii char.toNat hlt (hbytes _ (by simp [hencode]))
      rwa [Char.ofNat_toNat] at hchar
    · -- The last byte of a longer encoding is at least 128.
      have hlast : UInt8.ofNat (char.toNat % 64 + 128) ∈ String.utf8EncodeChar char := by
        have hnot : ¬ char.val.toNat ≤ 127 := Nat.not_le.2 hge
        simp only [String.utf8EncodeChar, hnot, if_false]
        split
        · simp
        · split <;> simp
      have hbyte := hbytes _ hlast
      have hsmall : char.toNat % 64 + 128 < 256 := by omega
      rw [IsHexByte, UInt8.toNat_ofNat', Nat.mod_eq_of_lt hsmall] at hbyte
      omega
  · intro hchar
    have hall : hexDigits.all fun char =>
        (String.utf8EncodeChar char).all fun byte => IsHexByte byte := by
      decide
    have hbytes := List.all_eq_true.1 hall char hchar
    simpa only [List.all_eq_true, decide_eq_true_eq] using hbytes

theorem forall_isHexByte_stored_iff (text : String) :
    (∀ byte ∈ stored text, IsHexByte byte) ↔ ∀ char ∈ text.toList, char ∈ hexDigits := by
  rw [stored_eq_flatMap]
  constructor
  · intro hbytes char hchar
    exact (forall_isHexByte_iff char).1 fun byte hbyte =>
      hbytes byte (List.mem_flatMap.2 ⟨char, hchar, hbyte⟩)
  · intro hchars byte hbyte
    obtain ⟨char, hchar, hbyte⟩ := List.mem_flatMap.1 hbyte
    exact (forall_isHexByte_iff char).2 (hchars char hchar) byte hbyte

theorem utf8ByteSize_of_hexDigits {text : String}
    (hchars : ∀ char ∈ text.toList, char ∈ hexDigits) : text.utf8ByteSize = text.length := by
  have hone : hexDigits.all fun char => (String.utf8EncodeChar char).length = 1 := by decide
  have hmap : text.toList.map (fun char => (String.utf8EncodeChar char).length) =
      text.toList.map fun _ => 1 :=
    List.map_congr_left fun char hchar => by
      simpa only [decide_eq_true_eq] using List.all_eq_true.1 hone char (hchars char hchar)
  rw [← length_stored, stored_eq_flatMap, List.length_flatMap, hmap, List.map_const',
    List.sum_replicate_nat, Nat.mul_one, String.length_toList]

/-! ## Writing and reading -/

theorem value_lt (id : BlobId) : id.value.toNat < 16 ^ (2 * size) := id.value.toNat_lt

theorem toList_hex (id : BlobId) :
    id.hex.toList = (Positional.digits 16 (2 * size) id.value.toNat).map Nat.digitChar :=
  String.toList_ofList

theorem value_digits_hex (id : BlobId) :
    Positional.value 16 (Positional.digits 16 (2 * size) id.value.toNat) = id.value.toNat := by
  rw [Positional.value_digits]
  exact Nat.mod_eq_of_lt id.value_lt

theorem ofHex?_of_map_hexDigit? {text : String} {id : BlobId}
    (h : text.toList.map hexDigit? =
      (Positional.digits 16 (2 * size) id.value.toNat).map some) : ofHex? text = some id := by
  have hread := mapM_hexDigit?_eq_some_iff.2 h
  obtain ⟨-, -, hchars⟩ := of_mapM_hexDigit? hread
  have hlength : text.length = 2 * size := by
    have hlength := congrArg List.length h
    rwa [List.length_map, List.length_map, Positional.length_digits, String.length_toList]
      at hlength
  rw [ofHex?, utf8ByteSize_of_hexDigits hchars, if_pos hlength, hread, Option.map_some,
    value_digits_hex, UInt64.ofNat_toNat]

theorem ofHex?_hex (id : BlobId) : ofHex? id.hex = some id := by
  apply ofHex?_of_map_hexDigit?
  rw [toList_hex, List.map_map]
  exact List.map_congr_left fun digit hmem =>
    (hexDigit?_digitChar (Positional.lt_of_mem_digits (by decide) hmem)).1

theorem of_ofHex?_eq_some {text : String} {id : BlobId} (h : ofHex? text = some id) :
    text.length = 2 * size ∧ (∀ char ∈ text.toList, char ∈ hexDigits) ∧
      id.hex = text.toLower := by
  rw [ofHex?] at h
  split at h
  · next hsize =>
    obtain ⟨ds, hds, rfl⟩ := Option.map_eq_some_iff.1 h
    obtain ⟨hdigits, hlower, hchars⟩ := of_mapM_hexDigit? hds
    have htext : text.length = 2 * size := by rwa [← utf8ByteSize_of_hexDigits hchars]
    have hlength : ds.length = 2 * size := by
      have hlengths := congrArg List.length hlower
      rwa [List.length_map, List.length_map, String.length_toList, htext] at hlengths
    refine ⟨htext, hchars, ?_⟩
    have hvalue : Positional.value 16 ds < 2 ^ 64 := by
      have hlt := Positional.value_lt hdigits
      rwa [hlength] at hlt
    rw [hex, UInt64.toNat_ofNat', Nat.mod_eq_of_lt hvalue, ← hlength,
      Positional.digits_value hdigits, hlower, ← String.toList_map, String.ofList_toList]
    rfl
  · cases h

theorem exists_ofHex? {text : String} (hlength : text.length = 2 * size)
    (hchars : ∀ char ∈ text.toList, char ∈ hexDigits) : ∃ id, ofHex? text = some id := by
  obtain ⟨ds, hds⟩ := exists_mapM_hexDigit? hchars
  rw [ofHex?, utf8ByteSize_of_hexDigits hchars, if_pos hlength, hds]
  exact ⟨_, rfl⟩

/-! ## The reader of numerals behind the guard -/

/-- Why a text is no numeral in base 16 for a 64-bit word. -/
inductive NumeralFault
  | empty
  | invalidDigit
  | overflow

/-- Reads the digits behind those that `word` stands for. -/
def readDigits (word : UInt64) : List Char → Except NumeralFault UInt64
  | [] => .ok word
  | char :: rest =>
      match hexDigit? char with
      | none => .error .invalidDigit
      | some digit =>
          if word.toNat * 16 + digit < 2 ^ 64 then
            readDigits (UInt64.ofNat (word.toNat * 16 + digit)) rest
          else .error .overflow

/-- Reads a numeral of any length, which may have a plus sign in front. -/
def readNumeral (text : String) : Except NumeralFault UInt64 :=
  match text.toList with
  | [] => .error .empty
  | ['+'] | ['-'] => .error .invalidDigit
  | '+' :: chars => readDigits 0 chars
  | chars => readDigits 0 chars

theorem readDigits_of_lt {chars : List Char} {ds : List Nat} {word : UInt64}
    (hds : chars.mapM hexDigit? = some ds)
    (hlt : ds.foldl (fun n digit => n * 16 + digit) word.toNat < 2 ^ 64) :
    readDigits word chars =
      .ok (UInt64.ofNat (ds.foldl (fun n digit => n * 16 + digit) word.toNat)) := by
  rw [mapM_hexDigit?_eq_some_iff] at hds
  induction chars generalizing ds word with
  | nil =>
      rw [List.map_nil, eq_comm, List.map_eq_nil_iff] at hds
      subst hds
      simp [readDigits]
  | cons char chars ih =>
      cases ds with
      | nil => cases hds
      | cons digit ds =>
          obtain ⟨hchar, hrest⟩ := List.cons.inj hds
          rw [List.foldl_cons] at hlt ⊢
          -- The value only grows with the digits behind, so what fits in the end fits now.
          have hfits : word.toNat * 16 + digit < 2 ^ 64 :=
            Nat.lt_of_le_of_lt (Positional.le_foldl (by decide) ds _) hlt
          have hword : (UInt64.ofNat (word.toNat * 16 + digit)).toNat = word.toNat * 16 + digit := by
            rw [UInt64.toNat_ofNat', Nat.mod_eq_of_lt hfits]
          rw [readDigits, hchar]
          dsimp only
          rw [if_pos hfits, ih hrest (by rwa [hword]), hword]

/-- What is asked of a text before it is read as a numeral. -/
def Guarded (text : String) : Prop :=
  text.utf8ByteSize = 16 ∧ ∀ byte ∈ stored text, IsHexByte byte

theorem guarded_iff (text : String) :
    Guarded text ↔ text.length = 16 ∧ ∀ char ∈ text.toList, char ∈ hexDigits := by
  rw [Guarded, forall_isHexByte_stored_iff]
  refine and_congr_left fun hchars => ?_
  rw [utf8ByteSize_of_hexDigits hchars]

theorem readNumeral_of_hexDigits {text : String} (hne : text.toList ≠ [])
    (hchars : ∀ char ∈ text.toList, char ∈ hexDigits) :
    readNumeral text = readDigits 0 text.toList := by
  -- A sign is no digit, so the text is read from its first character on.
  have hplus : '+' ∉ hexDigits := by decide
  have hminus : '-' ∉ hexDigits := by decide
  unfold readNumeral
  split
  · next hnil => exact absurd hnil hne
  · next hsign => exact absurd (hchars '+' (by simp [hsign])) hplus
  · next hsign => exact absurd (hchars '-' (by simp [hsign])) hminus
  · next hsign => exact absurd (hchars '+' (by simp [hsign])) hplus
  · rfl

/-- Behind the guard the reader of numerals neither finds a wrong digit nor runs out of range. -/
theorem readNumeral_of_guarded {text : String} (hguard : Guarded text) :
    ∃ word, readNumeral text = .ok word ∧ ofHex? text = some ⟨word⟩ := by
  obtain ⟨hlength, hchars⟩ := (guarded_iff text).1 hguard
  obtain ⟨ds, hds⟩ := exists_mapM_hexDigit? hchars
  obtain ⟨hdigits, hlower, -⟩ := of_mapM_hexDigit? hds
  have hcount : ds.length = 16 := by
    have hlengths := congrArg List.length hlower
    rwa [List.length_map, List.length_map, String.length_toList, hlength] at hlengths
  have hvalue : Positional.value 16 ds < 2 ^ 64 := by
    have hlt := Positional.value_lt hdigits
    rwa [hcount] at hlt
  refine ⟨UInt64.ofNat (Positional.value 16 ds), ?_, ?_⟩
  · have hne : text.toList ≠ [] := by
      rw [← List.length_pos_iff, String.length_toList, hlength]
      decide
    rw [readNumeral_of_hexDigits hne hchars]
    exact readDigits_of_lt hds hvalue
  · have hsize : text.utf8ByteSize = 2 * size := hguard.1
    rw [ofHex?, if_pos hsize, hds]
    rfl

theorem toList_hex_eq_flatMap (id : BlobId) :
    id.hex.toList =
      id.bytes.flatMap fun byte =>
        [Nat.digitChar (byte.toNat / 16), Nat.digitChar (byte.toNat % 16)] := by
  have hbyte : ∀ digit ∈ Positional.digits (16 * 16) size id.value.toNat,
      (UInt8.ofNat digit).toNat = digit := by
    intro digit hmem
    rw [UInt8.toNat_ofNat', Nat.mod_eq_of_lt (Positional.lt_of_mem_digits (by decide) hmem)]
  rw [toList_hex, Positional.digits_two_mul, List.map_flatMap, bytes, List.flatMap_map]
  refine List.flatMap_congr fun digit hmem => ?_
  rw [hbyte digit hmem]
  rfl

theorem toString_eq_hex (id : BlobId) : toString id = id.hex := by
  have hdigits := Positional.map_digitChar_digits (by decide : 1 < 16)
    (by decide : 0 < 2 * size) id.value_lt
  exact congrArg String.ofList hdigits.symm

/-- The text with the characters at the chosen places in upper case. -/
def raise (chosen : Nat → Bool) (text : String) : String :=
  String.ofList (text.toList.mapIdx fun index char =>
    if chosen index then char.toUpper else char)

theorem ofHex?_raise_hex (chosen : Nat → Bool) (id : BlobId) :
    ofHex? (raise chosen id.hex) = some id := by
  apply ofHex?_of_map_hexDigit?
  rw [raise, String.toList_ofList, toList_hex]
  apply List.ext_getElem
  · simp
  · intro index hindex hindex'
    have hlength : index < (Positional.digits 16 (2 * size) id.value.toNat).length := by
      simpa using hindex
    have hmem : (Positional.digits 16 (2 * size) id.value.toNat)[index] ∈
        Positional.digits 16 (2 * size) id.value.toNat := List.getElem_mem _
    obtain ⟨hlower, hupper, -⟩ :=
      hexDigit?_digitChar (Positional.lt_of_mem_digits (by decide) hmem)
    cases hchosen : chosen index <;> simp [hchosen, hlower, hupper]

/-- An identifier is written with sixteen digits in lower case, two for each of its bytes, and read
back from them in any mixture of cases.  Exactly the texts of sixteen digits are read, and what was
read is written as the same text in lower case.  The guard lets exactly these texts pass, and none
of them is refused behind it. -/
theorem hex_reads_back :
    (∀ id : BlobId,
      id.hex.length = 16 ∧ id.hex.toList ⊆ lowerDigits ∧ toString id = id.hex ∧
        id.hex.toList =
          (id.bytes.flatMap fun byte =>
            [Nat.digitChar (byte.toNat / 16), Nat.digitChar (byte.toNat % 16)]) ∧
        ofHex? id.hex = some id ∧ ∀ chosen, ofHex? (raise chosen id.hex) = some id) ∧
    ∀ text : String,
      ((∃ id, ofHex? text = some id) ↔
        text.length = 16 ∧ ∀ char ∈ text.toList, char ∈ hexDigits) ∧
      (∀ id, ofHex? text = some id → id.hex = text.toLower) ∧
      ((Guarded text ∧ ∃ word, readNumeral text = .ok word ∧ ofHex? text = some ⟨word⟩) ∨
        (¬ Guarded text ∧ ofHex? text = none)) := by
  have haccept : ∀ text : String, (∃ id, ofHex? text = some id) ↔
      text.length = 16 ∧ ∀ char ∈ text.toList, char ∈ hexDigits := by
    intro text
    constructor
    · rintro ⟨id, hid⟩
      obtain ⟨hlength, hchars, -⟩ := of_ofHex?_eq_some hid
      exact ⟨hlength, hchars⟩
    · rintro ⟨hlength, hchars⟩
      exact exists_ofHex? hlength hchars
  constructor
  · intro id
    refine ⟨?_, ?_, id.toString_eq_hex, id.toList_hex_eq_flatMap, id.ofHex?_hex, ?_⟩
    · exact (of_ofHex?_eq_some id.ofHex?_hex).1
    · intro char hchar
      rw [toList_hex] at hchar
      obtain ⟨digit, hdigit, rfl⟩ := List.mem_map.1 hchar
      exact (hexDigit?_digitChar (Positional.lt_of_mem_digits (by decide) hdigit)).2.2
    · exact fun chosen => ofHex?_raise_hex chosen id
  · intro text
    refine ⟨haccept text, fun id hid => (of_ofHex?_eq_some hid).2.2, ?_⟩
    by_cases hguard : Guarded text
    · exact .inl ⟨hguard, readNumeral_of_guarded hguard⟩
    · refine .inr ⟨hguard, ?_⟩
      rw [guarded_iff, ← haccept] at hguard
      exact Option.eq_none_iff_forall_ne_some.2 fun id hid => hguard ⟨id, hid⟩

/-- A sign is taken by the reader of numerals and not by the guard. -/
example : readNumeral "+f46db3751d8e999" = .ok 0xf46db3751d8e999 ∧
    ofHex? "+f46db3751d8e999" = none :=
  ⟨rfl, by cbv⟩

end BlobId

end ContentAddress
