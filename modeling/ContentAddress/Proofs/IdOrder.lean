import ContentAddress.Ascending
import ContentAddress.Proofs.HexText
import Mathlib

/-!
# The order of identifiers

Identifiers are ordered by value, and their bytes and texts in the order of a dictionary.  Digits of
fixed width with the most significant one in front compare in that order exactly as the numbers do,
and neither bytes nor characters change the order of digits.  So it makes no difference whether
identifiers are sorted before or after they are written.
-/

namespace ContentAddress

universe u v

/-! ## The order of a dictionary -/

section Dictionary

variable {α : Type u} {β : Type v}

/-- Behind two beginnings of one length only a tie is decided. -/
theorem compare_append [Ord α] {init init' : List α} (hlength : init.length = init'.length)
    (rest rest' : List α) :
    compare (init ++ rest) (init' ++ rest') = (compare init init').then (compare rest rest') := by
  induction init generalizing init' with
  | nil =>
      obtain rfl : init' = [] := List.eq_nil_of_length_eq_zero hlength.symm
      rfl
  | cons a init ih =>
      cases init' with
      | nil => cases hlength
      | cons b init' =>
          rw [List.cons_append, List.cons_append, List.compare_cons_cons, List.compare_cons_cons,
            ih (Nat.succ.inj hlength), Ordering.then_assoc]

theorem compare_map [Ord α] [Ord β] {f : α → β} {l l' : List α}
    (h : ∀ a ∈ l, ∀ b ∈ l', compare (f a) (f b) = compare a b) :
    compare (l.map f) (l'.map f) = compare l l' := by
  induction l generalizing l' with
  | nil => cases l' <;> rfl
  | cons a l ih =>
      cases l' with
      | nil => rfl
      | cons b l' =>
          rw [List.map_cons, List.map_cons, List.compare_cons_cons, List.compare_cons_cons,
            h a (by simp) b (by simp), ih fun c hc d hd => h c (by simp [hc]) d (by simp [hd])]

theorem compareOfLessAndEq_congr [LT α] [DecidableLT α] [DecidableEq α] [LT β] [DecidableLT β]
    [DecidableEq β] {a b : α} {c d : β} (hlt : a < b ↔ c < d) (heq : a = b ↔ c = d) :
    compareOfLessAndEq a b = compareOfLessAndEq c d := by
  simp only [compareOfLessAndEq, hlt, heq]

theorem compareOfLessAndEq_list (chars chars' : List Char) :
    compareOfLessAndEq chars chars' = compare chars chars' := by
  induction chars generalizing chars' with
  | nil => cases chars' <;> simp [compareOfLessAndEq]
  | cons a l ih =>
      cases chars' with
      | nil => simp [compareOfLessAndEq]
      | cons b l' =>
          rw [List.compare_cons_cons, ← ih]
          rcases lt_trichotomy a b with hlt | rfl | hgt
          · have hcompare : compare a b = .lt := compareOfLessAndEq_eq_lt.2 hlt
            simp [compareOfLessAndEq, hcompare, hlt, List.cons_lt_cons_iff]
          · simp [compareOfLessAndEq]
          · have hcompare : compare a b = .gt := by
              simp [compare, compareOfLessAndEq, hgt.not_gt, hgt.ne']
            simp [compareOfLessAndEq, hcompare, hgt.not_gt, hgt.ne', List.cons_lt_cons_iff]

theorem compare_toList (text text' : String) :
    compare text text' = compare text.toList text'.toList := by
  rw [← compareOfLessAndEq_list]
  exact compareOfLessAndEq_congr String.lt_iff_toList_lt String.toList_inj.symm

end Dictionary

/-! ## Numerals -/

namespace Positional

variable {base : Nat}

/-- Numbers are compared by their quotients, and by their remainders if these are equal. -/
theorem compare_eq_div_mod (m n : Nat) :
    compare m n = (compare (m / base) (n / base)).then (compare (m % base) (n % base)) := by
  rcases Nat.lt_trichotomy (m / base) (n / base) with hlt | heq | hgt
  · rw [Nat.compare_eq_lt.2 hlt, Nat.compare_eq_lt.2 (Nat.lt_of_div_lt_div hlt)]
    rfl
  · have hm := Nat.div_add_mod m base
    have hn := Nat.div_add_mod n base
    rw [heq] at hm
    have hlt : m < n ↔ m % base < n % base := by omega
    have hsame : m = n ↔ m % base = n % base := by omega
    rw [heq, Nat.compare_eq_eq.2 rfl, Ordering.eq_then]
    exact compareOfLessAndEq_congr hlt hsame
  · rw [Nat.compare_eq_gt.2 hgt, Nat.compare_eq_gt.2 (Nat.lt_of_div_lt_div hgt)]
    rfl

theorem compare_digits (hbase : 0 < base) {width m n : Nat} (hm : m < base ^ width)
    (hn : n < base ^ width) :
    compare (digits base width m) (digits base width n) = compare m n := by
  induction width generalizing m n with
  | zero =>
      rw [Nat.lt_one_iff.1 hm, Nat.lt_one_iff.1 hn]
      rfl
  | succ width ih =>
      rw [pow_succ, ← Nat.div_lt_iff_lt_mul hbase] at hm hn
      have hlength : (digits base width (m / base)).length = (digits base width (n / base)).length := by
        simp
      rw [digits, digits, compare_append hlength, ih hm hn, List.compare_cons_cons,
        List.compare_nil_nil, Ordering.then_eq, ← compare_eq_div_mod]

end Positional

/-! ## Ascending lists -/

section Ascending

variable {α : Type u} {β : Type v} [Ord α] [Ord β]

theorem map_insertAscending {f : α → β} (h : ∀ a b, compare (f a) (f b) = compare a b) (a : α)
    (l : List α) : (insertAscending a l).map f = insertAscending (f a) (l.map f) := by
  induction l with
  | nil => rfl
  | cons b l ih =>
      rw [List.map_cons, insertAscending, insertAscending, h]
      cases compare a b with
      | lt => rfl
      | eq => rfl
      | gt => exact congrArg (f b :: ·) ih

/-- A map that keeps the order may be applied before or after sorting. -/
theorem map_ascending {f : α → β} (h : ∀ a b, compare (f a) (f b) = compare a b) (l : List α) :
    (ascending l).map f = ascending (l.map f) := by
  induction l with
  | nil => rfl
  | cons a l ih =>
      change (insertAscending a (ascending l)).map f = insertAscending (f a) (ascending (l.map f))
      rw [map_insertAscending h, ih]

/-- The values of a list in ascending order, as often as they occur. -/
def sorted (l : List α) : List α := l.mergeSort fun a b => (compare a b).isLE

theorem map_sorted {f : α → β} (h : ∀ a b, compare (f a) (f b) = compare a b) (l : List α) :
    (sorted l).map f = sorted (l.map f) :=
  List.map_mergeSort fun a _ b _ => congrArg Ordering.isLE (h a b).symm

theorem pairwise_sorted [Std.TransOrd α] (l : List α) :
    (sorted l).Pairwise fun a b => (compare a b).isLE := by
  refine List.pairwise_mergeSort (fun a b c => Std.TransCmp.isLE_trans) ?_ l
  intro a b
  rw [Std.OrientedOrd.eq_swap (a := b)]
  cases compare a b <;> rfl

variable [Std.LawfulEqOrd α]

theorem mem_insertAscending {a b : α} {l : List α} :
    b ∈ insertAscending a l ↔ b = a ∨ b ∈ l := by
  induction l with
  | nil => simp [insertAscending]
  | cons c l ih =>
      rw [insertAscending]
      cases hcompare : compare a c with
      | lt => exact List.mem_cons
      | eq =>
          obtain rfl := Std.LawfulEqOrd.eq_of_compare hcompare
          simp
      | gt =>
          dsimp only
          rw [List.mem_cons, ih, List.mem_cons, or_left_comm]

theorem mem_ascending {a : α} {l : List α} : a ∈ ascending l ↔ a ∈ l := by
  induction l with
  | nil => rfl
  | cons b l ih =>
      change a ∈ insertAscending b (ascending l) ↔ _
      rw [mem_insertAscending, ih, List.mem_cons]

variable [Std.TransOrd α]

theorem pairwise_insertAscending {a : α} {l : List α}
    (h : l.Pairwise fun a b => compare a b = .lt) :
    (insertAscending a l).Pairwise fun a b => compare a b = .lt := by
  induction l with
  | nil => exact List.pairwise_singleton _ a
  | cons c l ih =>
      obtain ⟨hhead, htail⟩ := List.pairwise_cons.1 h
      rw [insertAscending]
      cases hcompare : compare a c with
      | lt =>
          refine List.pairwise_cons.2 ⟨?_, h⟩
          intro b hb
          rcases List.mem_cons.1 hb with rfl | hb
          · exact hcompare
          · exact Std.TransCmp.lt_trans hcompare (hhead b hb)
      | eq => exact h
      | gt =>
          refine List.pairwise_cons.2 ⟨?_, ih htail⟩
          intro b hb
          rcases mem_insertAscending.1 hb with rfl | hb
          · exact Std.OrientedCmp.lt_of_gt hcompare
          · exact hhead b hb

theorem pairwise_ascending (l : List α) :
    (ascending l).Pairwise fun a b => compare a b = .lt := by
  induction l with
  | nil => exact List.Pairwise.nil
  | cons a l ih => exact pairwise_insertAscending ih

theorem ascending_eq_dedup [DecidableEq α] (l : List α) : ascending l = (sorted l).dedup := by
  have hirrefl : Std.Irrefl fun a b : α => compare a b = .lt :=
    ⟨fun a h => by simp at h⟩
  have hantisymm : Std.Antisymm fun a b : α => compare a b = .lt :=
    ⟨fun a b h h' => absurd (Std.TransCmp.lt_trans h h') (hirrefl.irrefl a)⟩
  have hstrict : (sorted l).dedup.Pairwise fun a b => compare a b = .lt := by
    have hle := (pairwise_sorted l).sublist (List.dedup_sublist (sorted l))
    refine (hle.and (List.nodup_dedup (sorted l))).imp ?_
    rintro a b ⟨hab, hne⟩
    refine (Ordering.isLE_iff_eq_lt_or_eq_eq.1 hab).resolve_right fun heq => ?_
    exact hne (Std.LawfulEqOrd.eq_of_compare heq)
  refine (pairwise_ascending l).eq_of_mem_iff hstrict fun a => ?_
  rw [mem_ascending, List.mem_dedup, sorted, List.mem_mergeSort]

end Ascending

/-! ## Identifiers and what is written for them -/

namespace BlobId

theorem compare_value (a b : BlobId) : compare a.value.toNat b.value.toNat = compare a b :=
  compareOfLessAndEq_congr UInt64.lt_iff_toNat_lt.symm UInt64.toNat_inj

theorem compare_map_digits {α : Type} [Ord α] {base : Nat} (hbase : 0 < base) {width : Nat}
    (hwidth : 2 ^ 64 = base ^ width) {f : Nat → α}
    (hf : ∀ digit < base, ∀ digit' < base, compare (f digit) (f digit') = compare digit digit')
    (a b : BlobId) :
    compare ((Positional.digits base width a.value.toNat).map f)
      ((Positional.digits base width b.value.toNat).map f) = compare a b := by
  rw [compare_map fun digit hdigit digit' hdigit' =>
      hf digit (Positional.lt_of_mem_digits hbase hdigit) digit'
        (Positional.lt_of_mem_digits hbase hdigit'),
    Positional.compare_digits hbase (hwidth ▸ a.value.toNat_lt) (hwidth ▸ b.value.toNat_lt),
    compare_value]

theorem compare_bytes (a b : BlobId) : compare a.bytes b.bytes = compare a b := by
  refine compare_map_digits (by decide) (by decide) ?_ a b
  intro digit hdigit digit' hdigit'
  have hvalue : ∀ digit < 256, (UInt8.ofNat digit).toNat = digit := fun digit hdigit => by
    rw [UInt8.toNat_ofNat', Nat.mod_eq_of_lt hdigit]
  apply compareOfLessAndEq_congr
  · rw [UInt8.lt_iff_toNat_lt, hvalue digit hdigit, hvalue digit' hdigit']
  · rw [← UInt8.toNat_inj, hvalue digit hdigit, hvalue digit' hdigit']

theorem compare_hex (a b : BlobId) : compare a.hex b.hex = compare a b := by
  -- The letters stand behind the numerals in the order of characters.
  have hdigits : ∀ digit < 16, ∀ digit' < 16,
      compare (Nat.digitChar digit) (Nat.digitChar digit') = compare digit digit' := by
    decide
  rw [compare_toList, toList_hex, toList_hex]
  exact compare_map_digits (by decide) (by decide) hdigits a b

theorem stored_hex (id : BlobId) :
    stored id.hex = (Positional.digits 16 (2 * size) id.value.toNat).map fun digit =>
      UInt8.ofNat (Nat.digitChar digit).toNat := by
  have hencode : ∀ digit < 16, String.utf8EncodeChar (Nat.digitChar digit) =
      [UInt8.ofNat (Nat.digitChar digit).toNat] := by
    decide
  rw [stored_eq_flatMap, toList_hex, List.flatMap_map, List.map_eq_flatMap]
  exact List.flatMap_congr fun digit hdigit =>
    hencode digit (Positional.lt_of_mem_digits (by decide) hdigit)

theorem compare_stored_hex (a b : BlobId) :
    compare (stored a.hex) (stored b.hex) = compare a b := by
  have hdigits : ∀ digit < 16, ∀ digit' < 16,
      compare (UInt8.ofNat (Nat.digitChar digit).toNat) (UInt8.ofNat (Nat.digitChar digit').toNat) =
        compare digit digit' := by
    decide
  rw [stored_hex, stored_hex]
  exact compare_map_digits (by decide) (by decide) hdigits a b

instance : Std.TransOrd BlobId := inferInstanceAs (Std.TransCmp (compareOn BlobId.value))

instance : Std.LawfulEqOrd BlobId where
  eq_of_compare {a b} h := by
    obtain ⟨value⟩ := a
    obtain ⟨value'⟩ := b
    exact congrArg BlobId.mk (Std.LawfulEqOrd.eq_of_compare h)

/-- Identifiers compare like their bytes and like their texts, whether these are compared by
characters or by the bytes stored for them.  So the texts of a sorted list of identifiers are the
sorted list of their texts, and the same holds when repetitions are left out. -/
theorem orders_agree :
    (∀ a b : BlobId, compare a.value.toNat b.value.toNat = compare a b ∧
      compare a.bytes b.bytes = compare a b ∧ compare a.hex b.hex = compare a b ∧
      compare (stored a.hex) (stored b.hex) = compare a b) ∧
    ∀ ids : List BlobId, (sorted ids).map hex = sorted (ids.map hex) ∧
      (sorted ids).dedup.map hex = (sorted (ids.map hex)).dedup ∧
      ascending ids = (sorted ids).dedup ∧ (ascending ids).map hex = ascending (ids.map hex) := by
  constructor
  · exact fun a b => ⟨compare_value a b, compare_bytes a b, compare_hex a b, compare_stored_hex a b⟩
  · intro ids
    have hascending := map_ascending compare_hex ids
    refine ⟨map_sorted compare_hex ids, ?_, ascending_eq_dedup ids, hascending⟩
    rw [← ascending_eq_dedup, ← ascending_eq_dedup, hascending]

end BlobId

end ContentAddress
