import ContentAddress.Bytes

/-!
# Folding over whole pieces

A block function consumes content in pieces of one size and leaves the rest.  What it has become
after some content, beside that rest, is all that is needed to continue with more content: this is
the law behind every incremental hash.
-/

namespace ContentAddress.Bytes

universe u

variable {α : Type u} (absorb : α → Bytes → α) {size : Nat}

theorem foldPieces_concat (count : Nat) (acc : α) (content : Bytes) :
    foldPieces absorb size (count + 1) acc content =
      (absorb (foldPieces absorb size count acc content).1
          ((foldPieces absorb size count acc content).2.take size),
        (foldPieces absorb size count acc content).2.drop size) := by
  induction count generalizing acc content with
  | zero => rfl
  | succ count ih => rw [foldPieces_succ, ih, ← foldPieces_succ]

theorem snd_foldPieces (count : Nat) (acc : α) (content : Bytes) :
    (foldPieces absorb size count acc content).2 = content.drop (size * count) := by
  induction count generalizing acc content with
  | zero => rfl
  | succ count ih => rw [foldPieces_succ, ih, List.drop_drop, Nat.mul_succ, Nat.add_comm]

/-- More content than the pieces need only makes the rest longer. -/
theorem foldPieces_append {count : Nat} {content : Bytes} (h : size * count ≤ content.length)
    (acc : α) (more : Bytes) :
    foldPieces absorb size count acc (content ++ more) =
      ((foldPieces absorb size count acc content).1,
        (foldPieces absorb size count acc content).2 ++ more) := by
  induction count generalizing acc content with
  | zero => rfl
  | succ count ih =>
      rw [Nat.mul_succ] at h
      have hrest : size * count ≤ (content.drop size).length := by
        rw [List.length_drop]
        omega
      rw [foldPieces_succ, foldPieces_succ, List.take_append_of_le_length (by omega),
        List.drop_append_of_le_length (by omega), ih hrest]

/-- Folds over as many pieces as the content has. -/
def foldWhole (size : Nat) (acc : α) (content : Bytes) : α × Bytes :=
  foldPieces absorb size (content.length / size) acc content

theorem foldWhole_of_lt {content : Bytes} (h : content.length < size) (acc : α) :
    foldWhole absorb size acc content = (acc, content) := by
  rw [foldWhole, Nat.div_eq_of_lt h, foldPieces_zero]

theorem foldWhole_of_le {content : Bytes} (hpos : 0 < size) (h : size ≤ content.length) (acc : α) :
    foldWhole absorb size acc content =
      foldWhole absorb size (absorb acc (content.take size)) (content.drop size) := by
  have hcount : content.length / size = (content.drop size).length / size + 1 := by
    rw [List.length_drop, Nat.div_eq_sub_div hpos h]
  rw [foldWhole, hcount, foldPieces_succ, foldWhole]

theorem length_foldWhole (hpos : 0 < size) (acc : α) (content : Bytes) :
    (foldWhole absorb size acc content).2.length = content.length % size := by
  induction hlen : content.length using Nat.strongRecOn generalizing acc content with
  | ind n ih =>
      subst hlen
      by_cases h : content.length < size
      · rw [foldWhole_of_lt absorb h, Nat.mod_eq_of_lt h]
      · have hle : size ≤ content.length := Nat.le_of_not_lt h
        have hdrop : (content.drop size).length = content.length - size := List.length_drop
        rw [foldWhole_of_le absorb hpos hle, ih _ (by omega) _ _ hdrop, ← Nat.mod_eq_sub_mod hle]

/-- Content may be consumed in two parts, the rest of the first going in front of the second. -/
theorem foldWhole_append (hpos : 0 < size) (acc : α) (first second : Bytes) :
    foldWhole absorb size acc (first ++ second) =
      foldWhole absorb size (foldWhole absorb size acc first).1
        ((foldWhole absorb size acc first).2 ++ second) := by
  induction hlen : first.length using Nat.strongRecOn generalizing acc first with
  | ind n ih =>
      subst hlen
      by_cases h : first.length < size
      · rw [foldWhole_of_lt absorb h]
      · have hle : size ≤ first.length := Nat.le_of_not_lt h
        have hle' : size ≤ (first ++ second).length := by
          rw [List.length_append]
          omega
        have hdrop : (first.drop size).length = first.length - size := List.length_drop
        rw [foldWhole_of_le absorb hpos hle', foldWhole_of_le absorb hpos hle,
          List.take_append_of_le_length hle, List.drop_append_of_le_length hle]
        exact ih _ (by omega) _ _ hdrop

end ContentAddress.Bytes
