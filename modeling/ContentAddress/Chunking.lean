import ContentAddress.Bytes

/-!
# Cutting content into chunks

Content is cut into chunks of given sizes, which are used again from the first when they run out.  A
size of zero gives an empty chunk, and the last chunk may be short.
-/

namespace ContentAddress.Bytes

/-- Cuts one chunk of each size, as long as there is content; the chunks are added to those given,
and what is left of the content is returned beside them. -/
def cutRound : List Nat → Bytes → Array Bytes → Array Bytes × Bytes
  | _, [], chunks => (chunks, [])
  | [], byte :: rest, chunks => (chunks, byte :: rest)
  | size :: sizes, byte :: rest, chunks =>
      cutRound sizes ((byte :: rest).drop size) (chunks.push ((byte :: rest).take size))

theorem length_cutRound_le (sizes : List Nat) (content : Bytes) (chunks : Array Bytes) :
    (cutRound sizes content chunks).2.length ≤ content.length := by
  fun_induction cutRound sizes content chunks with
  | case1 => simp
  | case2 => simp
  | case3 size sizes byte rest chunks ih =>
    simp only [List.length_drop] at ih
    omega

theorem length_cutRound_lt {sizes : List Nat} {content : Bytes} (chunks : Array Bytes)
    (hsizes : ∃ size ∈ sizes, 0 < size) (hcontent : content ≠ []) :
    (cutRound sizes content chunks).2.length < content.length := by
  fun_induction cutRound sizes content chunks with
  | case1 => exact absurd rfl hcontent
  | case2 => simp at hsizes
  | case3 size sizes byte rest chunks ih =>
    have hle := length_cutRound_le sizes ((byte :: rest).drop size)
      (chunks.push ((byte :: rest).take size))
    rcases Nat.eq_zero_or_pos size with rfl | hpos
    · have hrest : ∃ size ∈ sizes, 0 < size := by
        obtain ⟨size, hmem, hsize⟩ := hsizes
        rcases List.mem_cons.1 hmem with rfl | hmem
        · omega
        · exact ⟨size, hmem, hsize⟩
      exact ih hrest (by simp)
    · simp only [List.length_drop, List.length_cons] at hle ⊢
      omega

theorem flatten_cutRound (sizes : List Nat) (content : Bytes) (chunks : Array Bytes) :
    (cutRound sizes content chunks).1.toList.flatten ++ (cutRound sizes content chunks).2 =
      chunks.toList.flatten ++ content := by
  fun_induction cutRound sizes content chunks with
  | case1 => simp
  | case2 => simp
  | case3 size sizes byte rest chunks ih => simp [ih]

def cutRounds (sizes : List Nat) (hsizes : ∃ size ∈ sizes, 0 < size) (content : Bytes)
    (chunks : Array Bytes) : Array Bytes :=
  match content with
  | [] => chunks
  | byte :: rest =>
      match _h : cutRound sizes (byte :: rest) chunks with
      | (chunks', content') => cutRounds sizes hsizes content' chunks'
termination_by content.length
decreasing_by
  have hlt := length_cutRound_lt chunks hsizes (List.cons_ne_nil byte rest)
  rwa [_h] at hlt

/-- Cuts content into chunks of the given sizes, used cyclically.  Without a positive size the
content is a single chunk. -/
def cut (sizes : List Nat) (content : Bytes) : List Bytes :=
  if hsizes : ∃ size ∈ sizes, 0 < size then (cutRounds sizes hsizes content #[]).toList
  else [content]

theorem flatten_cutRounds (sizes : List Nat) (hsizes : ∃ size ∈ sizes, 0 < size) (content : Bytes)
    (chunks : Array Bytes) :
    (cutRounds sizes hsizes content chunks).toList.flatten = chunks.toList.flatten ++ content := by
  fun_induction cutRounds sizes hsizes content chunks with
  | case1 chunks => simp
  | case2 chunks byte rest chunks' content' h ih =>
    have hround := flatten_cutRound sizes (byte :: rest) chunks
    rw [h] at hround
    rw [ih, hround]

theorem flatten_cut (sizes : List Nat) (content : Bytes) :
    (cut sizes content).flatten = content := by
  unfold cut
  split
  · simp [flatten_cutRounds]
  · simp

end ContentAddress.Bytes
