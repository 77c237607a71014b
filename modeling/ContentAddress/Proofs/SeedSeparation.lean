import ContentAddress.Proofs.Draining
import ContentAddress.Proofs.StreamedXxh64
import ContentAddress.Source.ChunkList
import ContentAddress.Source.Playback
import Mathlib

/-!
# Seeds separate the identifiers of short content

Content that does not fill a stripe leaves the lanes alone, so its hash starts from the seed itself.
From there on the hash is added to, multiplied by odd numbers, rotated, and combined by exclusive or
with words of the content or with a shifted copy of itself.  Each of these steps can be undone, so
for fixed content different seeds never meet.
-/

namespace ContentAddress

universe u v

open Source

namespace Xxh64

open Bytes

/-! ## Words -/

/-- An odd factor is invertible modulo a power of two. -/
theorem mul_injective {factor : UInt64} (hodd : Odd factor.toNat) :
    Function.Injective fun word => word * factor := by
  intro word other h
  have hcoprime : Nat.gcd (2 ^ 64) factor.toNat = 1 :=
    Nat.Coprime.pow_left 64 (Nat.coprime_two_left.2 hodd)
  have hproduct : word.toNat * factor.toNat ≡ other.toNat * factor.toNat [MOD 2 ^ 64] := by
    have hnat := congrArg UInt64.toNat h
    rwa [UInt64.toNat_mul, UInt64.toNat_mul] at hnat
  have hword := hproduct.cancel_right_of_coprime hcoprime
  exact UInt64.toNat_inj.1 (hword.eq_of_lt_of_lt word.toNat_lt other.toNat_lt)

theorem high_lt (word : UInt64) {count : Nat} (hcount : count ≤ 64) :
    word.toNat / 2 ^ (64 - count) < 2 ^ count := by
  rw [Nat.div_lt_iff_lt_mul (Nat.two_pow_pos _), ← pow_add, Nat.add_sub_cancel' hcount]
  exact word.toNat_lt

/-- A rotation exchanges the bits at the top with those below them. -/
theorem toNat_rotateLeft (word : UInt64) {amount : UInt64} (hpos : 0 < amount.toNat)
    (hlt : amount.toNat < 64) :
    (rotateLeft word amount).toNat =
      word.toNat % 2 ^ (64 - amount.toNat) * 2 ^ amount.toNat +
        word.toNat / 2 ^ (64 - amount.toNat) := by
  have hrest : (64 - amount).toNat = 64 - amount.toNat :=
    UInt64.toNat_sub_of_le 64 amount (UInt64.le_iff_toNat_le.2 (Nat.le_of_lt hlt))
  have hsplit : 2 ^ 64 = 2 ^ (64 - amount.toNat) * 2 ^ amount.toNat := by
    rw [← pow_add, Nat.sub_add_cancel (Nat.le_of_lt hlt)]
  have hhigh := high_lt word (Nat.le_of_lt hlt)
  rw [rotateLeft, UInt64.toNat_or, UInt64.toNat_shiftLeft, UInt64.toNat_shiftRight, hrest,
    Nat.mod_eq_of_lt hlt, Nat.mod_eq_of_lt (by omega : 64 - amount.toNat < 64),
    Nat.shiftLeft_eq, Nat.shiftRight_eq_div_pow, hsplit, Nat.mul_mod_mul_right,
    ← Nat.shiftLeft_eq, Nat.shiftLeft_add_eq_or_of_lt hhigh]

/-- The top bits are the remainder of the rotated word, and the bits below them its quotient. -/
theorem toNat_of_rotateLeft (word : UInt64) {amount : UInt64} (hpos : 0 < amount.toNat)
    (hlt : amount.toNat < 64) :
    2 ^ (64 - amount.toNat) * ((rotateLeft word amount).toNat % 2 ^ amount.toNat) +
      (rotateLeft word amount).toNat / 2 ^ amount.toNat = word.toNat := by
  have hhigh := high_lt word (Nat.le_of_lt hlt)
  rw [toNat_rotateLeft word hpos hlt, Nat.mul_add_mod_self_right, Nat.mod_eq_of_lt hhigh,
    Nat.mul_comm (_ % _), Nat.mul_add_div (Nat.two_pow_pos _), Nat.div_eq_of_lt hhigh,
    Nat.add_zero, Nat.div_add_mod]

theorem rotateLeft_injective {amount : UInt64} (hpos : 0 < amount.toNat)
    (hlt : amount.toNat < 64) : Function.Injective fun word => rotateLeft word amount := by
  intro word other h
  dsimp only at h
  apply UInt64.toNat_inj.1
  rw [← toNat_of_rotateLeft word hpos hlt, ← toNat_of_rotateLeft other hpos hlt, h]

/-- A word that equals its own shift to the right is zero. -/
theorem eq_zero_of_shiftRight_eq {word amount : UInt64} (hamount : amount.toNat % 64 ≠ 0)
    (h : word >>> amount = word) : word = 0 := by
  have hdiv : word.toNat / 2 ^ (amount.toNat % 64) = word.toNat := by
    have hnat := congrArg UInt64.toNat h
    rwa [UInt64.toNat_shiftRight, Nat.shiftRight_eq_div_pow] at hnat
  by_contra hne
  have hpos : 0 < word.toNat := Nat.pos_of_ne_zero fun hzero => hne (UInt64.toNat_inj.1 hzero)
  exact (Nat.div_lt_self hpos (Nat.one_lt_two_pow hamount)).ne hdiv

/-- Two words with one result differ by a word that equals its own shift, so not at all. -/
theorem xorShift_injective {amount : UInt64} (hamount : amount.toNat % 64 ≠ 0) :
    Function.Injective fun word : UInt64 => word ^^^ word >>> amount := by
  intro word other h
  apply UInt64.xor_eq_zero_iff.1
  apply eq_zero_of_shiftRight_eq hamount
  rw [UInt64.shiftRight_xor, ← UInt64.xor_eq_zero_iff]
  calc (word >>> amount ^^^ other >>> amount) ^^^ (word ^^^ other)
      = (word ^^^ word >>> amount) ^^^ (other ^^^ other >>> amount) := by ac_rfl
    _ = 0 := UInt64.xor_eq_zero_iff.2 h

/-! ## Folds -/

section Folds

variable {α : Type u} {β : Type v}

theorem foldl_injective {absorb : α → β → α}
    (h : ∀ item, Function.Injective fun acc => absorb acc item) (items : List β) :
    Function.Injective fun acc => items.foldl absorb acc := by
  induction items with
  | nil => exact Function.injective_id
  | cons item items ih => exact ih.comp (h item)

theorem foldPieces_injective {absorb : α → Bytes → α}
    (h : ∀ piece, Function.Injective fun acc => absorb acc piece) (size count : Nat)
    (content : Bytes) :
    Function.Injective fun acc => (foldPieces absorb size count acc content).1 := by
  induction count generalizing content with
  | zero => exact Function.injective_id
  | succ count ih => exact (ih (content.drop size)).comp (h (content.take size))

end Folds

/-! ## Mixing -/

/-- What the three ways of mixing in a piece have in common. -/
theorem mix_injective {amount factor : UInt64} (hpos : 0 < amount.toNat) (hlt : amount.toNat < 64)
    (hodd : Odd factor.toNat) (word : UInt64) :
    Function.Injective fun hash => rotateLeft (hash ^^^ word) amount * factor := by
  intro hash other h
  have hrotated := mul_injective hodd h
  exact (UInt64.xor_left_inj word).1 (rotateLeft_injective hpos hlt hrotated)

theorem mixWord_injective (word : Bytes) : Function.Injective fun hash => mixWord hash word := by
  intro hash other h
  have hmixed := (UInt64.add_left_inj prime4).1 h
  exact mix_injective (by decide) (by decide) (by decide) _ hmixed

theorem mixHalf_injective (half : Bytes) : Function.Injective fun hash => mixHalf hash half := by
  intro hash other h
  have hmixed := (UInt64.add_left_inj prime3).1 h
  exact mix_injective (by decide) (by decide) (by decide) _ hmixed

theorem mixByte_injective (byte : UInt8) : Function.Injective fun hash => mixByte hash byte :=
  mix_injective (by decide) (by decide) (by decide) _

/-- Mixing in a tail is injective if mixing in each of its pieces is. -/
theorem mixTail_injective (tail : Bytes) : Function.Injective fun hash => mixTail hash tail := by
  intro hash other h
  simp only [mixTail, snd_foldPieces] at h
  have hhalf := foldl_injective mixByte_injective _ h
  have hword := foldPieces_injective mixHalf_injective _ _ _ hhalf
  exact foldPieces_injective mixWord_injective _ _ _ hword

theorem avalanche_injective : Function.Injective avalanche := by
  intro hash other h
  have hsecond := mul_injective (by decide) (xorShift_injective (by decide) h)
  have hfirst := mul_injective (by decide) (xorShift_injective (by decide) hsecond)
  exact xorShift_injective (by decide) hfirst

theorem finish_injective (total : UInt64) (tail : Bytes) :
    Function.Injective fun hash => finish hash total tail := by
  intro hash other h
  exact (UInt64.add_left_inj total).1 (mixTail_injective tail (avalanche_injective h))

theorem hash_injective {content : Bytes} (hshort : content.length < stripeSize) :
    Function.Injective fun seed => hash seed content := by
  intro seed other h
  simp only [Stream.hash_eq_finish, foldWhole_of_lt Lanes.absorb hshort, if_pos hshort] at h
  exact (UInt64.add_left_inj prime5).1 (finish_injective _ content h)

end Xxh64

/-! ## Identifiers -/

theorem BlobId.seed_eq_of_ofContent_eq {config other : Config} (halgorithm : config.algorithm = .xxh64)
    (halgorithm' : other.algorithm = .xxh64) {content : Bytes} (hshort : content.length < 32)
    (h : ofContent config content = ofContent other content) : config.seed = other.seed := by
  simp only [ofContent, halgorithm, halgorithm'] at h
  exact Xxh64.hash_injective hshort (BlobId.mk.inj h)

/-- The identifier of content that does not fill a stripe is an injective function of the seed.
Clients with different seeds give it different identifiers, whether each of them is given one byte
string or a source that yields the content in chunks of its own. -/
theorem seeds_separate {content : Bytes} (hshort : content.length < 32) :
    (∀ config : Config, config.algorithm = .xxh64 →
      Function.Injective fun seed => BlobId.ofContent (config.set (.seed seed)) content) ∧
    ∀ client other : Client, client.config.algorithm = .xxh64 → other.config.algorithm = .xxh64 →
      client.config.seed ≠ other.config.seed →
      client.putBytes content ≠ other.putBytes content ∧
      ∀ (σ : Type u) (τ : Type v) [Source σ] [Source τ] (source after : σ) (source' after' : τ)
        (chunks chunks' : List Bytes) (pool pool' : Pool) (ends : Ends source)
        (ends' : Ends source'), pool.Reachable → pool'.Reachable →
        Drains source chunks after → Drains source' chunks' after' →
        chunks.flatten = content → chunks'.flatten = content →
          (client.put pool source ends).id ≠ (other.put pool' source' ends').id := by
  constructor
  · intro config halgorithm seed other h
    exact @BlobId.seed_eq_of_ofContent_eq (config.set (.seed seed)) (config.set (.seed other))
      halgorithm halgorithm content hshort h
  · intro client other halgorithm halgorithm' hseed
    have hne : client.putBytes content ≠ other.putBytes content := fun h =>
      hseed (BlobId.seed_eq_of_ofContent_eq halgorithm halgorithm' hshort h)
    refine ⟨hne, ?_⟩
    intro σ τ _ _ source after source' after' chunks chunks' pool pool' ends ends' hpool hpool' run
      run' hchunks hchunks'
    rw [run.id_put client hpool ends, run'.id_put other hpool' ends', hchunks, hchunks']
    exact hne

/-- The longest tail has three words, a half word and three bytes.  It is put as two chunks under
either seed, cut near one end and near the other. -/
theorem seeds_separate_longest :
    let content : Bytes := List.replicate 31 255
    let other : Client := ⟨{ seed := 1, readSize := 1 }, by decide⟩
    let list := ChunkList.ofList [List.replicate 30 255, [255]]
    let played : Playback := { left := [[255], List.replicate 30 255] }
    content.length < 32 ∧ Client.default.putBytes content ≠ other.putBytes content ∧
      (Client.default.put .empty list (Finite.ends _)).id ≠
        (other.put .empty played (Finite.ends _)).id := by
  intro content other list played
  have hshort : content.length < 32 := by decide
  have hlist : Drains list [List.replicate 30 255, [255]] _ :=
    .more trivial (by decide) (.more trivial (by decide) (.stop trivial rfl))
  have hplayed : Drains played [[255], List.replicate 30 255] _ :=
    .more trivial (by decide) (.more trivial (by decide) (.stop trivial rfl))
  obtain ⟨-, hclients⟩ := seeds_separate.{0, 0} hshort
  obtain ⟨hbytes, hput⟩ := hclients Client.default other rfl rfl (by decide)
  exact ⟨hshort, hbytes, hput ChunkList Playback list _ played _ _ _ .empty .empty
    (Finite.ends _) (Finite.ends _) Pool.reachable_empty Pool.reachable_empty hlist hplayed rfl rfl⟩

end ContentAddress
