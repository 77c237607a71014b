import ContentAddress.Proofs.HasherRuns
import ContentAddress.Proofs.StreamedBlake3
import ContentAddress.Proofs.StreamedXxh64

/-!
# Identifiers of content that arrives in pieces

A hasher gives the identifier of all it was fed since its last reset, however the content was cut
and whichever hashers it was copied from or into.
-/

namespace ContentAddress

namespace Hasher

/-- An XXH64 hasher starts from this seed and has seen this content since. -/
inductive SawXxh64 (seed : UInt64) : Hasher → Bytes → Prop
  | intro {stream : Xxh64.Stream} {content : Bytes} (h : stream.Tracks seed content) :
      SawXxh64 seed (.xxh64 seed stream) content

theorem sawXxh64_start {config : Config} (h : config.algorithm = .xxh64) :
    SawXxh64 config.seed (start config) [] := by
  rw [start, h]
  exact .intro (Xxh64.Stream.tracks_start config.seed)

/-- A reset goes back to the seed that the hasher keeps beside its stream. -/
theorem kept_sawXxh64 (seed : UInt64) : Kept (SawXxh64 seed) := by
  constructor
  · intro hasher content h data
    cases h with
    | intro h => exact .intro (h.update data)
  · intro hasher content h
    cases h with
    | intro h => exact .intro (Xxh64.Stream.tracks_reset h.sound seed)

theorem SawXxh64.id_eq {config : Config} (halgorithm : config.algorithm = .xxh64)
    {hasher : Hasher} {content : Bytes} (h : SawXxh64 config.seed hasher content)
    (hlen : content.length < 2 ^ 64) : hasher.id = BlobId.ofContent config content := by
  cases h with
  | intro h =>
      rw [id, BlobId.ofContent, halgorithm, h.digest_eq hlen]

/-- A BLAKE3 hasher has seen this content.  It knows no seed. -/
inductive SawBlake3 : Hasher → Bytes → Prop
  | intro {stream : Blake3.Stream} {content : Bytes} (h : stream.Tracks content) :
      SawBlake3 (.blake3 stream) content

theorem sawBlake3_start {config : Config} (h : config.algorithm = .blake3) :
    SawBlake3 (start config) [] := by
  rw [start, h]
  exact .intro Blake3.Stream.tracks_start

theorem kept_sawBlake3 : Kept SawBlake3 := by
  constructor
  · intro hasher content h data
    cases h with
    | intro h => exact .intro (h.update data)
  · intro hasher content h
    cases h with
    | intro h => exact .intro Blake3.Stream.tracks_start

theorem SawBlake3.id_eq {config : Config} (halgorithm : config.algorithm = .blake3)
    {hasher : Hasher} {content : Bytes} (h : SawBlake3 hasher content) :
    hasher.id = BlobId.ofContent config content := by
  cases h with
  | intro h => rw [id, BlobId.ofContent, halgorithm, h.digest_eq]

end Hasher

/-! ## Values of bytes -/

theorem Bytes.toNat_littleEndian64_cons {byte : UInt8} {rest : Bytes}
    (h : rest.littleEndian64.toNat < 2 ^ 56) :
    (Bytes.littleEndian64 (byte :: rest)).toNat = rest.littleEndian64.toNat * 256 + byte.toNat := by
  have hshift : rest.littleEndian64.toNat <<< 8 % 2 ^ 64 = rest.littleEndian64.toNat <<< 8 := by
    rw [Nat.shiftLeft_eq]
    omega
  have hbyte : byte.toNat < 2 ^ 8 := byte.toNat_lt
  rw [littleEndian64, UInt64.toNat_or, UInt64.toNat_shiftLeft, UInt8.toNat_toUInt64]
  change rest.littleEndian64.toNat <<< 8 % 2 ^ 64 ||| byte.toNat = _
  rw [hshift, ← Nat.shiftLeft_add_eq_or_of_lt hbyte, Nat.shiftLeft_eq]

/-- A word read from at most eight bytes, the last of them being its most significant digit. -/
theorem Bytes.toNat_littleEndian64 {bytes : Bytes} (h : bytes.length ≤ 8) :
    bytes.littleEndian64.toNat = Positional.value 256 (bytes.reverse.map UInt8.toNat) ∧
      bytes.littleEndian64.toNat < 256 ^ bytes.length := by
  induction bytes with
  | nil => exact ⟨rfl, Nat.one_pos⟩
  | cons byte rest ih =>
      rw [List.length_cons] at h ⊢
      obtain ⟨hvalue, hbound⟩ := ih (by omega)
      have hbyte : byte.toNat < 2 ^ 8 := byte.toNat_lt
      have hsmall : (littleEndian64 rest).toNat < 2 ^ 56 := by
        refine Nat.lt_of_lt_of_le hbound (Nat.le_trans ?_ (Nat.le_of_eq (by decide : 256 ^ 7 = 2 ^ 56)))
        exact Nat.pow_le_pow_right (by decide) (by omega)
      rw [toNat_littleEndian64_cons hsmall]
      constructor
      · rw [List.reverse_cons, List.map_append, List.map_singleton,
          Positional.value_append_singleton, hvalue]
      · rw [Nat.pow_succ]
        omega

theorem Blake3.length_digest (content : Bytes) : (digest content).length = 32 := by
  simp [digest, Node.digest, List.length_flatMap, Bytes.ofWord32]

namespace HasherBank

/-- Every run of XXH64 hashers goes through, and after it each of them gives the identifier that
all it was fed since its last reset has at once.  A part of a run is a run, so this holds after
every step. -/
theorem run_finalize_xxh64 {config : Config} (halgorithm : config.algorithm = .xxh64)
    {steps : List HasherStep} (hrange : HasherStep.InRange 1 steps) :
    ∃ bank, (start config).run steps = some bank ∧
      bank.hashers.length = (HasherStep.fed steps).length ∧
      ∀ (index : Nat) (content : Bytes), (HasherStep.fed steps)[index]? = some content →
        content.length < 2 ^ 64 →
          bank.perform index .finalize = some (bank, BlobId.ofContent config content) := by
  obtain ⟨bank, hrun, hsaw⟩ :=
    exists_run_start (Hasher.kept_sawXxh64 config.seed) (Hasher.sawXxh64_start halgorithm) hrange
  refine ⟨bank, hrun, hsaw.length_eq, ?_⟩
  intro index content hcontent hlen
  obtain ⟨hlt, -⟩ := List.getElem?_eq_some_iff.1 hcontent
  obtain ⟨hasher, content', hhasher, hcontent', h⟩ := getElem?_of_forall₂ hsaw hlt
  obtain rfl : content' = content := Option.some.inj (hcontent'.symm.trans hcontent)
  rw [perform_of_getElem? hhasher, h.id_eq halgorithm hlen]

/-- A stripe begun by 31 bytes is completed by the next update; the copy made in between is reset
and fed by itself. -/
theorem run_finalize_xxh64_copied :
    ∃ bank, (start { seed := 7 }).run
        [⟨0, .update (List.replicate 31 1)⟩, ⟨0, .clone⟩, ⟨0, .update [2, 3]⟩, ⟨1, .reset⟩,
          ⟨1, .update [4]⟩] = some bank ∧
      bank.perform 0 .finalize =
        some (bank, BlobId.ofContent { seed := 7 } (List.replicate 31 1 ++ [2, 3])) ∧
      bank.perform 1 .finalize = some (bank, BlobId.ofContent { seed := 7 } [4]) := by
  obtain ⟨bank, hrun, -, hids⟩ := @run_finalize_xxh64 { seed := 7 } rfl
    [⟨0, .update (List.replicate 31 1)⟩, ⟨0, .clone⟩, ⟨0, .update [2, 3]⟩, ⟨1, .reset⟩,
      ⟨1, .update [4]⟩] (by simp [HasherStep.InRange, HasherStep.countAfter])
  exact ⟨bank, hrun, hids 0 _ rfl (by decide), hids 1 _ rfl (by decide)⟩

/-- Every run of BLAKE3 hashers goes through, and after it each of them gives the identifier that
all it was fed since its last reset has at once, also under another seed.  That is the number whose
little-endian digits are the first eight bytes of the digest. -/
theorem run_finalize_blake3 {config other : Config} (halgorithm : config.algorithm = .blake3)
    (hother : other.algorithm = .blake3) {steps : List HasherStep}
    (hrange : HasherStep.InRange 1 steps) :
    ∃ bank, (start config).run steps = some bank ∧
      bank.hashers.length = (HasherStep.fed steps).length ∧
      ∀ (index : Nat) (content : Bytes), (HasherStep.fed steps)[index]? = some content →
        bank.perform index .finalize = some (bank, BlobId.ofContent other content) ∧
          (Blake3.digest content).length = 32 ∧
          (BlobId.ofContent other content).value.toNat =
            Positional.value 256 (((Blake3.digest content).take 8).reverse.map UInt8.toNat) := by
  obtain ⟨bank, hrun, hsaw⟩ :=
    exists_run_start Hasher.kept_sawBlake3 (Hasher.sawBlake3_start halgorithm) hrange
  refine ⟨bank, hrun, hsaw.length_eq, ?_⟩
  intro index content hcontent
  obtain ⟨hlt, -⟩ := List.getElem?_eq_some_iff.1 hcontent
  obtain ⟨hasher, content', hhasher, hcontent', h⟩ := getElem?_of_forall₂ hsaw hlt
  obtain rfl : content' = content := Option.some.inj (hcontent'.symm.trans hcontent)
  refine ⟨?_, Blake3.length_digest content', ?_⟩
  · rw [perform_of_getElem? hhasher, h.id_eq hother]
  · rw [BlobId.ofContent, hother]
    exact (Bytes.toNat_littleEndian64 (List.length_take_le 8 _)).1

/-- A chunk is filled to its last byte by one hasher and gone beyond by its copy. -/
theorem run_finalize_blake3_copied :
    ∃ bank, (start { algorithm := .blake3, seed := 5 }).run
        [⟨0, .update (List.replicate 1000 1)⟩, ⟨0, .update (List.replicate 24 2)⟩, ⟨0, .clone⟩,
          ⟨1, .update [3]⟩] = some bank ∧
      bank.perform 0 .finalize = some (bank, BlobId.ofContent { algorithm := .blake3, seed := 6 }
        (List.replicate 1000 1 ++ List.replicate 24 2)) ∧
      bank.perform 1 .finalize = some (bank, BlobId.ofContent { algorithm := .blake3, seed := 6 }
        (List.replicate 1000 1 ++ List.replicate 24 2 ++ [3])) := by
  obtain ⟨bank, hrun, -, hids⟩ :=
    @run_finalize_blake3 { algorithm := .blake3, seed := 5 } { algorithm := .blake3, seed := 6 } rfl
      rfl [⟨0, .update (List.replicate 1000 1)⟩, ⟨0, .update (List.replicate 24 2)⟩, ⟨0, .clone⟩,
        ⟨1, .update [3]⟩] (by simp [HasherStep.InRange, HasherStep.countAfter])
  exact ⟨bank, hrun, (hids 0 _ rfl).1, (hids 1 _ rfl).1⟩

end HasherBank

end ContentAddress
