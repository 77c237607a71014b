import ContentAddress.Proofs.ScriptedReads

/-!
# What reading to the end decides

An error does not stop a drain: the source turns it into an ordinary end and keeps it, the put
identifies what came before, and only afterwards the error is asked for.  Here the three are put
together.  The outcome is decided by the first answer of the script that ends the content, and is
the same for all read sizes.
-/

namespace ContentAddress

universe u

open Source

theorem BlobId.ofContent_congr {config other : Config}
    (halgorithm : config.algorithm = other.algorithm) (hseed : config.seed = other.seed)
    (content : Bytes) : ofContent config content = ofContent other content := by
  unfold ofContent
  rw [halgorithm, hseed]

theorem ReadSource.clampReadSize_pos (requested : Nat) : 0 < clampReadSize requested := by
  unfold clampReadSize
  omega

/-- The result of reading to the end, as the drain of the opened source leaves it. -/
theorem Source.Drains.putReader {ρ : Type u} [Reader ρ] {client : Client}
    {pool : Pool} (hpool : pool.Reachable) {reader : ρ} {after : ReadSource ρ}
    {chunks : List Bytes} (run : Drains (client.openReader pool reader).1 chunks after)
    (ends : Ends (client.openReader pool reader).1) :
    (client.putReader pool reader ends).result =
        after.error.elim (.ok (BlobId.ofContent client.config chunks.flatten))
          (fun error => .error (.io error)) ∧
      (client.putReader pool reader ends).reader = after.reader := by
  have hopened : (client.openReader pool reader).2.Reachable := hpool.take
  have hsource := run.source_put client (client.openReader pool reader).2 ends
  have hid := run.id_put client hopened ends
  constructor
  · simp only [Client.putReader, ReadSource.takeError, hsource, hid]
    cases after.error <;> rfl
  · simp only [Client.putReader, ReadSource.takeError, ReadSource.close, hsource]

theorem putReader_script (client : Client) {pool : Pool} (hpool : pool.Reachable)
    (script : Script) (hplain : Script.Plain script.steps) :
    (client.putReader pool script (Finite.ends _)).result =
        (Script.failure? script.steps).elim
          (.ok (BlobId.ofContent client.config (Script.passed script.steps)))
          (fun error => .error (.io error)) ∧
      (client.putReader pool script (Finite.ends _)).reader.steps =
        (Script.ending script.steps).tail := by
  obtain ⟨chunks, after, run⟩ := (Finite.ends (client.openReader pool script).1).drains
  obtain ⟨hflatten, hsteps, herror⟩ := ReadSource.drains_script run rfl rfl
    (ReadSource.clampReadSize_pos client.config.readSize) hplain
  obtain ⟨hresult, hreader⟩ := run.putReader hpool (Finite.ends _)
  constructor
  · rw [hresult, herror, hflatten]
    rfl
  · rw [hreader, hsteps]
    rfl

/-- Reading a script to the end fails with the error that ends its content, if an error does, and
otherwise identifies all the bytes before the end.  Either way the answers up to the one that ends
the content are used up and no others.  Only the algorithm and the seed of the configuration
matter. -/
theorem putReader_decides (client : Client) {pool : Pool} (hpool : pool.Reachable)
    (script : Script) (hplain : Script.Plain script.steps) :
    (client.putReader pool script (Finite.ends _)).result =
        (Script.failure? script.steps).elim
          (.ok (BlobId.ofContent client.config (Script.passed script.steps)))
          (fun error => .error (.io error)) ∧
      (client.putReader pool script (Finite.ends _)).reader.steps =
        (Script.ending script.steps).tail ∧
      ∀ (other : Client) (otherPool : Pool), otherPool.Reachable →
        other.config.algorithm = client.config.algorithm →
        other.config.seed = client.config.seed →
        (other.putReader otherPool script (Finite.ends _)).result =
            (client.putReader pool script (Finite.ends _)).result ∧
          (other.putReader otherPool script (Finite.ends _)).reader.steps =
            (client.putReader pool script (Finite.ends _)).reader.steps := by
  obtain ⟨hresult, hsteps⟩ := putReader_script client hpool script hplain
  refine ⟨hresult, hsteps, ?_⟩
  intro other otherPool hother halgorithm hseed
  obtain ⟨hresult', hsteps'⟩ := putReader_script other hother script hplain
  constructor
  · rw [hresult', hresult, BlobId.ofContent_congr halgorithm hseed]
  · rw [hsteps', hsteps]

/-- An interruption that carries a text is passed over, and the broken pipe behind the second block
is not: the bytes read before it are not identified, and those behind it are not read. -/
theorem putReader_decides_broken :
    let script : Script :=
      { steps := [.data [104, 105], .fail { kind := .interrupted, message? := some "retry" },
          .data [33], .fail { kind := .brokenPipe, message? := some "gone" }, .data [122]] }
    Pool.empty.Reachable ∧ Script.Plain script.steps ∧
      (Client.default.putReader .empty script (Finite.ends _)).result =
        .error (.io { kind := .brokenPipe, message? := some "gone" }) ∧
      (Client.default.putReader .empty script (Finite.ends _)).reader.steps = [.data [122]] := by
  intro script
  have hplain : Script.Plain script.steps := by
    intro count hmem
    simp [script] at hmem
  obtain ⟨hresult, hsteps, -⟩ :=
    putReader_decides Client.default Pool.reachable_empty script hplain
  exact ⟨Pool.reachable_empty, hplain, hresult, hsteps⟩

end ContentAddress
