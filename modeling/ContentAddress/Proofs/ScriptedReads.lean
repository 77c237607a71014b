import ContentAddress.Proofs.Draining

/-!
# Draining a scripted reader

A script is passed over up to its first answer that ends the content: an error that is no
interruption, a read of no bytes, or the end of the script.  One request uses up any number of
interruptions and at most one piece of data, cut to the size of the buffer, so a single request
never goes beyond that answer.  By induction over the pulls a drain stops exactly there, whatever
the read size.
-/

namespace ContentAddress

universe u

open Source

/-! ## One pull from a source over a reader -/

namespace ReadSource

variable {ρ : Type u} [Reader ρ] (source : ReadSource ρ)
  (settles : Reader.Settles source.reader source.asking)

def reply : Reply ρ := Reader.readThrough source.reader source.asking settles

/-- The source after that answer, before it is looked at. -/
def answered : ReadSource ρ :=
  { source with
    reader := (source.reply settles).reader
    buffer := ⟨(source.reply settles).buffer, (source.buffer.resize source.readSize).capacity⟩ }

variable {source} (answers : Source.Answers source) (hfinished : source.finished = false)

include hfinished

/-- A pull from a source that has not ended looks at the answer of its reader. -/
theorem pull_eq :
    Source.pull source answers =
      match (source.reply settles).outcome with
      | .ok 0 => { chunk := [], source := { source.answered settles with finished := true } }
      | .ok (count + 1) =>
          { chunk := (source.reply settles).buffer.data.toList.take (count + 1)
            source :=
              { source.answered settles with
                counted := source.counted + UInt64.ofNat (count + 1) } }
      | .error error =>
          { chunk := []
            source := { source.answered settles with error := some error, finished := true }
            events := [.readerStopped error source.bytesRead] } := by
  obtain ⟨reader, buffer, readSize, counted, error, finished⟩ := source
  subst hfinished
  simp only [Source.pull, pull, answered, reply, asking, bytesRead]
  split
  · next hread => rw [hread]
  · next hread => rw [hread, front_eq_take]
  · next hread => rw [hread]

variable {settles}

theorem pull_of_zero (houtcome : (source.reply settles).outcome = .ok 0) :
    Source.pull source answers =
      { chunk := [], source := { source.answered settles with finished := true } } := by
  rw [pull_eq settles answers hfinished, houtcome]

theorem pull_of_count {count : Nat} (hcount : count ≠ 0)
    (houtcome : (source.reply settles).outcome = .ok count) :
    Source.pull source answers =
      { chunk := (source.reply settles).buffer.data.toList.take count
        source :=
          { source.answered settles with counted := source.counted + UInt64.ofNat count } } := by
  obtain ⟨count, rfl⟩ := Nat.exists_eq_succ_of_ne_zero hcount
  rw [pull_eq settles answers hfinished, houtcome]

theorem pull_of_error {error : IoError}
    (houtcome : (source.reply settles).outcome = .error error) :
    Source.pull source answers =
      { chunk := []
        source := { source.answered settles with error := some error, finished := true }
        events := [.readerStopped error source.bytesRead] } := by
  rw [pull_eq settles answers hfinished, houtcome]

end ReadSource

/-! ## Answers of a script -/

namespace ScriptStep

def passes : ScriptStep → Bool
  | data bytes => !bytes.isEmpty
  | interrupt => true
  | fail error => error.kind = .interrupted
  | zero => false
  | stale _ => false

def content : ScriptStep → Bytes
  | data bytes => bytes
  | _ => []

end ScriptStep

namespace Script

def passed (steps : List ScriptStep) : Bytes :=
  (steps.takeWhile ScriptStep.passes).flatMap ScriptStep.content

/-- The answer that ends the content, if the script has one, and those behind it. -/
def ending (steps : List ScriptStep) : List ScriptStep := steps.dropWhile ScriptStep.passes

def failure? (steps : List ScriptStep) : Option IoError :=
  match ending steps with
  | .fail error :: _ => some error
  | _ => none

/-- Every answer writes what it reports. -/
def Plain (steps : List ScriptStep) : Prop := ∀ count, ScriptStep.stale count ∉ steps

variable {step : ScriptStep} {steps : List ScriptStep}

theorem Plain.tail (h : Plain (step :: steps)) : Plain steps :=
  fun count hmem => h count (List.mem_cons_of_mem _ hmem)

theorem passed_cons (h : step.passes = true) :
    passed (step :: steps) = step.content ++ passed steps := by
  rw [passed, List.takeWhile_cons_of_pos h, List.flatMap_cons, passed]

theorem ending_cons (h : step.passes = true) : ending (step :: steps) = ending steps :=
  List.dropWhile_cons_of_pos h

theorem passed_cons_of_not (h : step.passes = false) : passed (step :: steps) = [] := by
  rw [passed, List.takeWhile_cons_of_neg (by simp [h]), List.flatMap_nil]

theorem ending_cons_of_not (h : step.passes = false) : ending (step :: steps) = step :: steps :=
  List.dropWhile_cons_of_neg (by simp [h])

/-- What a request can come to: a piece of the content that is not empty, the end of the content
without an error, or the error that ends it. -/
inductive Answer (steps : List ScriptStep) (reply : Reply Script) : Prop
  | piece (piece : Bytes) (hpiece : piece ≠ []) (houtcome : reply.outcome = .ok piece.length)
      (hbuffer : reply.buffer.data.toList.take piece.length = piece)
      (hpassed : passed steps = piece ++ passed reply.reader.steps)
      (hending : ending steps = ending reply.reader.steps) (hplain : Plain reply.reader.steps)
  | stop (houtcome : reply.outcome = .ok 0) (hpassed : passed steps = [])
      (hending : (ending steps).tail = reply.reader.steps) (hfailure : failure? steps = none)
  | failure (error : IoError) (houtcome : reply.outcome = .error error)
      (hpassed : passed steps = []) (hending : ending steps = .fail error :: reply.reader.steps)

theorem Answer.cons {reply : Reply Script} (answer : Answer steps reply)
    (hpasses : step.passes = true) (hcontent : step.content = []) :
    Answer (step :: steps) reply := by
  have hpassed : passed (step :: steps) = passed steps := by
    rw [passed_cons hpasses, hcontent, List.nil_append]
  have hending : ending (step :: steps) = ending steps := ending_cons hpasses
  cases answer with
  | piece piece hpiece houtcome hbuffer hp he hplain =>
      exact .piece piece hpiece houtcome hbuffer (hpassed.trans hp) (hending.trans he) hplain
  | stop houtcome hp he hfailure =>
      refine .stop houtcome (hpassed.trans hp) (by rw [hending, he]) ?_
      rwa [failure?, hending]
  | failure error houtcome hp he =>
      exact .failure error houtcome (hpassed.trans hp) (hending.trans he)

/-- A block of data is cut to the size of the buffer, and what does not fit stays in front. -/
theorem answer_data {bytes : Bytes} {buffer : ByteArray} (hsize : 0 < buffer.size)
    (hbytes : bytes ≠ []) (hplain : Plain steps) (requests : List Nat) :
    Answer (.data bytes :: steps) (Reader.read ⟨.data bytes :: steps, requests⟩ buffer) := by
  have hpasses : (ScriptStep.data bytes).passes = true := by simp [ScriptStep.passes, hbytes]
  have hpos := List.length_pos_iff.2 hbytes
  refine .piece (bytes.take buffer.size) ?_ rfl ?_ ?_ ?_ ?_
  · apply List.ne_nil_of_length_pos
    rw [List.length_take]
    omega
  · change (fillFront buffer (bytes.take buffer.size)).data.toList.take _ = _
    rw [toList_fillFront, List.take_left']
    rfl
  all_goals
    simp only [Reader.read, read]
    split
  · next hrest =>
    have hfull : bytes.take buffer.size = bytes := by
      rw [List.isEmpty_iff] at hrest
      simpa [hrest] using List.take_append_drop buffer.size bytes
    rw [passed_cons hpasses, hfull]
    rfl
  · next hrest =>
    have hpasses' : (ScriptStep.data (bytes.drop buffer.size)).passes = true := by
      simpa [ScriptStep.passes] using hrest
    rw [passed_cons hpasses, passed_cons hpasses', ScriptStep.content, ScriptStep.content,
      ← List.append_assoc, List.take_append_drop]
  · exact ending_cons hpasses
  · next hrest =>
    have hpasses' : (ScriptStep.data (bytes.drop buffer.size)).passes = true := by
      simpa [ScriptStep.passes] using hrest
    exact (ending_cons hpasses).trans (ending_cons hpasses').symm
  · exact hplain
  · intro count hmem
    rcases List.mem_cons.1 hmem with h | h
    · cases h
    · exact hplain count h

theorem answer_readThrough {script : Script} {buffer : ByteArray} (hsize : 0 < buffer.size)
    (hplain : Plain script.steps) (settles : Reader.Settles script buffer) :
    Answer script.steps (Reader.readThrough script buffer settles) := by
  -- An interruption changes the script and keeps the size of the buffer.
  revert hsize hplain
  refine Reader.readThrough_induction
    (motive := fun script buffer reply => 0 < buffer.size → Plain script.steps →
      Answer script.steps reply) ?_ ?_ script buffer settles
  · intro script buffer hint hsize hplain
    obtain ⟨steps, requests⟩ := script
    cases steps with
    | nil => exact .stop rfl rfl rfl rfl
    | cons step steps =>
        cases step with
        | data bytes =>
            by_cases hbytes : bytes = []
            · subst hbytes
              have hnot : (ScriptStep.data []).passes = false := rfl
              refine .stop ?_ (passed_cons_of_not hnot) ?_ ?_
              · simp [Reader.read, read]
              · rw [ending_cons_of_not hnot]
                simp [Reader.read, read]
              · rw [failure?, ending_cons_of_not hnot]
            · exact answer_data hsize hbytes hplain.tail requests
        | interrupt => exact absurd ⟨{ kind := .interrupted }, rfl, rfl⟩ hint
        | fail error =>
            have hnot : (ScriptStep.fail error).passes = false := by
              simp only [ScriptStep.passes, decide_eq_false_iff_not]
              exact fun hkind => hint ⟨error, rfl, hkind⟩
            exact .failure error rfl (passed_cons_of_not hnot) (ending_cons_of_not hnot)
        | zero => exact .stop rfl rfl rfl rfl
        | stale count => exact absurd (by simp) (hplain count)
  · intro script buffer reply hint ih hsize hplain
    obtain ⟨steps, requests⟩ := script
    obtain ⟨error, houtcome, hkind⟩ := hint
    cases steps with
    | nil => simp [Reader.read, read] at houtcome
    | cons step steps =>
        cases step with
        | interrupt => exact (ih hsize hplain.tail).cons rfl rfl
        | fail error' =>
            have herror : error' = error := Except.error.inj houtcome
            have hpasses : (ScriptStep.fail error').passes = true := by
              simp [ScriptStep.passes, herror, hkind]
            exact (ih hsize hplain.tail).cons hpasses rfl
        | data bytes => simp [Reader.read, read] at houtcome
        | zero => simp [Reader.read, read] at houtcome
        | stale count => simp [Reader.read, read] at houtcome

end Script

/-! ## The drain -/

namespace ReadSource

/-- Every pull from an unfinished source keeps the bytes that are still to be passed behind those
already pulled, and the answer that ends them in front of the rest of the script. -/
theorem drains_script {source after : ReadSource Script} {chunks : List Bytes}
    (run : Drains source chunks after) (hfinished : source.finished = false)
    (herror : source.error = none) (hsize : 0 < source.readSize)
    (hplain : Script.Plain source.reader.steps) :
    chunks.flatten = Script.passed source.reader.steps ∧
      after.reader.steps = (Script.ending source.reader.steps).tail ∧
      after.error = Script.failure? source.reader.steps := by
  have hanswer : ∀ {source : ReadSource Script}, 0 < source.readSize →
      Script.Plain source.reader.steps → ∀ settles,
      Script.Answer source.reader.steps (source.reply settles) :=
    fun hsize hplain settles =>
      Script.answer_readThrough (by rwa [asking, Buffer.size_resize]) hplain settles
  induction run with
  | @stop source answers hchunk =>
      cases hanswer hsize hplain (answers hfinished).settles with
      | piece piece hpiece houtcome hbuffer =>
          have hcount : piece.length ≠ 0 := mt List.length_eq_zero_iff.1 hpiece
          -- A piece is not empty, so the drain would not have stopped.
          rw [pull_of_count answers hfinished hcount houtcome] at hchunk
          exact absurd (hbuffer.symm.trans hchunk) hpiece
      | stop houtcome hpassed hending hfailure =>
          rw [pull_of_zero answers hfinished houtcome]
          exact ⟨hpassed.symm, hending.symm, herror.trans hfailure.symm⟩
      | failure error houtcome hpassed hending =>
          rw [pull_of_error answers hfinished houtcome, Script.failure?, hending]
          exact ⟨hpassed.symm, rfl, rfl⟩
  | @more source after chunks answers hchunk rest ih =>
      cases hanswer hsize hplain (answers hfinished).settles with
      | piece piece hpiece houtcome hbuffer hpassed hending hplain' =>
          have hcount : piece.length ≠ 0 := mt List.length_eq_zero_iff.1 hpiece
          have hpull := pull_of_count answers hfinished hcount houtcome
          rw [hpull] at ih
          obtain ⟨hflatten, hsteps, hkept⟩ := ih hfinished herror hsize hplain'
          refine ⟨?_, ?_, ?_⟩
          · rw [List.flatten_cons, hflatten, hpull, hpassed]
            exact congrArg (· ++ _) hbuffer
          · rw [hsteps, hending]
            rfl
          · rw [hkept, Script.failure?, Script.failure?, hending]
            rfl
      | stop houtcome =>
          rw [pull_of_zero answers hfinished houtcome] at hchunk
          exact absurd rfl hchunk
      | failure error houtcome =>
          rw [pull_of_error answers hfinished houtcome] at hchunk
          exact absurd rfl hchunk

end ReadSource

end ContentAddress
