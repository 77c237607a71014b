import ContentAddress.Proofs.ChunkingIndependence
import ContentAddress.Proofs.ReadHistory

/-!
# The law of sources over readers

All that a source over a reader does, under any mix of pulls and requests for its error, is said by
the log of its reader.  For a reader that follows a script the number of requests up to the end can
be told beforehand: one for each interruption, as many for each block of data as it takes to read
the block in pieces of the read size, and one that meets the end.
-/

namespace ContentAddress

universe u

open Source

/-! ## Counting the requests to a script -/

/-- Whether a request that comes upon the answer is the last one. -/
def ScriptStep.stops : ScriptStep → Bool
  | data bytes => bytes.isEmpty
  | interrupt => false
  | fail error => error.kind ≠ .interrupted
  | zero => true
  | stale count => count = 0

theorem ScriptStep.stops_of_interrupts {step : ScriptStep} (h : step.interrupts = true) :
    step.stops = false := by
  cases step with
  | interrupt => rfl
  | fail error => simpa [stops, interrupts] using h
  | data bytes => cases h
  | zero => cases h
  | stale count => cases h

namespace Script

/-- The number of requests that it takes to read every block of data on its own. -/
def blockReads (size : Nat) : List ScriptStep → Nat
  | [] => 0
  | .data bytes :: steps => (bytes.length + size - 1) / size + blockReads size steps
  | _ :: steps => blockReads size steps

/-- The number of requests that it takes to come to the end of these answers. -/
def due (size : Nat) (steps : List ScriptStep) : Nat :=
  blockReads size steps + steps.countP ScriptStep.interrupts

theorem due_interrupts {size : Nat} {step : ScriptStep} {steps : List ScriptStep}
    (h : step.interrupts = true) : due size (step :: steps) = due size steps + 1 := by
  rw [due, List.countP_cons_of_pos h, ← Nat.add_assoc]
  cases step <;> first | rfl | cases h

theorem due_data {size : Nat} (bytes : Bytes) (steps : List ScriptStep) :
    due size (.data bytes :: steps) = (bytes.length + size - 1) / size + due size steps := by
  rw [due, List.countP_cons_of_neg (by simp [ScriptStep.interrupts]), blockReads, Nat.add_assoc]
  rfl

theorem due_piece {size : Nat} (hsize : 0 < size) {bytes : Bytes} (hbytes : bytes ≠ [])
    (steps : List ScriptStep) :
    due size (if (bytes.drop size).isEmpty then steps else .data (bytes.drop size) :: steps) + 1 =
      due size (.data bytes :: steps) := by
  have hpos := List.length_pos_iff.2 hbytes
  rw [due_data]
  -- A block that fits into the buffer is read at once; otherwise one piece of it is.
  by_cases hle : bytes.length ≤ size
  · have hone : (bytes.length + size - 1) / size = 1 :=
      Nat.div_eq_of_lt_le (by omega) (by omega)
    rw [List.drop_of_length_le hle, hone]
    exact Nat.add_comm _ _
  · have hrest : (bytes.drop size).isEmpty = false := by
      simp only [List.isEmpty_eq_false_iff, ne_eq, List.drop_eq_nil_iff]
      omega
    have hmore : (bytes.length + size - 1) / size = (bytes.length - 1) / size + 1 := by
      rw [← Nat.add_div_right _ hsize]
      congr 1
      omega
    have hsame : bytes.length - size + size - 1 = bytes.length - 1 := by omega
    rw [hrest, if_neg Bool.false_ne_true, due_data, List.length_drop, hmore, hsame]
    omega

/-- While `before` stands in front of the end, a request uses up at least one of the requests that
are due, or it is the last one. -/
inductive Counted (size : Nat) (before rest : List ScriptStep) (reads : Nat) (reply : Reply Script) :
    Prop
  | forward (count : Nat) (left : List ScriptStep) (houtcome : reply.outcome = .ok (count + 1))
      (hsteps : reply.reader.steps = left ++ rest) (hpasses : ∀ step ∈ left, step.passes = true)
      (hreads : reply.reader.reads + due size left = reads + due size before)
  | last (houtcome : ∀ count, reply.outcome ≠ .ok (count + 1))
      (hreads : reply.reader.reads = reads + due size before + 1)

variable {rest : List ScriptStep} {buffer : ByteArray}

theorem counted_of_stops (hstops : ∀ step ∈ rest.head?, step.stops = true) (requests : List Nat)
    (buffer : ByteArray) :
    Counted buffer.size [] rest requests.length (Reader.read ⟨rest, requests⟩ buffer) := by
  refine .last ?_ ?_
  · intro count
    cases rest with
    | nil => simp [Reader.read, read]
    | cons step rest =>
        have hstep := hstops step rfl
        cases step <;> simp_all [Reader.read, read, ScriptStep.stops]
  · cases rest with
    | nil => rfl
    | cons step rest => cases step <;> rfl

theorem counted_data {bytes : Bytes} {before : List ScriptStep} (hsize : 0 < buffer.size)
    (hbytes : bytes ≠ []) (hpasses : ∀ step ∈ before, step.passes = true) (requests : List Nat) :
    Counted buffer.size (.data bytes :: before) rest requests.length
      (Reader.read ⟨.data bytes :: before ++ rest, requests⟩ buffer) := by
  have hpos := List.length_pos_iff.2 hbytes
  refine .forward (min buffer.size bytes.length - 1)
    (if (bytes.drop buffer.size).isEmpty then before
      else .data (bytes.drop buffer.size) :: before) ?_ ?_ ?_ ?_
  · simp only [Reader.read, read, List.cons_append, List.length_take, Except.ok.injEq]
    omega
  · simp only [Reader.read, read, List.cons_append]
    split <;> rfl
  · split
    · exact hpasses
    · next hrest =>
      refine List.forall_mem_cons.2 ⟨?_, hpasses⟩
      simpa [ScriptStep.passes] using hrest
  · rw [← due_piece hsize hbytes]
    exact Nat.add_right_comm _ _ _

theorem read_interrupted {step : ScriptStep} {steps : List ScriptStep} {requests : List Nat}
    (hint : (Reader.read (⟨step :: steps, requests⟩ : Script) buffer).Interrupted) :
    step.interrupts = true ∧
      (Reader.read (⟨step :: steps, requests⟩ : Script) buffer).reader =
        ⟨steps, buffer.size :: requests⟩ := by
  obtain ⟨error, houtcome, hkind⟩ := hint
  cases step with
  | interrupt => exact ⟨rfl, rfl⟩
  | fail error' =>
      have herror : error' = error := Except.error.inj houtcome
      exact ⟨by simp [ScriptStep.interrupts, herror, hkind], rfl⟩
  | data bytes => simp [Reader.read, read] at houtcome
  | zero => simp [Reader.read, read] at houtcome
  | stale count => simp [Reader.read, read] at houtcome

theorem counted_readThrough {script : Script} {before : List ScriptStep}
    (hsteps : script.steps = before ++ rest) (hsize : 0 < buffer.size)
    (hpasses : ∀ step ∈ before, step.passes = true)
    (hstops : ∀ step ∈ rest.head?, step.stops = true) (settles : Reader.Settles script buffer) :
    Counted buffer.size before rest script.reads (Reader.readThrough script buffer settles) := by
  -- The size of the buffer is that of all requests, and what is in front of the end gets shorter.
  refine Reader.readThrough_induction
    (motive := fun script request reply => request.size = buffer.size → ∀ before,
      script.steps = before ++ rest → (∀ step ∈ before, step.passes = true) →
        Counted buffer.size before rest script.reads reply) ?_ ?_ script buffer settles rfl before
    hsteps hpasses
  · clear hsteps hpasses
    rintro ⟨steps, requests⟩ request hnot hrequest before rfl hpasses
    rw [← hrequest] at hsize ⊢
    cases before with
    | nil => exact counted_of_stops hstops requests request
    | cons step before =>
        obtain ⟨hstep, hbefore⟩ := List.forall_mem_cons.1 hpasses
        cases step with
        | data bytes =>
            exact counted_data hsize (by simpa [ScriptStep.passes] using hstep) hbefore requests
        | interrupt => exact absurd ⟨_, rfl, rfl⟩ hnot
        | fail error =>
            exact absurd ⟨error, rfl, by simpa [ScriptStep.passes] using hstep⟩ hnot
        | zero => cases hstep
        | stale count => cases hstep
  · clear hsteps hpasses
    rintro ⟨steps, requests⟩ request reply hint ih hrequest before rfl hpasses
    rw [Reader.size_read] at ih
    cases before with
    | nil =>
        cases rest with
        | nil =>
            obtain ⟨error, houtcome, -⟩ := hint
            simp [Reader.read, read] at houtcome
        | cons step rest =>
            have hstep := hstops step rfl
            rw [ScriptStep.stops_of_interrupts (read_interrupted hint).1] at hstep
            cases hstep
    | cons step before =>
        obtain ⟨hstep, hbefore⟩ := List.forall_mem_cons.1 hpasses
        rw [List.cons_append] at hint ih
        obtain ⟨hinterrupts, hreader⟩ := read_interrupted hint
        have hrest := fun hsteps => ih hrequest before hsteps hbefore
        rw [hreader] at hrest
        cases hrest rfl with
        | forward count left houtcome hsteps hleft hreads =>
            refine .forward count left houtcome hsteps hleft ?_
            rw [due_interrupts hinterrupts, hreads]
            exact Nat.add_right_comm _ _ _
        | last houtcome hreads =>
            refine .last houtcome ?_
            rw [due_interrupts hinterrupts, hreads]
            exact congrArg (· + 1) (Nat.add_right_comm _ _ _)

theorem reads_asked {script after : Script} {buffer left : ByteArray}
    {exchanges : List (Exchange Script)} (h : Asked script buffer exchanges after left) :
    after.reads = script.reads + exchanges.length := by
  induction h with
  | nil => rfl
  | @cons script after buffer left exchanges rest ih =>
      have hread : (Reader.read script buffer).reader.reads = script.reads + 1 := by
        simp only [Reader.read, read]
        split <;> rfl
      rw [ih, hread, List.length_cons, Nat.add_assoc, Nat.add_comm 1]

end Script

namespace ReadSource

/-- The requests made and those that are due up to the end, which `rest` begins with, add up to
`total`. -/
inductive Counts (rest : List ScriptStep) (total : Nat) (source : ReadSource Script) : Prop
  | ongoing (before : List ScriptStep) (hfinished : source.finished = false)
      (hsteps : source.reader.steps = before ++ rest) (hpasses : ∀ step ∈ before, step.passes = true)
      (hreads : source.reader.reads + Script.due source.readSize before + 1 = total)
  | ended (hfinished : source.finished = true) (hreads : source.reader.reads = total)

variable {rest : List ScriptStep} {total : Nat}

theorem Counts.pull {source : ReadSource Script} (h : source.Counts rest total)
    (hsize : 0 < source.readSize) (hstops : ∀ step ∈ rest.head?, step.stops = true)
    (answers : Source.Answers source) : (Source.pull source answers).source.Counts rest total := by
  cases h with
  | ended hfinished hreads =>
      rw [pull_of_finished answers hfinished]
      exact .ended hfinished hreads
  | ongoing before hfinished hsteps hpasses hreads =>
      have settles := (answers hfinished).settles
      have hasking : source.asking.size = source.readSize := source.size_asking
      have hcounted : Script.Counted source.asking.size before rest source.reader.reads
          (source.reply settles) :=
        Script.counted_readThrough hsteps (hasking ▸ hsize) hpasses hstops settles
      rw [hasking] at hcounted
      cases hcounted with
      | forward count left houtcome hleft hpasses' hreads' =>
          rw [pull_of_count answers hfinished (Nat.succ_ne_zero count) houtcome]
          refine .ongoing left hfinished hleft hpasses' ?_
          rw [← hreads]
          exact congrArg (· + 1) hreads'
      | last houtcome hreads' =>
          rcases hreply : (source.reply settles).outcome with error | _ | count
          · rw [pull_of_error answers hfinished hreply]
            exact .ended rfl (hreads'.trans hreads)
          · rw [pull_of_zero answers hfinished hreply]
            exact .ended rfl (hreads'.trans hreads)
          · exact absurd hreply (houtcome count)

theorem Counts.takeError {source : ReadSource Script} (h : source.Counts rest total) :
    source.takeError.2.Counts rest total := by
  cases h with
  | ongoing before hfinished hsteps hpasses hreads =>
      exact .ongoing before hfinished hsteps hpasses hreads
  | ended hfinished hreads => exact .ended hfinished hreads

end ReadSource

/-! ## Lawful readers -/

theorem Recorded.lawful {ρ : Type u} [Reader ρ] {recorded : Recorded ρ}
    (h : Reader.Lawful recorded.reader) : Reader.Lawful recorded := by
  have becomes : ∀ {after : Recorded ρ}, Reader.Becomes recorded after →
      Reader.Becomes recorded.reader after.reader := by
    intro after later
    clear h
    induction later with
    | refl => exact .refl _
    | read buffer _ ih => exact .read buffer ih
  exact ⟨fun later => h.count_le (becomes later),
    fun later buffer => settles_iff.2 (h.settles (becomes later) buffer)⟩

namespace ReadSource

variable {ρ : Type u} [Reader ρ] {source : ReadSource ρ} (h : Reader.Lawful source.reader)

include h

theorem answers_of_lawful : Source.Answers source := fun _ => h.serves source.asking

theorem lawful_pull (answers : Source.Answers source) :
    Reader.Lawful (Source.pull source answers).source.reader := by
  cases hfinished : source.finished with
  | true => rwa [pull_of_finished answers hfinished]
  | false =>
      have settles := (answers hfinished).settles
      rw [(pull_forward settles answers hfinished).1]
      exact h.readThrough source.asking settles

end ReadSource

namespace Course

theorem exists_runs {ρ : Type u} [Reader ρ] {course : Course ρ}
    (h : Reader.Lawful course.source.reader) (calls : List Call) :
    ∃ after, Runs course calls after ∧ Source.Answers after.source := by
  induction calls generalizing course with
  | nil => exact ⟨course, .nil course, ReadSource.answers_of_lawful h⟩
  | cons call calls ih =>
      cases call with
      | next =>
          have answers := ReadSource.answers_of_lawful h
          have hpulled := ReadSource.lawful_pull h answers
          obtain ⟨after, run, hafter⟩ := @ih (course.pull answers) hpulled
          exact ⟨after, .next answers run, hafter⟩
      | takeError =>
          obtain ⟨after, run, hafter⟩ := @ih course.takeError h
          exact ⟨after, .takeError run, hafter⟩

theorem Runs.counts {rest : List ScriptStep} {total : Nat} {course after : Course Script}
    {calls : List Call} (run : Runs course calls after) (h : course.source.Counts rest total)
    (hsize : 0 < course.source.readSize) (hstops : ∀ step ∈ rest.head?, step.stops = true) :
    after.source.Counts rest total := by
  induction run with
  | nil => exact h
  | takeError _ ih => exact ih h.takeError hsize
  | next answers _ ih =>
      have hreadSize := (Runs.next answers (.nil _)).readSize_eq
      exact ih (h.pull hsize hstops answers) (hreadSize ▸ hsize)

theorem length_log_script {script : Script} {before rest : List ScriptStep}
    (hsteps : script.steps = before ++ rest) (hpasses : ∀ step ∈ before, step.passes = true)
    (hstops : ∀ step ∈ rest.head?, step.stops = true) {pool : Pool} {requested : Nat}
    {calls : List Call} {course : Course (Recorded Script)}
    (run : Runs (opened pool (Recorded.mk script []) requested) calls course)
    (hfinished : course.source.finished = true) :
    course.source.reader.log.length =
      Script.due (ReadSource.clampReadSize requested) before + 1 := by
  have hstart : (opened pool script requested).source.Counts rest
      (script.reads + Script.due (ReadSource.clampReadSize requested) before + 1) :=
    .ongoing before rfl hsteps hpasses rfl
  have hcounts := run.unrecorded.counts hstart (ReadSource.clampReadSize_pos requested) hstops
  have hreads := Script.reads_asked ((agrees_opened pool script requested).runs run).asked
  cases hcounts with
  | ongoing _ hongoing => exact absurd (hfinished.symm.trans hongoing) Bool.noConfusion
  | ended _ htotal =>
      apply Nat.add_left_cancel (n := script.reads)
      rw [← hreads, ← Nat.add_assoc]
      exact htotal

/-- All calls on a source over a lawful reader come to an end.  Over any reader, calls that come to
an end lead to the same course if a log is kept of the requests.  Every request is of the read size,
which is what was asked for, but at least one byte and at most 16 MiB; each pull makes requests up
to the first that is not interrupted and yields what that reports; once the source has ended no more
requests are made.  The reader is left where the requests of the log have brought it, and nothing
was read beyond the chunks.  The source has ended when an empty chunk was yielded, and an error that
ended it is handed out once.  For a script the number of requests up to the end is known. -/
theorem reads_lawfully (pool : Pool) (requested : Nat) (calls : List Call) :
    let size := max 1 (min requested (16 * 1024 * 1024))
    (∀ {ρ : Type u} [Reader ρ] (reader : ρ), Reader.Lawful reader →
      ∃ plain, Runs (opened pool reader requested) calls plain ∧ Source.Answers plain.source) ∧
    (∀ {ρ : Type u} [Reader ρ] (reader : ρ) (plain : Course ρ),
      Runs (opened pool reader requested) calls plain → ∃ course : Course (Recorded ρ),
      course.unrecorded = plain ∧
      Runs (opened pool (Recorded.mk reader []) requested) calls course ∧
      let source := course.source
      let log := source.reader.log
      (∀ exchange ∈ log, exchange.request.size = size) ∧
      (source.finished = false → ∀ answers : Source.Answers source,
        let pulled := Source.pull source answers
        ∃ (skipped : List (Exchange ρ)) (last : Exchange ρ),
          pulled.source.reader.log = log ++ (skipped ++ [last]) ∧
            (∀ exchange ∈ skipped, exchange.reply.Interrupted) ∧ ¬ last.reply.Interrupted ∧
            source.Reflects pulled last ∧ ∀ count, last.reply.outcome = .ok count →
              pulled.chunk.length = count ∧ count ≤ size) ∧
      (source.finished = true →
        (∃ answers : Source.Answers source,
          Source.pull source answers = { chunk := [], source }) ∧
        ∀ more after, Runs course more after → after.source.reader = source.reader ∧
          after.chunks = course.chunks ++ List.replicate (more.count .next) []) ∧
      (∃ left, Asked reader (opened pool reader requested).source.asking log
        (source.close pool).1.reader left) ∧
      log.flatMap Exchange.given = course.chunks.flatten ∧
      (source.finished = true ↔ [] ∈ course.chunks) ∧
      (course.chunks.flatten.length < UInt64.size →
        source.bytesRead = course.chunks.flatten.length) ∧
      (source.finished = false → ending? log = none) ∧
      course.errors.filterMap id ++ source.takeError.1.toList = (ending? log).toList) ∧
    ∀ (script : Script) (before rest : List ScriptStep), script.steps = before ++ rest →
      (∀ step ∈ before, step.passes = true) → (∀ step ∈ rest.head?, step.stops = true) →
      Reader.Lawful script ∧ ∀ course : Course (Recorded Script),
        Runs (opened pool (Recorded.mk script []) requested) calls course →
        (course.source.finished = true → course.source.reader.log.length =
          Script.blockReads size before + before.countP ScriptStep.interrupts + 1) ∧
        ∃ pulls after, Runs course (List.replicate pulls .next) after ∧
          after.source.finished = true := by
  intro size
  refine ⟨?_, ?_, ?_⟩
  · intro ρ _ reader lawful
    exact exists_runs lawful calls
  · intro ρ _ reader plain hplain
    have hstart : Runs (opened pool (Recorded.mk reader []) requested).unrecorded calls plain :=
      hplain
    obtain ⟨course, hcourse, run⟩ := hstart.exists_recorded
    refine ⟨course, hcourse, run, ?_⟩
    intro source log
    have hagrees : Agrees reader _ course := (agrees_opened pool reader requested).runs run
    have hsize : source.readSize = size := run.readSize_eq
    refine ⟨?_, ?_, ?_, ⟨_, hagrees.asked⟩, hagrees.given_eq, hagrees.finished_iff,
      hagrees.bytesRead_eq, hagrees.ongoing, hagrees.errors_eq⟩
    · intro exchange hmem
      exact (hagrees.asked.size_request exchange hmem).1.trans (ReadSource.size_asking _)
    · intro hfinished answers
      obtain ⟨skipped, last, exchanged⟩ := ReadSource.exists_exchanges answers hfinished
      refine ⟨skipped, last, exchanged.log_eq, exchanged.interrupted, exchanged.uninterrupted,
        exchanged.reflects, ?_⟩
      rw [exchanged.reflects.chunk_eq, ← hsize]
      exact exchanged.length_given
    · intro hfinished
      have answers : Source.Answers source := fun hongoing => by simp [hfinished] at hongoing
      exact ⟨⟨answers, ReadSource.pull_of_finished answers hfinished⟩,
        fun _ _ later => later.of_finished hfinished⟩
  · intro script before rest hsteps hpasses hstops
    refine ⟨script.lawful, fun course run => ?_⟩
    have hagrees : Agrees script _ course := (agrees_opened pool script requested).runs run
    constructor
    · exact length_log_script hsteps hpasses hstops run
    · -- A script ends, and the drain from here on stops with an empty chunk.
      have ends : Ends course.source :=
        ReadSource.forwards_unrecorded.ends (Finite.ends course.source.unrecorded)
      obtain ⟨chunks, after, drained⟩ := ends.drains
      have later := Runs.of_drains drained
      exact ⟨chunks.length + 1, _, later, (hagrees.runs later).finished_iff.2 (by simp)⟩

/-- An interruption, a block that is cut in two and the error behind them take four requests. -/
theorem reads_lawfully_broken :
    let script : Script :=
      { steps := [.interrupt, .data [97, 98, 99], .fail { kind := .brokenPipe }, .data [100]] }
    ∃ pulls course,
      Runs (opened .empty (Recorded.mk script []) 2) (List.replicate pulls .next) course ∧
      course.source.finished = true ∧ course.source.reader.log.length = 4 := by
  intro script
  have hlaw (calls : List Call) := ((reads_lawfully.{0} .empty 2 calls).2.2 script
    [.interrupt, .data [97, 98, 99]] [.fail { kind := .brokenPipe }, .data [100]] rfl
    (by decide) (by simp [ScriptStep.stops])).2
  obtain ⟨pulls, course, run, hfinished⟩ := (hlaw [] _ (.nil _)).2
  exact ⟨pulls, course, run, hfinished, (hlaw (List.replicate pulls .next) course run).1 hfinished⟩

end Course

end ContentAddress
