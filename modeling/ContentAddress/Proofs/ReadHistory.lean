import ContentAddress.Proofs.PoolLimits
import Mathlib.Data.List.Induction

/-!
# The history of a reader

What a source over a reader does can be told from the requests that it makes and the answers that it
gets.  A reader of any kind is given a log of both here, which makes no difference to its answers.
One pull from a source that has not ended adds to the log any number of interruptions and then the
answer that is looked at; a pull from one that has ended adds nothing.  A course is a source with
the results of all calls on it since it was opened, and what holds between them and the log is kept
by every call.
-/

namespace ContentAddress

universe u

open Source

structure Exchange (ρ : Type u) where
  request : ByteArray
  reply : Reply ρ

namespace Exchange

variable {ρ : Type u}

/-- The error in the answer, unless it is an interruption. -/
def failure? (exchange : Exchange ρ) : Option IoError :=
  match exchange.reply.outcome with
  | .ok _ => none
  | .error error => if error.kind = .interrupted then none else some error

def given (exchange : Exchange ρ) : Bytes :=
  match exchange.reply.outcome with
  | .ok count => exchange.reply.buffer.data.toList.take count
  | .error _ => []

variable {exchange : Exchange ρ}

theorem failure?_of_ok {count : Nat} (h : exchange.reply.outcome = .ok count) :
    exchange.failure? = none := by
  rw [failure?, h]

theorem given_of_ok {count : Nat} (h : exchange.reply.outcome = .ok count) :
    exchange.given = exchange.reply.buffer.data.toList.take count := by
  rw [given, h]

theorem length_given {count : Nat} (h : exchange.reply.outcome = .ok count)
    (hcount : count ≤ exchange.reply.buffer.size) : exchange.given.length = count := by
  rw [given_of_ok h, List.length_take, Array.length_toList, ByteArray.size_data]
  exact Nat.min_eq_left hcount

theorem given_of_error {error : IoError} (h : exchange.reply.outcome = .error error) :
    exchange.given = [] := by
  rw [given, h]

theorem failure?_of_error {error : IoError} (h : exchange.reply.outcome = .error error)
    (hnot : ¬ exchange.reply.Interrupted) : exchange.failure? = some error := by
  rw [failure?, h]
  exact if_neg fun hkind => hnot ⟨error, h, hkind⟩

theorem given_of_interrupted (h : exchange.reply.Interrupted) : exchange.given = [] := by
  obtain ⟨error, herror, -⟩ := h
  exact given_of_error herror

theorem failure?_of_given (h : exchange.given ≠ []) : exchange.failure? = none := by
  cases houtcome : exchange.reply.outcome with
  | ok count => exact failure?_of_ok houtcome
  | error error => exact absurd (given_of_error houtcome) h

end Exchange

section Asking

variable {ρ : Type u} [Reader ρ]

/-- Asked to fill `buffer`, and then again and again to fill what it left of it, the reader has
these exchanges, which leave it as `after` and the buffer as `left`. -/
inductive Asked : ρ → ByteArray → List (Exchange ρ) → ρ → ByteArray → Prop
  | nil (reader : ρ) (buffer : ByteArray) : Asked reader buffer [] reader buffer
  | cons {reader after : ρ} {buffer left : ByteArray} {exchanges : List (Exchange ρ)}
      (rest : Asked (Reader.read reader buffer).reader (Reader.read reader buffer).buffer exchanges
        after left) :
      Asked reader buffer (⟨buffer, Reader.read reader buffer⟩ :: exchanges) after left

namespace Asked

variable {reader middle after : ρ} {buffer between left : ByteArray}
  {exchanges more : List (Exchange ρ)}

theorem append (h : Asked reader buffer exchanges middle between)
    (h' : Asked middle between more after left) :
    Asked reader buffer (exchanges ++ more) after left := by
  induction h with
  | nil => exact h'
  | cons rest ih => exact .cons (ih h')

theorem size_request (h : Asked reader buffer exchanges after left) :
    ∀ exchange ∈ exchanges,
      exchange.request.size = buffer.size ∧ exchange.reply.buffer.size = buffer.size := by
  induction h with
  | nil => simp
  | @cons reader after buffer left exchanges rest ih =>
      have hsize := Reader.size_read reader buffer
      rw [hsize] at ih
      exact List.forall_mem_cons.2 ⟨⟨rfl, hsize⟩, ih⟩

end Asked

end Asking

namespace Reader

variable {ρ : Type u} [Reader ρ] {reader : ρ} {buffer : ByteArray}

theorem readThrough_of_not (settles : Settles reader buffer)
    (hnot : ¬ (read reader buffer).Interrupted) :
    readThrough reader buffer settles = read reader buffer := by
  rw [readThrough]
  split
  · next h => exact h.symm
  · next error _ _ h =>
    split
    · next hkind => exact absurd ⟨error, by rw [h], hkind⟩ hnot
    · exact h.symm

theorem readThrough_of_interrupted (settles : Settles reader buffer)
    (hint : (read reader buffer).Interrupted) :
    readThrough reader buffer settles =
      readThrough (read reader buffer).reader (read reader buffer).buffer
        (settles.inv ⟨hint, rfl⟩) := by
  obtain ⟨error, herror, hkind⟩ := hint
  rw [readThrough]
  split
  · next h => simp [h] at herror
  · next error' _ _ h =>
    have hsame : error' = error := by simpa [h] using herror
    simp only [hsame, hkind, h]
    rfl

end Reader

def Reply.map {ρ : Type u} {τ : Type u} (view : ρ → τ) (reply : Reply ρ) : Reply τ :=
  { reply with reader := view reply.reader }

structure Recorded (ρ : Type u) where
  reader : ρ
  log : List (Exchange ρ) := []

namespace Recorded

variable {ρ : Type u} [Reader ρ]

instance : Reader (Recorded ρ) where
  read recorded buffer :=
    let reply := Reader.read recorded.reader buffer
    { outcome := reply.outcome
      buffer := reply.buffer
      reader := ⟨reply.reader, recorded.log ++ [⟨buffer, reply⟩]⟩ }
  size_read recorded buffer := Reader.size_read recorded.reader buffer

theorem settles_iff {recorded : Recorded ρ} {buffer : ByteArray} :
    Reader.Settles recorded buffer ↔ Reader.Settles recorded.reader buffer := by
  constructor
  · intro (settles : Acc Reader.Retries (recorded, buffer))
    generalize hrequest : (recorded, buffer) = request at settles
    induction settles generalizing recorded buffer with
    | intro request _ ih =>
      subst hrequest
      refine Acc.intro _ fun after retries => ?_
      rw [retries.2]
      exact ih _ ⟨retries.1, rfl⟩ rfl
  · intro (settles : Acc Reader.Retries (recorded.reader, buffer))
    generalize hrequest : (recorded.reader, buffer) = request at settles
    induction settles generalizing recorded buffer with
    | intro request _ ih =>
      subst hrequest
      refine Acc.intro _ fun after retries => ?_
      rw [retries.2]
      exact ih _ ⟨retries.1, rfl⟩ rfl

/-- The answer that is looked at is the last of the new exchanges, and all before it are
interruptions. -/
structure Through (recorded : Recorded ρ) (buffer : ByteArray) (reply : Reply (Recorded ρ))
    (skipped : List (Exchange ρ)) (last : Exchange ρ) : Prop where
  log_eq : reply.reader.log = recorded.log ++ (skipped ++ [last])
  interrupted : ∀ exchange ∈ skipped, exchange.reply.Interrupted
  uninterrupted : ¬ last.reply.Interrupted
  outcome_eq : reply.outcome = last.reply.outcome
  buffer_eq : reply.buffer = last.reply.buffer
  asked : Asked recorded.reader buffer (skipped ++ [last]) reply.reader.reader reply.buffer

theorem exists_through (recorded : Recorded ρ) (buffer : ByteArray)
    (settles : Reader.Settles recorded buffer) :
    ∃ skipped last,
      recorded.Through buffer (Reader.readThrough recorded buffer settles) skipped last := by
  refine Reader.readThrough_induction
    (motive := fun recorded buffer reply => ∃ skipped last,
      Through recorded buffer reply skipped last) ?_ ?_ recorded buffer settles
  · intro recorded buffer hnot
    refine ⟨[], ⟨buffer, Reader.read recorded.reader buffer⟩, rfl, ?_, hnot, rfl, rfl, ?_⟩
    · simp
    · exact .cons (.nil _ _)
  · rintro recorded buffer reply hint ⟨skipped, last, h⟩
    refine ⟨⟨buffer, Reader.read recorded.reader buffer⟩ :: skipped, last, ?_, ?_, h.uninterrupted,
      h.outcome_eq, h.buffer_eq, .cons h.asked⟩
    · rw [h.log_eq]
      exact List.append_assoc _ _ _
    · exact List.forall_mem_cons.2 ⟨hint, h.interrupted⟩

theorem readThrough_reader (recorded : Recorded ρ) (buffer : ByteArray)
    (settles : Reader.Settles recorded buffer)
    (settles' : Reader.Settles recorded.reader buffer) :
    Reader.readThrough recorded.reader buffer settles' =
      (Reader.readThrough recorded buffer settles).map Recorded.reader := by
  revert settles'
  refine Reader.readThrough_induction
    (motive := fun recorded buffer reply => ∀ settles',
      Reader.readThrough recorded.reader buffer settles' = reply.map Recorded.reader)
    ?_ ?_ recorded buffer settles
  · intro recorded buffer hnot settles'
    exact Reader.readThrough_of_not settles' hnot
  · intro recorded buffer reply hint ih settles'
    exact (Reader.readThrough_of_interrupted settles' hint).trans (ih _)

theorem serves_iff {recorded : Recorded ρ} {buffer : ByteArray} :
    Reader.Serves recorded buffer ↔ Reader.Serves recorded.reader buffer := by
  have houtcome : ∀ settles settles', (Reader.readThrough recorded.reader buffer settles').outcome =
      (Reader.readThrough recorded buffer settles).outcome := fun settles settles' =>
    congrArg Reply.outcome (recorded.readThrough_reader buffer settles settles')
  constructor
  · intro serves
    refine ⟨settles_iff.1 serves.settles, fun count hcount => serves.count_le ?_⟩
    rwa [houtcome serves.settles] at hcount
  · intro serves
    refine ⟨settles_iff.2 serves.settles, fun count hcount => serves.count_le ?_⟩
    rwa [houtcome (settles_iff.2 serves.settles)]

end Recorded

/-! ## One pull -/

namespace Buffer

theorem data_resize_of_size {buffer : Buffer} {size : Nat} (h : buffer.data.size = size) :
    (buffer.resize size).data = buffer.data := by
  subst h
  simp [resize, pushZeros]

end Buffer

namespace ReadSource

variable {ρ : Type u}

def unrecorded (source : ReadSource (Recorded ρ)) : ReadSource ρ :=
  { source with reader := source.reader.reader }

variable [Reader ρ]

theorem pull_forward {source : ReadSource ρ}
    (settles : Reader.Settles source.reader source.asking) (answers : Source.Answers source)
    (hfinished : source.finished = false) :
    (Source.pull source answers).source.reader = (source.reply settles).reader ∧
      (Source.pull source answers).source.asking = (source.reply settles).buffer := by
  constructor
  · rw [pull_eq settles answers hfinished]
    split <;> rfl
  · rw [asking, buffer_pull settles answers hfinished, readSize_pull answers hfinished,
      Buffer.data_resize_of_size (size_answered settles)]
    rfl

theorem forwards_unrecorded : Forwards (unrecorded (ρ := ρ)) where
  answers_iff source := forall_congr' fun _ => Recorded.serves_iff
  pull_eq source answers answers' := by
    cases hfinished : source.finished with
    | true =>
        have hfinished' : source.unrecorded.finished = true := hfinished
        rw [pull_of_finished answers hfinished, pull_of_finished answers' hfinished']
        rfl
    | false =>
        have hfinished' : source.unrecorded.finished = false := hfinished
        have settles := (answers hfinished).settles
        have settles' := (answers' hfinished').settles
        have hreply : source.unrecorded.reply settles' =
            (source.reply settles).map Recorded.reader :=
          source.reader.readThrough_reader source.asking settles settles'
        have hanswered : source.unrecorded.answered settles' =
            (source.answered settles).unrecorded := by
          rw [answered, hreply]
          rfl
        rw [pull_eq settles answers hfinished, pull_eq settles' answers' hfinished', hanswered,
          hreply]
        rcases houtcome : (source.reply settles).outcome with error | _ | count <;>
          simp only [Reply.map, houtcome] <;> rfl

/-- The result of a pull is that of one exchange. -/
structure Reflects (source : ReadSource (Recorded ρ)) (pulled : Pull (ReadSource (Recorded ρ)))
    (last : Exchange ρ) : Prop where
  chunk_eq : pulled.chunk = last.given
  finished_iff : pulled.source.finished = true ↔ last.given = []
  counted_eq : pulled.source.counted = source.counted + UInt64.ofNat last.given.length
  error_eq : pulled.source.error = last.failure?.or source.error
  events_eq : pulled.events =
    (last.failure?.map fun error => Event.readerStopped error source.bytesRead).toList

/-- A pull from a source that has not ended makes requests up to the first that is not interrupted,
and its result is that of the last one. -/
structure Exchanged (source : ReadSource (Recorded ρ)) (pulled : Pull (ReadSource (Recorded ρ)))
    (skipped : List (Exchange ρ)) (last : Exchange ρ) : Prop where
  log_eq : pulled.source.reader.log = source.reader.log ++ (skipped ++ [last])
  interrupted : ∀ exchange ∈ skipped, exchange.reply.Interrupted
  uninterrupted : ¬ last.reply.Interrupted
  asked : Asked source.reader.reader source.asking (skipped ++ [last]) pulled.source.reader.reader
    pulled.source.asking
  reply_eq : last.reply.buffer = pulled.source.asking
  length_given : ∀ count, last.reply.outcome = .ok count →
    last.given.length = count ∧ count ≤ source.readSize
  reflects : source.Reflects pulled last

theorem exists_exchanges {source : ReadSource (Recorded ρ)} (answers : Source.Answers source)
    (hfinished : source.finished = false) :
    ∃ skipped last, source.Exchanged (Source.pull source answers) skipped last := by
  have serves := answers hfinished
  have settles := serves.settles
  obtain ⟨skipped, last, through⟩ := source.reader.exists_through source.asking settles
  change source.reader.Through source.asking (source.reply settles) skipped last at through
  obtain ⟨hreader, hasking⟩ := pull_forward settles answers hfinished
  have hlength : ∀ count, last.reply.outcome = .ok count →
      last.given.length = count ∧ count ≤ source.readSize := by
    intro count houtcome
    have hcount : count ≤ source.asking.size :=
      serves.count_le (through.outcome_eq.trans houtcome)
    have hsize := (through.asked.size_request last (by simp)).2
    exact ⟨last.length_given houtcome (hsize ▸ hcount), source.size_asking ▸ hcount⟩
  refine ⟨skipped, last, ?_, through.interrupted, through.uninterrupted, ?_, ?_, hlength, ?_⟩
  · exact (congrArg Recorded.log hreader).trans through.log_eq
  · rw [hreader, hasking]
    exact through.asked
  · exact through.buffer_eq.symm.trans hasking.symm
  · rcases houtcome : last.reply.outcome with error | count
    · have hfailure := Exchange.failure?_of_error houtcome through.uninterrupted
      have hgiven := Exchange.given_of_error houtcome
      have hpull := pull_of_error answers hfinished (through.outcome_eq.trans houtcome)
      constructor <;> simp [hpull, hfailure, hgiven, answered]
    · have hfailure := Exchange.failure?_of_ok houtcome
      have hgiven := Exchange.given_of_ok houtcome
      by_cases hzero : count = 0
      · subst hzero
        have hpull := pull_of_zero answers hfinished (through.outcome_eq.trans houtcome)
        constructor <;> simp [hpull, hfailure, hgiven, answered]
      · have hcount := (hlength count houtcome).1
        have hne : last.given ≠ [] := by
          intro hnil
          rw [hnil] at hcount
          exact hzero hcount.symm
        have hpull := pull_of_count answers hfinished hzero (through.outcome_eq.trans houtcome)
        constructor <;> simp [hpull, hfailure, hcount, hne, answered, hfinished]
        rw [through.buffer_eq, hgiven]

theorem asked_pull (source : ReadSource (Recorded ρ)) (answers : Source.Answers source) :
    ∃ exchanges, (Source.pull source answers).source.reader.log = source.reader.log ++ exchanges ∧
      Asked source.reader.reader source.asking exchanges
        (Source.pull source answers).source.reader.reader
        (Source.pull source answers).source.asking := by
  cases hfinished : source.finished with
  | true =>
      rw [pull_of_finished answers hfinished]
      exact ⟨[], (List.append_nil _).symm, .nil _ _⟩
  | false =>
      obtain ⟨skipped, last, exchanged⟩ := exists_exchanges answers hfinished
      exact ⟨_, exchanged.log_eq, exchanged.asked⟩

end ReadSource

/-! ## Whole courses -/

/-- A source over a reader, with the results of all calls on it. -/
structure Course (ρ : Type u) where
  source : ReadSource ρ
  chunks : List Bytes := []
  /-- What was there whenever the error was asked for. -/
  errors : List (Option IoError) := []

namespace Course

variable {ρ : Type u}

inductive Call
  | next
  | takeError
deriving DecidableEq

def opened (pool : Pool) (reader : ρ) (requested : Nat) : Course ρ :=
  { source := (ReadSource.start pool reader requested).1 }

def unrecorded (course : Course (Recorded ρ)) : Course ρ :=
  { course with source := course.source.unrecorded }

def takeError (course : Course ρ) : Course ρ :=
  { course with
    source := course.source.takeError.2
    errors := course.errors ++ [course.source.takeError.1] }

variable [Reader ρ]

def pull (course : Course ρ) (answers : Source.Answers course.source) : Course ρ :=
  { course with
    source := (Source.pull course.source answers).source
    chunks := course.chunks ++ [(Source.pull course.source answers).chunk] }

/-- The calls, made one after the other, all come to an end and lead to the course `after`. -/
inductive Runs : Course ρ → List Call → Course ρ → Prop
  | nil (course : Course ρ) : Runs course [] course
  | next {course after : Course ρ} {calls : List Call} (answers : Source.Answers course.source)
      (rest : Runs (course.pull answers) calls after) : Runs course (.next :: calls) after
  | takeError {course after : Course ρ} {calls : List Call}
      (rest : Runs course.takeError calls after) : Runs course (.takeError :: calls) after

namespace Runs

variable {course middle after : Course ρ} {calls more : List Call}

theorem append (run : Runs course calls middle) (run' : Runs middle more after) :
    Runs course (calls ++ more) after := by
  induction run with
  | nil => exact run'
  | next answers _ ih => exact .next answers (ih run')
  | takeError _ ih => exact .takeError (ih run')

theorem readSize_eq (run : Runs course calls after) :
    after.source.readSize = course.source.readSize := by
  induction run with
  | nil => rfl
  | takeError _ ih => exact ih
  | @next course after calls answers _ ih =>
      refine ih.trans ?_
      cases hfinished : course.source.finished with
      | true => rw [pull, ReadSource.pull_of_finished answers hfinished]
      | false => exact ReadSource.readSize_pull answers hfinished

/-- A source that has ended never asks its reader again. -/
theorem of_finished (run : Runs course calls after) (hfinished : course.source.finished = true) :
    after.source.reader = course.source.reader ∧
      after.chunks = course.chunks ++ List.replicate (calls.count .next) [] := by
  induction run with
  | nil => simp
  | takeError _ ih =>
      rw [List.count_cons_of_ne (by decide)]
      exact ih hfinished
  | next answers _ ih =>
      have hpull := ReadSource.pull_of_finished answers hfinished
      simpa [pull, hpull, List.replicate_succ] using ih (by simpa [pull, hpull] using hfinished)

theorem of_drains {source : ReadSource ρ} {chunks : List Bytes}
    (drained : Drains course.source chunks source) :
    Runs course (List.replicate (chunks.length + 1) .next)
      { course with source, chunks := course.chunks ++ (chunks ++ [[]]) } := by
  generalize hsource : course.source = start at drained
  induction drained generalizing course with
  | stop answers hchunk =>
      subst hsource
      refine .next answers ?_
      rw [pull, hchunk]
      exact .nil _
  | more answers _ _ ih =>
      subst hsource
      refine .next answers ?_
      have hrest := @ih (course.pull answers) rfl
      rwa [pull, List.append_assoc] at hrest

end Runs

section Unrecorded

variable {course after : Course (Recorded ρ)} {calls : List Call}

theorem unrecorded_pull (answers : Source.Answers course.source)
    (answers' : Source.Answers course.unrecorded.source) :
    (course.pull answers).unrecorded = course.unrecorded.pull answers' := by
  have hpull := ReadSource.forwards_unrecorded.pull_eq course.source answers answers'
  exact congrArg (fun pulled : Pull (ReadSource ρ) =>
    { course.unrecorded with
      source := pulled.source
      chunks := course.chunks ++ [pulled.chunk] }) hpull

theorem Runs.unrecorded (run : Runs course calls after) :
    Runs course.unrecorded calls after.unrecorded := by
  induction run with
  | nil => exact .nil _
  | takeError _ ih => exact .takeError ih
  | next answers _ ih =>
      have answers' := (ReadSource.forwards_unrecorded.answers_iff _).1 answers
      rw [unrecorded_pull answers answers'] at ih
      exact .next answers' ih

/-- Keeping a log makes no difference to what the calls lead to. -/
theorem Runs.exists_recorded {plain : Course ρ} (run : Runs course.unrecorded calls plain) :
    ∃ after, after.unrecorded = plain ∧ Runs course calls after := by
  generalize hstart : course.unrecorded = start at run
  induction run generalizing course with
  | nil => exact ⟨course, hstart, .nil course⟩
  | takeError _ ih =>
      subst hstart
      obtain ⟨after, hafter, run⟩ := @ih course.takeError rfl
      exact ⟨after, hafter, .takeError run⟩
  | next answers' _ ih =>
      subst hstart
      have answers := (ReadSource.forwards_unrecorded.answers_iff course.source).2 answers'
      obtain ⟨after, hafter, run⟩ := ih (unrecorded_pull answers answers')
      exact ⟨after, hafter, .next answers run⟩

end Unrecorded

/-- The error that ended the sequence, if the last exchange was an error. -/
def ending? (log : List (Exchange ρ)) : Option IoError := log.getLast?.bind Exchange.failure?

omit [Reader ρ] in
theorem ending?_concat (log : List (Exchange ρ)) (last : Exchange ρ) :
    ending? (log ++ [last]) = last.failure? := by
  simp [ending?]

/-- What holds between the results of the calls and the log of the reader, which was first asked to
fill `first`. -/
structure Agrees (reader : ρ) (first : ByteArray) (course : Course (Recorded ρ)) : Prop where
  asked : Asked reader first course.source.reader.log course.source.reader.reader
    course.source.asking
  finished_iff : course.source.finished = true ↔ [] ∈ course.chunks
  given_eq : course.source.reader.log.flatMap Exchange.given = course.chunks.flatten
  counted_eq : course.source.counted = UInt64.ofNat course.chunks.flatten.length
  ongoing : course.source.finished = false → ending? course.source.reader.log = none
  errors_eq : course.errors.filterMap id ++ course.source.error.toList =
    (ending? course.source.reader.log).toList

variable {reader : ρ} {first : ByteArray} {course : Course (Recorded ρ)}

theorem agrees_opened (pool : Pool) (reader : ρ) (requested : Nat) :
    Agrees reader (opened pool reader requested).source.asking
      (opened pool (Recorded.mk reader []) requested) := by
  constructor
  · exact .nil _ _
  · simp [opened, ReadSource.start]
  · rfl
  · rfl
  · exact fun _ => rfl
  · rfl

theorem Agrees.pull (h : Agrees reader first course) (answers : Source.Answers course.source) :
    Agrees reader first (course.pull answers) := by
  cases hfinished : course.source.finished with
  | true =>
      have hpull := ReadSource.pull_of_finished answers hfinished
      have hmem := h.finished_iff.1 hfinished
      simp only [Course.pull, hpull]
      exact { h with
        finished_iff := ⟨fun _ => by simp, fun _ => hfinished⟩
        given_eq := by simpa using h.given_eq
        counted_eq := by simpa using h.counted_eq }
  | false =>
      obtain ⟨skipped, last, exchanged⟩ := ReadSource.exists_exchanges answers hfinished
      have hlog := exchanged.log_eq
      have reflects := exchanged.reflects
      have hnotMem : [] ∉ course.chunks := fun hmem => by
        simp [h.finished_iff.2 hmem] at hfinished
      -- The new part of the log gives what its last exchange gives, and no error was there before.
      have hskipped : skipped.flatMap Exchange.given = [] :=
        List.flatMap_eq_nil_iff.2 fun exchange hmem =>
          Exchange.given_of_interrupted (exchanged.interrupted exchange hmem)
      have herrors := h.errors_eq
      rw [h.ongoing hfinished, Option.toList_none, List.append_eq_nil_iff] at herrors
      obtain ⟨htaken, hkept⟩ := herrors
      constructor
      · simp only [Course.pull]
        rw [hlog]
        exact h.asked.append exchanged.asked
      · simp only [Course.pull, List.mem_append, hnotMem, false_or, List.mem_singleton]
        rw [reflects.finished_iff, reflects.chunk_eq, eq_comm]
      · simp only [Course.pull]
        rw [hlog, reflects.chunk_eq]
        simp [h.given_eq, hskipped]
      · simp only [Course.pull]
        rw [reflects.counted_eq, reflects.chunk_eq, h.counted_eq]
        simp
      · intro hongoing
        simp only [Course.pull] at hongoing ⊢
        rw [hlog, ← List.append_assoc, ending?_concat]
        apply Exchange.failure?_of_given
        intro hnil
        simp [reflects.finished_iff.2 hnil] at hongoing
      · simp only [Course.pull]
        rw [hlog, ← List.append_assoc, ending?_concat, reflects.error_eq, htaken,
          Option.toList_eq_nil_iff.1 hkept, Option.or_none, List.nil_append]

theorem Agrees.takeError (h : Agrees reader first course) :
    Agrees reader first course.takeError := by
  refine { h with errors_eq := ?_ }
  have herrors := h.errors_eq
  cases herror : course.source.error <;> simp_all [Course.takeError, ReadSource.takeError]

theorem Agrees.runs {after : Course (Recorded ρ)} {calls : List Call}
    (run : Runs course calls after) (h : Agrees reader first course) : Agrees reader first after := by
  induction run with
  | nil => exact h
  | next answers _ ih => exact ih (h.pull answers)
  | takeError _ ih => exact ih h.takeError

/-- A word counts the bytes of the chunks as long as there are fewer than words. -/
theorem Agrees.bytesRead_eq (h : Agrees reader first course)
    (hlength : course.chunks.flatten.length < UInt64.size) :
    course.source.bytesRead = course.chunks.flatten.length := by
  rw [ReadSource.bytesRead, h.counted_eq, UInt64.toNat_ofNat']
  exact Nat.mod_eq_of_lt hlength

end Course

end ContentAddress
