import ContentAddress.Reader

/-!
# Scripted readers

A script is a list of answers, one for each request.  Data that does not fit into the buffer stays
for the next request, and after the last answer the content is at its end.
-/

namespace ContentAddress

inductive ScriptStep
  /-- Hands out these bytes, over several requests if necessary. -/
  | data (bytes : Bytes)
  | interrupt
  | fail (error : IoError)
  | zero
  /-- Reports up to `count` bytes and leaves the buffer as it is. -/
  | stale (count : Nat)
deriving DecidableEq, Repr

structure Script where
  steps : List ScriptStep
  /-- The sizes of the buffers in all requests, the latest in front. -/
  requests : List Nat := []
deriving DecidableEq, Repr

namespace Script

def reads (script : Script) : Nat := script.requests.length

/-- The size of the buffer in the last request, zero before the first. -/
def lastRequest (script : Script) : Nat := script.requests.headD 0

/-- A script of the given answers; data without bytes is no answer. -/
def ofSteps (steps : List ScriptStep) : Script := { steps := steps.filter (· ≠ .data []) }

def fillFront (buffer : ByteArray) (bytes : Bytes) : ByteArray :=
  bytes.toByteArray.copySlice 0 buffer 0 bytes.length

theorem toList_fillFront (buffer : ByteArray) (bytes : Bytes) :
    (fillFront buffer bytes).data.toList = bytes ++ buffer.data.toList.drop bytes.length := by
  simp [fillFront, ByteArray.copySlice, List.data_toByteArray, List.take_of_length_le]

theorem size_fillFront {buffer : ByteArray} {bytes : Bytes} (h : bytes.length ≤ buffer.size) :
    (fillFront buffer bytes).size = buffer.size := by
  have hlist := congrArg List.length (toList_fillFront buffer bytes)
  have hsize : ∀ data : ByteArray, data.data.toList.length = data.size := fun data => by simp
  simp only [List.length_append, List.length_drop, hsize] at hlist
  omega

def read (script : Script) (buffer : ByteArray) : Reply Script :=
  let size := buffer.size
  let continued (steps : List ScriptStep) : Script :=
    { steps, requests := size :: script.requests }
  match script.steps with
  | [] => ⟨.ok 0, buffer, continued []⟩
  | .data bytes :: steps =>
      let piece := bytes.take size
      let rest := bytes.drop size
      ⟨.ok piece.length, fillFront buffer piece,
        continued (if rest.isEmpty then steps else .data rest :: steps)⟩
  | .interrupt :: steps => ⟨.error { kind := .interrupted }, buffer, continued steps⟩
  | .fail error :: steps => ⟨.error error, buffer, continued steps⟩
  | .zero :: steps => ⟨.ok 0, buffer, continued steps⟩
  | .stale count :: steps => ⟨.ok (min count size), buffer, continued steps⟩

theorem size_read (script : Script) (buffer : ByteArray) :
    (script.read buffer).buffer.size = buffer.size := by
  simp only [read]
  split
  all_goals try rfl
  exact size_fillFront (by simp only [List.length_take]; omega)

instance : Reader Script := ⟨read, size_read⟩

/-- A bound on the number of requests that a list of answers can serve, however small the buffer. -/
def stepsWeight : List ScriptStep → Nat
  | [] => 0
  | .data bytes :: steps => bytes.length + 1 + stepsWeight steps
  | _ :: steps => 1 + stepsWeight steps

def weight (script : Script) : Nat := stepsWeight script.steps

/-- An interruption uses up an answer, and so does a read of at least one byte. -/
theorem weight_read {script : Script} {buffer : ByteArray}
    (h : (Reader.read script buffer).outcome ≠ .ok 0) :
    (Reader.read script buffer).reader.weight < script.weight := by
  obtain ⟨steps, requests⟩ := script
  match steps with
  | [] => exact absurd rfl h
  | .data bytes :: steps =>
    have hpos : 0 < min buffer.size bytes.length := by
      refine Nat.pos_of_ne_zero fun hzero => h ?_
      simp [Reader.read, read, hzero]
    simp only [Reader.read, read, weight, stepsWeight]
    split
    · omega
    · simp only [stepsWeight, List.length_drop]
      omega
  | .interrupt :: steps => simp [Reader.read, read, weight, stepsWeight]
  | .fail error :: steps => simp [Reader.read, read, weight, stepsWeight]
  | .zero :: steps => exact absurd rfl h
  | .stale count :: steps => simp [Reader.read, read, weight, stepsWeight]

theorem settles (script : Script) (buffer : ByteArray) : Reader.Settles script buffer := by
  have general : ∀ (bound : Nat) (request : Script × ByteArray), request.1.weight = bound →
      Acc Reader.Retries request := by
    intro bound
    induction bound using Nat.strongRecOn with
    | ind bound ih =>
      intro request hbound
      refine Acc.intro request fun after retries => ih _ ?_ after rfl
      obtain ⟨error, herror, -⟩ := retries.1
      have hlt := @weight_read request.1 request.2 (by simp [herror])
      rw [retries.2]
      exact hbound ▸ hlt
  exact general _ (script, buffer) rfl

theorem lawful (script : Script) : Reader.Lawful script where
  count_le _ buffer count h := by
    simp only [Reader.read, read] at h
    split at h <;> simp only [Except.ok.injEq, List.length_take, reduceCtorEq] at h <;> omega
  settles _ buffer := settles _ buffer

end Script

end ContentAddress
