import ContentAddress.Proofs.ReadHistory
import ContentAddress.Source.ChunkList
import Mathlib.Data.List.Chain

/-!
# Bytes that a reader finds in its buffer

A reader may report bytes that it has not written, so what it finds in the buffer can end up in a
chunk.  The buffer has been in use before, by other sources and by puts, in any order.  All the
same the first request finds zeros in it, and each later one finds what the reader itself has left
there.
-/

namespace ContentAddress

universe u v

open Source

/-! ## From one request to the next -/

namespace Asked

variable {ρ : Type u} [Reader ρ] {reader after : ρ} {buffer left : ByteArray}
  {exchanges more : List (Exchange ρ)}

theorem of_append (h : Asked reader buffer (exchanges ++ more) after left) :
    ∃ middle between, Asked reader buffer exchanges middle between ∧
      Asked middle between more after left := by
  induction exchanges generalizing reader buffer with
  | nil => exact ⟨reader, buffer, .nil _ _, h⟩
  | cons exchange exchanges ih =>
      cases h with
      | cons rest =>
          obtain ⟨middle, between, hfront, hback⟩ := ih rest
          exact ⟨middle, between, .cons hfront, hback⟩

theorem head_request (h : Asked reader buffer exchanges after left) :
    ∀ first ∈ exchanges.head?, first.request = buffer := by
  cases h with
  | nil => simp
  | cons rest =>
      rintro first ⟨⟩
      rfl

theorem left_eq (h : Asked reader buffer exchanges after left) :
    left = (exchanges.getLast?.map fun exchange => exchange.reply.buffer).getD buffer := by
  induction h with
  | nil => rfl
  | @cons reader after buffer left exchanges rest ih =>
      rw [ih]
      cases exchanges with
      | nil => rfl
      | cons exchange exchanges => simp [List.getLast?_cons]

theorem isChain (h : Asked reader buffer exchanges after left) :
    exchanges.IsChain fun earlier later => later.request = earlier.reply.buffer := by
  induction h with
  | nil => exact .nil
  | cons rest ih =>
      rw [List.isChain_cons]
      exact ⟨rest.head_request, ih⟩

/-- A byte that is not the one that was there in the beginning was put in its place by an answer. -/
theorem origin (h : Asked reader buffer exchanges after left) (place : Nat) :
    left.data.toList[place]? = buffer.data.toList[place]? ∨
      ∃ exchange ∈ exchanges,
        exchange.reply.buffer.data.toList[place]? = left.data.toList[place]? ∧
          exchange.request.data.toList[place]? ≠ left.data.toList[place]? := by
  -- The first answer after which the byte never changes again has put it there.
  induction h with
  | nil => exact .inl rfl
  | @cons reader after buffer left exchanges rest ih =>
      rcases ih with hsame | ⟨exchange, hmem, hwritten⟩
      · by_cases hkept : left.data.toList[place]? = buffer.data.toList[place]?
        · exact .inl hkept
        · exact .inr ⟨_, List.mem_cons_self, hsame.symm, Ne.symm hkept⟩
      · exact .inr ⟨exchange, List.mem_cons_of_mem _ hmem, hwritten⟩

end Asked

namespace ReadSource

variable {ρ : Type u} [Reader ρ] (source : ReadSource (Recorded ρ))

theorem exists_chunk_eq_take (answers : Source.Answers source) :
    ∃ count, (Source.pull source answers).chunk =
      (Source.pull source answers).source.asking.data.toList.take count := by
  cases hfinished : source.finished with
  | true => exact ⟨0, by rw [pull_of_finished answers hfinished, List.take_zero]⟩
  | false =>
      obtain ⟨skipped, last, exchanged⟩ := exists_exchanges answers hfinished
      rw [exchanged.reflects.chunk_eq, ← exchanged.reply_eq]
      cases houtcome : last.reply.outcome with
      | ok count => exact ⟨count, Exchange.given_of_ok houtcome⟩
      | error error => exact ⟨0, by rw [Exchange.given_of_error houtcome, List.take_zero]⟩

/-- The requests that a source has made, the first of them to fill `first`, and the one that it
would make next follow on each other. -/
def Linked (reader : ρ) (first : ByteArray) : Prop :=
  Asked reader first source.reader.log source.reader.reader source.asking

variable {source} {reader : ρ} {first : ByteArray}

theorem Linked.pull (h : source.Linked reader first) (answers : Source.Answers source) :
    (Source.pull source answers).source.Linked reader first := by
  obtain ⟨exchanges, hlog, hasked⟩ := source.asked_pull answers
  rw [Linked, hlog]
  exact h.append hasked

theorem Linked.ask (h : source.Linked reader first) : source.ask.Linked reader first := by
  have hasking : source.ask.asking = (Reader.read source.reader.reader source.asking).buffer :=
    Buffer.data_resize_of_size size_ask
  rw [Linked, hasking]
  exact h.append (.cons (.nil _ _))

theorem Linked.drains {after : ReadSource (Recorded ρ)} {chunks : List Bytes}
    (run : Drains source chunks after) (h : source.Linked reader first) :
    after.Linked reader first := by
  induction run with
  | stop answers => exact h.pull answers
  | more answers _ _ ih => exact ih (h.pull answers)

end ReadSource

/-! ## One source among others -/

/-- A source over `reader` that was opened at some time, with the pool and with the buffers in use
by others as they are now.  The source may be pulled from and put, and the others may take buffers,
do anything to them and give them back, all in any order.  A pull that comes to an end is one step;
one that goes on, or is broken off, is a step for each request that it makes. -/
inductive Amid {ρ : Type u} [Reader ρ] (reader : ρ) (requested : Nat) :
    Pool → List Buffer → ReadSource (Recorded ρ) → Prop
  | opened {pool : Pool} {others : List Buffer} (h : Pool.Traffic pool others) :
      Amid reader requested (ReadSource.start pool (Recorded.mk reader []) requested).2 others
        (ReadSource.start pool (Recorded.mk reader []) requested).1
  | next {pool : Pool} {others : List Buffer} {source : ReadSource (Recorded ρ)}
      (h : Amid reader requested pool others source) (answers : Source.Answers source) :
      Amid reader requested pool others (Source.pull source answers).source
  | ask {pool : Pool} {others : List Buffer} {source : ReadSource (Recorded ρ)}
      (h : Amid reader requested pool others source) (hfinished : source.finished = false) :
      Amid reader requested pool others source.ask
  | takeError {pool : Pool} {others : List Buffer} {source : ReadSource (Recorded ρ)}
      (h : Amid reader requested pool others source) :
      Amid reader requested pool others source.takeError.2
  | put {pool : Pool} {others : List Buffer} {source : ReadSource (Recorded ρ)}
      (h : Amid reader requested pool others source) (client : Client) (ends : Ends source) :
      Amid reader requested (client.put pool source ends).pool others
        (client.put pool source ends).source
  | take {pool : Pool} {others : List Buffer} {source : ReadSource (Recorded ρ)}
      (h : Amid reader requested pool others source) :
      Amid reader requested pool.take.2 (pool.take.1 :: others) source
  | use {pool : Pool} {front back : List Buffer} {before after : Buffer}
      {source : ReadSource (Recorded ρ)}
      (h : Amid reader requested pool (front ++ before :: back) source)
      (huse : Buffer.Use before after) :
      Amid reader requested pool (front ++ after :: back) source
  | give {pool : Pool} {front back : List Buffer} {buffer : Buffer}
      {source : ReadSource (Recorded ρ)}
      (h : Amid reader requested pool (front ++ buffer :: back) source) :
      Amid reader requested (pool.give buffer) (front ++ back) source

namespace Amid

variable {ρ : Type u} [Reader ρ] {reader : ρ} {requested : Nat} {pool : Pool}
  {others : List Buffer} {source : ReadSource (Recorded ρ)}

theorem linked (h : Amid reader requested pool others source) :
    ∃ zeros : ByteArray,
      zeros.data.toList = List.replicate (max 1 (min requested (16 * 1024 * 1024))) 0 ∧
        source.Linked reader zeros := by
  -- What others do changes the pool and their buffers, and the source stays as it is.
  induction h with
  | @opened pool others h =>
      have hbytes : pool.take.1.bytes = [] := Pool.Reachable.bytes_take ⟨others, h⟩
      have hempty : pool.take.1.data.data.toList = [] := hbytes
      have hsize : pool.take.1.data.size = 0 := by
        rw [← Buffer.length_bytes, hbytes]
        rfl
      refine ⟨_, ?_, .nil _ _⟩
      rw [← ReadSource.clampReadSize_eq]
      change (pool.take.1.resize (ReadSource.clampReadSize requested)).data.data.toList = _
      rw [Buffer.resize]
      dsimp only
      rw [if_neg (by omega), Buffer.toList_pushZeros, hempty, hsize]
      rfl
  | next _ answers ih =>
      obtain ⟨zeros, hzeros, hlinked⟩ := ih
      exact ⟨zeros, hzeros, hlinked.pull answers⟩
  | ask _ _ ih =>
      obtain ⟨zeros, hzeros, hlinked⟩ := ih
      exact ⟨zeros, hzeros, hlinked.ask⟩
  | takeError _ ih => exact ih
  | put _ client ends ih =>
      obtain ⟨zeros, hzeros, hlinked⟩ := ih
      obtain ⟨chunks, after, drained⟩ := ends.drains
      rw [drained.source_put]
      exact ⟨zeros, hzeros, hlinked.drains drained⟩
  | take _ ih => exact ih
  | use _ _ ih => exact ih
  | give _ ih => exact ih

/-- In whatever buffer a source was given, the first request finds zeros, as many as are read at a
time, and each later one what the reader has left there.  Bytes that are reported and were not
written come from there, so every byte in a chunk is zero or was put in its place by the reader of
this source. -/
theorem own_bytes (h : Amid reader requested pool others source) :
    let zeros : Bytes := List.replicate (max 1 (min requested (16 * 1024 * 1024))) 0
    (∀ first ∈ source.reader.log.head?, first.request.data.toList = zeros) ∧
      (source.reader.log.IsChain fun earlier later => later.request = earlier.reply.buffer) ∧
      ∀ answers : Source.Answers source,
        let pulled := Source.pull source answers
        (source.finished = false → ∃ (before : List (Exchange ρ)) (last : Exchange ρ),
          pulled.source.reader.log = before ++ [last] ∧
            ∀ count, last.reply.outcome = .ok count →
              last.reply.buffer.data.toList.take count = last.request.data.toList.take count →
              pulled.chunk = (before.getLast?.elim zeros fun exchange =>
                exchange.reply.buffer.data.toList).take count) ∧
        ∀ (place : Nat) (byte : UInt8), pulled.chunk[place]? = some byte →
          byte = 0 ∨ ∃ exchange ∈ pulled.source.reader.log,
            exchange.reply.buffer.data.toList[place]? = some byte ∧
              exchange.request.data.toList[place]? ≠ some byte := by
  intro zeros
  obtain ⟨start, hstart, hasked⟩ := h.linked
  refine ⟨?_, hasked.isChain, fun answers => ?_⟩
  · intro first hfirst
    rw [hasked.head_request first hfirst, hstart]
  intro pulled
  have hpulled : Asked reader start pulled.source.reader.log _ _ :=
    ReadSource.Linked.pull hasked answers
  constructor
  · intro hfinished
    obtain ⟨skipped, last, exchanged⟩ := ReadSource.exists_exchanges answers hfinished
    have hlog : pulled.source.reader.log = source.reader.log ++ skipped ++ [last] :=
      exchanged.log_eq.trans (List.append_assoc ..).symm
    refine ⟨source.reader.log ++ skipped, last, hlog, ?_⟩
    intro count houtcome hstale
    rw [hlog] at hpulled
    obtain ⟨middle, between, hbefore, hlast⟩ := hpulled.of_append
    have hrequest : last.request = between := hlast.head_request last rfl
    have hchunk : pulled.chunk = last.given := exchanged.reflects.chunk_eq
    rw [hchunk, Exchange.given_of_ok houtcome, hstale, hrequest, hbefore.left_eq]
    cases (source.reader.log ++ skipped).getLast? with
    | none => exact congrArg (List.take count) hstart
    | some exchange => rfl
  · intro place byte hbyte
    obtain ⟨count, hchunk⟩ := source.exists_chunk_eq_take answers
    change (Source.pull source answers).chunk[place]? = _ at hbyte
    rw [hchunk] at hbyte
    have hleft : pulled.source.asking.data.toList[place]? = some byte := by
      rw [List.getElem?_take] at hbyte
      split at hbyte
      · exact hbyte
      · cases hbyte
    have horigin := hpulled.origin place
    rw [hleft, hstart] at horigin
    refine horigin.imp_left fun hzero => ?_
    exact List.eq_of_mem_replicate (List.mem_of_getElem? hzero.symm)

/-- A put has left its bytes in the only buffer of the pool when a reader reports three bytes of it
without having written any. -/
theorem own_bytes_stale :
    let pool := (Client.default.put .empty (ChunkList.ofList [[112, 117, 116]]) (Finite.ends _)).pool
    let script : Script := { steps := [.stale 3] }
    let opened := ReadSource.start pool (Recorded.mk script []) 4
    Amid script 4 opened.2 [] opened.1 ∧ ∃ answers : Source.Answers opened.1,
      (Source.pull opened.1 answers).chunk = [0, 0, 0] := by
  intro pool script opened
  have hpool : Pool.Traffic pool [] := Pool.Traffic.start.put Client.default _ _
  have hamid : Amid script 4 opened.2 [] opened.1 := .opened hpool
  have answers : Source.Answers opened.1 := fun _ =>
    Recorded.serves_iff.2 (script.lawful.serves opened.1.asking)
  obtain ⟨-, -, hpulled⟩ := own_bytes hamid
  obtain ⟨hstale, -⟩ := hpulled answers
  obtain ⟨before, last, hlog, hchunk⟩ := hstale rfl
  have settles := (answers rfl).settles
  have hreply : opened.1.reply settles = Reader.read opened.1.reader opened.1.asking := by
    apply Reader.readThrough_of_not
    rintro ⟨error, herror, -⟩
    cases herror
  have hlast : [] ++ [⟨opened.1.asking, Reader.read script opened.1.asking⟩] =
      before ++ [last] := by
    rw [← hlog, (ReadSource.pull_forward settles answers rfl).1, hreply]
    rfl
  obtain ⟨rfl, hlast⟩ := List.append_inj' hlast rfl
  obtain rfl := List.singleton_inj.1 hlast
  have hsize : opened.1.asking.size = 4 := opened.1.size_asking
  have houtcome : (Reader.read script opened.1.asking).outcome = .ok (min 3 opened.1.asking.size) :=
    rfl
  rw [hsize] at houtcome
  exact ⟨hamid, answers, hchunk 3 houtcome rfl⟩

end Amid

end ContentAddress
