import ContentAddress.Proofs.HeldChunks
import ContentAddress.Queues
import Mathlib.Data.List.Induction

/-!
# Numbered queues deliver every chunk once

What is waiting in a queue can be read off the calls about it: a push adds its chunk unless that is
empty, a call for the next chunk delivers the first one, and a put delivers all of them.  A list
with a cursor keeps to this also after it was emptied, because the cursor stops right behind the
last chunk.  The induction is on the calls made so far, the last one split off.
-/

namespace ContentAddress

open Source

namespace ChunkList

/-- The list still has these chunks to yield, and can be added to. -/
structure Awaits (list : ChunkList) (waiting : List Bytes) : Prop where
  position_le : list.position ≤ list.chunks.size
  pending_eq : list.pending = waiting
  filled : ∀ chunk ∈ waiting, chunk ≠ []

theorem awaits_empty : empty.Awaits [] := by
  constructor
  · exact Nat.le_refl _
  · rfl
  · simp

theorem pending_push {list : ChunkList} (hposition : list.position ≤ list.chunks.size)
    {chunk : Bytes} (hchunk : chunk ≠ []) : (list.push chunk).pending = list.pending ++ [chunk] := by
  have hpush : list.push chunk = { list with chunks := list.chunks.push chunk } :=
    if_neg (by simpa using hchunk)
  rw [hpush, pending, Array.toList_push, List.drop_append_of_le_length (by simpa using hposition)]
  rfl

theorem push_nil (list : ChunkList) : list.push [] = list := rfl

variable {list : ChunkList} {waiting : List Bytes}

theorem Awaits.push (h : list.Awaits waiting) {chunk : Bytes} (hchunk : chunk ≠ []) :
    (list.push chunk).Awaits (waiting ++ [chunk]) := by
  refine ⟨?_, ?_, ?_⟩
  · have hpush : list.push chunk = { list with chunks := list.chunks.push chunk } :=
      if_neg (by simpa using hchunk)
    rw [hpush, Array.size_push]
    exact Nat.le_succ_of_le h.position_le
  · rw [pending_push h.position_le hchunk, h.pending_eq]
  · intro other hmem
    rcases List.mem_append.1 hmem with hmem | hmem
    · exact h.filled other hmem
    · rw [List.mem_singleton.1 hmem]
      exact hchunk

theorem Awaits.next (h : list.Awaits waiting) :
    (Source.next list).chunk = waiting.headD [] ∧
      (Source.next list).source.Awaits waiting.tail := by
  cases waiting with
  | nil =>
      rw [next_of_pending_nil h.pending_eq]
      exact ⟨rfl, h⟩
  | cons chunk rest =>
      obtain ⟨hnext, hrest⟩ := next_of_pending_cons h.pending_eq
      have hlen := congrArg List.length h.pending_eq
      rw [pending, List.length_drop, Array.length_toList, List.length_cons] at hlen
      rw [hnext]
      refine ⟨rfl, ?_, hrest, fun other hmem => h.filled other (List.mem_cons_of_mem _ hmem)⟩
      change list.position + 1 ≤ list.chunks.size
      omega

/-- A put takes over all the chunks, and leaves the cursor right behind them. -/
theorem Awaits.put (h : list.Awaits waiting) (client : Client) {pool : Pool}
    (hpool : pool.Reachable) (ends : Ends list) :
    (client.put pool list ends).id = client.putBytes waiting.flatten ∧
      (client.put pool list ends).source.Awaits [] := by
  obtain ⟨hposition, rfl, hfilled⟩ := h
  have run := drains hfilled
  have hlen : list.pending.length = list.chunks.size - list.position := by
    rw [pending, List.length_drop, Array.length_toList]
  constructor
  · exact run.id_put client hpool ends
  · rw [run.source_put client pool ends]
    refine ⟨?_, ?_, by simp⟩
    · change list.position + list.pending.length ≤ list.chunks.size
      omega
    · apply List.drop_eq_nil_of_le
      rw [Array.length_toList]
      change list.chunks.size ≤ list.position + list.pending.length
      omega

end ChunkList

namespace Queues

/-! ## The calls about one queue -/

def Call.queue? : Call → Option Nat
  | .open => none
  | .push queue _ => some queue
  | .next queue => some queue
  | .put queue => some queue

/-- The deliveries of a queue, one for each call that delivers, and the chunks that wait. -/
structure Account where
  delivered : List (List Bytes) := []
  waiting : List Bytes := []

def Account.record (account : Account) : Call → Account
  | .open => account
  | .push _ chunk =>
      if chunk = [] then account else { account with waiting := account.waiting ++ [chunk] }
  | .next _ =>
      ⟨account.delivered ++ [account.waiting.take 1], account.waiting.tail⟩
  | .put _ => ⟨account.delivered ++ [account.waiting], []⟩

def account (queue : Nat) (calls : List Call) : Account :=
  (calls.filter fun call => call.queue? = some queue).foldl Account.record {}

def pushed (queue : Nat) (calls : List Call) : List Bytes :=
  calls.filterMap fun
    | .push other chunk => if other = queue ∧ chunk ≠ [] then some chunk else none
    | _ => none

theorem account_concat_of_eq {queue : Nat} {call : Call} (h : call.queue? = some queue)
    (calls : List Call) :
    account queue (calls ++ [call]) = (account queue calls).record call := by
  simp [account, h]

theorem account_concat_of_ne {queue : Nat} {call : Call} (h : call.queue? ≠ some queue)
    (calls : List Call) : account queue (calls ++ [call]) = account queue calls := by
  simp [account, h]

/-- What was pushed is what was delivered and then what waits, each chunk once and in order. -/
theorem flatten_delivered_append_waiting (queue : Nat) (calls : List Call) :
    (account queue calls).delivered.flatten ++ (account queue calls).waiting =
      pushed queue calls := by
  induction calls using List.reverseRecOn with
  | nil => rfl
  | append_singleton calls call ih =>
      rw [pushed, List.filterMap_append, ← pushed, ← ih]
      by_cases h : call.queue? = some queue
      · rw [account_concat_of_eq h]
        cases call with
        | «open» => simp [Call.queue?] at h
        | push other chunk =>
            obtain rfl : other = queue := Option.some.inj h
            by_cases hchunk : chunk = [] <;> simp [Account.record, hchunk]
        | next other =>
            have htake : (account queue calls).waiting.take 1 ++ (account queue calls).waiting.tail =
                (account queue calls).waiting := by
              rw [← List.drop_one, List.take_append_drop]
            simp [Account.record, htake]
        | put other => simp [Account.record]
      · rw [account_concat_of_ne h]
        cases call with
        | push other chunk =>
            have hne : other ≠ queue := fun hother => h (congrArg some hother)
            simp [hne]
        | _ => simp

theorem filled_waiting (queue : Nat) (calls : List Call) :
    ∀ chunk ∈ (account queue calls).waiting, chunk ≠ [] := by
  intro chunk hmem
  have hpushed : chunk ∈ pushed queue calls := by
    rw [← flatten_delivered_append_waiting]
    exact List.mem_append_right _ hmem
  obtain ⟨call, -, hcall⟩ := List.mem_filterMap.1 hpushed
  cases call with
  | push other pushed =>
      obtain ⟨⟨-, hne⟩, rfl⟩ : (other = queue ∧ pushed ≠ []) ∧ pushed = chunk := by
        simpa using hcall
      exact hne
  | _ => simp at hcall

/-! ## Runs -/

def step (bank : Queues) (call : Call) : Option Queues := (bank.perform call).map Prod.fst

/-- The queues after some calls, if each could be answered. -/
def after (calls : List Call) : Option Queues := calls.foldlM step {}

theorem after_concat {calls : List Call} {bank : Queues} (h : after calls = some bank)
    (call : Call) : after (calls ++ [call]) = bank.step call := by
  rw [after, List.foldlM_append, ← after, h]
  change bank.step call >>= pure = bank.step call
  exact bind_pure _

def opened (calls : List Call) : Nat := calls.count .open

/-- Every call is about a queue that is open by then, if `count` are open at first. -/
def InOrder (count : Nat) : List Call → Prop
  | [] => True
  | call :: calls =>
      (∀ queue, call.queue? = some queue → queue < count) ∧ InOrder (count + opened [call]) calls

theorem inOrder_concat {count : Nat} {calls : List Call} {call : Call} :
    InOrder count (calls ++ [call]) ↔
      InOrder count calls ∧ ∀ queue, call.queue? = some queue → queue < count + opened calls := by
  induction calls generalizing count with
  | nil => simp [InOrder, opened]
  | cons first calls ih =>
      have hopened : opened (first :: calls) = opened [first] + opened calls :=
        @List.count_append Call _ _ [first] calls
      rw [List.cons_append, InOrder, InOrder, ih, hopened, Nat.add_assoc, and_assoc]

/-- The answer that the calls made before determine.  The accounts give what waits. -/
def Call.answer (earlier : List Call) : Call → Answer
  | .open => .done
  | .push _ _ => .done
  | .next queue => .chunk ((account queue earlier).waiting.headD [])
  | .put queue => .value (Xxh64.hash 0 (account queue earlier).waiting.flatten)

/-- Each queue of the bank holds what its account says is waiting. -/
structure Tracks (bank : Queues) (calls : List Call) : Prop where
  reachable : bank.pool.Reachable
  size_eq : bank.queues.size = opened calls
  awaits : ∀ (queue : Nat) (list : ChunkList), bank.queues[queue]? = some list →
    list.Awaits (account queue calls).waiting
  unopened : ∀ queue, opened calls ≤ queue → account queue calls = {}

theorem tracks_start : Tracks {} [] := by
  refine ⟨Pool.reachable_empty, rfl, ?_, fun _ _ => rfl⟩
  intro queue list h
  simp at h

variable {bank : Queues} {calls : List Call}

theorem Tracks.set (h : Tracks bank calls) {call : Call} {queue : Nat}
    (hqueue : call.queue? = some queue) (hlt : queue < opened calls) {pool : Pool}
    (hpool : pool.Reachable) {list : ChunkList}
    (hlist : list.Awaits ((account queue calls).record call).waiting) :
    Tracks ⟨bank.queues.setIfInBounds queue list, pool⟩ (calls ++ [call]) := by
  have hopened : opened (calls ++ [call]) = opened calls := by
    cases call with
    | «open» => simp [Call.queue?] at hqueue
    | _ => simp [opened]
  refine ⟨hpool, ?_, ?_, ?_⟩
  · rw [Array.size_setIfInBounds, hopened]
    exact h.size_eq
  · intro other held hget
    rw [Array.getElem?_setIfInBounds] at hget
    by_cases hother : queue = other
    · subst hother
      rw [account_concat_of_eq hqueue]
      rw [if_pos rfl, if_pos (h.size_eq ▸ hlt)] at hget
      exact Option.some.inj hget ▸ hlist
    · rw [account_concat_of_ne (by simpa [hqueue] using hother)]
      rw [if_neg hother] at hget
      exact h.awaits other held hget
  · intro other hle
    rw [hopened] at hle
    have hne : queue ≠ other := by omega
    rw [account_concat_of_ne (by simpa [hqueue] using hne)]
    exact h.unopened other hle

theorem Tracks.open (h : Tracks bank calls) :
    Tracks { bank with queues := bank.queues.push .empty } (calls ++ [.open]) := by
  have hopened : opened (calls ++ [.open]) = opened calls + 1 := by simp [opened]
  have haccount : ∀ queue, account queue (calls ++ [.open]) = account queue calls :=
    fun queue => account_concat_of_ne (by simp [Call.queue?]) calls
  refine ⟨h.reachable, ?_, ?_, ?_⟩
  · rw [Array.size_push, hopened, h.size_eq]
  · intro queue list hget
    rw [haccount]
    rw [Array.getElem?_push] at hget
    split at hget
    · next hqueue =>
      -- The new queue comes next in number, and no call was about it yet.
      rw [h.unopened queue (Nat.le_of_eq (hqueue.trans h.size_eq).symm)]
      exact Option.some.inj hget ▸ ChunkList.awaits_empty
    · exact h.awaits queue list hget
  · intro queue hle
    rw [haccount]
    apply h.unopened
    omega

theorem Tracks.perform (h : Tracks bank calls) {call : Call}
    (hopened : ∀ queue, call.queue? = some queue → queue < opened calls) :
    ∃ next, bank.perform call = some (next, call.answer calls) ∧
      Tracks next (calls ++ [call]) := by
  have hget : ∀ queue, call.queue? = some queue → ∃ list, bank.queues[queue]? = some list := by
    intro queue hqueue
    have hlt : queue < bank.queues.size := h.size_eq ▸ hopened queue hqueue
    exact ⟨_, Array.getElem?_eq_getElem hlt⟩
  cases call with
  | «open» => exact ⟨_, rfl, h.open⟩
  | push queue chunk =>
      obtain ⟨list, hlist⟩ := hget queue rfl
      have hawaits := h.awaits queue list hlist
      refine ⟨⟨bank.queues.setIfInBounds queue (list.push chunk), bank.pool⟩, ?_, ?_⟩
      · rw [Queues.perform, hlist]
        rfl
      · refine h.set rfl (hopened queue rfl) h.reachable ?_
        by_cases hchunk : chunk = []
        · rw [hchunk]
          exact hawaits
        · rw [Account.record, if_neg hchunk]
          exact hawaits.push hchunk
  | next queue =>
      obtain ⟨list, hlist⟩ := hget queue rfl
      obtain ⟨hchunk, hrest⟩ := (h.awaits queue list hlist).next
      refine ⟨⟨bank.queues.setIfInBounds queue (Source.next list).source, bank.pool⟩, ?_, ?_⟩
      · rw [Queues.perform, hlist, Call.answer, ← hchunk]
        rfl
      · exact h.set rfl (hopened queue rfl) h.reachable hrest
  | put queue =>
      obtain ⟨list, hlist⟩ := hget queue rfl
      have hends : Ends list := Finite.ends list
      obtain ⟨hid, hrest⟩ := (h.awaits queue list hlist).put client h.reachable hends
      have hvalue : (client.put bank.pool list hends).id.value =
          Xxh64.hash 0 (account queue calls).waiting.flatten := by
        rw [hid]
        rfl
      refine ⟨⟨bank.queues.setIfInBounds queue (client.put bank.pool list hends).source,
        (client.put bank.pool list hends).pool⟩, ?_, ?_⟩
      · rw [Queues.perform, hlist, Call.answer, ← hvalue]
        rfl
      · exact h.set rfl (hopened queue rfl) (h.reachable.put client list hends) hrest

theorem getElem?_perform {next : Queues} {call : Call} {answer : Answer}
    (h : bank.perform call = some (next, answer)) {other : Nat} {list : ChunkList}
    (hother : call.queue? ≠ some other) (hlist : bank.queues[other]? = some list) :
    next.queues[other]? = some list := by
  have hset : ∀ queue held, call.queue? = some queue →
      (bank.queues.setIfInBounds queue held)[other]? = some list := by
    intro queue held hqueue
    rw [Array.getElem?_setIfInBounds, if_neg (fun heq : queue = other => hother (heq ▸ hqueue))]
    exact hlist
  cases call with
  | «open» =>
      obtain ⟨hlt, -⟩ := Array.getElem?_eq_some_iff.1 hlist
      cases h
      change (bank.queues.push .empty)[other]? = some list
      rw [Array.getElem?_push_lt hlt]
      exact hlist ▸ (Array.getElem?_eq_getElem hlt).symm
  | push queue chunk =>
      obtain ⟨held, -, heq⟩ := Option.map_eq_some_iff.1 h
      cases heq
      exact hset queue _ rfl
  | next queue =>
      obtain ⟨held, -, heq⟩ := Option.map_eq_some_iff.1 h
      cases heq
      exact hset queue _ rfl
  | put queue =>
      obtain ⟨held, -, heq⟩ := Option.map_eq_some_iff.1 h
      cases heq
      exact hset queue _ rfl

theorem eq_of_perform_push_nil {next : Queues} {queue : Nat} {answer : Answer}
    (h : bank.perform (.push queue []) = some (next, answer)) : next = bank := by
  obtain ⟨list, hlist, heq⟩ := Option.map_eq_some_iff.1 h
  cases heq
  obtain ⟨hlt, rfl⟩ := Array.getElem?_eq_some_iff.1 hlist
  rw [ChunkList.push_nil, Array.setIfInBounds_def, dif_pos hlt, Array.set_getElem_self]

theorem exists_after (horder : InOrder 0 calls) :
    ∃ bank, after calls = some bank ∧ Tracks bank calls := by
  induction calls using List.reverseRecOn with
  | nil => exact ⟨{}, rfl, tracks_start⟩
  | append_singleton calls call ih =>
      obtain ⟨hinit, hlast⟩ := inOrder_concat.1 horder
      rw [Nat.zero_add] at hlast
      obtain ⟨bank, hafter, htracks⟩ := ih hinit
      obtain ⟨next, hperform, hnext⟩ := htracks.perform hlast
      refine ⟨next, ?_, hnext⟩
      rw [after_concat hafter, step, hperform]
      rfl

/-- Calls that are in order are all answered, and each answer is determined by the calls about its
own queue: the first waiting chunk, or the identifier of all of them.  What was pushed to a queue is
what its calls delivered, each chunk once and in order, and then what waits.  A part of a sequence
of calls that is in order is in order, so this holds of every call of the sequence. -/
theorem perform_delivers_once {earlier : List Call} {call : Call}
    (horder : InOrder 0 (earlier ++ [call])) :
    ∃ bank next, after earlier = some bank ∧ after (earlier ++ [call]) = some next ∧
      bank.perform call = some (next, call.answer earlier) ∧
      (∀ queue, (account queue (earlier ++ [call])).delivered.flatten ++
          (account queue (earlier ++ [call])).waiting = pushed queue (earlier ++ [call]) ∧
        ((account queue earlier).waiting.headD [] = [] ↔ (account queue earlier).waiting = [])) ∧
      (∀ (other : Nat) (list : ChunkList), call.queue? ≠ some other →
        bank.queues[other]? = some list → next.queues[other]? = some list) ∧
      ∀ queue, call = .push queue [] → next = bank := by
  obtain ⟨hinit, hlast⟩ := inOrder_concat.1 horder
  rw [Nat.zero_add] at hlast
  obtain ⟨bank, hafter, htracks⟩ := exists_after hinit
  obtain ⟨next, hperform, -⟩ := htracks.perform hlast
  refine ⟨bank, next, hafter, ?_, hperform, ?_, ?_, ?_⟩
  · rw [after_concat hafter, step, hperform]
    rfl
  · intro queue
    refine ⟨flatten_delivered_append_waiting queue _, ?_⟩
    have hfilled := filled_waiting queue earlier
    cases hwaiting : (account queue earlier).waiting with
    | nil => exact iff_of_true rfl rfl
    | cons chunk rest =>
        have hchunk : chunk ≠ [] := hfilled chunk (by rw [hwaiting]; exact List.mem_cons_self)
        exact iff_of_false hchunk (List.cons_ne_nil chunk rest)
  · intro other list hother hlist
    exact getElem?_perform hperform hother hlist
  · rintro queue rfl
    exact eq_of_perform_push_nil hperform

/-- A chunk is pushed to a queue that was emptied by a put, after a call about another queue. -/
theorem perform_delivers_once_refilled :
    let earlier : List Call := [.open, .push 0 [120], .open, .put 0, .push 1 [97], .push 0 [],
      .push 0 [121, 122]]
    InOrder 0 (earlier ++ [.put 0]) ∧ ∃ bank next, after earlier = some bank ∧
      bank.perform (.put 0) = some (next, .value (Xxh64.hash 0 [121, 122])) ∧
      pushed 0 (earlier ++ [.put 0]) = [[120], [121, 122]] ∧
      (account 0 (earlier ++ [.put 0])).delivered = [[[120]], [[121, 122]]] := by
  intro earlier
  have horder : InOrder 0 (earlier ++ [.put 0]) := by
    simp [earlier, InOrder, opened, Call.queue?]
  obtain ⟨bank, next, hafter, -, hperform, -⟩ := perform_delivers_once horder
  exact ⟨horder, bank, next, hafter, hperform, rfl, rfl⟩

end Queues

end ContentAddress
