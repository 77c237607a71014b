import ContentAddress.Hasher
import Mathlib.Data.List.Forall2

/-!
# Runs of a bank of hashers

Beside a bank stands a record of what each of its hashers was fed since it was last reset.  A
relation between a hasher and such content that updates and resets keep holds of every hasher after
any run, whatever was copied when: the induction is on the steps of the run, and the lists of
hashers and of contents stay related position by position.
-/

namespace ContentAddress

open List (Forall₂)

/-- One step of a run: what is done with the hasher at this position of the bank. -/
structure HasherStep where
  index : Nat
  action : HasherAction
deriving DecidableEq, Repr

namespace HasherStep

/-- The record after one more step: a copy begins with what its original was fed. -/
def record (fed : List Bytes) (step : HasherStep) : List Bytes :=
  match step.action with
  | .update data => fed.modify step.index (· ++ data)
  | .reset => fed.set step.index []
  | .finalize => fed
  | .clone => fed ++ fed[step.index]?.toList

def countAfter (count : Nat) (step : HasherStep) : Nat :=
  match step.action with
  | .clone => count + 1
  | _ => count

/-- Every step is about a hasher that is there by then, if there are `count` at first. -/
def InRange : Nat → List HasherStep → Prop
  | _, [] => True
  | count, step :: steps => step.index < count ∧ InRange (step.countAfter count) steps

/-- What each hasher of a bank that begins with one fresh hasher was fed since its last reset. -/
def fed (steps : List HasherStep) : List Bytes := steps.foldl record [[]]

theorem record_update {fed : List Bytes} {index : Nat} {content : Bytes}
    (h : fed[index]? = some content) (data : Bytes) :
    record fed ⟨index, .update data⟩ = fed.set index (content ++ data) := by
  change fed.modify index (· ++ data) = _
  rw [List.modify_eq_set, h, Option.getD_some]

theorem record_clone {fed : List Bytes} {index : Nat} {content : Bytes}
    (h : fed[index]? = some content) : record fed ⟨index, .clone⟩ = fed ++ [content] := by
  change fed ++ fed[index]?.toList = _
  rw [h, Option.toList_some]

theorem length_record {fed : List Bytes} {step : HasherStep} (h : step.index < fed.length) :
    (record fed step).length = step.countAfter fed.length := by
  obtain ⟨index, action⟩ := step
  cases action with
  | update data => exact List.length_modify ..
  | reset => exact List.length_set
  | finalize => rfl
  | clone =>
      rw [record_clone (List.getElem?_eq_getElem h), List.length_append]
      rfl

end HasherStep

namespace HasherBank

def step (bank : HasherBank) (next : HasherStep) : Option HasherBank :=
  (bank.perform next.index next.action).map Prod.fst

def run (bank : HasherBank) (steps : List HasherStep) : Option HasherBank :=
  steps.foldlM step bank

theorem run_cons {bank after : HasherBank} {first : HasherStep} (h : bank.step first = some after)
    (steps : List HasherStep) : bank.run (first :: steps) = after.run steps := by
  rw [run, List.foldlM_cons, h]
  rfl

theorem perform_of_getElem? {bank : HasherBank} {index : Nat} {hasher : Hasher}
    (h : bank.hashers[index]? = some hasher) :
    bank.perform index .finalize = some (bank, hasher.id) := by
  rw [perform, h, Option.map_some]

end HasherBank

/-! ## Lists related position by position -/

section Related

universe u v

variable {α : Type u} {β : Type v} {R : α → β → Prop}

theorem forall₂_set {as : List α} {bs : List β} (h : Forall₂ R as bs) {a : α} {b : β}
    (hab : R a b) (index : Nat) : Forall₂ R (as.set index a) (bs.set index b) := by
  induction h generalizing index with
  | nil => exact .nil
  | cons hhead htail ih =>
      cases index with
      | zero => exact .cons hab htail
      | succ index => exact .cons hhead (ih index)

theorem forall₂_concat {as : List α} {bs : List β} (h : Forall₂ R as bs) {a : α} {b : β}
    (hab : R a b) : Forall₂ R (as ++ [a]) (bs ++ [b]) :=
  List.rel_append h (.cons hab .nil)

theorem getElem?_of_forall₂ {as : List α} {bs : List β} (h : Forall₂ R as bs) {index : Nat}
    (hlt : index < bs.length) :
    ∃ a b, as[index]? = some a ∧ bs[index]? = some b ∧ R a b := by
  have hlt' : index < as.length := by
    rw [h.length_eq]
    exact hlt
  exact ⟨as[index], bs[index], List.getElem?_eq_getElem hlt', List.getElem?_eq_getElem hlt,
    h.get hlt' hlt⟩

end Related

/-! ## What a run keeps -/

/-- Updates and resets keep the relation between a hasher and what it was fed. -/
structure Hasher.Kept (Tracks : Hasher → Bytes → Prop) : Prop where
  update : ∀ {hasher content}, Tracks hasher content →
    ∀ data, Tracks (hasher.update data) (content ++ data)
  reset : ∀ {hasher content}, Tracks hasher content → Tracks hasher.reset []

namespace HasherBank

variable {Tracks : Hasher → Bytes → Prop}

theorem exists_step {bank : HasherBank} {fed : List Bytes} {next : HasherStep}
    (hkept : Hasher.Kept Tracks) (h : Forall₂ Tracks bank.hashers fed)
    (hlt : next.index < fed.length) :
    ∃ after, bank.step next = some after ∧ Forall₂ Tracks after.hashers (next.record fed) := by
  obtain ⟨index, action⟩ := next
  obtain ⟨hasher, content, hhasher, hcontent, htracks⟩ := getElem?_of_forall₂ h hlt
  rw [step, perform, hhasher]
  cases action with
  | update data =>
      refine ⟨⟨bank.hashers.set index (hasher.update data)⟩, rfl, ?_⟩
      rw [HasherStep.record_update hcontent]
      exact forall₂_set h (hkept.update htracks data) index
  | reset =>
      refine ⟨⟨bank.hashers.set index hasher.reset⟩, rfl, ?_⟩
      exact forall₂_set h (hkept.reset htracks) index
  | finalize => exact ⟨bank, rfl, h⟩
  | clone =>
      refine ⟨⟨bank.hashers ++ [hasher]⟩, rfl, ?_⟩
      rw [HasherStep.record_clone hcontent]
      exact forall₂_concat h htracks

theorem exists_run {bank : HasherBank} {fed : List Bytes} {steps : List HasherStep}
    (hkept : Hasher.Kept Tracks) (h : Forall₂ Tracks bank.hashers fed)
    (hrange : HasherStep.InRange fed.length steps) :
    ∃ after, bank.run steps = some after ∧
      Forall₂ Tracks after.hashers (steps.foldl HasherStep.record fed) := by
  induction steps generalizing bank fed with
  | nil => exact ⟨bank, rfl, h⟩
  | cons first steps ih =>
      obtain ⟨hlt, hrest⟩ := hrange
      obtain ⟨next, hstep, hnext⟩ := exists_step hkept h hlt
      -- The record has grown with the bank, so the other steps are in range of it.
      rw [← HasherStep.length_record hlt] at hrest
      obtain ⟨after, hrun, hafter⟩ := ih hnext hrest
      exact ⟨after, (run_cons hstep steps).trans hrun, hafter⟩

theorem exists_run_start {config : Config} {steps : List HasherStep} (hkept : Hasher.Kept Tracks)
    (hstart : Tracks (Hasher.start config) []) (hrange : HasherStep.InRange 1 steps) :
    ∃ after, (start config).run steps = some after ∧
      Forall₂ Tracks after.hashers (HasherStep.fed steps) :=
  exists_run hkept (.cons hstart .nil) hrange

end HasherBank

end ContentAddress
