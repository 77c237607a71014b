import ContentAddress.Proofs.ReadLaw
import Mathlib

/-!
# What settings come to

A configuration keeps of each of its parts what was written to it last, and nothing of what was
written before.  Whether it can be used is a question about that result alone, and is answered in
the same way wherever it is asked.  A source over a reader has a guard of its own for the read size;
it leaves alone just the read sizes that pass, so a client's requests are of the size that was set.
-/

namespace ContentAddress

universe u

open Source

namespace Config

/-! ## The last value written -/

namespace Setting

inductive Part
  | algorithm
  | seed
  | readSize
deriving DecidableEq

def part : Setting → Part
  | algorithm _ => .algorithm
  | seed _ => .seed
  | readSize _ => .readSize

def algorithm? : Setting → Option Algorithm
  | .algorithm value => some value
  | _ => none

def seed? : Setting → Option UInt64
  | .seed value => some value
  | _ => none

def readSize? : Setting → Option Nat
  | .readSize value => some value
  | _ => none

end Setting

def apply (config : Config) (settings : List Setting) : Config := settings.foldl set config

theorem set_comm {a b : Setting} (h : a.part ≠ b.part) (config : Config) :
    (config.set a).set b = (config.set b).set a := by
  cases a <;> cases b <;> first | rfl | exact absurd rfl h

section Writes

variable {α : Type u}

/-- What a setting writes to some part of a configuration replaces what was there; a setting that
writes nothing there leaves it. -/
def Writes (written : Setting → Option α) (get : Config → α) : Prop :=
  ∀ (config : Config) (setting : Setting),
    get (config.set setting) = (written setting).getD (get config)

theorem writes_algorithm : Writes Setting.algorithm? algorithm := by
  intro config setting
  cases setting <;> rfl

theorem writes_seed : Writes Setting.seed? seed := by
  intro config setting
  cases setting <;> rfl

theorem writes_readSize : Writes Setting.readSize? readSize := by
  intro config setting
  cases setting <;> rfl

/-- After any settings the part is the last value written to it, or the one at the start. -/
theorem Writes.apply {written : Setting → Option α} {get : Config → α} (h : Writes written get)
    (config : Config) (settings : List Setting) :
    get (config.apply settings) = (settings.filterMap written).getLastD (get config) := by
  induction settings generalizing config with
  | nil => rfl
  | cons setting settings ih =>
      have hrest : get (config.apply (setting :: settings)) = _ := ih (config.set setting)
      rw [hrest, h]
      cases hwritten : written setting with
      | none => rw [List.filterMap_cons_none hwritten, Option.getD_none]
      | some value => rw [List.filterMap_cons_some hwritten, Option.getD_some, List.getLastD_cons]

end Writes

/-! ## One verdict -/

theorem make_eq (config : Config) :
    make config.algorithm config.seed config.readSize =
      if config.readSize = 0 then .error .zeroReadSize
      else if maxReadSize < config.readSize then .error .readSizeTooLarge
      else .ok config := by
  unfold make validate fault?
  dsimp only
  split_ifs <;> rfl

theorem validate_eq (config : Config) :
    config.validate =
      (make config.algorithm config.seed config.readSize).map fun _ => () := by
  unfold make
  dsimp only
  change config.validate = (config.validate.map fun _ => config).map fun _ => ()
  cases config.validate <;> rfl

theorem validate_eq_ok_iff {config : Config} : config.validate = .ok () ↔ config.Valid := by
  rw [← fault?_eq_none_iff]
  unfold validate
  cases config.fault? <;> simp

end Config

namespace Client

theorem ofConfig_eq_ok_iff {config : Config} {client : Client} :
    ofConfig config = .ok client ↔ client.config = config := by
  unfold ofConfig
  split
  · next fault hfault =>
    constructor
    · intro h
      cases h
    · rintro rfl
      rw [Config.fault?_eq_none_iff.2 client.valid] at hfault
      cases hfault
  · obtain ⟨config', hvalid⟩ := client
    simp [eq_comm]

theorem exists_ofConfig_iff {config : Config} :
    (∃ client, ofConfig config = .ok client) ↔ config.Valid := by
  constructor
  · rintro ⟨client, hclient⟩
    exact ofConfig_eq_ok_iff.1 hclient ▸ client.valid
  · exact fun hvalid => ⟨⟨config, hvalid⟩, ofConfig_eq_ok_iff.2 rfl⟩

theorem map_config_ofConfig (config : Config) :
    (ofConfig config).map Client.config =
      Config.make config.algorithm config.seed config.readSize := by
  change _ = config.validate.map fun _ => config
  unfold ofConfig Config.validate
  split <;> simp_all [Except.map]

end Client

/-! ## The size of every request -/

theorem ReadSource.clampReadSize_eq_iff (config : Config) :
    clampReadSize config.readSize = config.readSize ↔ config.Valid := by
  unfold clampReadSize Config.Valid maxReadSize
  omega

theorem Course.Runs.size_request {ρ : Type u} [Reader ρ] {pool : Pool} {reader : ρ}
    {requested : Nat} {calls : List Call} {course : Course (Recorded ρ)}
    (run : Runs (opened pool (Recorded.mk reader []) requested) calls course) :
    ∀ exchange ∈ course.source.reader.log,
      exchange.request.size = ReadSource.clampReadSize requested := by
  intro exchange hmem
  have hagrees := (agrees_opened pool reader requested).runs run
  exact (hagrees.asked.size_request exchange hmem).1.trans (ReadSource.size_asking _)

theorem Source.Drains.log_ne_nil {ρ : Type u} [Reader ρ] {source after : ReadSource (Recorded ρ)}
    {chunks : List Bytes} (run : Drains source chunks after) (hfinished : source.finished = false) :
    after.reader.log ≠ [] := by
  induction run with
  | stop answers hchunk =>
      obtain ⟨skipped, last, exchanged⟩ := ReadSource.exists_exchanges answers hfinished
      rw [exchanged.log_eq]
      simp
  | more answers hchunk rest ih =>
      obtain ⟨skipped, last, exchanged⟩ := ReadSource.exists_exchanges answers hfinished
      have reflects := exchanged.reflects
      apply ih
      rw [← Bool.not_eq_true]
      exact fun hended => hchunk (reflects.chunk_eq.trans (reflects.finished_iff.1 hended))

def ReadReceipt.map {ρ τ : Type u} (view : ρ → τ) (receipt : ReadReceipt ρ) : ReadReceipt τ :=
  { receipt with reader := view receipt.reader }

namespace Client

/-- Every request that the client makes while it reads to the end is of this size. -/
structure AsksFor (client : Client) (size : Nat) : Prop where
  opened : ∀ {ρ : Type u} (pool : Pool) (reader : ρ),
    (client.openReader pool reader).1.readSize = size
  /-- All requests of a reading that ends.  Keeping a log of them makes no difference. -/
  ended : ∀ {ρ : Type u} [Reader ρ] (pool : Pool) (reader : ρ)
    (ends : Ends (client.openReader pool reader).1),
    ∃ ends' : Ends (client.openReader pool (Recorded.mk reader [])).1,
      let receipt := client.putReader pool (Recorded.mk reader []) ends'
      client.putReader pool reader ends = receipt.map Recorded.reader ∧
        receipt.reader.log ≠ [] ∧ ∀ exchange ∈ receipt.reader.log, exchange.request.size = size
  /-- All requests of the first pulls of a reading, which need not end. -/
  pulled : ∀ {ρ : Type u} [Reader ρ] (pool : Pool) (reader : ρ) (pulls : Nat),
    let start := Course.opened pool (Recorded.mk reader []) client.config.readSize
    start.source = (client.openReader pool (Recorded.mk reader [])).1 ∧
      (Reader.Lawful reader → ∃ course, Course.Runs start (List.replicate pulls .next) course) ∧
      ∀ course, Course.Runs start (List.replicate pulls .next) course →
        ∀ exchange ∈ course.source.reader.log, exchange.request.size = size
  /-- All requests made one after the other, also if the interruptions never cease. -/
  asked : ∀ {ρ : Type u} [Reader ρ] (pool : Pool) (reader after : ρ) (left : ByteArray)
    (exchanges : List (Exchange ρ)),
    Asked reader (client.openReader pool reader).1.asking exchanges after left →
      ∀ exchange ∈ exchanges, exchange.request.size = size

theorem putReader_eq_map_recorded {ρ : Type u} [Reader ρ] (client : Client)
    (pool : Pool) (reader : ρ) (ends : Ends (client.openReader pool reader).1)
    (ends' : Ends (client.openReader pool (Recorded.mk reader [])).1) :
    client.putReader pool reader ends =
      (client.putReader pool (Recorded.mk reader []) ends').map Recorded.reader := by
  have hput : client.put (client.openReader pool reader).2 (client.openReader pool reader).1 ends =
      (client.put (client.openReader pool reader).2 _ ends').map ReadSource.unrecorded :=
    ReadSource.forwards_unrecorded.put client _ ends' ends
  simp only [putReader, hput]
  rfl

theorem asksFor (client : Client) : client.AsksFor client.config.readSize := by
  have hclamp := (ReadSource.clampReadSize_eq_iff client.config).2 client.valid
  constructor
  · intro ρ pool reader
    exact hclamp
  · intro ρ _ pool reader ends
    have ends' : Ends (client.openReader pool (Recorded.mk reader [])).1 :=
      ReadSource.forwards_unrecorded.ends ends
    obtain ⟨chunks, after, run⟩ := ends'.drains
    have hlast : (client.putReader pool (Recorded.mk reader []) ends').reader = after.reader :=
      congrArg ReadSource.reader (run.source_put client _ ends')
    have hcourse := @Course.Runs.of_drains _ _
      (Course.opened pool (Recorded.mk reader []) client.config.readSize) _ _ run
    have hsize := hcourse.size_request
    rw [hclamp] at hsize
    refine ⟨ends', client.putReader_eq_map_recorded pool reader ends ends', ?_⟩
    rw [hlast]
    exact ⟨run.log_ne_nil rfl, hsize⟩
  · intro ρ _ pool reader pulls
    refine ⟨rfl, fun lawful => ?_, fun course run => ?_⟩
    · obtain ⟨course, run, -⟩ := @Course.exists_runs _ _
        (Course.opened pool (Recorded.mk reader []) client.config.readSize)
        (Recorded.lawful lawful) (List.replicate pulls .next)
      exact ⟨course, run⟩
    · have hsize := run.size_request
      rwa [hclamp] at hsize
  · intro ρ _ pool reader after left exchanges asked exchange hmem
    exact ((asked.size_request exchange hmem).1.trans (ReadSource.size_asking _)).trans hclamp

end Client

namespace Config

/-- Whatever configuration it starts from, a run of settings leaves in each part the last value
written to it, and settings of different parts may change places.  The result can be used if and
only if its read size is positive and at most 16 MiB: to make it from its three values, to validate
it and to give it to a client come to the same verdict, with the same fault.  A client that has it
makes all its requests with the read size that was set, which the guard of the source leaves alone
exactly if the configuration can be used. -/
theorem settings_take_effect (start : Config) (settings : List Setting) :
    let config := start.apply settings
    let made := make config.algorithm config.seed config.readSize
    let usable := 1 ≤ config.readSize ∧ config.readSize ≤ 16 * 1024 * 1024
    config.algorithm = (settings.filterMap Setting.algorithm?).getLastD start.algorithm ∧
      config.seed = (settings.filterMap Setting.seed?).getLastD start.seed ∧
      config.readSize = (settings.filterMap Setting.readSize?).getLastD start.readSize ∧
      (∀ a b : Setting, a.part ≠ b.part → (config.set a).set b = (config.set b).set a) ∧
      made = (if config.readSize = 0 then .error .zeroReadSize
        else if 16 * 1024 * 1024 < config.readSize then .error .readSizeTooLarge
        else .ok config) ∧
      config.validate = made.map (fun _ => ()) ∧
      (Client.ofConfig config).map Client.config = made ∧
      (config.validate = .ok () ↔ usable) ∧
      ((∃ client, Client.ofConfig config = .ok client) ↔ usable) ∧
      (ReadSource.clampReadSize config.readSize = config.readSize ↔ usable) ∧
      ∀ client, Client.ofConfig config = .ok client →
        client.config = config ∧ Client.AsksFor.{u} client config.readSize := by
  intro config made usable
  refine ⟨writes_algorithm.apply start settings, writes_seed.apply start settings,
    writes_readSize.apply start settings, fun a b h => set_comm h config, make_eq config,
    validate_eq config, Client.map_config_ofConfig config, ?_, ?_,
    ReadSource.clampReadSize_eq_iff config, ?_⟩
  · exact validate_eq_ok_iff
  · exact Client.exists_ofConfig_iff
  · intro client hclient
    have hconfig := Client.ofConfig_eq_ok_iff.1 hclient
    exact ⟨hconfig, hconfig ▸ client.asksFor⟩

/-- A read size of zero and the largest of all words are written and overwritten on the way; the
requests are for two bytes. -/
theorem settings_take_effect_overwritten :
    let settings : List Setting :=
      [.readSize 0, .seed 7, .readSize (2 ^ 64 - 1), .algorithm .blake3, .readSize 2]
    let config := Config.apply {} settings
    let script : Script := { steps := [.data [97, 98, 99], .interrupt] }
    config = { algorithm := .blake3, seed := 7, readSize := 2 } ∧
      (config.set (.seed 0)).set (.readSize 0) = (config.set (.readSize 0)).set (.seed 0) ∧
      ∃ client, Client.ofConfig config = .ok client ∧
        ∃ ends, ∃ exchange ∈
          (client.putReader .empty (Recorded.mk script []) ends).reader.log,
            exchange.request.size = 2 := by
  intro settings config script
  obtain ⟨-, -, -, hcomm, -, -, -, -, hexists, -, hclient⟩ := settings_take_effect.{0} {} settings
  obtain ⟨client, hofConfig⟩ := hexists.2 (by decide)
  obtain ⟨ends, -, hlog, hsize⟩ :=
    (hclient client hofConfig).2.ended .empty script (Finite.ends _)
  obtain ⟨exchange, hmem⟩ := List.exists_mem_of_ne_nil _ hlog
  exact ⟨rfl, hcomm (.seed 0) (.readSize 0) (by decide), client, hofConfig, ends, exchange, hmem,
    hsize exchange hmem⟩

end Config

end ContentAddress
