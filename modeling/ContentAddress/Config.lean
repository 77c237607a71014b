import ContentAddress.Text.Layout

/-!
# Configuration

A configuration chooses the hash algorithm, its seed and the number of bytes asked for by one read.
It may be changed freely, a field at a time; whether its read size is acceptable is checked only
where it is put to use.
-/

namespace ContentAddress

open Text (Layout)

inductive Algorithm
  | xxh64
  /-- The first eight bytes of the BLAKE3 digest; the seed is ignored. -/
  | blake3
deriving DecidableEq, Repr

namespace Algorithm

def name : Algorithm → String
  | xxh64 => "xxh64"
  | blake3 => "blake3"

def ofName? (text : String) : Option Algorithm :=
  [xxh64, blake3].find? fun algorithm => algorithm.name = text

def layout : Algorithm → Layout
  | xxh64 => .atom "Xxh64"
  | blake3 => .atom "Blake3"

end Algorithm

/-- Number of bytes asked for by one read unless configured otherwise: 8 KiB. -/
def defaultReadSize : Nat := 8 * 1024

/-- Largest number of bytes asked for by one read: 16 MiB. -/
def maxReadSize : Nat := 16 * 1024 * 1024

inductive ConfigFault
  | zeroReadSize
  | readSizeTooLarge
deriving DecidableEq, Repr

def ConfigFault.message : ConfigFault → String
  | zeroReadSize => "read_size must be non-zero"
  | readSizeTooLarge => "read_size cannot exceed 16 MiB"

structure Config where
  algorithm : Algorithm := .xxh64
  seed : UInt64 := 0
  readSize : Nat := defaultReadSize
deriving DecidableEq, Repr

namespace Config

inductive Setting
  | algorithm (algorithm : Algorithm)
  | seed (seed : UInt64)
  | readSize (size : Nat)
deriving DecidableEq, Repr

def set (config : Config) : Setting → Config
  | .algorithm algorithm => { config with algorithm }
  | .seed seed => { config with seed }
  | .readSize readSize => { config with readSize }

def Valid (config : Config) : Prop := 0 < config.readSize ∧ config.readSize ≤ maxReadSize

instance (config : Config) : Decidable config.Valid :=
  inferInstanceAs (Decidable (_ ∧ _))

def fault? (config : Config) : Option ConfigFault :=
  if config.readSize = 0 then some .zeroReadSize
  else if maxReadSize < config.readSize then some .readSizeTooLarge
  else none

theorem fault?_eq_none_iff {config : Config} : config.fault? = none ↔ config.Valid := by
  unfold fault? Valid
  split
  · simp_all
  · split
    · simp_all
    · simp
      omega

def validate (config : Config) : Except ConfigFault Unit :=
  match config.fault? with
  | some fault => .error fault
  | none => .ok ()

/-- Makes a configuration from its three values, unless they are unusable. -/
def make (algorithm : Algorithm) (seed : UInt64) (readSize : Nat) : Except ConfigFault Config :=
  let config : Config := { algorithm, seed, readSize }
  config.validate.map fun _ => config

def layout (config : Config) : Layout :=
  .record "ClientConfig"
    [("algorithm", config.algorithm.layout), ("seed", .number config.seed.toNat),
      ("read_size", .number config.readSize)]

end Config

end ContentAddress
