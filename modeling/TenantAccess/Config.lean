import TenantAccess.Json.Read

/-!
# Configuration

Every setting has a default, and there is no default organization: callers always name one.
`Config.outOfRange` lists the settings whose value lies outside its range.
-/
namespace TenantAccess

open Wire (Record)

/-- How far group membership is followed when policies are collected. -/
inductive GroupTraversal where
  /-- only the groups the principal belongs to -/
  | direct
  /-- those groups and all groups above them -/
  | inherited
  deriving DecidableEq, Repr

namespace GroupTraversal

def name : GroupTraversal → String
  | .direct => "direct"
  | .inherited => "inherited"

def variants : List (String × GroupTraversal) := [("direct", .direct), ("inherited", .inherited)]

def read : Json.Reader GroupTraversal := Json.readVariant variants

def toJson (t : GroupTraversal) : Json := .string t.name

end GroupTraversal

structure CacheConfig where
  enabled : Bool := false
  capacity : UInt64 := 1024
  deriving DecidableEq, Repr

structure AuditConfig where
  queueCapacity : UInt64 := 4096
  batchSize : UInt64 := 256
  deriving DecidableEq, Repr

structure Config where
  traversal : GroupTraversal := .direct
  /-- how long each source of grants may take, in milliseconds -/
  fetchTimeout : UInt64 := 2000
  cache : CacheConfig := {}
  audit : AuditConfig := {}
  deriving DecidableEq, Repr

/-- The readers of the single settings in a document format with values of type `ν`. -/
structure SettingReaders (ν : Type) where
  traversal : ν → Except Wire.Problem GroupTraversal
  bool : ν → Except Wire.Problem Bool
  /-- a number of 64 bits without a sign, called by the given name in messages -/
  word : String → ν → Except Wire.Problem UInt64

namespace CacheConfig

structure Draft where
  enabled : Option Bool := none
  capacity : Option UInt64 := none

def record {ν : Type} (r : SettingReaders ν) : Record ν Draft where
  name := "struct CacheConfig"
  strict := true
  fields := [
    .optional "enabled" r.bool Draft.enabled fun d x => { d with enabled := some x },
    .optional "capacity" (r.word "usize") Draft.capacity
      fun d x => { d with capacity := some x }]

def ofDraft (d : Draft) : CacheConfig where
  enabled := d.enabled.getD ({} : CacheConfig).enabled
  capacity := d.capacity.getD ({} : CacheConfig).capacity

def toJson (c : CacheConfig) : Json :=
  .object [("enabled", .bool c.enabled), ("capacity", .number (.integer c.capacity.toNat))]

end CacheConfig

namespace AuditConfig

structure Draft where
  queueCapacity : Option UInt64 := none
  batchSize : Option UInt64 := none

def record {ν : Type} (r : SettingReaders ν) : Record ν Draft where
  name := "struct AuditConfig"
  strict := true
  fields := [
    .optional "queue_capacity" (r.word "usize") Draft.queueCapacity
      fun d x => { d with queueCapacity := some x },
    .optional "batch_size" (r.word "usize") Draft.batchSize
      fun d x => { d with batchSize := some x }]

def ofDraft (d : Draft) : AuditConfig where
  queueCapacity := d.queueCapacity.getD ({} : AuditConfig).queueCapacity
  batchSize := d.batchSize.getD ({} : AuditConfig).batchSize

def toJson (c : AuditConfig) : Json :=
  .object [("queue_capacity", .number (.integer c.queueCapacity.toNat)),
    ("batch_size", .number (.integer c.batchSize.toNat))]

end AuditConfig

namespace Config

structure Draft where
  traversal : Option GroupTraversal := none
  fetchTimeout : Option UInt64 := none
  cache : Option CacheConfig := none
  audit : Option AuditConfig := none

/-- `cache` and `audit` read the two groups of settings. -/
def record {ν : Type} (r : SettingReaders ν) (cache : ν → Except Wire.Problem CacheConfig)
    (audit : ν → Except Wire.Problem AuditConfig) : Record ν Draft where
  name := "struct AuthzConfig"
  strict := true
  fields := [
    .optional "group_traversal" r.traversal Draft.traversal
      fun d x => { d with traversal := some x },
    .optional "fetch_timeout_ms" (r.word "u64") Draft.fetchTimeout
      fun d x => { d with fetchTimeout := some x },
    .optional "cache" cache Draft.cache fun d x => { d with cache := some x },
    .optional "audit" audit Draft.audit fun d x => { d with audit := some x }]

def ofDraft (d : Draft) : Config where
  traversal := d.traversal.getD ({} : Config).traversal
  fetchTimeout := d.fetchTimeout.getD ({} : Config).fetchTimeout
  cache := d.cache.getD {}
  audit := d.audit.getD {}

def toJson (c : Config) : Json :=
  .object [("group_traversal", c.traversal.toJson),
    ("fetch_timeout_ms", .number (.integer c.fetchTimeout.toNat)), ("cache", c.cache.toJson),
    ("audit", c.audit.toJson)]

end Config

/-- The settings of a JSON text. -/
def SettingReaders.json : SettingReaders Json.Outline :=
  ⟨GroupTraversal.read, Json.readBool, Json.readWord⟩

def CacheConfig.read : Json.Reader CacheConfig := fun o =>
  (Json.readRecord (CacheConfig.record .json) {} o).map CacheConfig.ofDraft

def AuditConfig.read : Json.Reader AuditConfig := fun o =>
  (Json.readRecord (AuditConfig.record .json) {} o).map AuditConfig.ofDraft

def Config.read : Json.Reader Config := fun o =>
  (Json.readRecord (Config.record .json CacheConfig.read AuditConfig.read) {} o).map Config.ofDraft

/-- A setting whose value lies outside its range. -/
structure RangeError where
  /-- the names that lead to the setting -/
  path : List String
  least : Nat
  most : Option Nat
  value : Nat
  deriving DecidableEq, Repr

def RangeError.message (e : RangeError) : String :=
  ".".intercalate e.path ++ s!" = {e.value} must be at least {e.least}" ++
    (match e.most with
      | some n => s!" and at most {n}"
      | none => "")

namespace Config

/-- The longest time a source of grants may be given, in milliseconds. -/
def maxFetchTimeout : Nat := 60000

/-- Every setting with a range, and its value. -/
def ranges (c : Config) : List RangeError :=
  [⟨["fetch_timeout_ms"], 1, some maxFetchTimeout, c.fetchTimeout.toNat⟩,
    ⟨["cache", "capacity"], 1, none, c.cache.capacity.toNat⟩,
    ⟨["audit", "queue_capacity"], 1, none, c.audit.queueCapacity.toNat⟩,
    ⟨["audit", "batch_size"], 1, none, c.audit.batchSize.toNat⟩]

def outOfRange (c : Config) : List RangeError :=
  c.ranges.filter fun e => e.value < e.least || e.most.any (· < e.value)

end Config

/-- A time span as text: whole milliseconds below one second, else seconds with up to three
decimal places. No time at all is shown in the smallest unit. -/
def durationText (milliseconds : Nat) : String :=
  if milliseconds = 0 then "0ns"
  else if milliseconds < 1000 then s!"{milliseconds}ms"
  else
    let seconds := milliseconds / 1000
    let thousandths := milliseconds % 1000
    if thousandths = 0 then s!"{seconds}s"
    else
      let digits := (Nat.toDigits 10 (1000 + thousandths)).drop 1
      let digits := (digits.reverse.dropWhile (· == '0')).reverse
      s!"{seconds}." ++ String.ofList digits ++ "s"

end TenantAccess
