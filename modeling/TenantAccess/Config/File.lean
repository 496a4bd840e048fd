import TenantAccess.Config
import TenantAccess.Toml.Parse

/-!
# Configuration files

Configuration is kept as a TOML document. `Config.ofToml` reads the settings in the order of the
document and reports the first that does not fit; afterwards all ranges are checked at once.
-/
namespace TenantAccess

open Wire (Problem Found Record)

namespace Toml

/-- The name under which a date presents itself where named values are expected. -/
def dateKey : String := "$__toml_private_datetime"

def Node.found : Node → Found
  | .string s => .string s
  | .integer n => .integer n
  | .real x => .real x
  | .bool b => .bool b
  | .array _ => .sequence
  | .tables _ => .sequence
  | .date => .map
  | .table _ _ => .map

/-- The kind of a node in messages about the content of a variant. -/
def Node.kindName : Node → String
  | .string _ => "string"
  | .integer _ => "integer"
  | .real _ => "float"
  | .bool _ => "boolean"
  | .date => "datetime"
  | .array _ => "array"
  | .tables _ => "array of tables"
  | .table .inline _ => "inline table"
  | .table _ _ => "table"

def readBool : Node → Except Problem Bool
  | .bool b => .ok b
  | n => .error (.invalidType n.found "a boolean")

def readWord (type : String) : Node → Except Problem UInt64
  | .integer n =>
    if 0 ≤ n ∧ n < UInt64.size then .ok (.ofNat n.toNat) else .error (.invalidValue (.integer n) type)
  | n => .error (.invalidType n.found type)

/-- A variant without content is followed by something empty. -/
def readNothing : Node → Except Problem Unit
  | .array [] => .ok ()
  | .tables [] => .ok ()
  | .tables _ => .error (.remark "expected empty array")
  | .table _ [] => .ok ()
  | .array _ | .table _ _ => .error (.remark "expected empty table")
  | n => .error (.remark ("expected table, found " ++ n.kindName))

def variantNamed {α : Type} (variants : List (String × α)) (name : String) : Except Problem α :=
  match variants.lookup name with
  | some a => .ok a
  | none => .error (.unknownVariant name (variants.map Prod.fst))

/-- A variant, written as its name or as a table with its name as the only key. -/
def readVariant {α : Type} (variants : List (String × α)) : Node → Except Problem α
  | .string s => variantNamed variants s
  | .table _ [] => .error (.remark "wanted exactly 1 element, found 0 elements")
  | .table _ [(name, content)] => do
    let a ← variantNamed variants name
    readNothing content
    return a
  | .table _ _ => .error (.remark "wanted exactly 1 element, more than 1 element")
  | _ => .error (.remark "wanted string or table")

def readMembers {σ : Type} (r : Record Node σ) : Entries → σ → Except Problem σ
  | [], draft => .ok draft
  | (k, v) :: es, draft => do
    let draft ← r.readMember (fun _ => .ok ()) k v draft
    readMembers r es draft

/-- A record, written as a table or as a list of its fields; further items are not looked at. -/
def readRecord {σ : Type} (r : Record Node σ) (draft : σ) : Node → Except Problem σ
  | .table _ es => readMembers r es draft
  | .date => readMembers r [(dateKey, .date)] draft
  | .array items => (r.readList none 0 r.fields items draft).map Prod.fst
  | .tables elements =>
    (r.readList none 0 r.fields (elements.map (.table .header)) draft).map Prod.fst
  | n => .error (.invalidType n.found r.name)

end Toml

/-- The settings of a TOML document. -/
def SettingReaders.toml : SettingReaders Toml.Node :=
  ⟨Toml.readVariant GroupTraversal.variants, Toml.readBool, Toml.readWord⟩

/-- Why a configuration text is refused. -/
inductive ConfigError where
  /-- the text is no TOML document -/
  | notToml
  | data (problem : Problem)
  | outOfRange (errors : List RangeError)

namespace Config

def readCache (n : Toml.Node) : Except Problem CacheConfig :=
  (Toml.readRecord (CacheConfig.record .toml) {} n).map CacheConfig.ofDraft

def readAudit (n : Toml.Node) : Except Problem AuditConfig :=
  (Toml.readRecord (AuditConfig.record .toml) {} n).map AuditConfig.ofDraft

def readEntries (es : Toml.Entries) : Except Problem Config :=
  (Toml.readRecord (Config.record .toml readCache readAudit) {} (.table .header es)).map ofDraft

/-- The configuration itself when all its settings are in range. -/
def checked (c : Config) : Except ConfigError Config :=
  if c.outOfRange.isEmpty then .ok c else .error (.outOfRange c.outOfRange)

def ofToml (s : String) : Except ConfigError Config :=
  match Toml.parse s with
  | none => .error .notToml
  | some es =>
    match readEntries es with
    | .error p => .error (.data p)
    | .ok c => c.checked

end Config

/-- Why a configuration file cannot be read. -/
inductive FileFault where
  | missing
  | notUtf8
  deriving DecidableEq, Repr

def FileFault.message : FileFault → String
  | .missing => "No such file or directory (os error 2)"
  | .notUtf8 => "stream did not contain valid UTF-8"

end TenantAccess
