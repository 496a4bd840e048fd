import TenantAccess.Json.Read

/-!
# Sharing single resources

A share relates a principal to one resource at an access level. The verb of an action, the text
after its last colon, falls into one of four classes, and each level permits a fixed set of
classes. Verbs are looked up whole; a verb that is not listed changes the resource.
-/
namespace TenantAccess

inductive ActionClass where
  | read
  | write
  | delete
  | share
  deriving DecidableEq, Repr

namespace ActionClass

/-- The text after the last colon, or the whole text if it has none. -/
def verb (action : String) : String :=
  String.ofList (action.toList.reverse.takeWhile (· != ':')).reverse

def classify (action : String) : ActionClass :=
  let v := verb action
  if v = "read" ∨ v = "list" ∨ v = "view" then .read
  else if v = "delete" then .delete
  else if v = "share" then .share
  else .write

def name : ActionClass → String
  | .read => "Read"
  | .write => "Write"
  | .delete => "Delete"
  | .share => "Share"

end ActionClass

inductive AccessLevel where
  | owner
  | editor
  | viewer
  deriving DecidableEq, Repr

namespace AccessLevel

def capabilities : AccessLevel → List ActionClass
  | .owner => [.read, .write, .delete, .share]
  | .editor => [.read, .write]
  | .viewer => [.read]

def permits (level : AccessLevel) (action : String) : Bool :=
  level.capabilities.contains (ActionClass.classify action)

def name : AccessLevel → String
  | .owner => "owner"
  | .editor => "editor"
  | .viewer => "viewer"

def variants : List (String × AccessLevel) :=
  [("owner", .owner), ("editor", .editor), ("viewer", .viewer)]

/-- The level of that name, or the message that there is none. -/
def ofName (s : String) : Except String AccessLevel :=
  match variants.lookup s with
  | some level => .ok level
  | none => .error s!"unknown access level: {s}"

def read : Json.Reader AccessLevel := Json.readVariant variants

def toJson (level : AccessLevel) : Json := .string level.name

end AccessLevel

end TenantAccess
