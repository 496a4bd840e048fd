import TenantAccess.Text.Blank
import TenantAccess.Text.Quoted

/-!
# Wildcard patterns

Actions and resources are text divided by `:` and `/` into segments. In a pattern every star but
one at the very end stands for a run inside one segment. A star at the very end stands for
everything up to the end of the line, across segments. All other characters stand for
themselves, and a pattern is matched against the whole of a nonempty candidate. The pattern `*`
matches every candidate.

`Covers` says what the steps of a pattern cover; `covers` decides it with one pass over the
candidate per step.

A pattern with wildcards is compiled for an engine and refused if it gets too large there. How large
a compiled pattern gets only the engine knows, so whatever compiles patterns has the engine as a
parameter.
-/
namespace TenantAccess

inductive PatternFault where
  | empty
  | padded
  /-- compiled, it takes more than so many bytes -/
  | tooLarge (limit : Nat)
  deriving DecidableEq, Repr

/-- Why a text does not compile. -/
structure PatternError where
  source : String
  fault : PatternFault
  deriving DecidableEq, Repr

def PatternFault.message : PatternFault → String
  | .empty => "pattern cannot be empty"
  | .padded => "pattern has leading or trailing whitespace"
  | .tooLarge limit => s!"Compiled regex exceeds size limit of {limit} bytes."

def PatternError.message (e : PatternError) : String :=
  "Invalid pattern " ++ Text.quoted e.source ++ ": " ++ e.fault.message

namespace Pattern

/-- One step of a pattern: a character, or a run of characters from a class. -/
inductive Step where
  | char (c : Char)
  /-- any characters of one segment -/
  | segment
  /-- any characters of one line -/
  | rest
  deriving DecidableEq, Repr

namespace Step

/-- The characters of which a run may consist. -/
def allows : Step → Char → Bool
  | .char _, _ => false
  | .segment, c => c != ':' && c != '/'
  | .rest, c => c != '\n'

def isRun : Step → Bool
  | .char _ => false
  | _ => true

/-- The steps of a pattern with wildcards. -/
def ofPattern : List Char → List Step
  | [] => []
  | c :: cs =>
    if c = '*' then (if cs.isEmpty then .rest else .segment) :: ofPattern cs
    else .char c :: ofPattern cs

/-- An estimate of what a step takes in a compiled pattern, in bytes. -/
def space : Step → Nat
  | .char c => 32 * c.utf8Size
  | _ => 1080

end Step

/-- The engine that patterns with wildcards are compiled for. -/
class Engine where
  /-- how many bytes the steps of a pattern take when they are compiled -/
  size : List Step → Nat
  /-- how many bytes they may take -/
  sizeLimit : Nat

/-- An engine to run with, whose sizes are estimates. General results are about an arbitrary engine,
and only fixed inputs are looked at with this one. -/
instance Engine.estimate : Engine where
  size := List.foldr (fun p total => p.space + total) 0
  sizeLimit := 10485760

/-- The steps cover the candidate from its first character to its last. -/
inductive Covers : List Step → List Char → Prop
  | nil : Covers [] []
  | char {c : Char} {ps : List Step} {cs : List Char} (tail : Covers ps cs) :
      Covers (.char c :: ps) (c :: cs)
  | stop {p : Step} {ps : List Step} {cs : List Char} (run : p.isRun = true)
      (tail : Covers ps cs) : Covers (p :: ps) cs
  | more {p : Step} {ps : List Step} {c : Char} {cs : List Char} (allowed : p.allows c = true)
      (tail : Covers (p :: ps) cs) : Covers (p :: ps) (c :: cs)

/-- Whether a step and those after it cover each suffix of the candidate, the longest first.
The second list says the same of the steps after it. -/
def Step.row (p : Step) : List Char → List Bool → List Bool
  | c :: cs, here :: after =>
    let rest := p.row cs after
    (match p with
      | .char d => c == d && after.headD false
      | p => here || (p.allows c && rest.headD false)) :: rest
  | _, here => if p.isRun then here else [false]

/-- Whether the steps cover each suffix of the candidate, the longest first. -/
def coverage (cs : List Char) : List Step → List Bool
  | [] => List.replicate cs.length false ++ [true]
  | p :: ps => p.row cs (coverage cs ps)

def covers (ps : List Step) (cs : List Char) : Bool := (coverage cs ps).headD false

/-- How a pattern is matched. -/
inductive Kind where
  | any
  | literal
  | wildcard (steps : List Step)
  deriving DecidableEq, Repr

end Pattern

/-- A pattern that was found to be well formed. -/
structure Pattern where
  source : String
  kind : Pattern.Kind
  deriving DecidableEq, Repr

namespace Pattern

variable [Engine]

/-- Only a pattern with wildcards can be too large. -/
def compile (source : String) : Except PatternError Pattern :=
  let cs := source.toList
  if cs.isEmpty then .error ⟨source, .empty⟩
  else if Text.isPadded cs then .error ⟨source, .padded⟩
  else if cs = ['*'] then .ok ⟨source, .any⟩
  else if cs.contains '*' = false then .ok ⟨source, .literal⟩
  else if Engine.sizeLimit < Engine.size (Step.ofPattern cs) then
    .error ⟨source, .tooLarge Engine.sizeLimit⟩
  else .ok ⟨source, .wildcard (Step.ofPattern cs)⟩

def isMatch (p : Pattern) (candidate : String) : Bool :=
  if candidate.toList.isEmpty then false
  else match p.kind with
    | .any => true
    | .literal => p.source == candidate
    | .wildcard steps => covers steps candidate.toList

def isWildcard (p : Pattern) : Bool := p.kind != .literal

/-- A text that does not compile matches nothing. -/
def matchesText (source candidate : String) : Bool :=
  match compile source with
  | .ok p => p.isMatch candidate
  | .error _ => false

def matchesAny (sources : List String) (candidate : String) : Bool :=
  sources.any fun s => matchesText s candidate

end Pattern

end TenantAccess
