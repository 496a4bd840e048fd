/-!
# TOML documents

A document is a table of named nodes in the order in which they first appear. How a table came
about decides who may add to it: dotted keys extend only tables made by dotted keys, a header
may complete a table that other headers only passed through, and an inline table is closed.
-/
namespace TenantAccess.Toml

/-- How a table came about. -/
inductive Style where
  /-- written in braces as a value -/
  | inline
  /-- made by a dotted key -/
  | dotted
  /-- passed through by the header of another table -/
  | passed
  /-- has a header of its own -/
  | header
  deriving DecidableEq, Repr

inductive Node where
  | string (value : String)
  | integer (value : Int)
  | real (value : Float)
  | bool (value : Bool)
  /-- a date, a time or both; only its presence matters -/
  | date
  | array (items : List Node)
  | table (style : Style) (entries : List (String × Node))
  /-- tables that share a header in double brackets -/
  | tables (elements : List (List (String × Node)))

abbrev Entries := List (String × Node)

namespace Entries

def find (k : String) (es : Entries) : Option Node := es.lookup k

/-- Replaces a node without moving it. -/
def replace (k : String) (v : Node) (es : Entries) : Entries :=
  es.map fun e => if e.1 = k then (k, v) else e

def erase (k : String) (es : Entries) : Entries := es.filter fun e => e.1 ≠ k

/-- Adds a node under a dotted key: `path` names the tables, `key` the node in the last one. -/
def insert (key : String) (v : Node) : List String → Entries → Option Entries
  | [], es => if (find key es).isSome then none else some (es ++ [(key, v)])
  | k :: ks, es =>
    match find k es with
    | none => (insert key v ks []).map fun sub => es ++ [(k, .table .dotted sub)]
    | some (.table .dotted sub) =>
      (insert key v ks sub).map fun sub => replace k (.table .dotted sub) es
    | some (.table .passed sub) =>
      if ks.isEmpty then none
      else (insert key v ks sub).map fun sub => replace k (.table .passed sub) es
    | some (.tables elements) =>
      if ks.isEmpty then none
      else do
        let last ← elements.getLast?
        let last ← insert key v ks last
        return replace k (.tables (elements.dropLast ++ [last])) es
    | some _ => none

/-- Fills the table with the header `path`. A table that was only passed through so far moves to
the place of its header. -/
def withTable (fill : Entries → Option Entries) : List String → Entries → Option Entries
  | [], _ => none
  | [k], es =>
    match find k es with
    | none => (fill []).map fun sub => es ++ [(k, .table .header sub)]
    | some (.table .passed sub) =>
      (fill sub).map fun sub => erase k es ++ [(k, .table .header sub)]
    | some _ => none
  | k :: ks, es =>
    match find k es with
    | none => (withTable fill ks []).map fun sub => es ++ [(k, .table .passed sub)]
    | some (.table .inline _) => none
    | some (.table style sub) =>
      (withTable fill ks sub).map fun sub => replace k (.table style sub) es
    | some (.tables elements) => do
      let last ← elements.getLast?
      let last ← withTable fill ks last
      return replace k (.tables (elements.dropLast ++ [last])) es
    | some _ => none

/-- Fills a new table among those with the header `path` in double brackets. -/
def withElement (fill : Entries → Option Entries) : List String → Entries → Option Entries
  | [], _ => none
  | [k], es =>
    match find k es with
    | none => (fill []).map fun sub => es ++ [(k, .tables [sub])]
    | some (.tables elements) =>
      (fill []).map fun sub => replace k (.tables (elements ++ [sub])) es
    | some _ => none
  | k :: ks, es =>
    match find k es with
    | none => (withElement fill ks []).map fun sub => es ++ [(k, .table .passed sub)]
    | some (.table .inline _) => none
    | some (.table style sub) =>
      (withElement fill ks sub).map fun sub => replace k (.table style sub) es
    | some (.tables elements) => do
      let last ← elements.getLast?
      let last ← withElement fill ks last
      return replace k (.tables (elements.dropLast ++ [last])) es
    | some _ => none

end Entries

/-- A key with its path, and the node given to it. -/
structure Assignment where
  path : List String
  key : String
  node : Node

/-- Makes the assignments one after the other; none may repeat a key. -/
def assignAll (as : List Assignment) (es : Entries) : Option Entries :=
  as.foldlM (fun es a => es.insert a.key a.node a.path) es

end TenantAccess.Toml
