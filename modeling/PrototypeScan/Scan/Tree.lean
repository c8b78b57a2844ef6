import PrototypeScan.Finding.Collector
import PrototypeScan.Rule.Repository
import PrototypeScan.Tree.Walk

/-!
Scanning a tree: every rule looks at every node, the findings are collected, and trees that are too
large or too deep are refused before that.
-/
namespace PrototypeScan.Scan

/-- Adds what the rules find at one node. -/
def visit (rules : List Rule) (c : Collector) (n : Node) : Collector :=
  rules.foldl (fun c r => if r.isMatch n then c.push (r.extract n) else c) c

/-- The findings of all rules at all nodes of a tree, collected. -/
def tree (rules : List Rule) (root : Node) : List Finding :=
  ((Walk.start root).foldl (visit rules) Collector.empty).finish

/-- How large a tree may be. -/
structure Limits where
  nodes : Option Nat
  depth : Option Nat
  deriving DecidableEq, Repr

/-- Why a tree was not scanned. -/
inductive TreeError where
  /-- the root is no node but a value of the type named -/
  | invalid (found : String)
  | tooLarge (nodes limit : Nat)
  | tooDeep (depth limit : Nat)
  deriving DecidableEq, Repr

def TreeError.message : TreeError → String
  | invalid found => "Invalid syntax tree: expected a node at the root, found " ++ found
  | tooLarge nodes limit =>
    "Syntax tree has " ++ toString nodes ++ " nodes, above the limit of " ++ toString limit
  | tooDeep depth limit =>
    "Syntax tree is " ++ toString depth ++ " levels deep, above the limit of " ++ toString limit

/-- Scans a value that has to be a node. -/
def value (rules : List Rule) : Value Node → Except TreeError (List Finding)
  | .node root => .ok (tree rules root)
  | v => .error (.invalid v.typeName)

/-- The limit that a tree exceeds, the number of nodes before the depth. -/
def Limits.exceeded? (limits : Limits) (root : Node) : Option TreeError :=
  if limits.nodes.isNone && limits.depth.isNone then none
  else
    let stats := Stats.measure root
    match limits.nodes.filter (stats.nodes > ·) with
    | some limit => some (.tooLarge stats.nodes limit)
    | none => (limits.depth.filter (stats.maxDepth > ·)).map (.tooDeep stats.maxDepth)

/-- Scans a value within limits. -/
def limited (limits : Limits) (rules : List Rule) (v : Value Node) :
    Except TreeError (List Finding) :=
  match v.asNode?.bind limits.exceeded? with
  | some e => .error e
  | none => value rules v

end PrototypeScan.Scan
