import DataHolder.Diagnostic.Basic
import DataHolder.Expr

/-!
# Switches of the decorator

A called decorator says by keywords which members to generate. Each keyword counts with
its last boolean literal; any other value is reported and changes nothing, and unknown
keywords are passed over.
-/

namespace DataHolder

/-- What the decorator asks for. -/
structure Flags where
  init : Bool := true
  eq : Bool := true
  order : Bool := false
  frozen : Bool := false
deriving DecidableEq, Inhabited

/-- One of the switches. -/
inductive Flag where
  | init
  | eq
  | order
  | frozen
deriving DecidableEq, Inhabited

/-- The switch that a keyword sets. -/
def Flag.ofKeyword? (keyword : String) : Option Flag :=
  if keyword = "init" then some .init
  else if keyword = "eq" then some .eq
  else if keyword = "order" then some .order
  else if keyword = "frozen" then some .frozen
  else none

namespace Flags

/-- The flags with one switch set. -/
def set (f : Flags) : Flag → Bool → Flags
  | .init, b => { f with init := b }
  | .eq, b => { f with eq := b }
  | .order, b => { f with order := b }
  | .frozen, b => { f with frozen := b }

/-- The keyword arguments of a called decorator; a bare one has none. -/
def keywords : Option Expr → List (String × Expr)
  | some (.call _ args) => keywordArgs args
  | _ => []

/-- The flags after one keyword argument. -/
def step (f : Flags) (arg : String × Expr) : Flags :=
  match Flag.ofKeyword? arg.1, arg.2.bool? with
  | some flag, some b => f.set flag b
  | _, _ => f

/-- The flags that a decorator asks for. -/
def ofDecorator (decorator : Option Expr) : Flags := (keywords decorator).foldl step {}

/-- The report on one keyword argument: a switch must be given a boolean literal. -/
def misuse? (position : Position) (arg : String × Expr) : Option Diagnostic :=
  match Flag.ofKeyword? arg.1, arg.2.bool? with
  | some _, none =>
    some ((Diagnostic.ofKind .nonBooleanFlag position).withDetail arg.1).reported
  | _, _ => none

/-- The reports on the keyword arguments of a decorator, in call order. -/
def misuses (decorator : Option Expr) (position : Position) : Log :=
  (keywords decorator).filterMap (misuse? position)

end Flags

end DataHolder
