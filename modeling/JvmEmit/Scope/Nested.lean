import JvmEmit.Error

/-!
# Nested scopes

Scopes are opened one inside another, below one outermost scope. Each has a payload. A scope is
known by the position at which it was opened, so the outermost scope has number zero, and the number
of a scope is larger than the numbers of the scopes around it. A scope keeps its path outward, which
is fixed when it is opened, and the list of the scopes opened directly inside it, closed ones
included.

This file holds the nesting itself, the names of scopes and their payloads; `Scope.Lifecycle` says
which scopes may be entered, used and closed. Every function is total: an identity that has not been
given out has nothing around it, nothing inside it and no payload.
-/

namespace JvmEmit

/-- The identity of a scope among the scopes it was opened with. -/
structure ScopeId where
  index : Nat
deriving DecidableEq

namespace ScopeId

/-- The outermost scope, which is there from the beginning. -/
def root : ScopeId :=
  ⟨0⟩

/-- The written form of an identity. -/
def text (scope : ScopeId) : String :=
  "scope_" ++ toString scope.index

instance : ToString ScopeId where
  toString := text

end ScopeId

/-- A scope with its payload and its place among the others. -/
structure Scope (α : Type) where
  label : Option String
  /-- The scopes around this one, from the closest to the outermost. -/
  enclosing : List ScopeId
  inner : List ScopeId
  /-- A closed scope is never used or opened again. -/
  closed : Bool
  payload : α

/-- Scopes nested below one outermost scope, in the order of opening. -/
structure NestedScopes (α : Type) where
  nodes : Array (Scope α)

namespace NestedScopes

variable {α : Type}

/-- The outermost scope alone, open. -/
def ofRoot (label : Option String) (payload : α) : NestedScopes α :=
  ⟨#[{ label, enclosing := [], inner := [], closed := false, payload }]⟩

/-- The number of scopes ever opened, closed ones included. -/
def size (nested : NestedScopes α) : Nat :=
  nested.nodes.size

/-- Looks up a scope by its identity. -/
def get? (nested : NestedScopes α) (scope : ScopeId) : Option (Scope α) :=
  nested.nodes[scope.index]?

/-! ## The nesting -/

/-- The scopes around a scope, from the closest to the outermost. -/
def enclosing (nested : NestedScopes α) (scope : ScopeId) : List ScopeId :=
  ((nested.get? scope).map Scope.enclosing).getD []

/-- The scope itself, followed by the scopes around it. -/
def path (nested : NestedScopes α) (scope : ScopeId) : List ScopeId :=
  scope :: nested.enclosing scope

/-- The scope directly around a scope, which the outermost scope lacks. -/
def parent? (nested : NestedScopes α) (scope : ScopeId) : Option ScopeId :=
  (nested.enclosing scope).head?

/-- The scopes opened directly inside a scope, in this order, closed ones included. -/
def inner (nested : NestedScopes α) (scope : ScopeId) : List ScopeId :=
  ((nested.get? scope).map Scope.inner).getD []

/-- A scope has been closed; an unknown one has not. -/
def isClosed (nested : NestedScopes α) (scope : ScopeId) : Bool :=
  (nested.get? scope).any Scope.closed

/-- The scopes directly inside a scope that are still open. -/
def openInner (nested : NestedScopes α) (scope : ScopeId) : List ScopeId :=
  (nested.inner scope).filter fun child => !nested.isClosed child

/--
The first scopes, up to some number of them, in a walk through a queue of open scopes. The walk lists
the scope at the front, and the open scopes directly inside it join the queue at its end.
-/
def openQueue (nested : NestedScopes α) : (most : Nat) → (queue : List ScopeId) → List ScopeId
  | 0, _ => []
  | _ + 1, [] => []
  | most + 1, next :: queue => next :: nested.openQueue most (queue ++ nested.openInner next)

/-- The first open scopes inside a scope at any depth, up to some number of them. -/
def firstOpenWithin (nested : NestedScopes α) (most : Nat) (scope : ScopeId) : List ScopeId :=
  nested.openQueue most (nested.openInner scope)

/-! ## Names -/

/-- The label that a scope was given when it was opened, if any. -/
def label? (nested : NestedScopes α) (scope : ScopeId) : Option String :=
  (nested.get? scope).bind Scope.label

/-- The position of a scope among the scopes opened directly inside its parent. -/
def position? (nested : NestedScopes α) (scope : ScopeId) : Option Nat :=
  (nested.parent? scope).bind fun parent => (nested.inner parent).idxOf? scope

/-- The label of a scope, or else its position; the outermost scope is called `root`. -/
def ownName (nested : NestedScopes α) (scope : ScopeId) : String :=
  match nested.label? scope with
  | some label => label
  | none => ((nested.position? scope).map toString).getD "root"

/-- The names on the way from the outermost scope to a scope, with slashes between them. -/
def pathName (nested : NestedScopes α) (scope : ScopeId) : String :=
  "/".intercalate ((nested.path scope).map nested.ownName).reverse

/-! ## Payloads -/

/-- The payload of a known scope. -/
def payload? (nested : NestedScopes α) (scope : ScopeId) : Option α :=
  (nested.get? scope).map Scope.payload

/-- The payloads of a scope and of the scopes around it, its own first. -/
def payloads (nested : NestedScopes α) (scope : ScopeId) : List α :=
  (nested.path scope).filterMap nested.payload?

/-- Changes one scope, if its identity has been given out. -/
def modify (nested : NestedScopes α) (scope : ScopeId) (change : Scope α → Scope α) :
    NestedScopes α :=
  ⟨nested.nodes.modify scope.index change⟩

/-- Changes the payload of one scope, whether it is open or closed. -/
def modifyPayload (nested : NestedScopes α) (scope : ScopeId) (change : α → α) : NestedScopes α :=
  nested.modify scope fun node => { node with payload := change node.payload }

end NestedScopes

end JvmEmit
