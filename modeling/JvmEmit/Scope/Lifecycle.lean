import JvmEmit.Outcome
import JvmEmit.Scope.Nested

/-!
# The lifecycle of scopes

A scope is usable while it is open and no scope inside it is open. A scope with an open scope inside
it can be neither used nor closed, and a closed scope stays closed. Entering a new scope asks less
than using the scope around it, which has to be open but may have other open scopes inside it.

Each requirement is a function to `Except` that explains its refusal. The operations that change the
nesting answer with an outcome, and change nothing where they fail.
-/

namespace JvmEmit

namespace NestedScopes

variable {α : Type}

/-! ## Requirements -/

/-- The number of open scopes that a refusal lists at most. -/
def listedScopes : Nat :=
  10

/-- The identity of a scope has been given out. -/
def requireKnown (nested : NestedScopes α) (scope : ScopeId) : Except ScopeError Unit :=
  if scope.index < nested.size then .ok () else .error (.unknownScope scope.index nested.size)

/-- A known scope has not been closed. -/
def requireOpen (nested : NestedScopes α) (scope : ScopeId) : Except ScopeError Unit :=
  match nested.requireKnown scope with
  | .error cause => .error cause
  | .ok () => if nested.isClosed scope then .error (.closed (nested.pathName scope)) else .ok ()

/-- No scope directly inside a scope is open; the refusal lists the first open ones at any depth. -/
def requireInnermost (nested : NestedScopes α) (scope : ScopeId) : Except ScopeError Unit :=
  if nested.openInner scope = [] then .ok ()
  else
    .error (.openInside (nested.pathName scope)
      ((nested.firstOpenWithin listedScopes scope).map nested.pathName))

/-- A scope is open and has no open scope inside it. -/
def requireUsable (nested : NestedScopes α) (scope : ScopeId) : Except ScopeError Unit :=
  match nested.requireOpen scope with
  | .error cause => .error cause
  | .ok () => nested.requireInnermost scope

/-! ## Operations -/

/-- Opens a scope inside an open scope. The new scope has the next free number. -/
def enter (nested : NestedScopes α) (parent : ScopeId) (label : Option String) (payload : α) :
    Outcome ScopeError (NestedScopes α) ScopeId :=
  match nested.requireOpen parent with
  | .error cause => .error cause nested
  | .ok () =>
      let child : ScopeId := ⟨nested.size⟩
      let node : Scope α :=
        { label, enclosing := nested.path parent, inner := [], closed := false, payload }
      let grown : NestedScopes α := ⟨nested.nodes.push node⟩
      .ok child (grown.modify parent fun outer => { outer with inner := outer.inner ++ [child] })

/--
Closes a scope that has no open scope inside it, and answers whether it was open before: closing a
closed scope is allowed and changes nothing.
-/
def close (nested : NestedScopes α) (scope : ScopeId) :
    Outcome ScopeError (NestedScopes α) Bool :=
  if nested.isClosed scope then .ok false nested
  else
    match nested.requireUsable scope with
    | .error cause => .error cause nested
    | .ok () => .ok true (nested.modify scope fun node => { node with closed := true })

/-- Replaces the payload of a scope, open or closed, and answers with the one before. -/
def replacePayload (nested : NestedScopes α) (scope : ScopeId) (payload : α) :
    Outcome ScopeError (NestedScopes α) α :=
  match nested.payload? scope with
  | none => .error (.unknownScope scope.index nested.size) nested
  | some old => .ok old (nested.modifyPayload scope fun _ => payload)

end NestedScopes

end JvmEmit
