/-!
# Errors

Every error is a mistake in how the library is driven. Scope errors come from nested scopes, slot
tables and name supplies; draft errors come from classes and methods under construction, and may
wrap a scope error. An error is a cause together with what it is about, and `message` is its
wording.
-/

namespace JvmEmit

/-- Why an operation on nested scopes, a slot table or a name supply failed. -/
inductive ScopeError where
  | closed (scope : String)
  /-- The scope has open scopes inside it, some of which are listed. -/
  | openInside (scope : String) (listed : List String)
  /-- A receiver, argument or local variable comes too late. -/
  | outOfOrder (scope : String) (detail : String)
  /-- The name is taken by a variable visible from the scope. -/
  | nameTaken (name : String) (scope : String)
  | nameUnknown (name : String) (scope : String)
  /-- There are only `count` variables to index. -/
  | indexTooLarge (index : Nat) (count : Nat)
  | unknownScope (index : Nat) (size : Nat)
deriving DecidableEq

namespace ScopeError

/-- The wording of a scope error. -/
def message : ScopeError → String
  | .closed scope => "scope '" ++ scope ++ "' is closed"
  | .openInside scope listed =>
      "scope '" ++ scope ++ "' cannot be used, it has open child scopes: " ++
        ", ".intercalate listed
  | .outOfOrder scope detail =>
      "invalid declaration order in scope '" ++ scope ++ "': " ++ detail
  | .nameTaken name scope =>
      "a variable named '" ++ name ++ "' already exists in scope '" ++ scope ++ "'"
  | .nameUnknown name scope =>
      "no variable named '" ++ name ++ "' in scope '" ++ scope ++ "'"
  | .indexTooLarge index count =>
      "variable index " ++ toString index ++ " is out of range (0.." ++ toString count ++ ")"
  | .unknownScope index size =>
      "index out of bounds: the len is " ++ toString size ++ " but the index is " ++
        toString index

/-- The name of the scope that an error is about, if it names one. -/
def scope? : ScopeError → Option String
  | .closed scope | .openInside scope _ | .outOfOrder scope _ | .nameTaken _ scope
  | .nameUnknown _ scope => some scope
  | .indexTooLarge .. | .unknownScope .. => none

end ScopeError

/-- Why an operation on a class or method under construction failed. -/
inductive DraftError where
  | scope (cause : ScopeError)
  | bodyStarted (method : String)
  | bodyOpen (method : String)
  | unknownBlock (block : Nat)
  | memberExists (className : String) (name : String)
  | labelBound (label : String)
deriving DecidableEq

namespace DraftError

/-- The wording of a draft error; a wrapped scope error keeps its own. -/
def message : DraftError → String
  | .scope cause => cause.message
  | .bodyStarted method => "method '" ++ method ++ "' already has a body"
  | .bodyOpen method => "method '" ++ method ++ "' cannot be finished while its body is open"
  | .unknownBlock block => "unknown block #" ++ toString block
  | .memberExists className name =>
      "class '" ++ className ++ "' already declares a member named '" ++ name ++ "'"
  | .labelBound label => "label '" ++ label ++ "' has already been placed"

end DraftError

/-- Any error of the library. -/
inductive EmitError where
  | scope (cause : ScopeError)
  | draft (cause : DraftError)
deriving DecidableEq

namespace EmitError

/-- The wording of an error is that of its cause. -/
def message : EmitError → String
  | .scope cause => cause.message
  | .draft cause => cause.message

/-- The scope error at the bottom of an error, if there is one. -/
def scopeError? : EmitError → Option ScopeError
  | .scope cause | .draft (.scope cause) => some cause
  | .draft _ => none

end EmitError

end JvmEmit
