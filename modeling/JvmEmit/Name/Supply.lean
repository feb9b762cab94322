import JvmEmit.Name.Numbered
import JvmEmit.Scope.Lifecycle
import Std.Data.TreeMap
import Std.Data.TreeSet

/-!
# Name supplies

A name supply hands out names that are free in a scope: different from every name handed out or
reserved before in that scope and in the scopes around it. Sibling scopes do not see each other's
names.

A scope keeps the highest index in use for each base, below which every index counts as taken, and
the names that are reserved ahead of it. The closest scope on the path outward that has an index for
a base decides where the search for a free name begins.
-/

namespace JvmEmit

/-- The names in use in one scope, not counting those of the scopes around it. -/
structure NameFrame where
  /-- The highest index in use for each base. -/
  latest : Std.TreeMap String Nat
  /-- The names that had not been reached when they were reserved. -/
  reserved : Std.TreeSet String

namespace NameFrame

/-- The frame in which no name is in use. -/
def empty : NameFrame :=
  ⟨∅, ∅⟩

/-- Records the highest index in use for a base. -/
def withIndex (frame : NameFrame) (base : String) (index : Nat) : NameFrame :=
  { frame with latest := frame.latest.insert base index }

/-- Remembers a name as reserved ahead. -/
def withReserved (frame : NameFrame) (name : String) : NameFrame :=
  { frame with reserved := frame.reserved.insert name }

/-- Drops some names from those reserved ahead. -/
def forget (frame : NameFrame) (names : List String) : NameFrame :=
  { frame with reserved := names.foldl (fun left name => left.erase name) frame.reserved }

end NameFrame

/-- The names in use in nested scopes. -/
structure NameSupply where
  scopes : NestedScopes NameFrame

namespace NameSupply

open NumberedName (numbered baseOfHint)

/-- The supply whose outermost scope uses no name. -/
def ofRoot (label : Option String) : NameSupply :=
  ⟨.ofRoot label .empty⟩

/-- Indices are 64-bit words; this is the largest. -/
def maxIndex : Nat :=
  UInt64.size - 1

/-- The frames of a scope and of the scopes around it, its own first. -/
def frames (supply : NameSupply) (scope : ScopeId) : List NameFrame :=
  supply.scopes.payloads scope

/-- The highest index in use for a base in the closest scope that has one. -/
def latestIndex? (supply : NameSupply) (scope : ScopeId) (base : String) : Option Nat :=
  (supply.frames scope).findSome? fun frame => frame.latest[base]?

/-- The index behind the one in use, which is zero for an unused base. -/
def nextIndex (supply : NameSupply) (scope : ScopeId) (base : String) : Nat :=
  match supply.latestIndex? scope base with
  | none => 0
  | some index => min (index + 1) maxIndex

/-- A name is reserved ahead in a scope or around it. -/
def isReserved (supply : NameSupply) (scope : ScopeId) (name : String) : Bool :=
  (supply.frames scope).any fun frame => frame.reserved.contains name

/-- How many names are reserved ahead in a scope and around it, scope by scope. -/
def reservedCount (supply : NameSupply) (scope : ScopeId) : Nat :=
  (supply.frames scope).foldr (fun frame total => frame.reserved.size + total) 0

/-- Changes the frame of one scope. -/
def modifyFrame (supply : NameSupply) (scope : ScopeId) (change : NameFrame → NameFrame) :
    NameSupply :=
  ⟨supply.scopes.modifyPayload scope change⟩

/-- Opens a scope without names of its own inside an open scope. -/
def enter (supply : NameSupply) (parent : ScopeId) (label : Option String) :
    Outcome ScopeError NameSupply ScopeId :=
  (supply.scopes.enter parent label .empty).lift id NameSupply.mk

/-- Closes a scope, which hands out and takes no names from then on. -/
def close (supply : NameSupply) (scope : ScopeId) : Outcome ScopeError NameSupply Bool :=
  (supply.scopes.close scope).lift id NameSupply.mk

/--
Looks for an index of a base whose name is not reserved, from an index on. Names that are passed over
are forgotten in the scope itself, because its index will be ahead of them.
-/
def search (supply : NameSupply) (scope : ScopeId) (base : String) :
    (steps index : Nat) → Nat × NameSupply
  | 0, index => (index, supply)
  | steps + 1, index =>
      let name := numbered base index
      if supply.isReserved scope name then
        (supply.modifyFrame scope fun frame => frame.forget [name]).search scope base steps
          (index + 1)
      else (index, supply)

/--
Hands out the free name with the least index for the base of a hint. The search passes over no more
names than are reserved, which bounds its steps.
-/
def fresh (supply : NameSupply) (scope : ScopeId) (hint : Option String) :
    Outcome ScopeError NameSupply String :=
  match supply.scopes.requireUsable scope with
  | .error cause => .error cause supply
  | .ok () =>
      let base := baseOfHint hint
      let (index, searched) :=
        supply.search scope base (supply.reservedCount scope) (supply.nextIndex scope base)
      .ok (numbered base index) (searched.modifyFrame scope fun frame => frame.withIndex base index)

/--
The change to a scope's frame that takes a name out of the supply. A name that is never handed out
needs no change. The next index of its base is used up; a higher one is remembered by name, as is
one too large for an index; a lower one is taken already.
-/
def reservation (supply : NameSupply) (scope : ScopeId) (name : String) (frame : NameFrame) :
    NameFrame :=
  let base := NumberedName.base name
  let index := NumberedName.index name
  if NumberedName.isUnnumbered name then frame
  else if maxIndex < index then frame.withReserved name
  else if index = supply.nextIndex scope base then frame.withIndex base index
  else if (supply.latestIndex? scope base).all (· < index) then frame.withReserved name
  else frame

/-- Takes a name out of the supply, so that neither the scope nor one inside it hands it out. -/
def reserve (supply : NameSupply) (scope : ScopeId) (name : String) :
    Outcome ScopeError NameSupply Unit :=
  match supply.scopes.requireUsable scope with
  | .error cause => .error cause supply
  | .ok () => .ok () (supply.modifyFrame scope (supply.reservation scope name))

end NameSupply

end JvmEmit
