import JvmEmit.Proofs.Name.LeastFree

/-!
# Names that came into use

A name comes into use in a scope when the supply hands it out there, or when somebody who has chosen
it takes it out of the supply. The supply remembers both kinds. So a name that it hands out differs
from every name that came into use before in the scope or around it, and it will stay so, since the
path of a scope never changes.
-/

namespace JvmEmit

open NumberedName (isBase_baseOfHint)

/-- A name that came into use in a scope. -/
structure Naming where
  scope : ScopeId
  name : String
  /-- The supply has handed the name out; it was not given from outside. -/
  issued : Bool
deriving DecidableEq

namespace Naming

/-- The naming of a name that the supply has handed out. -/
abbrev handedOut (scope : ScopeId) (name : String) : Naming :=
  ⟨scope, name, true⟩

/-- The naming of a name that was given from outside. -/
abbrev given (scope : ScopeId) (name : String) : Naming :=
  ⟨scope, name, false⟩

/-- A naming as a name taken out of the supply, whoever has chosen it. -/
def taking (naming : Naming) : Taking :=
  ⟨naming.scope, naming.name⟩

end Naming

/-- A name came into use in a scope. -/
def NamedIn (namings : List Naming) (scope : ScopeId) (name : String) : Prop :=
  ∃ naming ∈ namings, naming.scope = scope ∧ naming.name = name

namespace NamedIn

variable {namings : List Naming} {scope : ScopeId} {name : String}

theorem append (namedIn : NamedIn namings scope name) (later : List Naming) :
    NamedIn (later ++ namings) scope name := by
  rcases namedIn with ⟨naming, member, same⟩
  exact ⟨naming, List.mem_append_right _ member, same⟩

end NamedIn

namespace NameSupply

/--
The supply knows the names that came into use, the latest first. Each of them that it handed out was
new in its scope and around it.
-/
structure Remembers (supply : NameSupply) (namings : List Naming) : Prop where
  faithful : NameHistory.Faithful ⟨supply, namings.map Naming.taking⟩
  issuedNew : namings.Pairwise fun later earlier =>
    later.issued = true → earlier.scope ∈ supply.scopes.path later.scope →
      later.name ≠ earlier.name

namespace Remembers

variable {supply : NameSupply} {namings : List Naming}

theorem initial (label : Option String) : (NameSupply.ofRoot label).Remembers [] :=
  ⟨.initial label, .nil⟩

theorem wellNested (remembers : supply.Remembers namings) : supply.scopes.WellNested :=
  remembers.faithful.wellNested

theorem known (remembers : supply.Remembers namings) {naming : Naming}
    (member : naming ∈ namings) : naming.scope.index < supply.scopes.size :=
  remembers.faithful.takings_known naming.taking (List.mem_map_of_mem member)

/-- A usable scope hands out a name that nothing in sight of it has. -/
theorem freshName_ne (remembers : supply.Remembers namings) (few : namings.length ≤ maxIndex)
    {scope : ScopeId} (usable : supply.scopes.requireUsable scope = .ok ()) (hint : Option String)
    {naming : Naming} (member : naming ∈ namings)
    (inSight : naming.scope ∈ supply.scopes.path scope) :
    supply.freshName scope hint ≠ naming.name := by
  have fewTakings : (namings.map Naming.taking).length ≤ maxIndex := by
    rwa [List.length_map]
  have free := (remembers.faithful.isLeast_freeIndex fewTakings usable (isBase_baseOfHint hint)).1
  intro same
  apply free
  exact ⟨naming.taking, List.mem_map_of_mem member, inSight, same.symm⟩

theorem enter {parent child : ScopeId} {label : Option String} {scopes : NestedScopes NameFrame}
    (remembers : supply.Remembers namings)
    (entered : supply.scopes.enter parent label .empty = .ok child scopes) :
    Remembers ⟨scopes⟩ namings := by
  refine ⟨remembers.faithful.enter entered, ?_⟩
  apply remembers.issuedNew.imp_of_mem
  intro later earlier laterMember _ isNew issued inSight
  have unknown := NestedScopes.size_le_child_of_enter entered
  have older : later.scope ≠ child := by
    rintro rfl
    exact Nat.not_lt_of_le unknown (remembers.known laterMember)
  rw [NestedScopes.path_of_enter entered, if_neg older] at inSight
  exact isNew issued inSight

theorem close {closing : ScopeId} (remembers : supply.Remembers namings)
    (usable : supply.scopes.requireUsable closing = .ok ()) :
    Remembers ⟨supply.scopes.closedAt closing⟩ namings := by
  refine ⟨remembers.faithful.close usable, ?_⟩
  simpa using remembers.issuedNew

theorem issue {scope : ScopeId} (remembers : supply.Remembers namings)
    (few : namings.length < maxIndex) (usable : supply.scopes.requireUsable scope = .ok ())
    (hint : Option String) :
    (supply.afterFresh scope hint).Remembers
      (.handedOut scope (supply.freshName scope hint) :: namings) := by
  constructor
  · apply remembers.faithful.step (.fresh usable hint)
    simp only [List.length_cons, List.length_map]
    omega
  · simp only [afterFresh, modifyFrame, NestedScopes.path_modifyPayload]
    refine List.pairwise_cons.mpr ⟨?_, remembers.issuedNew⟩
    intro earlier member _ inSight
    exact remembers.freshName_ne (Nat.le_of_lt few) usable hint member inSight

theorem reserve {scope : ScopeId} (remembers : supply.Remembers namings)
    (few : namings.length < maxIndex) (usable : supply.scopes.requireUsable scope = .ok ())
    (name : String) :
    (supply.afterReserve scope name).Remembers (.given scope name :: namings) := by
  constructor
  · apply remembers.faithful.step (.reserve usable name)
    simp only [List.length_cons, List.length_map]
    omega
  · simp only [afterReserve, modifyFrame, NestedScopes.path_modifyPayload]
    refine List.pairwise_cons.mpr ⟨?_, remembers.issuedNew⟩
    intro earlier _ given
    cases given

end Remembers

end NameSupply

end JvmEmit
