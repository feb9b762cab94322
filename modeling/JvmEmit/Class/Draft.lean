import JvmEmit.Class.Finished
import JvmEmit.Name.Supply

/-!
# Drafts of classes

The draft of a class collects fields and finished methods until the class is complete. The names of
the members and all names inside the methods come from one name supply, whose outermost scope
belongs to the class. An operation is an `EStateM` program, so it says what it leaves behind also
where it fails.
-/

namespace JvmEmit

/-- A class under construction. -/
structure ClassDraft where
  header : ClassHeader
  options : ClassOptions
  /-- The names in use in the class and in its methods. -/
  names : NameSupply
  fields : List Field
  methods : List FinishedMethod

/-- Programs on a class under construction, which may fail and keep what they have done by then. -/
abbrev ClassM (α : Type) :=
  EStateM DraftError ClassDraft α

namespace ClassDraft

/-- The class without members. Its name scope is labelled with the simple name of the class. -/
def ofHeader (header : ClassHeader) (options : ClassOptions) : ClassDraft where
  header
  options
  names := .ofRoot (some header.name.name)
  fields := []
  methods := []

/-- Runs an operation on the class's name supply. -/
def onNames {α : Type} (operation : NameSupply → Outcome ScopeError NameSupply α) : ClassM α :=
  fun draft => (operation draft.names).lift .scope fun names => { draft with names }

/-- Hands out a fresh name of the class. -/
def issueName (hint : Option String) : ClassM String :=
  onNames fun names => names.fresh .root hint

/-- Takes a name out of those that the class hands out. -/
def takeName (name : String) : ClassM Unit :=
  onNames fun names => names.reserve .root name

/-- Declares a field under a name that no field of the class has. -/
def declareField (name : String) (type : JvmType) (modifiers : FieldModifiers) : ClassM Field := do
  let draft ← get
  if draft.fields.any fun field => field.name == name then
    throw (.memberExists draft.header.name.sourceName name)
  takeName name
  let field : Field := { name, type, modifiers }
  modify fun draft => { draft with fields := draft.fields ++ [field] }
  return field

/-- Ends the class, which fails while a name scope of one of its methods is open. -/
def complete (draft : ClassDraft) : Except DraftError FinishedClass :=
  match draft.names.close .root with
  | .error cause _ => .error (.scope cause)
  | .ok _ _ =>
      .ok {
        header := draft.header
        version := draft.options.version
        fields := draft.fields
        methods := draft.methods }

end ClassDraft

end JvmEmit
