import JvmEmit.Proofs.Class.Runs
import JvmEmit.Proofs.Method.Completion

/-!
# Names issued for a class and its methods

Fields, methods, labels, variables, reserved and fresh names all go through the one name supply of
the class, at the level of the class or in a block of a method. So a name that is handed out differs
from the names of all members so far, and from everything that was named before in the block or
around it. This does not depend on what the given names look like: a name that the supply does not
remember is one that it never hands out.
-/

namespace JvmEmit

open NameSupply (maxIndex)

theorem ClassDraft.Names.remembers {draft named : ClassDraft} {naming : Naming}
    {namings : List Naming} (names : draft.Names naming named)
    (remembers : draft.names.Remembers namings) (few : namings.length < maxIndex) :
    named.names.Remembers (naming :: namings) := by
  cases names with
  | issue usable hint => exact remembers.issue few usable hint
  | take usable name => exact remembers.reserve few usable name

theorem ClassDraft.Names.fields_eq {draft named : ClassDraft} {naming : Naming}
    (names : draft.Names naming named) : named.fields = draft.fields := by
  cases names with
  | issue usable hint => rfl
  | take usable name => rfl

theorem ClassDraft.Names.scope_eq {draft named : ClassDraft} {naming : Naming}
    (names : draft.Names naming named) : naming.scope = .root := by
  cases names with
  | issue usable hint => rfl
  | take usable name => rfl

/-- A block is another one or around it. -/
def MethodDraft.Encloses (draft : MethodDraft) (outer home : Block) : Prop :=
  outer ∈ draft.blocks ∧ outer.slotScope ∈ draft.slots.scopes.path home.slotScope

theorem MethodDraft.Lockstep.nameScope_mem_path {draft : MethodDraft} (lockstep : draft.Lockstep)
    (wellNested : draft.owner.names.scopes.WellNested) {outer home : Block}
    (entered : home ∈ draft.blocks) (encloses : draft.Encloses outer home) :
    outer.nameScope ∈ draft.owner.names.scopes.path home.nameScope := by
  rw [lockstep.path_nameScope wellNested entered, lockstep.nameScope_eq encloses.1]
  exact List.mem_append_left _ (List.mem_map_of_mem encloses.2)

namespace MethodDraft.WellNamed

variable {draft : MethodDraft} {namings : List Naming}

theorem complete (wellNamed : draft.WellNamed namings) {owner : ClassDraft}
    (completed : draft.complete = .ok () owner) : owner.names.Remembers namings := by
  rcases owner_of_complete wellNamed.lockstep completed with ⟨names, rfl, bodyLeft⟩
  rcases bodyLeft with ⟨_, rfl⟩ | ⟨_, usable, rfl⟩
  · exact wellNamed.remembers
  · exact wellNamed.remembers.close usable

theorem failToComplete (wellNamed : draft.WellNamed namings) {cause : DraftError}
    {owner : ClassDraft} (failed : draft.complete = .error cause owner) :
    owner.names.Remembers namings := by
  rw [(owner_of_failed_complete wellNamed.lockstep failed).2]
  exact wellNamed.remembers

end MethodDraft.WellNamed

/-- The supply of the class knows the names, as does the draft of a method on the workbench. -/
def Workbench.WellNamed (bench : Workbench) (namings : List Naming) : Prop :=
  match bench with
  | .ofClass draft => draft.names.Remembers namings
  | .ofMethod draft => draft.WellNamed namings

theorem Workbench.WellNamed.remembers {bench : Workbench} {namings : List Naming}
    (wellNamed : bench.WellNamed namings) : bench.owner.names.Remembers namings := by
  cases bench with
  | ofClass draft => exact wellNamed
  | ofMethod draft => exact MethodDraft.WellNamed.remembers wellNamed

namespace ClassRun

/-- The names of a run are known, as long as there are not more of them than indices. -/
def WellNamed (run : ClassRun) : Prop :=
  run.namings.length ≤ maxIndex → run.bench.WellNamed run.namings

theorem WellNamed.step {run after : ClassRun} (step : Step run after)
    (wellNamed : run.WellNamed) : after.WellNamed := by
  intro few
  cases step with
  | idle => exact wellNamed few
  | declareField names => exact names.remembers (wellNamed (Nat.le_of_lt few)) few
  | issueName names => exact names.remembers (wellNamed (Nat.le_of_lt few)) few
  | startMethod names sameName entered isNew =>
      have remembers := names.remembers (wellNamed (Nat.le_of_lt few)) few
      exact .ofIsNew isNew (remembers.enter entered)
  | inMethod call =>
      rename_i draft namings started ends
      have fewBefore : namings.length ≤ maxIndex := by
        dsimp only at few
        rw [List.length_append] at few
        omega
      exact MethodDraft.WellNamed.after (wellNamed fewBefore) call few
  | complete completed => exact MethodDraft.WellNamed.complete (wellNamed few) completed
  | failToComplete failed => exact MethodDraft.WellNamed.failToComplete (wellNamed few) failed
  | abandon => exact MethodDraft.WellNamed.remembers (wellNamed few)

theorem wellNamed (header : ClassHeader) (options : ClassOptions) (calls : List ClassCall) :
    (ofCalls header options calls).WellNamed := by
  apply ofCalls_keeps WellNamed fun _ => WellNamed.step
  intro _
  exact NameSupply.Remembers.initial _

/-! ## Members -/

/-- The fields of the class and the methods started so far have names that came into use there. -/
structure MembersNamed (run : ClassRun) : Prop where
  fields : ∀ field ∈ run.bench.owner.fields, NamedIn run.namings .root field.name
  started : ∀ signature ∈ run.started, NamedIn run.namings .root signature.name

namespace MembersNamed

variable {run after : ClassRun}

theorem fields_after (named : run.MembersNamed) (later : List Naming)
    (same : after.bench.owner.fields = run.bench.owner.fields)
    (namings : after.namings = later ++ run.namings) :
    ∀ field ∈ after.bench.owner.fields, NamedIn after.namings .root field.name := by
  intro field member
  rw [same] at member
  rw [namings]
  exact (named.fields field member).append later

theorem started_after (named : run.MembersNamed) (later : List Naming)
    (same : after.started = run.started) (namings : after.namings = later ++ run.namings) :
    ∀ signature ∈ after.started, NamedIn after.namings .root signature.name := by
  intro signature member
  rw [same] at member
  rw [namings]
  exact (named.started signature member).append later

theorem step (lockstep : ∀ draft, run.bench = .ofMethod draft → draft.Lockstep)
    (step : Step run after) (named : run.MembersNamed) : after.MembersNamed := by
  cases step with
  | idle => exact named
  | declareField names =>
      refine ⟨?_, named.started_after [_] rfl rfl⟩
      intro field member
      rcases List.mem_append.mp member with older | newest
      · exact (named.fields field older).append [_]
      · rw [List.mem_singleton.mp newest]
        exact ⟨_, List.mem_cons_self, rfl, rfl⟩
  | issueName names =>
      exact ⟨named.fields_after [_] names.fields_eq rfl, named.started_after [_] rfl rfl⟩
  | startMethod names sameName entered isNew =>
      refine ⟨named.fields_after [_] names.fields_eq rfl, ?_⟩
      intro signature member
      rcases List.mem_append.mp member with older | newest
      · exact (named.started signature older).append [_]
      · rw [List.mem_singleton.mp newest]
        exact ⟨_, List.mem_cons_self, names.scope_eq, sameName⟩
  | inMethod call =>
      have owner := (MethodDraft.retains_after (lockstep _ rfl) call).owner
      have fields := congrArg ClassDraft.fields owner
      exact ⟨named.fields_after _ fields rfl, named.started_after _ rfl rfl⟩
  | complete completed =>
      rcases MethodDraft.owner_of_complete (lockstep _ rfl) completed with ⟨names, rfl, _⟩
      exact ⟨named.fields, named.started⟩
  | failToComplete failed =>
      rw [(MethodDraft.owner_of_failed_complete (lockstep _ rfl) failed).2]
      exact ⟨named.fields, named.started⟩
  | abandon => exact ⟨named.fields, named.started⟩

end MembersNamed

theorem membersNamed (header : ClassHeader) (options : ClassOptions) (calls : List ClassCall) :
    (ofCalls header options calls).MembersNamed := by
  apply ofCalls_keeps MembersNamed MembersNamed.step
  constructor
  · intro field member
    cases member
  · intro signature member
    cases member

/-! ## Names that are handed out -/

theorem ofMethod_of_mem_namings {draft : MethodDraft} (lockstep : draft.Lockstep)
    {call : ClassCall} {naming : Naming} (member : naming ∈ call.namings (.ofMethod draft)) :
    ∃ after, Outcome.state (call.run (.ofMethod draft)) = .ofMethod after ∧
      draft.Retains after ∧ ∃ home ∈ after.blocks, home.nameScope = naming.scope := by
  cases call with
  | inMethod call =>
      refine ⟨call.after draft, ?_, MethodDraft.retains_after lockstep call,
        MethodCall.home_of_mem_namings lockstep member⟩
      rw [ClassCall.run, Outcome.state_lift, MethodCall.state_run]
  | declareField name type modifiers => cases member
  | issueName hint => cases member
  | startMethod signature => cases member
  | startSyntheticMethod hint modifiers parameters returnType => cases member
  | completeMethod => cases member
  | abandonMethod => cases member

theorem not_namedIn_of_onPath {supply : NameSupply} {later earlier : List Naming}
    {scope outer : ScopeId} {name : String}
    (remembers : supply.Remembers (later ++ .handedOut scope name :: earlier))
    (onPath : outer ∈ supply.scopes.path scope) : ¬ NamedIn earlier outer name := by
  rintro ⟨naming, member, inScope, sameName⟩
  have isNew := (List.pairwise_append.mp remembers.issuedNew).2.1
  apply (List.pairwise_cons.mp isNew).1 naming member rfl
  · rw [inScope]
    exact onPath
  · exact sameName.symm

/--
A name that a call hands out differs from the names of all fields and methods declared so far, from
everything named before at the level of the class, and, in a method, from everything named before in
the block that it is handed out in and in the blocks around it. Since names are numbered by 64-bit
indices, a run is supposed to have fewer names than there are indices.
-/
theorem issued_names_are_new (header : ClassHeader) (options : ClassOptions)
    (calls : List ClassCall) (call : ClassCall)
    (few : (ofCalls header options (calls ++ [call])).namings.length < UInt64.size)
    {later earlier : List Naming} {scope : ScopeId} {name : String}
    (issued : call.namings (ofCalls header options calls).bench =
      later ++ .handedOut scope name :: earlier) :
    let run := ofCalls header options calls
    let before := earlier ++ run.namings
    (∀ field ∈ run.bench.owner.fields, field.name ≠ name) ∧
    (∀ signature ∈ run.started, signature.name ≠ name) ∧
    ¬ NamedIn before .root name ∧
    ∀ draft, run.bench = .ofMethod draft →
      ∃ after, (run.record call).bench = .ofMethod after ∧
        ∃ home ∈ after.blocks, home.nameScope = scope ∧
          ∀ outer, after.Encloses outer home →
            ¬ NamedIn before outer.nameScope name ∧
            ∀ declared ∈ draft.slots.declaredIn outer.slotScope, declared.name ≠ some name := by
  intro run before
  have namings : (ofCalls header options (calls ++ [call])).namings =
      later ++ .handedOut scope name :: before := by
    rw [ofCalls_append, record, issued, List.append_assoc]
    rfl
  have fewNow := Nat.le_pred_of_lt few
  have remembers := (wellNamed header options (calls ++ [call]) fewNow).remembers
  rw [namings] at remembers
  have members := membersNamed header options calls
  have known := remembers.known (List.mem_append_right later List.mem_cons_self)
  have notRoot : ¬ NamedIn before .root name :=
    not_namedIn_of_onPath remembers (remembers.wellNested.root_mem_path known)
  refine ⟨?_, ?_, notRoot, ?_⟩
  · rintro field member rfl
    exact notRoot ((members.fields field member).append earlier)
  · rintro signature member rfl
    exact notRoot ((members.started signature member).append earlier)
  · intro draft live
    have fewBefore : run.namings.length ≤ maxIndex := by
      rw [namings] at fewNow
      simp only [before, List.length_append, List.length_cons] at fewNow
      exact Nat.le_trans (by omega) fewNow
    have wellNamedBefore := wellNamed header options calls fewBefore
    rw [live] at wellNamedBefore
    have issuedThere : .handedOut scope name ∈ call.namings (.ofMethod draft) := by
      rw [← live, issued]
      exact List.mem_append_right later List.mem_cons_self
    rcases ofMethod_of_mem_namings wellNamedBefore.lockstep issuedThere with
      ⟨after, result, retains, home, entered, inScope⟩
    have liveAfter : (run.record call).bench = .ofMethod after := by
      rw [record, live]
      exact result
    refine ⟨after, liveAfter, home, entered, inScope, ?_⟩
    intro outer encloses
    have atWork : (ofCalls header options (calls ++ [call])).bench = .ofMethod after := by
      rw [ofCalls_append]
      exact liveAfter
    have lockstep := (isReachable_of_ofMethod atWork).lockstep
    rw [atWork] at remembers
    have onPath := lockstep.nameScope_mem_path remembers.wellNested entered encloses
    rw [inScope] at onPath
    have notOuter : ¬ NamedIn before outer.nameScope name :=
      not_namedIn_of_onPath remembers onPath
    refine ⟨notOuter, ?_⟩
    intro declared member named
    apply notOuter
    rw [lockstep.nameScope_eq encloses.1, retains.nameScope]
    exact (wellNamedBefore.mentioned _ declared member name named).append earlier

/-- An empty name, names with small numbers, one with a leading zero and one above all indices. -/
def oddlyNamedCalls : List ClassCall :=
  [.declareField "" .int .empty, .declareField "t" .int .empty, .startMethod { name := "t1" },
    .inMethod .startBody, .inMethod (.takeName ⟨0⟩ "t18446744073709551616"),
    .inMethod (.addVariable ⟨0⟩ .int (some "t2")), .inMethod (.enterBlock ⟨0⟩ none),
    .inMethod (.takeName ⟨1⟩ "t03")]

/-- The field, the method and the variable keep their names from the temporary in the inner block. -/
theorem issued_names_are_new_among_odd_names :
    let header : ClassHeader := { name := ⟨"", "A"⟩ }
    let run := ofCalls header {} oddlyNamedCalls
    let call : ClassCall := .inMethod (.addTemporary ⟨1⟩ .int (some "t"))
    (ofCalls header {} (oddlyNamedCalls ++ [call])).namings.length < UInt64.size ∧
    call.namings run.bench = [.given ⟨2⟩ "t3"] ++ [.handedOut ⟨2⟩ "t3"] ∧
    (∀ field ∈ run.bench.owner.fields, field.name ≠ "t3") ∧
    (∀ signature ∈ run.started, signature.name ≠ "t3") ∧
    ¬ NamedIn run.namings .root "t3" := by
  intro header run call
  have few : (ofCalls header {} (oddlyNamedCalls ++ [call])).namings.length < UInt64.size := by
    decide +kernel
  have issued : call.namings run.bench = [.given ⟨2⟩ "t3"] ++ [.handedOut ⟨2⟩ "t3"] := by
    decide +kernel
  rcases issued_names_are_new header {} oddlyNamedCalls call few issued with
    ⟨fields, started, inClass, _⟩
  rw [List.nil_append] at inClass
  exact ⟨few, issued, fields, started, inClass⟩

end ClassRun

end JvmEmit
