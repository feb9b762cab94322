import JvmEmit.Proofs.Method.Calls
import JvmEmit.Proofs.Name.Detour

/-!
# Methods beside a detour

Two runs of a class have completed the same methods, except that inside one of them they did different
things. Drafts of later methods then have the same variables, labels, code and blocks. Only the name
scopes of the blocks have other numbers, and no operation answers with such a number. So every
operation gives the same answer in both runs, or fails for the same cause.
-/

namespace JvmEmit

/-- A detour inside a method that a class has completed in both runs. -/
structure MethodDetour extends Detour where
  /-- The methods completed before. -/
  earlier : List FinishedMethod
  /-- What became of the method without the detour. -/
  direct : FinishedMethod
  /-- What became of it with the detour. -/
  detoured : FinishedMethod

namespace MethodDetour

/-- The classes have the same fields, and the same methods but for the one with the detour. -/
structure SeparatesClass (detour : MethodDetour) (one two : ClassDraft) : Prop where
  header : two.header = one.header
  options : two.options = one.options
  fields : two.fields = one.fields
  names : detour.Separates one.names.scopes two.names.scopes
  methods : ∃ later, one.methods = detour.earlier ++ detour.direct :: later ∧
    two.methods = detour.earlier ++ detour.detoured :: later

/-- A block with the number of its name scope moved. -/
def movedBlock (detour : MethodDetour) (home : Block) : Block :=
  { home with nameScope := detour.moved home.nameScope }

/-- The draft of the same method in the other run, whose class is another one. -/
def movedMethod (detour : MethodDetour) (draft : MethodDraft) (owner : ClassDraft) : MethodDraft :=
  { draft with
    owner
    nameScope := detour.moved draft.nameScope
    blocks := draft.blocks.map detour.movedBlock }

/-- The drafts differ in their classes and in the numbers of their name scopes. -/
inductive SeparatesMethod (detour : MethodDetour) : MethodDraft → MethodDraft → Prop where
  | moved {draft : MethodDraft} {owner : ClassDraft}
      (classes : detour.SeparatesClass draft.owner owner)
      (beside : detour.Beside draft.owner.names.scopes draft.nameScope)
      (blocksBeside : ∀ home ∈ draft.blocks,
        detour.Beside draft.owner.names.scopes home.nameScope) :
      SeparatesMethod detour draft (detour.movedMethod draft owner)

/-- Classes correspond if they differ by the detour, and their name scopes grow in number. -/
def classes (detour : MethodDetour) : Correspondence ClassDraft where
  related := detour.SeparatesClass
  grown before after := before.names.scopes.size ≤ after.names.scopes.size
  grown_refl _ := Nat.le_refl _
  grown_trans := Nat.le_trans

/-- Drafts of one method correspond if they differ by the detour in the class. -/
def drafts (detour : MethodDetour) : Correspondence MethodDraft where
  related := detour.SeparatesMethod
  grown before after := before.owner.names.scopes.size ≤ after.owner.names.scopes.size
  grown_refl _ := Nat.le_refl _
  grown_trans := Nat.le_trans

variable {detour : MethodDetour}

theorem SeparatesClass.withNames {one two : ClassDraft} {names twinNames : NameSupply}
    (separates : detour.SeparatesClass one two)
    (related : detour.Separates names.scopes twinNames.scopes) :
    detour.SeparatesClass { one with names } { two with names := twinNames } :=
  ⟨separates.header, separates.options, separates.fields, related, separates.methods⟩

section Drafts

open MethodDraft

variable {one two : MethodDraft} {scope : ScopeId}

namespace SeparatesMethod

theorem classes (separates : detour.SeparatesMethod one two) :
    detour.SeparatesClass one.owner two.owner := by
  cases separates with
  | moved classes beside blocksBeside => exact classes

theorem names (separates : detour.SeparatesMethod one two) :
    detour.Separates one.owner.names.scopes two.owner.names.scopes :=
  separates.classes.names

theorem beside (separates : detour.SeparatesMethod one two) :
    detour.Beside one.owner.names.scopes one.nameScope := by
  cases separates with
  | moved classes beside blocksBeside => exact beside

theorem header_eq (separates : detour.SeparatesMethod one two) :
    two.owner.header = one.owner.header :=
  separates.classes.header

theorem signature_eq (separates : detour.SeparatesMethod one two) :
    two.signature = one.signature := by
  cases separates
  rfl

theorem nameScope_eq (separates : detour.SeparatesMethod one two) :
    two.nameScope = detour.moved one.nameScope := by
  cases separates
  rfl

theorem slots_eq (separates : detour.SeparatesMethod one two) : two.slots = one.slots := by
  cases separates
  rfl

theorem body_eq (separates : detour.SeparatesMethod one two) : two.body = one.body := by
  cases separates
  rfl

theorem bound_eq (separates : detour.SeparatesMethod one two) : two.bound = one.bound := by
  cases separates
  rfl

theorem beside_of_enter {parent child : ScopeId} {label : Option String} {after : MethodDraft}
    (separates : detour.SeparatesMethod one two)
    (entered : onNames (fun names => names.enter parent label) one = .ok child after) :
    detour.Beside after.owner.names.scopes child := by
  rcases Outcome.lift_eq_ok entered with ⟨names, ran, rfl⟩
  exact separates.names.beside_of_enterNames ran

theorem withNames {names twinNames : NameSupply} (separates : detour.SeparatesMethod one two)
    (related : detour.Separates names.scopes twinNames.scopes)
    (grown : one.owner.names.scopes.size ≤ names.scopes.size) :
    detour.SeparatesMethod (one.withNames names) (two.withNames twinNames) := by
  cases separates with
  | @moved owner classes beside blocksBeside =>
      change detour.SeparatesMethod (one.withNames names)
        (detour.movedMethod (one.withNames names) { owner with names := twinNames })
      apply SeparatesMethod.moved
      · exact classes.withNames related
      · exact beside.later grown
      · exact fun home entered => (blocksBeside home entered).later grown

end SeparatesMethod

/-! ## Names, slots and blocks -/

theorem agree_onNames {α α' : Type} {matching : α → α' → Prop}
    {operation : NameSupply → Outcome ScopeError NameSupply α}
    {twin : NameSupply → Outcome ScopeError NameSupply α'}
    (separates : detour.SeparatesMethod one two)
    (agree : detour.supplies.Agree matching one.owner.names (operation one.owner.names)
      (twin two.owner.names)) :
    detour.drafts.Agree matching one (onNames operation one) (onNames twin two) := by
  apply agree.lift
  intro left right related grown
  exact ⟨separates.withNames related grown, grown⟩

theorem agree_onSlots {α : Type}
    (operation : SlotTable JvmType → Outcome ScopeError (SlotTable JvmType) α)
    (separates : detour.SeparatesMethod one two) :
    detour.drafts.Agree (· = ·) one (onSlots operation one) (onSlots operation two) := by
  cases separates with
  | moved classes beside blocksBeside =>
      change detour.drafts.Agree (· = ·) one ((operation one.slots).lift _ _)
        ((operation one.slots).lift _ _)
      cases operation one.slots with
      | ok answer slots => exact .ok rfl (.moved classes beside blocksBeside) (Nat.le_refl _)
      | error cause slots => exact .error (.moved classes beside blocksBeside) (Nat.le_refl _)

theorem agree_askSlots {α : Type} (question : SlotTable JvmType → Except ScopeError α)
    (separates : detour.SeparatesMethod one two) :
    detour.drafts.Agree (· = ·) one (askSlots question one) (askSlots question two) :=
  agree_onSlots _ separates

/-- A block is found under the same number in both drafts, or in none. -/
theorem agree_block (id : BlockId) (separates : detour.SeparatesMethod one two) :
    detour.drafts.Agree
      (fun home twin => twin = detour.movedBlock home ∧
        detour.Beside one.owner.names.scopes home.nameScope) one
      (block id one) (block id two) := by
  cases separates with
  | @moved owner classes beside blocksBeside =>
      have related := SeparatesMethod.moved classes beside blocksBeside
      cases found : one.blocks[id.index]? with
      | none =>
          have twinFound : (detour.movedMethod one owner).blocks[id.index]? = none := by
            simp [movedMethod, found]
          rw [block_of_none found, block_of_none twinFound]
          exact .error related (Nat.le_refl _)
      | some home =>
          have twinFound : (detour.movedMethod one owner).blocks[id.index]? =
              some (detour.movedBlock home) := by
            simp [movedMethod, found]
          rw [block_of_some found, block_of_some twinFound]
          exact .ok ⟨rfl, blocksBeside home (Array.mem_of_getElem? found)⟩ related (Nat.le_refl _)

theorem agree_usableBlock (id : BlockId) (separates : detour.SeparatesMethod one two) :
    detour.drafts.Agree
      (fun home twin => twin = detour.movedBlock home ∧
        detour.Beside one.owner.names.scopes home.nameScope) one
      (usableBlock id one) (usableBlock id two) := by
  apply (agree_block id separates).bind
  rintro home _ left right ⟨rfl, beside⟩ related _
  apply (agree_askSlots _ related).bind
  intro _ _ last twinLast _ related _
  exact .pure related ⟨rfl, beside⟩

theorem agree_issueLabel (separates : detour.SeparatesMethod one two)
    (beside : detour.Beside one.owner.names.scopes scope) (hint : Option String) :
    detour.drafts.Agree (· = ·) one (issueLabel scope hint one)
      (issueLabel (detour.moved scope) hint two) := by
  apply (agree_onNames separates (Detour.agree_fresh separates.names beside hint)).bind
  rintro name _ left right rfl related _
  cases related with
  | moved classes beside blocksBeside =>
      exact .ok rfl (.moved classes beside blocksBeside) (Nat.le_refl _)

/-- A program that makes the labels for the two ends of a block first goes on with the same ones. -/
theorem agree_issueEnds {α : Type} {next twinNext : Label → Label → MethodM α}
    (separates : detour.SeparatesMethod one two)
    (beside : detour.Beside one.owner.names.scopes scope)
    (agree : ∀ (start stop : Label) (left right : MethodDraft), detour.SeparatesMethod left right →
      detour.drafts.grown one left →
        detour.drafts.Agree (· = ·) left (next start stop left) (twinNext start stop right)) :
    detour.drafts.Agree (· = ·) one
      ((do
        let start ← issueLabel scope (some "start")
        let stop ← issueLabel scope (some "end")
        next start stop : MethodM α) one)
      ((do
        let start ← issueLabel (detour.moved scope) (some "start")
        let stop ← issueLabel (detour.moved scope) (some "end")
        twinNext start stop : MethodM α) two) := by
  apply (agree_issueLabel separates beside (some "start")).bind
  rintro start _ middle twinMiddle rfl related grown
  apply (agree_issueLabel related (beside.later grown) (some "end")).bind
  rintro stop _ left right rfl related later
  exact agree start stop left right related (detour.drafts.grown_trans grown later)

theorem agree_markHere (label : Label) (separates : detour.SeparatesMethod one two) :
    detour.drafts.Agree (· = ·) one (markHere label one) (markHere label two) := by
  cases separates with
  | moved classes beside blocksBeside =>
      exact .ok rfl (.moved classes beside blocksBeside) (Nat.le_refl _)

theorem addBlock_eq (entered : Block) (draft : MethodDraft) :
    addBlock entered draft = .ok ⟨draft.blocks.size⟩ (draft.beginning entered) :=
  rfl

theorem agree_addBlock (entered : Block) (separates : detour.SeparatesMethod one two)
    (besideEntered : detour.Beside one.owner.names.scopes entered.nameScope) :
    detour.drafts.Agree (· = ·) one (addBlock entered one)
      (addBlock (detour.movedBlock entered) two) := by
  cases separates with
  | @moved owner classes beside blocksBeside =>
      have sameSize : (detour.movedMethod one owner).blocks.size = one.blocks.size :=
        Array.size_map
      have pushed : (detour.movedMethod one owner).blocks.push (detour.movedBlock entered) =
          (one.blocks.push entered).map detour.movedBlock :=
        Array.map_push.symm
      have related : detour.SeparatesMethod (one.beginning entered)
          ((detour.movedMethod one owner).beginning (detour.movedBlock entered)) := by
        rw [beginning, beginning, pushed]
        change detour.SeparatesMethod (one.beginning entered)
          (detour.movedMethod (one.beginning entered) owner)
        apply SeparatesMethod.moved
        · exact classes
        · exact beside
        · intro home member
          rcases Array.mem_push.mp member with older | rfl
          · exact blocksBeside home older
          · exact besideEntered
      rw [addBlock_eq, addBlock_eq, sameSize]
      exact .ok rfl related (Nat.le_refl _)

theorem agree_recordVariable (id : BlockId) (declared : Variable JvmType)
    (separates : detour.SeparatesMethod one two) :
    detour.drafts.Agree (· = ·) one (recordVariable id declared one)
      (recordVariable id declared two) := by
  cases separates with
  | moved classes beside blocksBeside =>
      exact .ok rfl (.moved classes beside blocksBeside) (Nat.le_refl _)

/-- A program that looks up a block first goes on with the same block in both drafts. -/
theorem agree_inBlock {α : Type} (id : BlockId) {next twinNext : Block → MethodM α}
    (separates : detour.SeparatesMethod one two)
    (agree : ∀ (home : Block) (one two : MethodDraft), detour.SeparatesMethod one two →
      detour.Beside one.owner.names.scopes home.nameScope →
        detour.drafts.Agree (· = ·) one (next home one) (twinNext (detour.movedBlock home) two)) :
    detour.drafts.Agree (· = ·) one ((block id >>= next) one) ((block id >>= twinNext) two) := by
  apply (agree_block id separates).bind
  rintro home _ left right ⟨rfl, beside⟩ related grown
  exact agree home left right related (beside.later grown)

/-! ## The operations on blocks -/

theorem agree_addReceiver (body : BlockId) (separates : detour.SeparatesMethod one two) :
    detour.drafts.Agree (· = ·) one (addReceiver body one) (addReceiver body two) := by
  rw [addReceiver, get_bind, get_bind, separates.header_eq]
  apply (agree_onSlots _ separates).bind
  rintro receiver _ left right rfl related _
  exact agree_recordVariable body receiver related

theorem agree_addParameter (body : BlockId) (parameter : Parameter)
    (separates : detour.SeparatesMethod one two) :
    detour.drafts.Agree (· = ·) one (addParameter body parameter one)
      (addParameter body parameter two) := by
  rw [addParameter, get_bind, get_bind, separates.nameScope_eq]
  apply (agree_onSlots _ separates).bind
  rintro argument _ left right rfl related grown
  rcases parameter with ⟨_ | name, type⟩
  · exact agree_recordVariable body argument related
  · have beside := separates.beside.later grown
    apply (agree_onNames related (Detour.agree_reserve related.names beside name)).bind
    rintro _ _ left right _ related _
    exact agree_recordVariable body argument related

theorem agree_beginBody (body : BlockId) (separates : detour.SeparatesMethod one two) :
    let begin : MethodM Unit := modify fun draft => { draft with body := some body }
    detour.drafts.Agree (· = ·) one (begin one) (begin two) := by
  cases separates with
  | moved classes beside blocksBeside =>
      exact .ok rfl (.moved classes beside blocksBeside) (Nat.le_refl _)

theorem agree_startBody (separates : detour.SeparatesMethod one two) :
    detour.drafts.Agree (· = ·) one (startBody one) (startBody two) := by
  have beside := separates.beside
  rw [startBody, get_bind, get_bind, separates.body_eq, separates.signature_eq,
    separates.nameScope_eq]
  generalize one.signature = signature
  cases one.body with
  | some body => exact .throw separates _
  | none =>
      apply agree_issueEnds separates beside
      intro start stop left right related grown
      apply (agree_addBlock ⟨.root, one.nameScope, start, stop⟩ related (beside.later grown)).bind
      rintro body _ left right rfl related _
      -- The parameters are declared behind the receiver, or in its place.
      have parametersAgree : ∀ {one two : MethodDraft}, detour.SeparatesMethod one two →
          detour.drafts.Agree (· = ·) one
            ((signature.parameters.forM (addParameter body) >>= fun _ => pure body) one)
            ((signature.parameters.forM (addParameter body) >>= fun _ => pure body) two) := by
        intro one two related
        have declarations : detour.drafts.Agree (· = ·) one
            (signature.parameters.forM (addParameter body) one)
            (signature.parameters.forM (addParameter body) two) :=
          .forM related (fun parameter _ _ => agree_addParameter body parameter) _
        apply declarations.bind
        rintro _ _ left right _ related _
        exact .pure related rfl
      apply (agree_beginBody body related).bind
      rintro _ _ left right _ related _
      cases signature.isInstance with
      | false => exact parametersAgree related
      | true =>
          apply (agree_addReceiver body related).bind
          rintro _ _ left right _ related _
          exact parametersAgree related

theorem agree_enterBlock (parent : BlockId) (label : Option String)
    (separates : detour.SeparatesMethod one two) :
    detour.drafts.Agree (· = ·) one (enterBlock parent label one)
      (enterBlock parent label two) := by
  apply (agree_usableBlock parent separates).bind
  rintro outer _ left right ⟨rfl, beside⟩ related grown
  have besideThen := beside.later grown
  apply agree_issueEnds related besideThen
  intro start stop left right related grown
  have besideLater := besideThen.later grown
  apply (agree_onSlots (fun slots => slots.enter outer.slotScope label) related).bind
  rintro slotScope _ left right rfl related grown
  have besideLast := besideLater.later grown
  -- Only here do the answers differ: the new name scope has another number in the other run.
  have entering := Detour.agree_enterNames related.names besideLast label
  apply (agree_onNames related entering).bind_ran
  rintro nameScope _ left right rfl relatedAfter _ entered
  exact agree_addBlock ⟨slotScope, nameScope, start, stop⟩ relatedAfter
    (related.beside_of_enter entered)

theorem agree_isBlockClosed (id : BlockId) (separates : detour.SeparatesMethod one two) :
    detour.drafts.Agree (· = ·) one (isBlockClosed id one) (isBlockClosed id two) := by
  apply agree_inBlock id separates
  intro home one two separates beside
  rw [get_bind, get_bind, separates.slots_eq]
  exact .pure separates rfl

theorem agree_leaveBlock (id : BlockId) (separates : detour.SeparatesMethod one two) :
    detour.drafts.Agree (· = ·) one (leaveBlock id one) (leaveBlock id two) := by
  apply (agree_isBlockClosed id separates).bind
  rintro closed _ left right rfl related _
  cases closed with
  | true => exact .pure related rfl
  | false =>
      apply (agree_usableBlock id related).bind
      rintro closing _ left right ⟨rfl, beside⟩ related grown
      apply (agree_markHere closing.stop related).bind
      rintro _ _ left right _ related grownToo
      have besideThen := (beside.later grown).later grownToo
      apply (agree_onSlots (fun slots => slots.close closing.slotScope) related).bind
      rintro _ _ left right _ related grown
      have besideLast := besideThen.later grown
      apply (agree_onNames related (Detour.agree_closeNames related.names besideLast)).bind
      rintro _ _ left right _ related _
      exact .pure related rfl

/-! ## The operations on variables, names, labels and code -/

theorem agree_addVariable (id : BlockId) (type : JvmType) (name : Option String)
    (separates : detour.SeparatesMethod one two) :
    detour.drafts.Agree (· = ·) one (addVariable id type name one)
      (addVariable id type name two) := by
  apply agree_inBlock id separates
  intro home one two separates beside
  apply (agree_onSlots _ separates).bind
  rintro declared _ left right rfl related grown
  have besideThen := beside.later grown
  cases name with
  | none =>
      apply (agree_recordVariable id declared related).bind
      rintro _ _ left right _ related _
      exact .pure related rfl
  | some name =>
      apply (agree_onNames related (Detour.agree_reserve related.names besideThen name)).bind
      rintro _ _ left right _ related _
      apply (agree_recordVariable id declared related).bind
      rintro _ _ left right _ related _
      exact .pure related rfl

theorem agree_issueName (id : BlockId) (hint : Option String)
    (separates : detour.SeparatesMethod one two) :
    detour.drafts.Agree (· = ·) one (issueName id hint one) (issueName id hint two) := by
  apply agree_inBlock id separates
  intro home one two separates beside
  exact agree_onNames separates (Detour.agree_fresh separates.names beside hint)

theorem agree_takeName (id : BlockId) (name : String)
    (separates : detour.SeparatesMethod one two) :
    detour.drafts.Agree (· = ·) one (takeName id name one) (takeName id name two) := by
  apply agree_inBlock id separates
  intro home one two separates beside
  exact agree_onNames separates (Detour.agree_reserve separates.names beside name)

theorem agree_addTemporary (id : BlockId) (type : JvmType) (hint : Option String)
    (separates : detour.SeparatesMethod one two) :
    detour.drafts.Agree (· = ·) one (addTemporary id type hint one)
      (addTemporary id type hint two) := by
  apply (agree_issueName id hint separates).bind
  rintro name _ left right rfl related _
  exact agree_addVariable id type (some name) related

theorem agree_visibleVariable (id : BlockId) (name : String)
    (separates : detour.SeparatesMethod one two) :
    detour.drafts.Agree (· = ·) one (visibleVariable id name one)
      (visibleVariable id name two) := by
  apply agree_inBlock id separates
  intro home one two separates beside
  exact agree_askSlots _ separates

theorem agree_createLabel (id : BlockId) (hint : Option String)
    (separates : detour.SeparatesMethod one two) :
    detour.drafts.Agree (· = ·) one (createLabel id hint one) (createLabel id hint two) := by
  apply agree_inBlock id separates
  intro home one two separates beside
  exact agree_issueLabel separates beside _

theorem agree_bindLabel (id : BlockId) (label : Label)
    (separates : detour.SeparatesMethod one two) :
    detour.drafts.Agree (· = ·) one (bindLabel id label one) (bindLabel id label two) := by
  apply (agree_usableBlock id separates).bind
  intro _ _ left right _ related _
  rw [get_bind, get_bind, isBound, isBound, related.bound_eq]
  split
  · exact .throw related _
  · exact agree_markHere label related

theorem agree_push (id : BlockId) (instruction : Instruction)
    (separates : detour.SeparatesMethod one two) :
    let push : MethodM Unit := do
      let _ ← usableBlock id
      modify fun draft => { draft with code := draft.code.push instruction }
    detour.drafts.Agree (· = ·) one (push one) (push two) := by
  apply (agree_usableBlock id separates).bind
  intro _ _ left right _ related _
  cases related with
  | moved classes beside blocksBeside =>
      exact .ok rfl (.moved classes beside blocksBeside) (Nat.le_refl _)

theorem agree_append (id : BlockId) (instruction : Instruction)
    (separates : detour.SeparatesMethod one two) :
    detour.drafts.Agree (· = ·) one (append id instruction one) (append id instruction two) := by
  cases instruction with
  | mark label => exact agree_bindLabel id label separates
  | simple opcode => exact agree_push id _ separates
  | onSlot opcode slot => exact agree_push id _ separates
  | branch opcode target => exact agree_push id _ separates

end Drafts

end MethodDetour

end JvmEmit
