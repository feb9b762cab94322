import JvmEmit.Proofs.Method.BlockCode

/-!
# Runs that pass their own labels

A run that passes only labels it has made, or has read from the code, never gets hold of the label
that waits for the end of an open block. So all its steps are permitted ones, and what permitted
steps keep holds after the run.
-/

namespace JvmEmit

namespace MethodDraft

variable {draft after : MethodDraft}

/-- What the steps of a draft keep as long as they are given labels that may be passed. -/
structure WellMarked (draft : MethodDraft) : Prop where
  lockstep : draft.Lockstep
  recorded : draft.Recorded
  labels : draft.LabelsApart
  blocksApart : draft.BlocksApart

namespace WellMarked

theorem ofIsNew (isNew : draft.IsNew) : draft.WellMarked :=
  ⟨.ofIsNew isNew, .ofIsNew isNew, .ofIsNew isNew, .ofIsNew isNew⟩

theorem step (step : Step MayPass draft after) (wellMarked : draft.WellMarked) :
    after.WellMarked := by
  rcases wellMarked with ⟨lockstep, recorded, labels, blocksApart⟩
  exact ⟨lockstep.step step, recorded.step step lockstep, labels.step step lockstep,
    blocksApart.step step lockstep recorded labels⟩

theorem mayPass_of_path {label : Label} (wellMarked : draft.WellMarked)
    (path : Path MayPass draft after) (mayPass : draft.MayPass label) : after.MayPass label := by
  have kept : after.WellMarked ∧ after.MayPass label := by
    apply path.keeps fun draft => draft.WellMarked ∧ draft.MayPass label
    · intro middle next step holds
      exact ⟨holds.1.step step, holds.2.step step holds.1.lockstep⟩
    · exact ⟨wellMarked, mayPass⟩
  exact kept.2

theorem mayPass_of_made (wellMarked : draft.WellMarked) {call : MethodCall} {label : Label}
    (made : call.made? draft = some label) : (call.after draft).MayPass label := by
  cases call with
  | createLabel id hint =>
      cases created : createLabel id hint draft with
      | error cause refused => simp [MethodCall.made?, created] at made
      | ok answer next =>
          rw [MethodCall.made?, created] at made
          rw [MethodCall.after, created]
          rcases createLabel_eq_ok created with ⟨home, entered, usable, isNext, rfl⟩
          have step : Step MayPass draft
              (draft.withLabel home.nameScope (some (hint.getD labelHint))) :=
            .createLabel entered usable _
          cases made
          rw [isNext]
          apply wellMarked.labels.mayPass_next rfl step
          simp [withLabel]
  | _ => cases made

end WellMarked

end MethodDraft

namespace MethodRun

variable {run : MethodRun}

theorem passesOwnLabels_append (run : MethodRun) (calls more : List MethodCall) :
    run.passesOwnLabels (calls ++ more) =
      (run.passesOwnLabels calls && (calls.foldl record run).passesOwnLabels more) := by
  induction calls generalizing run with
  | nil => exact (Bool.true_and _).symm
  | cons call calls ih =>
      rw [List.cons_append, passesOwnLabels, passesOwnLabels, ih, Bool.and_assoc]
      rfl

/-- The draft is well marked, and all labels made so far may be passed. -/
structure Sound (run : MethodRun) : Prop where
  wellMarked : run.draft.WellMarked
  labels : ∀ label ∈ run.labels, run.draft.MayPass label

namespace Sound

theorem mayPass_of_knows (sound : run.Sound) {label : Label} (known : run.knows label = true) :
    run.draft.MayPass label := by
  rcases Bool.or_eq_true_iff.mp known with made | shown
  · exact sound.labels label (List.contains_iff_mem.mp made)
  · rcases Array.any_eq_true'.mp shown with ⟨instruction, member, same⟩
    exact sound.wellMarked.labels.inCode member (beq_iff_eq.mp same)

theorem path_record (sound : run.Sound) {call : MethodCall}
    (own : call.passed?.all run.knows = true) :
    MethodDraft.Path MethodDraft.MayPass run.draft (call.after run.draft) := by
  apply MethodDraft.path_after sound.wellMarked.lockstep call
  intro label passed
  apply sound.mayPass_of_knows
  rw [passed] at own
  exact own

theorem record (sound : run.Sound) {call : MethodCall}
    (own : call.passed?.all run.knows = true) : (run.record call).Sound := by
  have path := sound.path_record own
  constructor
  · exact path.keeps MethodDraft.WellMarked MethodDraft.WellMarked.step sound.wellMarked
  · intro label member
    rcases List.mem_append.mp member with new | older
    · apply sound.wellMarked.mayPass_of_made
      exact Option.mem_toList.mp new
    · exact sound.wellMarked.mayPass_of_path path (sound.labels label older)

theorem foldl (sound : run.Sound) {calls : List MethodCall}
    (own : run.passesOwnLabels calls = true) : (calls.foldl MethodRun.record run).Sound := by
  induction calls generalizing run with
  | nil => exact sound
  | cons call calls ih =>
      rcases Bool.and_eq_true_iff.mp own with ⟨first, rest⟩
      exact ih (sound.record first) rest

theorem path_foldl (sound : run.Sound) {calls : List MethodCall}
    (own : run.passesOwnLabels calls = true) :
    MethodDraft.Path MethodDraft.MayPass run.draft (calls.foldl MethodRun.record run).draft := by
  induction calls generalizing run with
  | nil => exact .refl
  | cons call calls ih =>
      rcases Bool.and_eq_true_iff.mp own with ⟨first, rest⟩
      exact (sound.path_record first).trans (ih (sound.record first) rest)

theorem initial {handedOut : MethodDraft} (isNew : handedOut.IsNew) :
    (MethodRun.mk handedOut []).Sound := by
  constructor
  · exact .ofIsNew isNew
  · intro label member
    cases member

theorem ofCalls {handedOut : MethodDraft} {calls : List MethodCall} (isNew : handedOut.IsNew)
    (own : (MethodRun.mk handedOut []).passesOwnLabels calls = true) :
    (MethodRun.ofCalls handedOut calls).Sound :=
  (initial isNew).foldl own

end Sound

end MethodRun

end JvmEmit
