import JvmEmit.Proofs.Name.Runs
import JvmEmit.Proofs.Scope.Detour

/-!
# Names beside a detour

What a supply hands out in a scope depends on the frames of the scope and of those around it, and on
nothing else. Names that came into use inside a scope that is closed are in none of these frames. So
two supplies that differ by a detour hand out the same names, and refuse to for the same causes.
-/

namespace JvmEmit

namespace NameSupply

variable {one two : NameSupply} {scope other : ScopeId}

section Frames

variable (same : two.frames other = one.frames scope)

include same

theorem nextIndex_of_frames (base : String) :
    two.nextIndex other base = one.nextIndex scope base := by
  rw [nextIndex, latestIndex?, same, nextIndex, latestIndex?]

theorem skippedNames_of_frames (base : String) :
    two.skippedNames other base = one.skippedNames scope base := by
  have isReserved : two.isReserved other = one.isReserved scope := by
    funext name
    rw [NameSupply.isReserved, same, NameSupply.isReserved]
  rw [skippedNames, reservedRun, reservedCount, same, nextIndex_of_frames same, isReserved,
    skippedNames, reservedRun, reservedCount]

theorem freeIndex_of_frames (base : String) :
    two.freeIndex other base = one.freeIndex scope base := by
  rw [freeIndex, nextIndex_of_frames same, skippedNames_of_frames same, freeIndex]

theorem reservation_of_frames (name : String) :
    two.reservation other name = one.reservation scope name := by
  funext frame
  rw [reservation, nextIndex_of_frames same, latestIndex?, same, reservation, latestIndex?]

end Frames

end NameSupply

namespace Detour

/-- Supplies correspond if their scopes do. -/
def supplies (detour : Detour) : Correspondence NameSupply where
  related one two := detour.Separates one.scopes two.scopes
  grown before after := before.scopes.size ≤ after.scopes.size
  grown_refl _ := Nat.le_refl _
  grown_trans := Nat.le_trans

variable {detour : Detour} {one two : NameSupply} {scope : ScopeId}

theorem Separates.frames_eq (separates : detour.Separates one.scopes two.scopes)
    (beside : detour.Beside one.scopes scope) :
    two.frames (detour.moved scope) = one.frames scope :=
  separates.payloads_eq beside.other

theorem Separates.agree_modifyFrame {ε α : Type}
    (separates : detour.Separates one.scopes two.scopes) (scope : ScopeId)
    (change : NameFrame → NameFrame) (answer : α) :
    detour.supplies.Agree (· = ·) one
      (.ok answer (one.modifyFrame scope change) : Outcome ε NameSupply α)
      (.ok answer (two.modifyFrame (detour.moved scope) change)) := by
  refine .ok rfl (separates.modifyPayload scope change) ?_
  exact Nat.le_of_eq (NestedScopes.size_modifyPayload _ _ _).symm

theorem agree_fresh (separates : detour.Separates one.scopes two.scopes)
    (beside : detour.Beside one.scopes scope) (hint : Option String) :
    detour.supplies.Agree (· = ·) one (one.fresh scope hint)
      (two.fresh (detour.moved scope) hint) := by
  have frames := separates.frames_eq beside
  have sameUsable := separates.requireUsable_eq beside
  cases usable : one.scopes.requireUsable scope with
  | error cause =>
      rw [NameSupply.fresh_of_unusable usable,
        NameSupply.fresh_of_unusable (sameUsable.trans usable)]
      exact .error separates (Nat.le_refl _)
  | ok =>
      rw [NameSupply.fresh_of_usable usable, NameSupply.fresh_of_usable (sameUsable.trans usable)]
      simp only [NameSupply.freshName, NameSupply.afterFresh,
        NameSupply.freeIndex_of_frames frames, NameSupply.skippedNames_of_frames frames]
      exact separates.agree_modifyFrame scope _ _

theorem agree_reserve (separates : detour.Separates one.scopes two.scopes)
    (beside : detour.Beside one.scopes scope) (name : String) :
    detour.supplies.Agree (· = ·) one (one.reserve scope name)
      (two.reserve (detour.moved scope) name) := by
  rw [NameSupply.reserve, NameSupply.reserve, separates.requireUsable_eq beside]
  cases one.scopes.requireUsable scope with
  | error cause => exact .error separates (Nat.le_refl _)
  | ok =>
      dsimp only
      rw [NameSupply.reservation_of_frames (separates.frames_eq beside)]
      exact separates.agree_modifyFrame scope _ _

theorem agree_enterNames (separates : detour.Separates one.scopes two.scopes)
    (beside : detour.Beside one.scopes scope) (label : Option String) :
    detour.supplies.Agree (fun child twin => twin = detour.moved child) one
      (one.enter scope label) (two.enter (detour.moved scope) label) :=
  (agree_enter separates beside label NameFrame.empty).lift id fun related grown =>
    ⟨related, grown⟩

/-- A scope that a supply enters is beside the detour. -/
theorem Separates.beside_of_enterNames {parent child : ScopeId} {label : Option String}
    {after : NameSupply} (separates : detour.Separates one.scopes two.scopes)
    (entered : one.enter parent label = .ok child after) : detour.Beside after.scopes child := by
  rcases Outcome.lift_eq_ok entered with ⟨scopes, ran, rfl⟩
  exact separates.beside_of_enter ran

theorem agree_closeNames (separates : detour.Separates one.scopes two.scopes)
    (beside : detour.Beside one.scopes scope) :
    detour.supplies.Agree (· = ·) one (one.close scope) (two.close (detour.moved scope)) :=
  (agree_close separates beside).lift id fun related grown => ⟨related, grown⟩

end Detour

end JvmEmit
