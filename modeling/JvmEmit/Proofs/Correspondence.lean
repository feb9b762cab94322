import JvmEmit.Outcome

/-!
# Programs that agree

Two runs of the same kind may be compared program by program, if it is said how their states
correspond. Two programs agree from corresponding states if both answer, and their answers match, or
both fail for the same cause, and if the states they leave correspond again. Programs that are put
together from programs that agree agree as well.

A correspondence also says how the state of the first run changes along the run. What is found at the
beginning of a program may then be used later in it.
-/

namespace JvmEmit

/-- How the states of two runs correspond, and what is kept along the first one. -/
structure Correspondence (σ : Type) where
  related : σ → σ → Prop
  grown : σ → σ → Prop
  grown_refl : ∀ state, grown state state
  grown_trans : ∀ {before middle after}, grown before middle → grown middle after →
    grown before after

namespace Correspondence

variable {ε ε' σ τ α α' β β' : Type}

/-- Outcomes of programs from corresponding states, of which `before` is the first one. -/
inductive Agree (correspondence : Correspondence σ) (matching : α → α' → Prop) (before : σ) :
    Outcome ε σ α → Outcome ε σ α' → Prop where
  | ok {answer : α} {twin : α'} {left right : σ} (same : matching answer twin)
      (related : correspondence.related left right) (grown : correspondence.grown before left) :
      Agree correspondence matching before (.ok answer left) (.ok twin right)
  | error {cause : ε} {left right : σ} (related : correspondence.related left right)
      (grown : correspondence.grown before left) :
      Agree correspondence matching before (.error cause left) (.error cause right)

namespace Agree

variable {correspondence : Correspondence σ} {matching : α → α' → Prop}
  {matchingNext : β → β' → Prop} {before middle one two : σ} {first : Outcome ε σ α}
  {second : Outcome ε σ α'}

theorem related_state (agree : correspondence.Agree matching before first second) :
    correspondence.related (Outcome.state first) (Outcome.state second) := by
  cases agree with
  | ok same related grown => exact related
  | error related grown => exact related

theorem toExcept_eq {first second : Outcome ε σ α}
    (agree : correspondence.Agree (· = ·) before first second) :
    Outcome.toExcept first = Outcome.toExcept second := by
  cases agree with
  | ok same related grown => exact congrArg Except.ok same
  | error related grown => rfl

/-- The first run may have begun earlier. -/
theorem since (grown : correspondence.grown before middle)
    (agree : correspondence.Agree matching middle first second) :
    correspondence.Agree matching before first second := by
  cases agree with
  | ok same related later => exact .ok same related (correspondence.grown_trans grown later)
  | error related later => exact .error related (correspondence.grown_trans grown later)

/-! ## Programs in sequence -/

theorem pure (related : correspondence.related one two) {answer : α} {twin : α'}
    (same : matching answer twin) :
    correspondence.Agree matching one ((Pure.pure answer : EStateM ε σ α) one)
      ((Pure.pure twin : EStateM ε σ α') two) :=
  .ok same related (correspondence.grown_refl one)

theorem throw (related : correspondence.related one two) (cause : ε) :
    correspondence.Agree matching one ((MonadExcept.throw cause : EStateM ε σ α) one)
      ((MonadExcept.throw cause : EStateM ε σ α') two) :=
  .error related (correspondence.grown_refl one)

/-- What comes next may use how the first program ran. -/
theorem bind_ran {program : EStateM ε σ α} {twin : EStateM ε σ α'} {next : α → EStateM ε σ β}
    {twinNext : α' → EStateM ε σ β'}
    (agree : correspondence.Agree matching one (program one) (twin two))
    (nextAgree : ∀ answer twinAnswer left right, matching answer twinAnswer →
      correspondence.related left right → correspondence.grown one left →
        program one = .ok answer left →
          correspondence.Agree matchingNext left (next answer left) (twinNext twinAnswer right)) :
    correspondence.Agree matchingNext one ((program >>= next) one) ((twin >>= twinNext) two) := by
  change correspondence.Agree matchingNext one (EStateM.bind program next one)
    (EStateM.bind twin twinNext two)
  unfold EStateM.bind
  generalize program one = first at agree nextAgree
  generalize twin two = second at agree
  cases agree with
  | ok same related grown => exact (nextAgree _ _ _ _ same related grown rfl).since grown
  | error related grown => exact .error related grown

theorem bind {program : EStateM ε σ α} {twin : EStateM ε σ α'} {next : α → EStateM ε σ β}
    {twinNext : α' → EStateM ε σ β'}
    (agree : correspondence.Agree matching one (program one) (twin two))
    (nextAgree : ∀ answer twinAnswer left right, matching answer twinAnswer →
      correspondence.related left right → correspondence.grown one left →
        correspondence.Agree matchingNext left (next answer left) (twinNext twinAnswer right)) :
    correspondence.Agree matchingNext one ((program >>= next) one) ((twin >>= twinNext) two) :=
  agree.bind_ran fun answer twinAnswer left right same related grown _ =>
    nextAgree answer twinAnswer left right same related grown

theorem map {program : EStateM ε σ α} {twin : EStateM ε σ α'} (change : α → β)
    (twinChange : α' → β') (agree : correspondence.Agree matching one (program one) (twin two))
    (same : ∀ answer twinAnswer, matching answer twinAnswer →
      matchingNext (change answer) (twinChange twinAnswer)) :
    correspondence.Agree matchingNext one ((change <$> program) one)
      ((twinChange <$> twin) two) := by
  change correspondence.Agree matchingNext one (EStateM.map change program one)
    (EStateM.map twinChange twin two)
  unfold EStateM.map
  generalize program one = first at agree
  generalize twin two = second at agree
  cases agree with
  | ok matched related grown => exact .ok (same _ _ matched) related grown
  | error related grown => exact .error related grown

/-- Loops over the same list agree if their bodies do, whatever state they begin in. -/
theorem forM {body twin : α → EStateM ε σ PUnit} (related : correspondence.related one two)
    (agree : ∀ element one two, correspondence.related one two →
      correspondence.Agree (· = ·) one (body element one) (twin element two))
    (elements : List α) :
    correspondence.Agree (· = ·) one (elements.forM body one) (elements.forM twin two) := by
  induction elements generalizing one two with
  | nil => exact pure related rfl
  | cons element elements ih =>
      apply bind (agree element one two related)
      intro _ _ left right _ related _
      exact ih related

/-! ## Programs on a part of the state -/

theorem lift {part : Correspondence τ} {partBefore : τ} {first : Outcome ε τ α}
    {second : Outcome ε τ α'} (agree : part.Agree matching partBefore first second)
    (wrap : ε → ε') {embed twinEmbed : τ → σ}
    (related : ∀ {left right}, part.related left right → part.grown partBefore left →
      correspondence.related (embed left) (twinEmbed right) ∧
        correspondence.grown before (embed left)) :
    correspondence.Agree matching before (first.lift wrap embed) (second.lift wrap twinEmbed) := by
  cases agree with
  | ok same partRelated grown =>
      have whole := related partRelated grown
      exact .ok same whole.1 whole.2
  | error partRelated grown =>
      have whole := related partRelated grown
      exact .error whole.1 whole.2

end Agree

end Correspondence

end JvmEmit
