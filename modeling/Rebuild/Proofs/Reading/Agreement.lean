import Mathlib.Tactic.Push
import Rebuild.Proofs.Reading

/-!
# Work that comes to the same

Two pieces of work that look at a file system in different ways can come to the same answer and the
same log, but for failures of some kind: one of them may look at what the other leaves alone, and
fail there. Such an agreement is kept when work is put together. Where one side has failed there is
nothing more to compare, and else both go on with the same value.
-/

namespace Rebuild

variable {α β : Type} {excused : Error → Prop}

namespace Reported

variable {first second : Reported α} {next next' : α → Reported β}

/-- An answer is a failure of an excused kind. -/
def FailsBy (excused : Error → Prop) (answer : Reported α) : Prop :=
  ∃ error, answer.outcome = .error error ∧ excused error

/-- Two answers are the same, with the same log, unless one of them is a failure of an excused kind.
-/
def SameUnless (excused : Error → Prop) (first second : Reported α) : Prop :=
  first = second ∨ first.FailsBy excused ∨ second.FailsBy excused

theorem outcome_bind (first : Reported α) (next : α → Reported β) :
    (first >>= next).outcome = first.outcome >>= fun value => (next value).outcome := by
  change (first.andThen next).outcome = _
  rw [andThen]
  cases first.outcome with
  | ok value => rfl
  | error error => rfl

theorem eq_of_lines_of_outcome {first second : Reported α} (hlines : first.lines = second.lines)
    (houtcome : first.outcome = second.outcome) : first = second := by
  cases first
  cases second
  cases hlines
  cases houtcome
  rfl

theorem lines_bind_eq_nil (hfirst : first.lines = []) (hnext : ∀ value, (next value).lines = []) :
    (first >>= next).lines = [] := by
  change (first.andThen next).lines = []
  rw [andThen]
  cases first.outcome with
  | ok value => simp only [hfirst, hnext value, List.append_nil]
  | error error => exact hfirst

theorem FailsBy.bind (h : first.FailsBy excused) : (first >>= next).FailsBy excused := by
  obtain ⟨error, herror, hexcused⟩ := h
  refine ⟨error, ?_, hexcused⟩
  rw [outcome_bind, herror]
  rfl

theorem FailsBy.of_next {value : α} (hfirst : first.outcome = .ok value)
    (h : (next value).FailsBy excused) : (first >>= next).FailsBy excused := by
  obtain ⟨error, herror, hexcused⟩ := h
  refine ⟨error, ?_, hexcused⟩
  rw [outcome_bind, hfirst, ok_bind, herror]

theorem bind_congr (h : ∀ value, first.outcome = .ok value → next value = next' value) :
    first >>= next = first >>= next' := by
  change first.andThen next = first.andThen next'
  rw [andThen, andThen]
  cases houtcome : first.outcome with
  | ok value => simp only [h value houtcome]
  | error error => rfl

theorem SameUnless.refl (answer : Reported α) : SameUnless excused answer answer := Or.inl rfl

theorem SameUnless.mono {excused' : Error → Prop} (h : SameUnless excused first second)
    (himp : ∀ error, excused error → excused' error) : SameUnless excused' first second := by
  have hfails : ∀ answer : Reported α, answer.FailsBy excused → answer.FailsBy excused' := by
    rintro answer ⟨error, herror, hexcused⟩
    exact ⟨error, herror, himp error hexcused⟩
  exact h.imp_right (Or.imp (hfails first) (hfails second))

theorem SameUnless.bind (h : SameUnless excused first second)
    (hnext : ∀ value, first.outcome = .ok value → SameUnless excused (next value) (next' value)) :
    SameUnless excused (first >>= next) (second >>= next') := by
  rcases h with rfl | hfirst | hsecond
  · by_cases heq : ∀ value, first.outcome = .ok value → next value = next' value
    · exact Or.inl (bind_congr heq)
    · push Not at heq
      obtain ⟨value, hvalue, hne⟩ := heq
      rcases (hnext value hvalue).resolve_left hne with hfails | hfails
      · exact Or.inr (Or.inl (hfails.of_next hvalue))
      · exact Or.inr (Or.inr (hfails.of_next hvalue))
  · exact Or.inr (Or.inl hfirst.bind)
  · exact Or.inr (Or.inr hsecond.bind)

theorem SameUnless.eq_of_not (h : SameUnless excused first second)
    (hexcused : ∀ error, ¬ excused error) : first = second := by
  rcases h with heq | ⟨error, -, herror⟩ | ⟨error, -, herror⟩
  · exact heq
  · exact absurd herror (hexcused error)
  · exact absurd herror (hexcused error)

theorem SameUnless.eq_of_ok {value value' : α} (h : SameUnless excused first second)
    (hfirst : first.outcome = .ok value) (hsecond : second.outcome = .ok value') :
    first = second := by
  rcases h with heq | ⟨error, herror, -⟩ | ⟨error, herror, -⟩
  · exact heq
  · rw [hfirst] at herror
    cases herror
  · rw [hsecond] at herror
    cases herror

/-- If one answer is a value and the other a failure, the failure is an excused one. -/
theorem SameUnless.excused_of_error {value : α} {error : Error}
    (h : SameUnless excused first second) (hfirst : first.outcome = .ok value)
    (hsecond : second.outcome = .error error) : excused error := by
  rcases h with heq | ⟨error', herror, -⟩ | ⟨error', herror, hexcused⟩
  · rw [← heq, hfirst] at hsecond
    cases hsecond
  · rw [hfirst] at herror
    cases herror
  · rwa [Except.error.inj (hsecond.symm.trans herror)]

end Reported

namespace Reading

open Reported (SameUnless)

variable {fs : FileSystem}

theorem on_bind (work : Reading α) (next : α → Reading β) :
    (work >>= next).on fs = work.on fs >>= fun value => (next value).on fs := by
  induction work with
  | ended outcome =>
    cases outcome with
    | ok value => rfl
    | error error => rfl
  | ask q rest ih => exact ih (fs.answer q)
  | write line rest ih =>
    have hrest : (rest >>= next).on fs = (rest.on fs).andThen fun value => (next value).on fs := ih
    change Reported.mk (line :: ((rest >>= next).on fs).lines) ((rest >>= next).on fs).outcome
      = Reported.andThen ⟨line :: (rest.on fs).lines, (rest.on fs).outcome⟩ _
    rw [hrest, Reported.andThen, Reported.andThen]
    cases (rest.on fs).outcome with
    | ok value => rfl
    | error error => rfl

theorem sameUnless_mapM {f g : α → Reading β} {xs : List α}
    (h : ∀ x ∈ xs, SameUnless excused ((f x).on fs) ((g x).on fs)) :
    SameUnless excused ((xs.mapM f).on fs) ((xs.mapM g).on fs) := by
  induction xs with
  | nil => exact SameUnless.refl _
  | cons x xs ih =>
    obtain ⟨hfirst, hrest⟩ := List.forall_mem_cons.1 h
    rw [List.mapM_cons, List.mapM_cons, on_bind, on_bind]
    refine hfirst.bind fun y _ => ?_
    rw [on_bind, on_bind]
    exact (ih hrest).bind fun ys _ => SameUnless.refl _

end Reading

end Rebuild
