import Mathlib.Data.List.Forall2
import Rebuild.Proofs.Reading

/-!
# Outcomes that are alike

The same work done in two ways can have outcomes that are not equal and still stand to each other:
two values that mean the same, or two failures that report the same. What matters is that there is
never a value on one side and a failure on the other. This is kept when work is put together, as
long as each part keeps it for values that stand to each other.
-/

namespace Rebuild

variable {α β γ δ : Type} {failures : Error → Error → Prop} {values : α → β → Prop}
  {later : γ → δ → Prop} {first : Except Error α} {second : Except Error β}

/-- Two outcomes are both values or both failures, and stand to each other as such. -/
inductive EndAlike (failures : Error → Error → Prop) (values : α → β → Prop) :
    Except Error α → Except Error β → Prop
  | ok {value : α} {value' : β} (h : values value value') :
    EndAlike failures values (.ok value) (.ok value')
  | error {error error' : Error} (h : failures error error') :
    EndAlike failures values (.error error) (.error error')

namespace EndAlike

theorem or_of (h : EndAlike failures values first second) :
    (∃ value value', first = .ok value ∧ second = .ok value' ∧ values value value') ∨
      ∃ error error', first = .error error ∧ second = .error error' ∧ failures error error' := by
  cases h with
  | ok h => exact Or.inl ⟨_, _, rfl, rfl, h⟩
  | error h => exact Or.inr ⟨_, _, rfl, rfl, h⟩

theorem refl (hfailures : ∀ error, failures error error) (outcome : Except Error α) :
    EndAlike failures Eq outcome outcome := by
  cases outcome with
  | ok value => exact .ok rfl
  | error error => exact .error (hfailures error)

theorem bind {next : α → Except Error γ} {next' : β → Except Error δ}
    (h : EndAlike failures values first second)
    (hnext : ∀ value value', first = .ok value → second = .ok value' → values value value' →
      EndAlike failures later (next value) (next' value')) :
    EndAlike failures later (first >>= next) (second >>= next') := by
  cases h with
  | ok h => exact hnext _ _ rfl rfl h
  | error h => exact .error h

theorem map {f : α → γ} {g : β → δ} (h : EndAlike failures values first second)
    (hfg : ∀ value value', values value value' → later (f value) (g value')) :
    EndAlike failures later (f <$> first) (g <$> second) := by
  cases h with
  | ok h => exact .ok (hfg _ _ h)
  | error h => exact .error h

theorem mapM {f : γ → Except Error α} {g : γ → Except Error β} {xs : List γ}
    (h : ∀ x ∈ xs, EndAlike failures values (f x) (g x)) :
    EndAlike failures (List.Forall₂ values) (xs.mapM f) (xs.mapM g) := by
  induction xs with
  | nil => exact .ok .nil
  | cons x xs ih =>
    obtain ⟨hfirst, hrest⟩ := List.forall_mem_cons.1 h
    rw [List.mapM_cons, List.mapM_cons]
    refine hfirst.bind fun y z _ _ hyz => ?_
    exact (ih hrest).bind fun ys zs _ _ hyszs => .ok (.cons hyz hyszs)

end EndAlike

end Rebuild
