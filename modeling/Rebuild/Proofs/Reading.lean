import Rebuild.Reading

/-!
# How work ends where nothing changes

In a file system that stands still a piece of work is a computation that either has a value or
fails, and the log plays no part in which. What it comes to is found from its parts: `outcome_bind`
and `outcome_mapM` turn work that is put together from smaller work into a sequence of outcomes, and
the rest is about sequences of outcomes only.
-/

namespace Rebuild

variable {α β : Type}

/-! ### Sequences of outcomes -/

section Outcomes

variable {ε : Type} {f : α → Except ε β} {xs : List α} {ys : List β}

theorem ok_bind {value : α} : (Except.ok value : Except ε α) >>= f = f value := rfl

theorem bind_eq_ok_iff {first : Except ε α} {value : β} :
    first >>= f = .ok value ↔ ∃ a, first = .ok a ∧ f a = .ok value := by
  cases first with
  | ok a => simp [bind, Except.bind]
  | error e => simp [bind, Except.bind]

theorem bind_eq_error_iff {first : Except ε α} {e : ε} :
    first >>= f = .error e ↔ first = .error e ∨ ∃ a, first = .ok a ∧ f a = .error e := by
  cases first with
  | ok a => simp [bind, Except.bind]
  | error e => simp [bind, Except.bind]

theorem map_eq_ok_iff {g : α → β} {first : Except ε α} {value : β} :
    g <$> first = .ok value ↔ ∃ a, first = .ok a ∧ g a = value := by
  cases first with
  | ok a => simp [Functor.map, Except.map]
  | error e => simp [Functor.map, Except.map]

theorem mapError_eq_ok_iff {ε' : Type} {f : ε → ε'} {first : Except ε α} {value : α} :
    first.mapError f = .ok value ↔ first = .ok value := by
  cases first with
  | ok a =>
    constructor
    · exact fun h => congrArg _ (Except.ok.inj h)
    · exact fun h => congrArg _ (Except.ok.inj h)
  | error e =>
    constructor
    · exact fun h => by cases h
    · exact fun h => by cases h

theorem eq_ok_of_toOption {outcome : Except ε α} {value : α} (h : outcome.toOption = some value) :
    outcome = .ok value := by
  cases outcome with
  | ok a => exact congrArg _ (Option.some.inj h)
  | error e => cases h

theorem mapM_eq_ok_iff : xs.mapM f = .ok ys ↔ xs.map f = ys.map .ok := by
  induction xs generalizing ys with
  | nil =>
    cases ys with
    | nil => simp [pure, Except.pure]
    | cons y ys => simp [pure, Except.pure]
  | cons x xs ih =>
    rw [List.mapM_cons, bind_eq_ok_iff]
    simp only [bind_eq_ok_iff, ih]
    cases ys with
    | nil => simp [pure, Except.pure]
    | cons y ys => simp [pure, Except.pure, and_left_comm]

theorem exists_of_mapM_eq_error {e : ε} (h : xs.mapM f = .error e) : ∃ x ∈ xs, f x = .error e := by
  induction xs with
  | nil => cases h
  | cons x xs ih =>
    rw [List.mapM_cons, bind_eq_error_iff] at h
    rcases h with hfirst | ⟨y, _, hrest⟩
    · exact ⟨x, List.mem_cons_self, hfirst⟩
    · rw [bind_eq_error_iff] at hrest
      rcases hrest with hrest | ⟨_, _, hpure⟩
      · obtain ⟨x', hmem, hx'⟩ := ih hrest
        exact ⟨x', List.mem_cons_of_mem x hmem, hx'⟩
      · cases hpure

theorem exists_of_mem_of_mapM {x : α} (h : xs.mapM f = .ok ys) (hx : x ∈ xs) :
    ∃ y ∈ ys, f x = .ok y := by
  have hmem : f x ∈ ys.map .ok := mapM_eq_ok_iff.1 h ▸ List.mem_map_of_mem hx
  obtain ⟨y, hy, heq⟩ := List.mem_map.1 hmem
  exact ⟨y, hy, heq.symm⟩

/-- Work on several items has values if the work on each of them has one. -/
theorem exists_mapM_eq_ok_iff : (∃ ys, xs.mapM f = .ok ys) ↔ ∀ x ∈ xs, ∃ y, f x = .ok y := by
  constructor
  · rintro ⟨ys, hys⟩ x hx
    obtain ⟨y, -, hy⟩ := exists_of_mem_of_mapM hys hx
    exact ⟨y, hy⟩
  · intro h
    cases hall : xs.mapM f with
    | ok ys => exact ⟨ys, rfl⟩
    | error e =>
      obtain ⟨x, hx, herror⟩ := exists_of_mapM_eq_error hall
      obtain ⟨y, hy⟩ := h x hx
      rw [herror] at hy
      cases hy

theorem mem_iff_of_mapM {y : β} (h : xs.mapM f = .ok ys) : y ∈ ys ↔ ∃ x ∈ xs, f x = .ok y := by
  constructor
  · intro hy
    have hmem : (.ok y : Except ε β) ∈ xs.map f := mapM_eq_ok_iff.1 h ▸ List.mem_map_of_mem hy
    exact List.mem_map.1 hmem
  · rintro ⟨x, hx, heq⟩
    obtain ⟨y', hy', heq'⟩ := exists_of_mem_of_mapM h hx
    rwa [Except.ok.inj (heq.symm.trans heq')]

/-- Values stand to each other as the items that they come from. -/
theorem pairwise_of_mapM {r : α → α → Prop} {s : β → β → Prop} (h : xs.mapM f = .ok ys)
    (hxs : xs.Pairwise r)
    (hf : ∀ a ∈ xs, ∀ b ∈ xs, r a b → ∀ x y, f a = .ok x → f b = .ok y → s x y) : ys.Pairwise s := by
  have hpairs : (xs.map f).Pairwise fun a b => ∀ x y, a = .ok x → b = .ok y → s x y := by
    rw [List.pairwise_map]
    exact hxs.imp_of_mem fun {a b} ha hb hab => hf a ha b hb hab
  rw [mapM_eq_ok_iff.1 h, List.pairwise_map] at hpairs
  exact hpairs.imp fun hxy => hxy _ _ rfl rfl

end Outcomes

/-! ### Outcomes of work -/

namespace Reading

theorem bind_assoc {γ : Type} (work : Reading α) (next : α → Reading β) (last : β → Reading γ) :
    work >>= next >>= last = work >>= fun value => next value >>= last := by
  induction work with
  | ended outcome =>
    cases outcome with
    | ok value => rfl
    | error error => rfl
  | ask q rest ih => exact congrArg (ask q) (funext ih)
  | write line rest ih => exact congrArg (write line) ih

theorem map_id_eq (work : Reading α) : id <$> work = work := by
  induction work with
  | ended outcome =>
    cases outcome with
    | ok value => rfl
    | error error => rfl
  | ask q rest ih => exact congrArg (ask q) (funext ih)
  | write line rest ih => exact congrArg (write line) ih

instance : LawfulMonad Reading :=
  LawfulMonad.mk' Reading map_id_eq (fun _ _ => rfl) bind_assoc

variable {fs : FileSystem}

@[simp] theorem outcome_pure (value : α) : ((pure value : Reading α).on fs).outcome = .ok value :=
  rfl

@[simp] theorem outcome_fail (error : Error) :
    ((fail error : Reading α).on fs).outcome = .error error := rfl

@[simp] theorem outcome_ofExcept (outcome : Except Error α) :
    ((ofExcept outcome).on fs).outcome = outcome := rfl

@[simp] theorem outcome_ofReported (answer : Reported α) :
    ((ofReported answer).on fs).outcome = answer.outcome := by
  obtain ⟨lines, outcome⟩ := answer
  induction lines with
  | nil => rfl
  | cons line lines ih => exact ih

@[simp] theorem outcome_look (q : Question) : ((look q).on fs).outcome = .ok (fs.answer q) := rfl

@[simp] theorem outcome_log (level : Level) (text : String) :
    ((log level text).on fs).outcome = .ok () := rfl

theorem outcome_bind (work : Reading α) (next : α → Reading β) :
    ((work >>= next).on fs).outcome
      = (work.on fs).outcome >>= fun value => ((next value).on fs).outcome := by
  induction work with
  | ended outcome =>
    cases outcome with
    | ok value => rfl
    | error error => rfl
  | ask q rest ih => exact ih (fs.answer q)
  | write line rest ih => exact ih

theorem on_look_bind (q : Question) (next : q.Answer → Reading β) :
    (look q >>= next).on fs = (next (fs.answer q)).on fs := rfl

theorem outcome_look_bind (q : Question) (next : q.Answer → Reading β) :
    ((look q >>= next).on fs).outcome = ((next (fs.answer q)).on fs).outcome := rfl

theorem outcome_map (f : α → β) (work : Reading α) :
    ((f <$> work).on fs).outcome = f <$> (work.on fs).outcome := by
  rw [map_eq_pure_bind, outcome_bind, map_eq_pure_bind]
  rfl

theorem outcome_mapM (f : α → Reading β) (xs : List α) :
    ((xs.mapM f).on fs).outcome = xs.mapM fun x => ((f x).on fs).outcome := by
  induction xs with
  | nil => rfl
  | cons x xs ih =>
    rw [List.mapM_cons, List.mapM_cons, outcome_bind]
    simp only [outcome_bind, ih]
    rfl

end Reading

end Rebuild
