import Mathlib.Order.Defs.Unbundled
import Rebuild.Proofs.Reading

/-!
# Work amid changes

Others change the file system while work reads it. What they do is not known, but it may be known to
be of some kind: every change that they make during the work is one that a relation allows. What can
be said then of work that comes to a value is said of the relation `ComesTo`, in which each answer is
that of a file system to which an allowed change has led. Work that is put together comes to a value
by way of its parts, and whatever lies between two moments is allowed changes only.
-/

namespace Rebuild.Reading

variable {α β σ : Type} {allowed : FileSystem → FileSystem → Prop} {fs seen left : FileSystem}
  {others : Others σ} {memory : σ}

/-- Every change that others make during the work is of a kind. -/
def Only (allowed : FileSystem → FileSystem → Prop) (others : Others σ) (memory : σ)
    (fs : FileSystem) : Reading α → Prop
  | ended _ => True
  | ask q next =>
    let (memory', seen) := others (.before q) memory fs
    allowed fs seen ∧ (next (seen.answer q)).Only allowed others memory' seen
  | write line next =>
    let (memory', seen) := others (.after line) memory fs
    allowed fs seen ∧ next.Only allowed others memory' seen

instance decidableOnly [∀ fs seen, Decidable (allowed fs seen)] :
    (work : Reading α) → (memory : σ) → (fs : FileSystem) →
      Decidable (work.Only allowed others memory fs)
  | ended _, _, _ => inferInstanceAs (Decidable True)
  | ask q next, memory, fs =>
    let seen := (others (.before q) memory fs).2
    have := decidableOnly (next (seen.answer q)) (others (.before q) memory fs).1 seen
    inferInstanceAs (Decidable (allowed fs seen ∧ _))
  | write line next, memory, fs =>
    let seen := (others (.after line) memory fs).2
    have := decidableOnly next (others (.after line) memory fs).1 seen
    inferInstanceAs (Decidable (allowed fs seen ∧ _))

/-- Amid changes of a kind work comes to a value, from one file system to another. -/
inductive ComesTo (allowed : FileSystem → FileSystem → Prop) :
    FileSystem → Reading α → α → FileSystem → Prop
  | ended {fs : FileSystem} {value : α} : ComesTo allowed fs (ended (.ok value)) value fs
  | ask {fs seen left : FileSystem} {q : Question} {next : q.Answer → Reading α} {value : α}
    (hallowed : allowed fs seen) (hnext : ComesTo allowed seen (next (seen.answer q)) value left) :
    ComesTo allowed fs (ask q next) value left
  | write {fs seen left : FileSystem} {line : LogLine} {next : Reading α} {value : α}
    (hallowed : allowed fs seen) (hnext : ComesTo allowed seen next value left) :
    ComesTo allowed fs (write line next) value left

theorem comesTo_of_amid {work : Reading α} {value : α} (honly : work.Only allowed others memory fs)
    (h : (work.amid others memory fs).1.outcome = .ok value) :
    ComesTo allowed fs work value (work.amid others memory fs).2.2 := by
  induction work generalizing memory fs with
  | ended outcome =>
    obtain rfl : outcome = .ok value := h
    exact .ended
  | ask q next ih => exact .ask honly.1 (ih _ honly.2 h)
  | write line next ih => exact .write honly.1 (ih honly.2 h)

theorem only_of_forall (work : Reading α) (h : ∀ fs seen, allowed fs seen) :
    work.Only allowed others memory fs := by
  induction work generalizing memory fs with
  | ended outcome => exact trivial
  | ask q next ih => exact ⟨h _ _, ih _⟩
  | write line next ih => exact ⟨h _ _, ih⟩

/-! ### Work by its parts -/

theorem comesTo_ended_iff {outcome : Except Error α} {value : α} :
    ComesTo allowed fs (ended outcome) value left ↔ outcome = .ok value ∧ left = fs := by
  constructor
  · intro h
    cases h
    exact ⟨rfl, rfl⟩
  · rintro ⟨rfl, rfl⟩
    exact .ended

theorem comesTo_ask_iff {q : Question} {next : q.Answer → Reading α} {value : α} :
    ComesTo allowed fs (ask q next) value left ↔
      ∃ seen, allowed fs seen ∧ ComesTo allowed seen (next (seen.answer q)) value left := by
  constructor
  · intro h
    cases h with
    | ask hallowed hnext => exact ⟨_, hallowed, hnext⟩
  · rintro ⟨seen, hallowed, hnext⟩
    exact .ask hallowed hnext

theorem comesTo_write_iff {line : LogLine} {next : Reading α} {value : α} :
    ComesTo allowed fs (write line next) value left ↔
      ∃ seen, allowed fs seen ∧ ComesTo allowed seen next value left := by
  constructor
  · intro h
    cases h with
    | write hallowed hnext => exact ⟨_, hallowed, hnext⟩
  · rintro ⟨seen, hallowed, hnext⟩
    exact .write hallowed hnext

@[simp] theorem comesTo_pure_iff {value value' : α} :
    ComesTo allowed fs (pure value) value' left ↔ value = value' ∧ left = fs := by
  rw [← Except.ok.injEq (ε := Error)]
  exact comesTo_ended_iff

@[simp] theorem comesTo_ofExcept_iff {outcome : Except Error α} {value : α} :
    ComesTo allowed fs (ofExcept outcome) value left ↔ outcome = .ok value ∧ left = fs :=
  comesTo_ended_iff

@[simp] theorem not_comesTo_fail {error : Error} {value : α} :
    ¬ ComesTo allowed fs (fail error) value left := by
  intro h
  cases (comesTo_ended_iff.1 h).1

theorem comesTo_look_bind_iff {q : Question} {next : q.Answer → Reading α} {value : α} :
    ComesTo allowed fs (look q >>= next) value left ↔
      ∃ seen, allowed fs seen ∧ ComesTo allowed seen (next (seen.answer q)) value left :=
  comesTo_ask_iff

theorem comesTo_bind_iff {work : Reading α} {next : α → Reading β} {value : β} :
    ComesTo allowed fs (work >>= next) value left ↔
      ∃ first mid, ComesTo allowed fs work first mid ∧ ComesTo allowed mid (next first) value left := by
  induction work generalizing fs with
  | ended outcome =>
    simp only [comesTo_ended_iff]
    cases outcome with
    | ok first =>
      constructor
      · exact fun h => ⟨first, fs, ⟨rfl, rfl⟩, h⟩
      · rintro ⟨_, _, ⟨⟨⟩, rfl⟩, h⟩
        exact h
    | error error =>
      constructor
      · exact fun h => absurd h not_comesTo_fail
      · rintro ⟨_, _, ⟨⟨⟩, -⟩, -⟩
  | ask q rest ih =>
    have hask : ask q rest >>= next = ask q fun answer => rest answer >>= next := rfl
    rw [hask]
    simp only [comesTo_ask_iff, ih]
    constructor
    · rintro ⟨seen, hallowed, first, mid, hfirst, hnext⟩
      exact ⟨first, mid, ⟨seen, hallowed, hfirst⟩, hnext⟩
    · rintro ⟨first, mid, ⟨seen, hallowed, hfirst⟩, hnext⟩
      exact ⟨seen, hallowed, first, mid, hfirst, hnext⟩
  | write line rest ih =>
    have hwrite : write line rest >>= next = write line (rest >>= next) := rfl
    rw [hwrite]
    simp only [comesTo_write_iff, ih]
    constructor
    · rintro ⟨seen, hallowed, first, mid, hfirst, hnext⟩
      exact ⟨first, mid, ⟨seen, hallowed, hfirst⟩, hnext⟩
    · rintro ⟨first, mid, ⟨seen, hallowed, hfirst⟩, hnext⟩
      exact ⟨seen, hallowed, first, mid, hfirst, hnext⟩

theorem comesTo_map_iff {f : α → β} {work : Reading α} {value : β} :
    ComesTo allowed fs (f <$> work) value left ↔
      ∃ first, ComesTo allowed fs work first left ∧ f first = value := by
  rw [map_eq_pure_bind, comesTo_bind_iff]
  constructor
  · rintro ⟨first, mid, hfirst, hpure⟩
    obtain ⟨rfl, rfl⟩ := comesTo_pure_iff.1 hpure
    exact ⟨first, hfirst, rfl⟩
  · rintro ⟨first, hfirst, rfl⟩
    exact ⟨first, left, hfirst, comesTo_pure_iff.2 ⟨rfl, rfl⟩⟩

/-! ### Between two moments -/

section Preorder

variable [IsPreorder FileSystem allowed]

/-- All that others do during some work comes to one allowed change. -/
theorem ComesTo.allowed_left {work : Reading α} {value : α}
    (h : ComesTo allowed fs work value left) : allowed fs left := by
  induction h with
  | ended => exact refl _
  | ask hallowed _ ih => exact IsTrans.trans _ _ _ hallowed ih
  | write hallowed _ ih => exact IsTrans.trans _ _ _ hallowed ih

/-- At some time between two moments work comes to a value. -/
def Within (allowed : FileSystem → FileSystem → Prop) (fs : FileSystem) (work : Reading α)
    (value : α) (left : FileSystem) : Prop :=
  ∃ start stop, allowed fs start ∧ ComesTo allowed start work value stop ∧ allowed stop left

theorem Within.after {work : Reading α} {value : α} (hfs : allowed fs seen)
    (h : Within allowed seen work value left) : Within allowed fs work value left := by
  obtain ⟨start, stop, hstart, hwork, hstop⟩ := h
  exact ⟨start, stop, IsTrans.trans _ _ _ hfs hstart, hwork, hstop⟩

/-- Work on several items comes to the values of the work on each of them. -/
theorem ComesTo.within_of_mapM {f : α → Reading β} {xs : List α} {ys : List β}
    (h : ComesTo allowed fs (xs.mapM f) ys left) :
    (∀ x ∈ xs, ∃ y ∈ ys, Within allowed fs (f x) y left) ∧
      ∀ y ∈ ys, ∃ x ∈ xs, Within allowed fs (f x) y left := by
  induction xs generalizing fs ys with
  | nil =>
    obtain ⟨rfl, -⟩ := comesTo_pure_iff.1 h
    exact ⟨List.forall_mem_nil _, List.forall_mem_nil _⟩
  | cons x xs ih =>
    rw [List.mapM_cons, comesTo_bind_iff] at h
    obtain ⟨y, mid, hfirst, h⟩ := h
    obtain ⟨rest, last, hrest, h⟩ := comesTo_bind_iff.1 h
    obtain ⟨rfl, rfl⟩ := comesTo_pure_iff.1 h
    have hhere : Within allowed fs (f x) y left :=
      ⟨fs, mid, refl _, hfirst, hrest.allowed_left⟩
    obtain ⟨hitems, hvalues⟩ := ih hrest
    constructor
    · rw [List.forall_mem_cons]
      refine ⟨⟨y, List.mem_cons_self, hhere⟩, fun x' hx' => ?_⟩
      obtain ⟨y', hy', hwithin⟩ := hitems x' hx'
      exact ⟨y', List.mem_cons_of_mem y hy', hwithin.after hfirst.allowed_left⟩
    · rw [List.forall_mem_cons]
      refine ⟨⟨x, List.mem_cons_self, hhere⟩, fun y' hy' => ?_⟩
      obtain ⟨x', hx', hwithin⟩ := hvalues y' hy'
      exact ⟨x', List.mem_cons_of_mem x hx', hwithin.after hfirst.allowed_left⟩

end Preorder

end Rebuild.Reading
