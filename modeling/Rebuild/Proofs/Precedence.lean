import Mathlib.Data.List.NodupEquivFin
import Mathlib.Logic.Relation

/-!
# What stands before what

An order is a list, and one entry stands before another if it has the lower position. This is the
same as that the two form a sublist, and so what takes entries from a list, or puts some after it,
leaves what stood before what. Where nothing occurs twice no chain of such facts closes up.
-/

namespace Rebuild

variable {α β : Type}

/-- One entry of a list stands at a position before one of another. -/
def StandsBefore (xs : List α) (a b : α) : Prop :=
  ∃ i j : Nat, i < j ∧ xs[i]? = some a ∧ xs[j]? = some b

theorem standsBefore_iff_sublist {xs : List α} {a b : α} :
    StandsBefore xs a b ↔ [a, b].Sublist xs := by
  constructor
  · rintro ⟨i, j, hij, ha, hb⟩
    have hleft : a ∈ xs.take j := List.mem_of_getElem? (by rw [List.getElem?_take_of_lt hij, ha])
    have hright : b ∈ xs.drop j :=
      List.mem_of_getElem? (i := 0) (by rw [List.getElem?_drop, Nat.add_zero, hb])
    rw [← List.take_append_drop j xs]
    exact (List.singleton_sublist.2 hleft).append (List.singleton_sublist.2 hright)
  · intro hsub
    obtain ⟨f, hf⟩ := List.sublist_iff_exists_orderEmbedding_getElem?_eq.1 hsub
    exact ⟨f 0, f 1, f.lt_iff_lt.2 Nat.zero_lt_one, (hf 0).symm, (hf 1).symm⟩

namespace StandsBefore

variable {xs : List α} {a b : α}

theorem mem_left (h : StandsBefore xs a b) : a ∈ xs := by
  obtain ⟨_, _, _, ha, _⟩ := h
  exact List.mem_of_getElem? ha

theorem append (h : StandsBefore xs a b) (ys : List α) : StandsBefore (xs ++ ys) a b := by
  rw [standsBefore_iff_sublist] at h ⊢
  exact h.trans (List.sublist_append_left xs ys)

/-- Everything in a list stands before what is put at its end. -/
theorem snoc (ha : a ∈ xs) : StandsBefore (xs ++ [b]) a b := by
  rw [standsBefore_iff_sublist]
  exact (List.singleton_sublist.2 ha).append (List.Sublist.refl [b])

theorem filterMap (f : α → Option β) (h : StandsBefore xs a b) {c d : β}
    (hc : f a = some c) (hd : f b = some d) : StandsBefore (xs.filterMap f) c d := by
  rw [standsBefore_iff_sublist] at h ⊢
  have himage := h.filterMap f
  rwa [List.filterMap_cons_some hc, List.filterMap_cons_some hd, List.filterMap_nil] at himage

theorem append_right (hxs : StandsBefore xs a b) (front : List α) :
    StandsBefore (front ++ xs) a b := by
  rw [standsBefore_iff_sublist] at hxs ⊢
  exact hxs.trans (List.sublist_append_right front xs)

/-- Everything in a list stands before everything in what is put behind it. -/
theorem of_mem_append {ys : List α} (ha : a ∈ xs) (hb : b ∈ ys) : StandsBefore (xs ++ ys) a b := by
  rw [standsBefore_iff_sublist]
  exact (List.singleton_sublist.2 ha).append (List.singleton_sublist.2 hb)

theorem left_of_append {ys : List α} (hnodup : (xs ++ ys).Nodup) (hb : b ∈ xs)
    (h : StandsBefore (xs ++ ys) a b) : StandsBefore xs a b := by
  obtain ⟨i, j, hij, hi, hj⟩ := h
  have hlt : j < xs.length := by
    by_contra hge
    rw [List.getElem?_append_right (Nat.le_of_not_lt hge)] at hj
    exact (List.nodup_append.1 hnodup).2.2 b hb b (List.mem_of_getElem? hj) rfl
  rw [List.getElem?_append_left (hij.trans hlt)] at hi
  rw [List.getElem?_append_left hlt] at hj
  exact ⟨i, j, hij, hi, hj⟩

theorem right_of_append {ys : List α} (hnodup : (xs ++ ys).Nodup) (ha : a ∈ ys)
    (h : StandsBefore (xs ++ ys) a b) : StandsBefore ys a b := by
  obtain ⟨i, j, hij, hi, hj⟩ := h
  have hge : xs.length ≤ i := by
    by_contra hlt
    rw [List.getElem?_append_left (Nat.lt_of_not_le hlt)] at hi
    exact (List.nodup_append.1 hnodup).2.2 a (List.mem_of_getElem? hi) a ha rfl
  rw [List.getElem?_append_right hge] at hi
  rw [List.getElem?_append_right (hge.trans (Nat.le_of_lt hij))] at hj
  exact ⟨i - xs.length, j - xs.length, by omega, hi, hj⟩

theorem map (f : α → β) (h : StandsBefore xs a b) : StandsBefore (xs.map f) (f a) (f b) := by
  rw [standsBefore_iff_sublist] at h ⊢
  exact h.map f

theorem of_map {f : α → β} (hf : Function.Injective f)
    (h : StandsBefore (xs.map f) (f a) (f b)) : StandsBefore xs a b := by
  obtain ⟨i, j, hij, hi, hj⟩ := h
  rw [List.getElem?_map] at hi hj
  obtain ⟨a', ha, heqa⟩ := Option.map_eq_some_iff.1 hi
  obtain ⟨b', hb, heqb⟩ := Option.map_eq_some_iff.1 hj
  obtain rfl := hf heqa
  obtain rfl := hf heqb
  exact ⟨i, j, hij, ha, hb⟩

theorem idxOf_lt [DecidableEq α] (hnodup : xs.Nodup) (h : StandsBefore xs a b) :
    xs.idxOf a < xs.idxOf b := by
  have hpositions : xs.Pairwise fun c d => xs.idxOf c < xs.idxOf d := by
    rw [List.pairwise_iff_getElem]
    intro i j hi hj hlt
    rwa [hnodup.idxOf_getElem, hnodup.idxOf_getElem]
  exact hpositions.forall_sublist (standsBefore_iff_sublist.1 h)

end StandsBefore

/-- A relation that holds only between entries that stand before one another has no cycle. -/
theorem not_transGen_self_of_standsBefore [DecidableEq α] {xs : List α} (hnodup : xs.Nodup)
    {r : α → α → Prop} (hforward : ∀ a b, r a b → StandsBefore xs a b) (a : α) :
    ¬ Relation.TransGen r a a := by
  intro hcycle
  have hlt : ∀ b, Relation.TransGen r a b → xs.idxOf a < xs.idxOf b := by
    intro b hpath
    induction hpath with
    | single hab => exact (hforward _ _ hab).idxOf_lt hnodup
    | tail _ hbc ih => exact Nat.lt_trans ih ((hforward _ _ hbc).idxOf_lt hnodup)
  exact Nat.lt_irrefl _ (hlt a hcycle)

end Rebuild
