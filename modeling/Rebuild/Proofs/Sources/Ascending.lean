import Rebuild.Proofs.Path.Components
import Rebuild.Proofs.PathSet.Ascending
import Rebuild.Proofs.Sources.Scan

/-!
# A scan is in the order of paths

A walk sorts only the entries of one directory, by their names. Two sources that it finds have a
part of their way in common, and where the ways part the names decide. In the order of paths the
same names decide, since the steps of a source's path are those of the root and then its names. So
the walk goes through the tree in the order of paths, which is not that of their texts: a
directory's contents come before an entry with a name that the directory's name begins.
-/

namespace Rebuild

namespace FileSystem

variable {fs : FileSystem} {directory : Path} {name : FileName} {names : List FileName}
  {kind : Kind}

theorem Holds.normal (hfs : fs.WellFormed) (h : fs.Holds directory name kind) : name.Normal :=
  (h.usable hfs).normal

theorem Leads.normal (hfs : fs.WellFormed) (h : fs.Leads directory names kind) :
    ∀ name ∈ names, name.Normal := by
  induction h with
  | entry h => exact List.forall_mem_singleton.2 (h.normal hfs)
  | further h _ ih => exact List.forall_mem_cons.2 ⟨h.normal hfs, ih⟩

end FileSystem

namespace Path

variable {x y : FileName} {xs ys : List Component}

theorem orderComponents_append (common xs ys : List Component) :
    orderComponents (common ++ xs) (common ++ ys) = orderComponents xs ys := by
  induction common with
  | nil => rfl
  | cons step common ih =>
    rw [List.cons_append, List.cons_append, orderComponents, Component.order_eq_eq_iff.2 rfl, ih]
    rfl

theorem orderComponents_of_lt (h : compare x.text y.text = .lt) :
    orderComponents (.name x :: xs) (.name y :: ys) = .lt := by
  rw [orderComponents, Component.order, h]
  rfl

end Path

namespace Source

variable {fs : FileSystem} {selection : Glob.Selection} {root : Path} {files : List Source}
  {source a b : Source} {names : List FileName}

theorem exists_names_of_mem_scan (hfs : fs.WellFormed)
    (hok : ((scan selection root).on fs).outcome = .ok files) (hmem : source ∈ files) :
    ∃ names : List FileName, names ≠ [] ∧ (∀ name ∈ names, name.Normal) ∧
      source.relative = FileName.joined names := by
  obtain ⟨names, kind, hleads, -, -, rfl⟩ := (mem_scan_iff hfs hok).1 hmem
  exact ⟨names, hleads.ne_nil, hleads.normal hfs, rfl⟩

theorem normal_of_mem_scan (hfs : fs.WellFormed)
    (hok : ((scan selection root).on fs).outcome = .ok files) (hmem : along root names ∈ files)
    (hne : names ≠ []) : ∀ name ∈ names, name.Normal := by
  obtain ⟨others, hothers, hnormal, hjoined⟩ := exists_names_of_mem_scan hfs hok hmem
  rwa [FileName.joined_inj hne hothers hjoined]

theorem order_of_before (hfs : fs.WellFormed)
    (hok : ((scan selection root).on fs).outcome = .ok files) (ha : a ∈ files) (hb : b ∈ files)
    (h : Before root a b) : a.path.order b.path = .lt := by
  obtain ⟨common, x, y, xs, ys, rfl, rfl, hlt⟩ := h
  rw [Path.order, along, along, Path.components_below (normal_of_mem_scan hfs hok ha (by simp)),
    Path.components_below (normal_of_mem_scan hfs hok hb (by simp)), Path.orderComponents_append,
    List.map_append, List.map_append, Path.orderComponents_append]
  exact Path.orderComponents_of_lt hlt

theorem ascending_of_scan (hfs : fs.WellFormed)
    (hok : ((scan selection root).on fs).outcome = .ok files) :
    PathSet.Ascending (files.map path) := by
  refine List.pairwise_map.2 ((ordered_of_scan hfs hok).imp_of_mem ?_)
  intro a b ha hb
  exact order_of_before hfs hok ha hb

end Source

end Rebuild
