import Pixiu.Base.PostOrder
import Mathlib.Data.List.Perm.Basic

/-!
# The order of file descriptors

`topologicalSort` of the reflection manager
(`pkg/filter/network/grpcproxy/filter/proxy/reflection_manager.go`) puts the files that a server
describes in an order in which they can be registered.  It is a depth-first search in post-order
through the files by their names; a dependency that is not among the files is skipped, and so is one
that is being visited.  The order in which Go delivers the names of the map is an argument.
-/

namespace Pixiu.Grpc

open PostOrder

/-- `FileDescriptorProto`, as far as the sort reads it. -/
structure FileDescriptor where
  name : String
  dependency : List String := []
  deriving DecidableEq, Repr

/-- `fdMap`: of two files of one name, the last. -/
def fdMap (fileDescs : List FileDescriptor) (name : String) : Option FileDescriptor :=
  fileDescs.reverse.find? (·.name = name)

/-- `topologicalSort`, for the order in which the names of the map come; nothing if the fuel runs
out. -/
def topologicalSort (fuel : ℕ) (fileDescs : List FileDescriptor) (order : List String) :
    Option (List FileDescriptor) :=
  (order.foldlM (visit (fdMap fileDescs) (·.dependency) fuel) {}).map (·.result)

/-- A file lies on no cycle of dependencies, and reaches none. -/
def ReachesNoCycle (fileDescs : List FileDescriptor) (name : String) : Prop :=
  Acyclic (fdMap fileDescs) (·.dependency) name

/-- Every file that reaches no cycle comes after those of its dependencies that are among the
files. -/
def DependenciesFirst (fileDescs result : List FileDescriptor) : Prop :=
  ∀ before fd after, result = before ++ fd :: after → ReachesNoCycle fileDescs fd.name →
    ∀ dep ∈ fd.dependency, dep ∈ fileDescs.map (·.name) → dep ∈ before.map (·.name)

section Map

variable {fileDescs : List FileDescriptor} {name : String}

theorem mem_of_fdMap {fd : FileDescriptor} (h : fdMap fileDescs name = some fd) :
    fd ∈ fileDescs ∧ fd.name = name := by
  have hname := List.find?_some h
  exact ⟨List.mem_reverse.1 (List.mem_of_find?_eq_some h), by simpa using hname⟩

theorem fdMap_isSome_iff : (fdMap fileDescs name).isSome ↔ name ∈ fileDescs.map (·.name) := by
  simp [fdMap, List.mem_map]

end Map

/-- **The order of the files.**  For files with names of their own, in whatever order the map
delivers them, the sort ends and returns each file once, those that reach no cycle after their
dependencies. -/
theorem topologicalSort_sorts (fileDescs : List FileDescriptor)
    (hnames : (fileDescs.map (·.name)).Nodup)
    (order : List String) (horder : order.Perm (fileDescs.map (·.name))) (fuel : ℕ)
    (hfuel : fileDescs.length < fuel) :
    ∃ result, topologicalSort fuel fileDescs order = some result ∧ result.Perm fileDescs ∧
      DependenciesFirst fileDescs result := by
  have hcard : (fileDescs.map (·.name)).toFinset.card < fuel := by
    rw [List.toFinset_card_of_nodup hnames, List.length_map]
    exact hfuel
  obtain ⟨s, hrun, hgood, hdone⟩ := foldlM_visit (fdMap fileDescs) FileDescriptor.dependency
    (fun name fd h => (mem_of_fdMap h).2) (fun name h => List.mem_toFinset.2 (fdMap_isSome_iff.1 h))
      hcard order
  refine ⟨s.result, by rw [topologicalSort, hrun, Option.map_some], ?_, ?_⟩
  · refine (List.perm_ext_iff_of_nodup hgood.nodup.of_map hnames.of_map).2 fun fd =>
      ⟨fun hfd => ?_, fun hfd => ?_⟩
    · exact (mem_of_fdMap (hgood.found fd hfd)).1
    · -- a file of that name is in the result, and the names are distinct
      have hname : fd.name ∈ fileDescs.map (·.name) := List.mem_map_of_mem hfd
      obtain ⟨fd', hfd', heq⟩ :=
        List.mem_map.1 (hdone fd.name (horder.mem_iff.2 hname) (fdMap_isSome_iff.2 hname))
      have hsame : fd' = fd :=
        List.inj_on_of_nodup_map hnames (mem_of_fdMap (hgood.found fd' hfd')).1 hfd heq
      exact hsame ▸ hfd'
  · intro before fd after hresult hacyclic dep hdep hmem
    exact hgood.successorsFirst before fd after hresult hacyclic dep hdep (fdMap_isSome_iff.2 hmem)

/-- A file before its dependency, beside two that depend on each other. -/
def cycleBeside : List FileDescriptor :=
  [{ name := "a", dependency := ["b", "google/protobuf/any.proto"] }, { name := "b" },
    { name := "c", dependency := ["d"] }, { name := "d", dependency := ["c"] }]

theorem topologicalSort_sorts_cycleBeside :
    ∃ result, topologicalSort 5 cycleBeside ["c", "a", "d", "b"] = some result ∧
      result.Perm cycleBeside ∧
      DependenciesFirst cycleBeside result :=
  topologicalSort_sorts cycleBeside (by decide) ["c", "a", "d", "b"] (by decide) 5 (by decide)

example : (topologicalSort 5 cycleBeside ["c", "a", "d", "b"]).map (·.map (·.name)) =
  some ["d", "c", "b", "a"] := by
  decide

end Pixiu.Grpc
