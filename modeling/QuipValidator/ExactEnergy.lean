import Mathlib.Algebra.BigOperators.Group.List.Basic
import Mathlib.Logic.Relation
import QuipValidator.EnergyBounds

/-! The energy is the exact sum, and it does not depend on the listing. A problem
may list its nodes in any order as long as fields and spins move with them, its
edges in any order with their couplings, and the endpoints of an edge either way
round. -/
namespace QuipValidator.IsingEnergy
open Fallible IsingValidation

/-- The arguments of one energy computation. -/
structure Problem where
  nodes : List Nat
  edges : List (Nat × Nat)
  h : List Int
  j : List Int
  solution : List Int

namespace Problem

/-- Each node with its field and its spin. -/
def rows (problem : Problem) : List (Nat × Int × Int) := problem.nodes.zip (problem.h.zip problem.solution)

/-- Each edge with its coupling. -/
def weighted (problem : Problem) : List ((Nat × Nat) × Int) := problem.edges.zip problem.j

def energy (problem : Problem) : Int :=
  isingEnergy problem.nodes problem.edges problem.h problem.j problem.solution

/-- One spin and one field for each node, one coupling for each edge. -/
structure Shaped (problem : Problem) : Prop where
  spins : problem.solution.length = problem.nodes.length
  fields : problem.h.length = problem.nodes.length
  couplings : problem.j.length = problem.edges.length

/-- One change of the listing. -/
inductive Reordering : Problem → Problem → Prop
  | nodes {before : Problem} {nodes : List Nat} {h solution : List Int}
      (shaped : Shaped { before with nodes, h, solution })
      (rows : before.rows.Perm (rows { before with nodes, h, solution })) :
      Reordering before { before with nodes, h, solution }
  | edges {before : Problem} {edges : List (Nat × Nat)} {j : List Int}
      (shaped : Shaped { before with edges, j })
      (weighted : before.weighted.Perm (weighted { before with edges, j })) :
      Reordering before { before with edges, j }
  | endpoints {before : Problem} {edges : List (Nat × Nat)}
      (swapped : List.Forall₂ (fun edge turned => turned = edge ∨ turned = edge.swap) before.edges edges) :
      Reordering before { before with edges }

/-- What the energy path needs: an indexable graph with a node, vectors of its
shape, signs for spins, and few enough `i32` terms. -/
structure Valid (problem : Problem) : Prop extends Shaped problem where
  distinct : problem.nodes.Nodup
  known : ∀ edge ∈ problem.edges, edge.1 ∈ problem.nodes ∧ edge.2 ∈ problem.nodes
  occupied : problem.nodes ≠ []
  signs : ∀ spin ∈ problem.solution, IsSpin spin
  smallH : ∀ field ∈ problem.h, SmallTerm field
  smallJ : ∀ coupling ∈ problem.j, SmallTerm coupling
  few : problem.nodes.length + problem.edges.length < 2 ^ 32

section Listing
variable {problem : Problem}

theorem Shaped.map_node (shaped : Shaped problem) : problem.rows.map Prod.fst = problem.nodes := by
  apply List.map_fst_zip
  rw [List.length_zip, shaped.fields, shaped.spins]
  omega

theorem Shaped.map_values (shaped : Shaped problem) : problem.rows.map Prod.snd = problem.h.zip problem.solution := by
  apply List.map_snd_zip
  rw [List.length_zip, shaped.fields, shaped.spins]
  omega

/-- The field sum, read off the rows. -/
private theorem fieldSum_eq (h solution : List Int) :
    (List.zipWith (· * ·) h solution).sum = ((h.zip solution).map fun value => value.1 * value.2).sum := by
  rw [List.map_zip_eq_zipWith]
  rfl

/-- The spin of a node is the one in its row. -/
private theorem spinOf_row (distinct : problem.nodes.Nodup) {row : Nat × Int × Int} (member : row ∈ problem.rows) : spinOf problem.nodes problem.solution row.1 = row.2.2 := by
  obtain ⟨index, inside, rfl⟩ := List.mem_iff_getElem.mp member
  simp only [rows, List.length_zip] at inside
  simp only [rows, List.getElem_zip, spinOf]
  rw [distinct.idxOf_getElem index (by omega), List.getD_eq_getElem?_getD, List.getElem?_eq_getElem (by omega),
    Option.getD_some]

end Listing

/-- Nodes in another order: the spin of each node moves with it. -/
private theorem nodes_keep {before : Problem} {nodes : List Nat} {h solution : List Int} (valid : Valid before)
    (shaped : Shaped { before with nodes, h, solution })
    (rows : before.rows.Perm (rows { before with nodes, h, solution })) :
    Valid { before with nodes, h, solution } ∧ energy { before with nodes, h, solution } = before.energy := by
  have nodesPerm : before.nodes.Perm nodes := by
    have perm := rows.map Prod.fst
    rwa [valid.toShaped.map_node, shaped.map_node] at perm
  have valuesPerm : (before.h.zip before.solution).Perm (h.zip solution) := by
    have perm := rows.map Prod.snd
    rwa [valid.toShaped.map_values, shaped.map_values] at perm
  have fieldsPerm : before.h.Perm h := by
    have perm := valuesPerm.map Prod.fst
    rwa [List.map_fst_zip (by rw [valid.fields, valid.spins]),
      List.map_fst_zip (show h.length ≤ solution.length by rw [shaped.fields, shaped.spins])] at perm
  have spinsPerm : before.solution.Perm solution := by
    have perm := valuesPerm.map Prod.snd
    rwa [List.map_snd_zip (by rw [valid.fields, valid.spins]),
      List.map_snd_zip (show solution.length ≤ h.length by rw [shaped.fields, shaped.spins])] at perm
  have distinct : nodes.Nodup := nodesPerm.nodup_iff.mp valid.distinct
  have sameSpin : ∀ node ∈ before.nodes, spinOf nodes solution node = spinOf before.nodes before.solution node := by
    intro node member
    rw [← valid.toShaped.map_node] at member
    obtain ⟨row, listed, rfl⟩ := List.mem_map.mp member
    rw [spinOf_row valid.distinct listed]
    exact @spinOf_row { before with nodes, h, solution } distinct row (rows.mem_iff.mp listed)
  refine ⟨⟨shaped, distinct, ?_, ?_, ?_, ?_, valid.smallJ, ?_⟩, ?_⟩
  · intro edge member
    exact ⟨nodesPerm.mem_iff.mp (valid.known edge member).1, nodesPerm.mem_iff.mp (valid.known edge member).2⟩
  · exact fun empty => valid.occupied (List.Perm.eq_nil (empty ▸ nodesPerm))
  · exact fun spin member => valid.signs spin (spinsPerm.mem_iff.mpr member)
  · exact fun field member => valid.smallH field (fieldsPerm.mem_iff.mpr member)
  · have few := valid.few
    rwa [nodesPerm.length_eq] at few
  · simp only [energy, isingEnergy]
    congr 1
    · rw [fieldSum_eq, fieldSum_eq]
      exact (valuesPerm.map _).sum_eq.symm
    · congr 1
      apply List.map_congr_left
      intro pair member
      obtain ⟨first, second⟩ := valid.known pair.1 (List.of_mem_zip member).1
      rw [couplingTerm, couplingTerm, sameSpin _ first, sameSpin _ second]

private theorem edges_keep {before : Problem} {edges : List (Nat × Nat)} {j : List Int} (valid : Valid before)
    (shaped : Shaped { before with edges, j })
    (weighted : before.weighted.Perm (weighted { before with edges, j })) :
    Valid { before with edges, j } ∧ energy { before with edges, j } = before.energy := by
  have edgesPerm : before.edges.Perm edges := by
    have perm := weighted.map Prod.fst
    rwa [Problem.weighted, Problem.weighted, List.map_fst_zip (by rw [valid.couplings]),
      List.map_fst_zip (by rw [shaped.couplings])] at perm
  have couplingsPerm : before.j.Perm j := by
    have perm := weighted.map Prod.snd
    rwa [Problem.weighted, Problem.weighted, List.map_snd_zip (by rw [valid.couplings]),
      List.map_snd_zip (by rw [shaped.couplings])] at perm
  refine ⟨⟨shaped, valid.distinct, ?_, valid.occupied, valid.signs, valid.smallH, ?_, ?_⟩, ?_⟩
  · exact fun edge member => valid.known edge (edgesPerm.mem_iff.mpr member)
  · exact fun coupling member => valid.smallJ coupling (couplingsPerm.mem_iff.mpr member)
  · have few := valid.few
    rwa [edgesPerm.length_eq] at few
  · simp only [energy, isingEnergy]
    congr 1
    exact (weighted.map _).sum_eq.symm

private theorem couplingSum_turned {edges turned : List (Nat × Nat)} (nodes : List Nat) (j solution : List Int)
    (swapped : List.Forall₂ (fun edge other => other = edge ∨ other = edge.swap) edges turned) :
    ((turned.zip j).map (couplingTerm nodes solution)).sum = ((edges.zip j).map (couplingTerm nodes solution)).sum := by
  induction swapped generalizing j with
  | nil => rfl
  | @cons edge other edges turned first _ ih =>
    cases j with
    | nil => rfl
    | cons coupling rest =>
      have term : couplingTerm nodes solution (other, coupling) = couplingTerm nodes solution (edge, coupling) := by
        rcases first with rfl | rfl
        · rfl
        · simp only [couplingTerm, Prod.fst_swap, Prod.snd_swap]
          rw [mul_right_comm]
      rw [List.zip_cons_cons, List.zip_cons_cons, List.map_cons, List.map_cons, List.sum_cons, List.sum_cons, ih, term]

/-- Endpoints the other way round: the product of two spins does not notice. -/
private theorem endpoints_keep {before : Problem} {edges : List (Nat × Nat)} (valid : Valid before)
    (swapped : List.Forall₂ (fun edge turned => turned = edge ∨ turned = edge.swap) before.edges edges) :
    Valid { before with edges } ∧ energy { before with edges } = before.energy := by
  have length := swapped.length_eq
  have couplings : before.j.length = edges.length := valid.couplings.trans length
  refine ⟨⟨⟨valid.spins, valid.fields, couplings⟩, valid.distinct, ?_, valid.occupied, valid.signs, valid.smallH,
    valid.smallJ, ?_⟩, ?_⟩
  · intro edge member
    obtain ⟨index, inside, rfl⟩ := List.mem_iff_getElem.mp member
    dsimp only at inside
    have old := valid.known _ (List.getElem_mem (show index < before.edges.length by omega))
    rcases swapped.get (by omega) inside with same | turned
    · rw [List.get_eq_getElem, List.get_eq_getElem] at same
      rwa [same]
    · rw [List.get_eq_getElem, List.get_eq_getElem] at turned
      rw [turned]
      exact old.symm
  · have few := valid.few
    rwa [length] at few
  · simp only [energy, isingEnergy]
    rw [couplingSum_turned before.nodes before.j before.solution swapped]

theorem Reordering.keeps {before after : Problem} (valid : Valid before) (reordering : Reordering before after) :
    Valid after ∧ after.energy = before.energy := by
  cases reordering with
  | nodes shaped rows => exact nodes_keep valid shaped rows
  | edges shaped weighted => exact edges_keep valid shaped weighted
  | endpoints swapped => exact endpoints_keep valid swapped

/-- Both energy functions return the exact sum on a valid problem. -/
theorem Valid.computes {problem : Problem} (valid : Valid problem) :
    ∃ topology, TopologyIndex.new problem.nodes problem.edges = .ok topology ∧
      energyOfSolutionIndexed problem.solution problem.h problem.edges problem.j topology = .ok problem.energy ∧
      energyOfSolution problem.solution problem.h problem.edges problem.j problem.nodes = .ok problem.energy := by
  obtain ⟨topology, built⟩ := TopologyIndex.new_runs valid.distinct valid.known
  obtain ⟨energy, ran⟩ := energyOfSolutionIndexed_runs built valid.known valid.occupied valid.spins valid.fields
    valid.couplings valid.signs valid.smallH valid.smallJ valid.few
  obtain ⟨_, _, _, rfl, _⟩ := energyOfSolutionIndexed_exact built ran
  refine ⟨topology, built, ran, ?_⟩
  simp only [energyOfSolution, bind_success, validateShapeLengths_success]
  exact ⟨(), ⟨by simpa using valid.occupied, valid.spins, valid.fields, valid.couplings.symm⟩, topology, built, ran⟩

end Problem

/-- The energy of an indexed problem is the exact sum, whatever the `i32` values
are; the plain function agrees, and both give the same number for every
reordering of the problem. -/
theorem exact_energy_any_order {nodes : List Nat} {edges : List (Nat × Nat)} {h j solution : List Int}
    {topology : TopologyIndex} (built : TopologyIndex.new nodes edges = .ok topology) (occupied : 1 ≤ nodes.length)
    (few : nodes.length + edges.length < 2 ^ 32) (spins : solution.length = nodes.length)
    (fields : h.length = nodes.length) (couplings : j.length = edges.length)
    (signs : ∀ spin ∈ solution, IsSpin spin) (smallH : ∀ field ∈ h, SmallTerm field)
    (smallJ : ∀ coupling ∈ j, SmallTerm coupling) :
    energyOfSolutionIndexed solution h edges j topology = .ok (isingEnergy nodes edges h j solution) ∧
      energyOfSolution solution h edges j nodes = .ok (isingEnergy nodes edges h j solution) ∧
      ∀ other, Relation.ReflTransGen Problem.Reordering ⟨nodes, edges, h, j, solution⟩ other →
        ∃ index, TopologyIndex.new other.nodes other.edges = .ok index ∧
          energyOfSolutionIndexed other.solution other.h other.edges other.j index =
            .ok (isingEnergy nodes edges h j solution) ∧
          energyOfSolution other.solution other.h other.edges other.j other.nodes =
            .ok (isingEnergy nodes edges h j solution) := by
  obtain ⟨distinct, known⟩ := TopologyIndex.new_graph built
  have valid : Problem.Valid ⟨nodes, edges, h, j, solution⟩ :=
    ⟨⟨spins, fields, couplings⟩, distinct, known, by rintro rfl; simp at occupied, signs, smallH, smallJ, few⟩
  refine ⟨?_, ?_, ?_⟩
  · obtain ⟨index, again, ran, _⟩ := valid.computes
    rw [built] at again
    cases again
    exact ran
  · obtain ⟨_, _, _, ran⟩ := valid.computes
    exact ran
  · intro other reached
    have kept : other.Valid ∧ other.energy = isingEnergy nodes edges h j solution := by
      induction reached with
      | refl => exact ⟨valid, rfl⟩
      | tail _ step ih =>
        obtain ⟨stays, same⟩ := Problem.Reordering.keeps ih.1 step
        exact ⟨stays, same.trans ih.2⟩
    rw [← kept.2]
    exact kept.1.computes

/-- Two coupled nodes at the ends of `i32`, and their mirror image. -/
theorem exact_energy_pair :
    energyOfSolution [1, -1] [2 ^ 31 - 1, -2 ^ 31] [(3, 7)] [1000] [7, 3] = .ok (2 ^ 32 - 1001) ∧
      energyOfSolution [-1, 1] [-2 ^ 31, 2 ^ 31 - 1] [(3, 7)] [1000] [3, 7] = .ok (2 ^ 32 - 1001) := by
  obtain ⟨topology, built⟩ : ∃ topology, TopologyIndex.new [7, 3] [(3, 7)] = .ok topology := ⟨_, rfl⟩
  have total : isingEnergy [7, 3] [(3, 7)] [2 ^ 31 - 1, -2 ^ 31] [1000] [1, -1] = 2 ^ 32 - 1001 := by decide
  obtain ⟨_, ran, reorder⟩ := exact_energy_any_order built (by simp) (by simp) (show [1, -1].length = _ from rfl)
    (show [2 ^ 31 - 1, -2 ^ 31].length = _ from rfl) (show [1000].length = _ from rfl) (by simp [IsSpin])
    (by simp [SmallTerm, termBound]) (by simp [SmallTerm, termBound])
  have mirrored := reorder ⟨[3, 7], [(3, 7)], [-2 ^ 31, 2 ^ 31 - 1], [1000], [-1, 1]⟩
    (.single (.nodes ⟨rfl, rfl, rfl⟩ (List.Perm.swap _ _ _)))
  obtain ⟨_, _, _, again⟩ := mirrored
  rw [total] at ran again
  exact ⟨ran, again⟩

end QuipValidator.IsingEnergy
