import QuipValidator.ProgramStore
import Mathlib.Data.Finset.Card
import Mathlib.Data.Finset.Lattice.Fold
import Mathlib.Order.Lattice.Nat

/-! What `ControlFlowShape` measures. The verifier's blocks are the elements of a
set of positions; the walk counts them with one counter and one flag. The flag says
whether the position it stands at is already in the set, every position in the set
is at or before that one, and so an element is new exactly when the flag says so. -/
namespace QuipValidator.Xqvm

/-- The instructions after which a block starts. -/
def Instruction.transfers : Instruction → Bool
  | .jump1 | .jump2 | .jumpI1 | .jumpI2 | .range | .iter | .next => true
  | .target | .plain => false

/-- The items of a stream up to its end or its first structural fault. -/
def decoded : List (Option Decoded) → List Decoded
  | some item :: rest => item :: decoded rest
  | none :: _ => []
  | [] => []

/-- The items lie end to end from a position on, as an instruction stream yields them. -/
def Contiguous : Nat → List Decoded → Prop
  | _, [] => True
  | position, item :: rest => item.start = position ∧ position < item.stop ∧ Contiguous item.stop rest

/-- The leader positions: the entry, every `TARGET`, and the position after every
jump, `RANGE`, `ITER` and `NEXT`. -/
def leaders (items : List Decoded) : Finset Nat :=
  {0} ∪ ((items.filter fun item => item.instruction = .target).map Decoded.start).toFinset ∪
    ((items.filter fun item => item.instruction.transfers).map Decoded.stop).toFinset

/-- The nesting counter after a sequence of instructions. -/
def nesting (items : List Decoded) : Nat :=
  items.foldl (fun depth item =>
    match item.instruction with
    | .range | .iter => depth + 1
    | .next => depth - 1
    | _ => depth) 0

/-- The deepest nesting over all prefixes. -/
def deepest (items : List Decoded) : Nat := (Finset.range (items.length + 1)).sup fun count => nesting (items.take count)

/-- Where items that start at a position end. -/
def endOf (position : Nat) (items : List Decoded) : Nat := (items.getLast?.map Decoded.stop).getD position

section Measures
variable {items : List Decoded} {item : Decoded}

@[simp] theorem endOf_concat (position : Nat) (items : List Decoded) (item : Decoded) :
    endOf position (items ++ [item]) = item.stop := by
  simp [endOf]

theorem contiguous_concat {position : Nat} :
    Contiguous position (items ++ [item]) ↔
      Contiguous position items ∧ item.start = endOf position items ∧ endOf position items < item.stop := by
  induction items generalizing position with
  | nil => simp [Contiguous, endOf]
  | cons first rest ih =>
    have last : endOf position (first :: rest) = endOf first.stop rest := by
      simp only [endOf, List.getLast?_cons, Option.map_some, Option.getD_some]
      cases rest.getLast? <;> rfl
    rw [List.cons_append, Contiguous, ih, last, Contiguous]
    tauto

theorem leaders_concat (items : List Decoded) (item : Decoded) :
    leaders (items ++ [item]) =
      if item.instruction = .target then insert item.start (leaders items)
      else if item.instruction.transfers then insert item.stop (leaders items)
      else leaders items := by
  ext position
  by_cases target : item.instruction = .target
  · have still : Instruction.target.transfers = false := rfl
    simp only [leaders, List.filter_append, List.map_append, List.toFinset_append, target, still, Finset.mem_union,
      Finset.mem_insert, if_true, List.filter_singleton, decide_true, cond_true, cond_false, Bool.false_eq_true,
      List.map_cons, List.map_nil, List.toFinset_cons, List.toFinset_nil, Finset.mem_singleton, Finset.notMem_empty]
    tauto
  · by_cases transfer : item.instruction.transfers = true
    · simp only [leaders, List.filter_append, List.map_append, List.toFinset_append, target, transfer, Finset.mem_union,
        Finset.mem_insert, if_true, if_false, List.filter_singleton, decide_false, cond_true, cond_false,
        List.map_cons, List.map_nil, List.toFinset_cons, List.toFinset_nil, Finset.mem_singleton, Finset.notMem_empty]
      tauto
    · simp [leaders, target, transfer, List.filter_append]

theorem nesting_concat (items : List Decoded) (item : Decoded) :
    nesting (items ++ [item]) =
      match item.instruction with
      | .range | .iter => nesting items + 1
      | .next => nesting items - 1
      | _ => nesting items := by
  simp [nesting, List.foldl_append]

theorem deepest_concat (items : List Decoded) (item : Decoded) :
    deepest (items ++ [item]) = max (deepest items) (nesting (items ++ [item])) := by
  have whole : (items ++ [item]).take (items.length + 1) = items ++ [item] := List.take_of_length_le (by simp)
  have earlier : ∀ count ∈ Finset.range (items.length + 1), nesting ((items ++ [item]).take count) =
      nesting (items.take count) := by
    intro count member
    rw [List.take_append_of_le_length (Nat.lt_succ_iff.mp (Finset.mem_range.mp member))]
  rw [deepest, List.length_append, List.length_singleton, Finset.range_add_one, Finset.sup_insert, whole,
    Finset.sup_congr rfl earlier, max_comm]
  rfl

theorem nesting_le (items : List Decoded) : nesting items ≤ items.length := by
  induction items using List.reverseRecOn with
  | nil => exact Nat.le_refl _
  | append_singleton items item ih =>
    rw [nesting_concat, List.length_append, List.length_singleton]
    split <;> omega

/-- Each item adds at most one leader to the entry. -/
theorem card_leaders_le (items : List Decoded) : (leaders items).card ≤ items.length + 1 := by
  induction items using List.reverseRecOn with
  | nil => exact Nat.le_refl _
  | append_singleton items item ih =>
    rw [leaders_concat, List.length_append, List.length_singleton]
    have grown : ∀ position, (insert position (leaders items)).card ≤ items.length + 1 + 1 :=
      fun position => (Finset.card_insert_le _ _).trans (Nat.succ_le_succ ih)
    split
    · exact grown _
    split
    · exact grown _
    · exact Nat.le_succ_of_le ih

/-- No leader lies beyond the end of what was read. -/
theorem leaders_le (contiguous : Contiguous 0 items) : ∀ position ∈ leaders items, position ≤ endOf 0 items := by
  induction items using List.reverseRecOn with
  | nil => simp [leaders]
  | append_singleton items item ih =>
    obtain ⟨before, start, forward⟩ := contiguous_concat.mp contiguous
    intro position member
    rw [endOf_concat]
    rw [leaders_concat] at member
    have earlier : position ∈ leaders items → position ≤ item.stop := fun held => (ih before position held).trans forward.le
    split at member
    · rcases Finset.mem_insert.mp member with rfl | held
      · omega
      · exact earlier held
    split at member
    · rcases Finset.mem_insert.mp member with rfl | held
      · exact Nat.le_refl _
      · exact earlier held
    · exact earlier member

end Measures

namespace ControlFlowShape

/-- The walk's variables after the items read so far. -/
structure Measured (walk : Walk) (items : List Decoded) : Prop where
  blocks : walk.blocks = min (leaders items).card u32Max
  pending : walk.leaderPending = decide (endOf 0 items ∈ leaders items)
  depth : walk.depth = nesting items
  loopDepth : walk.loopDepth = deepest items

private theorem measured_start : Measured { blocks := 1, leaderPending := true, depth := 0, loopDepth := 0 } [] :=
  ⟨rfl, rfl, rfl, rfl⟩

private theorem visit_blocks (walk : Walk) (instruction : Instruction) :
    (walk.visit instruction).blocks =
      if instruction = .target then if walk.leaderPending then walk.blocks else saturatingAdd u32Max walk.blocks 1
      else if instruction.transfers then saturatingAdd u32Max walk.blocks 1 else walk.blocks := by
  cases instruction <;> rfl

/-- Only a transfer makes the position after it a leader. -/
private theorem visit_pending (walk : Walk) (instruction : Instruction) :
    (walk.visit instruction).leaderPending = instruction.transfers := by
  cases instruction <;> rfl

private theorem count_one_more (count : Nat) : saturatingAdd u32Max (min count u32Max) 1 = min (count + 1) u32Max := by
  rw [saturatingAdd]
  omega

private theorem Measured.visit {walk : Walk} {items : List Decoded} {item : Decoded} (measured : Measured walk items)
    (contiguous : Contiguous 0 (items ++ [item])) (short : items.length < u32Max) :
    Measured (walk.visit item.instruction) (items ++ [item]) := by
  obtain ⟨before, start, forward⟩ := contiguous_concat.mp contiguous
  obtain ⟨blocks, pending, depth, loopDepth⟩ := measured
  have ahead : item.stop ∉ leaders items := fun held => absurd (leaders_le before _ held) (Nat.not_le.mpr forward)
  have deeper : saturatingAdd u32Max (nesting items) 1 = nesting items + 1 :=
    saturatingAdd_of_le (by have shallow := nesting_le items; omega)
  have stands : nesting items ≤ deepest items := by
    have last := Finset.le_sup (f := fun count => nesting (items.take count)) (Finset.self_mem_range_succ items.length)
    rwa [List.take_length] at last
  refine ⟨?_, ?_, ?_, ?_⟩
  · rw [visit_blocks, leaders_concat, blocks, pending, count_one_more, start]
    split
    · by_cases held : endOf 0 items ∈ leaders items
      · rw [Finset.insert_eq_of_mem held]
        simp [held]
      · rw [Finset.card_insert_of_notMem held]
        simp [held]
    split
    · rw [Finset.card_insert_of_notMem ahead]
    · rfl
  · have apart : item.stop ≠ item.start := by omega
    rw [visit_pending, endOf_concat, leaders_concat]
    split
    · rename_i target
      simp [target, Instruction.transfers, apart, ahead]
    split
    · rename_i transfer
      simp [transfer]
    · rename_i plain
      simp [plain, ahead]
  · rw [nesting_concat]
    cases item.instruction <;> simp [Walk.visit, depth, deeper]
  · rw [deepest_concat, nesting_concat]
    cases item.instruction <;> simp only [Walk.visit, depth, loopDepth, deeper] <;> omega

/-- The walk over a whole stream. -/
private theorem walkStream_measured {items : List Decoded} (contiguous : Contiguous 0 items)
    (short : items.length ≤ u32Max) :
    Measured (items.foldl (fun walk item => walk.visit item.instruction)
      { blocks := 1, leaderPending := true, depth := 0, loopDepth := 0 }) items := by
  induction items using List.reverseRecOn with
  | nil => exact measured_start
  | append_singleton items item ih =>
    rw [List.length_append, List.length_singleton] at short
    rw [List.foldl_append]
    exact (ih (contiguous_concat.mp contiguous).1 (by omega)).visit contiguous (by omega)

private theorem walkStream_eq (walk : Walk) (stream : List (Option Decoded)) :
    walkStream walk stream = (decoded stream).foldl (fun walk item => walk.visit item.instruction) walk := by
  induction stream generalizing walk with
  | nil => rfl
  | cons item rest ih =>
    cases item with
    | none => rfl
    | some item => exact ih _

private theorem of_measured {T : Config} {code : List UInt8}
    (contiguous : Contiguous 0 (decoded (T.instructionStream code)))
    (short : (decoded (T.instructionStream code)).length ≤ u32Max) :
    (of T code).blocks = min (leaders (decoded (T.instructionStream code))).card u32Max ∧
      (of T code).loopDepth = deepest (decoded (T.instructionStream code)) := by
  have measured := walkStream_measured contiguous short
  rw [← walkStream_eq] at measured
  exact ⟨measured.blocks, measured.loopDepth⟩

end ControlFlowShape

/-- The shape of every stream below `2 ^ 32` items: `blocks` is the number of
leaders, as far as a `u32` counts, and `loopDepth` the deepest nesting. -/
theorem control_flow_shape_measures (T : Config)
    (yields : ∀ code, Contiguous 0 (decoded (T.instructionStream code))) (code : List UInt8)
    (short : (decoded (T.instructionStream code)).length < 2 ^ 32) :
    (ControlFlowShape.of T code).blocks = min (leaders (decoded (T.instructionStream code))).card (2 ^ 32 - 1) ∧
      ((decoded (T.instructionStream code)).length < 2 ^ 32 - 1 →
        (ControlFlowShape.of T code).blocks = (leaders (decoded (T.instructionStream code))).card) ∧
      (ControlFlowShape.of T code).loopDepth = deepest (decoded (T.instructionStream code)) := by
  obtain ⟨blocks, loopDepth⟩ := ControlFlowShape.of_measured (yields code) (Nat.le_pred_of_lt short)
  refine ⟨blocks, fun shorter => ?_, loopDepth⟩
  have few := card_leaders_le (decoded (T.instructionStream code))
  rw [blocks]
  exact Nat.min_eq_left (few.trans shorter)

/-- A decoder of one-byte instructions. -/
def tinyOpcode (byte : UInt8) : Instruction :=
  if byte = 1 then .target else if byte = 2 then .jump1 else if byte = 3 then .range else if byte = 4 then .next
  else .plain

/-- Zero is a structural fault. -/
def tinyStream : Nat → List UInt8 → List (Option Decoded)
  | _, [] => []
  | position, byte :: rest =>
    (if byte = 0 then none else some ⟨position, position + 1, tinyOpcode byte⟩) :: tinyStream (position + 1) rest

def tinyDecoder : Config := { tinyConfig with instructionStream := tinyStream 0 }

private theorem tinyStream_contiguous (position : Nat) (code : List UInt8) :
    Contiguous position (decoded (tinyStream position code)) := by
  induction code generalizing position with
  | nil => trivial
  | cons byte rest ih =>
    rw [tinyStream]
    split
    · trivial
    · exact ⟨rfl, Nat.lt_succ_self _, ih _⟩

/-- A loop, a target at its body, a jump onto a target, and a fault that hides the rest. -/
theorem control_flow_shape_measures_tinyDecoder :
    ControlFlowShape.of tinyDecoder [3, 1, 2, 1, 4, 1, 0, 2] = ⟨4, 1⟩ ∧
      (ControlFlowShape.of tinyDecoder [3, 1, 2, 1, 4, 1, 0, 2]).blocks =
        (leaders (decoded (tinyStream 0 [3, 1, 2, 1, 4, 1, 0, 2]))).card :=
  ⟨by decide, (control_flow_shape_measures tinyDecoder (tinyStream_contiguous 0) _ (by decide)).2.1 (by decide)⟩

/-- `NEXT` after `NEXT`: every position is a leader. -/
private theorem leaders_nexts (count : Nat) :
    leaders ((List.range count).map fun position => ⟨position, position + 1, .next⟩) = Finset.range (count + 1) := by
  induction count with
  | zero => rfl
  | succ count ih =>
    rw [List.range_succ, List.map_append, List.map_singleton, leaders_concat, ih]
    exact Finset.range_add_one.symm

private theorem decoded_nexts (position count : Nat) :
    decoded (tinyStream position (List.replicate count 4)) =
      (List.range' position count).map fun position => ⟨position, position + 1, .next⟩ := by
  induction count generalizing position with
  | zero => rfl
  | succ count ih =>
    rw [List.range'_succ, List.map_cons, ← ih]
    rfl

/-- The longest stream the bound admits can have one leader more than a `u32` counts. -/
theorem control_flow_shape_saturates :
    Contiguous 0 (decoded (tinyDecoder.instructionStream (List.replicate (2 ^ 32 - 1) 4))) ∧
      (decoded (tinyDecoder.instructionStream (List.replicate (2 ^ 32 - 1) 4))).length < 2 ^ 32 ∧
      (ControlFlowShape.of tinyDecoder (List.replicate (2 ^ 32 - 1) 4)).blocks ≠
        (leaders (decoded (tinyDecoder.instructionStream (List.replicate (2 ^ 32 - 1) 4)))).card := by
  have contiguous : Contiguous 0 (decoded (tinyDecoder.instructionStream (List.replicate (2 ^ 32 - 1) 4))) :=
    tinyStream_contiguous 0 _
  have nexts : decoded (tinyDecoder.instructionStream (List.replicate (2 ^ 32 - 1) 4)) =
      (List.range (2 ^ 32 - 1)).map fun position => ⟨position, position + 1, .next⟩ := by
    rw [List.range_eq_range']
    exact decoded_nexts 0 _
  have length : (decoded (tinyDecoder.instructionStream (List.replicate (2 ^ 32 - 1) 4))).length = 2 ^ 32 - 1 := by
    rw [nexts, List.length_map, List.length_range]
  refine ⟨contiguous, by rw [length]; decide, ?_⟩
  rw [(ControlFlowShape.of_measured contiguous length.le).1, nexts, leaders_nexts, Finset.card_range]
  decide

end QuipValidator.Xqvm
