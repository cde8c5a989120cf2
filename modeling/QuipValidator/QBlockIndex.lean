import QuipValidator.PowRounds
import QuipValidator.OrdinalIndex

/-! The qblock index. The counter, the two index maps and the qblock map are one
numbered log: the numbers of the winning blocks in the order they were built.
Ids are `u64` and the counter saturates, so this holds for fewer than `2 ^ 64`
winning blocks. -/
namespace QuipValidator.Pow
open OrdinalIndex

variable {T : Config} {s s₀ : State T}

/-- The block ends with a proof in front. -/
def Built.won (built : Built T) : Bool := built.closing.blockBestProof.isSome

/-- The numbers of the winning blocks among some built blocks. -/
def wins (builts : List (Built T)) : List Nat := (builts.filter Built.won).map Built.number

/-- The numbers of the winning blocks of a chain, oldest first. -/
def winningBlocks (s₀ : State T) (blocks : List (Block T)) : List Nat := wins ((chain T).trace s₀ blocks)

/-- The qblock storage is the numbered log. -/
structure Indexed (log : List Nat) (s : State T) : Prop where
  count : s.qblockCount = log.length
  numbers : Numbers log s.qblockBlockById s.qblockIdByBlock
  held : ∀ n, (s.qblocks.lookup n).isSome ↔ n ∈ log

private theorem indexed_fresh (fresh : NoQBlocks s₀) : Indexed [] s₀ := by
  refine ⟨fresh.qblockCount, ?_, ?_⟩
  · rw [fresh.qblockBlockById, fresh.qblockIdByBlock]
    exact numbers_nil
  · intro n
    simp [fresh.qblocks]

/-- The next block extends the log by its number if it is won, and leaves it otherwise. -/
private theorem indexed_next {log : List Nat} (between : Between s) (indexed : Indexed log s) (block : Block T)
    (room : (log ++ wins [⟨s, block⟩]).length < 2 ^ 64) :
    Indexed (log ++ wins [⟨s, block⟩]) ((chain T).next s block) := by
  have unfinished := closing_unfinished between.blockBestProof block
  have count : (closing s block).qblockCount = log.length := unfinished.qblockCount.trans indexed.count
  rcases block_cases between.blockBestProof block with ⟨_, idle, next⟩ | ⟨best, reward, _, front, settled⟩
  · have lost : wins [(⟨s, block⟩ : Built T)] = [] := by
      simp [wins, Built.won, Built.closing, idle]
    rw [lost, List.append_nil, next]
    refine ⟨count, ?_, ?_⟩
    · rw [unfinished.qblockBlockById, unfinished.qblockIdByBlock]
      exact indexed.numbers
    · rw [unfinished.qblocks]
      exact indexed.held
  · have won : wins [(⟨s, block⟩ : Built T)] = [Built.number ⟨s, block⟩] := by
      simp [wins, Built.won, Built.closing, front]
    have newId : nextQblockId (closing s block) = log.length + 1 := by
      rw [won, List.length_append, List.length_singleton] at room
      rw [nextQblockId, count]
      apply saturatingAdd_of_le
      simp only [u64Max]
      omega
    have greatest : ∀ other ∈ log, other < Built.number ⟨s, block⟩ := by
      intro other member
      obtain ⟨q, found⟩ := Option.isSome_iff_exists.mp ((indexed.held other).mpr member)
      exact between.lt_number block found
    rw [won]
    refine ⟨?_, ?_, ?_⟩
    · rw [settled.qblockCount, newId, List.length_append, List.length_singleton]
    · rw [settled.qblockBlockById, settled.qblockIdByBlock, newId, unfinished.qblockBlockById,
        unfinished.qblockIdByBlock]
      exact indexed.numbers.extend greatest
    · intro n
      rw [settled.qblocks, unfinished.qblocks, StorageMap.lookup_insert_ite, List.mem_append, List.mem_singleton,
        ← indexed.held n]
      by_cases own : n = Built.number ⟨s, block⟩ <;> simp [own]

/-- After every chain the storage is the numbered log of the winning blocks. -/
theorem run_indexed (fresh : NoQBlocks s₀) (blocks : List (Block T))
    (few : (winningBlocks s₀ blocks).length < 2 ^ 64) :
    Indexed (winningBlocks s₀ blocks) ((chain T).run s₀ blocks) := by
  have both := (chain T).run_follows
    (fun builts s => Between s ∧ ((wins builts).length < 2 ^ 64 → Indexed (wins builts) s))
    ⟨fresh.between, fun _ => indexed_fresh fresh⟩ ?_ blocks
  · exact both.2 few
  · rintro s builts block ⟨between, indexed⟩
    refine ⟨between_next between block, ?_⟩
    intro fewer
    have split : wins (builts ++ (chain T).report s block) = wins builts ++ wins [⟨s, block⟩] := by
      simp [wins, chain]
    rw [split] at fewer ⊢
    have earlier : (wins builts).length < 2 ^ 64 := by
      rw [List.length_append] at fewer
      omega
    exact indexed_next between (indexed earlier) block fewer

/-- A later block leaves the qblock of every earlier one. -/
theorem qblocks_next (between : Between s) (block : Block T) {n : Nat} {q : QBlock T}
    (found : s.qblocks.lookup n = some q) : ((chain T).next s block).qblocks.lookup n = some q := by
  have unfinished := closing_unfinished between.blockBestProof block
  rcases block_cases between.blockBestProof block with ⟨_, _, next⟩ | ⟨best, reward, _, _, settled⟩
  · rw [next, unfinished.qblocks]
    exact found
  · have earlier := between.lt_number block found
    rw [settled.qblocks, StorageMap.lookup_insert_ite, if_neg earlier.ne, unfinished.qblocks]
    exact found

/-- No later block touches it. -/
theorem qblocks_run (between : Between s) (later : List (Block T)) {n : Nat} {q : QBlock T}
    (found : s.qblocks.lookup n = some q) : ((chain T).run s later).qblocks.lookup n = some q := by
  have both := (chain T).run_follows (fun _ after => Between after ∧ after.qblocks.lookup n = some q)
    ⟨between, found⟩ ?_ later
  · exact both.2
  · rintro after _ block ⟨still, held⟩
    exact ⟨between_next still block, qblocks_next still block held⟩

/-- The qblock index is a bijection, for every chain with fewer than `2 ^ 64`
winning blocks: ids run from 1 to the count without a gap, in the order of the
block numbers; the two maps are inverse; a block has a qblock exactly if it has
an id; and no later block changes an entry. -/
theorem qblock_index_bijection (fresh : NoQBlocks s₀) (blocks later : List (Block T))
    (few : (winningBlocks s₀ (blocks ++ later)).length < 2 ^ 64) :
    let s := (chain T).run s₀ blocks
    let after := (chain T).run s₀ (blocks ++ later)
    s.qblockCount = (winningBlocks s₀ blocks).length ∧
    (∀ id, (qblockBlockById s id).isSome ↔ 1 ≤ id ∧ id ≤ s.qblockCount) ∧
    (∀ i j m n, i < j → qblockBlockById s i = some m → qblockBlockById s j = some n → m < n) ∧
    (∀ id n, qblockBlockById s id = some n ↔ qblockIdByBlock s n = some id) ∧
    (∀ n, (s.qblocks.lookup n).isSome ↔ (qblockIdByBlock s n).isSome) ∧
    (∀ n q, s.qblocks.lookup n = some q → after.qblocks.lookup n = some q) ∧
    (∀ id n, qblockBlockById s id = some n → qblockBlockById after id = some n) ∧
    (∀ n id, qblockIdByBlock s n = some id → qblockIdByBlock after n = some id) := by
  intro s after
  have grown : winningBlocks s₀ (blocks ++ later) = winningBlocks s₀ blocks ++ winningBlocks s later := by
    simp only [winningBlocks, wins, (chain T).trace_append, List.filter_append, List.map_append, s]
  have now : Indexed (winningBlocks s₀ blocks) s := by
    apply run_indexed fresh
    rw [grown, List.length_append] at few
    omega
  have grew : Indexed (winningBlocks s₀ blocks ++ winningBlocks s later) after :=
    grown ▸ run_indexed fresh (blocks ++ later) few
  have sameBlock : ∀ id n, qblockBlockById s id = some n → qblockBlockById after id = some n :=
    fun id n found => now.numbers.keeps grew.numbers found
  refine ⟨now.count, ?_, ?_, now.numbers.inverse, ?_, ?_, sameBlock, ?_⟩
  · intro id
    rw [now.count]
    exact now.numbers.assigned id
  · intro i j m n less first second
    exact now.numbers.increasing less first second
  · intro n
    rw [now.held n]
    exact (now.numbers.indexed_iff n).symm
  · intro n q found
    have continued : after = (chain T).run s later := (chain T).run_append s₀ blocks later
    rw [continued]
    exact qblocks_run (run_between fresh blocks) later found
  · intro n id found
    exact (grew.numbers.inverse id n).mp (sameBlock id n ((now.numbers.inverse id n).mpr found))

/-- Two winning blocks; the second leaves what the first wrote. -/
theorem qblock_index_bijection_tinyChain :
    (winningBlocks tinyGenesis ([tinyBlock 3 tinyOpening] ++ [tinySecond])).length = 2 ∧
    qblockBlockById ((chain tinyConfig).run tinyGenesis [tinyBlock 3 tinyOpening]) 1 = some 1 ∧
    ∀ id n, qblockBlockById ((chain tinyConfig).run tinyGenesis [tinyBlock 3 tinyOpening]) id = some n →
      qblockBlockById ((chain tinyConfig).run tinyGenesis ([tinyBlock 3 tinyOpening] ++ [tinySecond])) id = some n :=
  have two : (winningBlocks tinyGenesis ([tinyBlock 3 tinyOpening] ++ [tinySecond])).length = 2 := by decide +kernel
  ⟨two, by decide +kernel,
    (qblock_index_bijection tinyGenesis_noQBlocks [tinyBlock 3 tinyOpening] [tinySecond]
      (two ▸ by decide)).2.2.2.2.2.2.1⟩

end QuipValidator.Pow
