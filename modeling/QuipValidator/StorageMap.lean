import Mathlib.Algebra.Order.Ring.Int
import Mathlib.Data.List.AList

/-! Finite storage maps: the part of an association list's theory that a
ledger of keyed records needs. A map is Mathlib's `AList`, so keys never repeat
and every fold over the entries visits each key once. What is added here is the
conditional form of a lookup after a write, sums over all entries, the
two-key map whose second level can be enumerated, and the bounded list. -/
namespace QuipValidator

/-- A list that carries the proof of its length bound. -/
abbrev BoundedVec (α : Type) (bound : Nat) := { items : List α // items.length ≤ bound }

namespace BoundedVec
variable {α : Type} {bound : Nat}

instance : Inhabited (BoundedVec α bound) := ⟨⟨[], Nat.zero_le _⟩⟩

@[simp] theorem default_val : (default : BoundedVec α bound).val = [] := rfl

/-- `BoundedVec::try_from`. -/
def tryFrom (bound : Nat) (items : List α) : Option (BoundedVec α bound) :=
  if fits : items.length ≤ bound then some ⟨items, fits⟩ else none

/-- `try_push`. -/
def tryPush (held : BoundedVec α bound) (item : α) : Option (BoundedVec α bound) :=
  tryFrom bound (held.val ++ [item])

/-- `retain`. -/
def retain (held : BoundedVec α bound) (keeps : α → Bool) : BoundedVec α bound :=
  ⟨held.val.filter keeps, Nat.le_trans (List.length_filter_le _ _) held.property⟩

@[simp] theorem tryFrom_eq_some {items : List α} {result : BoundedVec α bound} :
    tryFrom bound items = some result ↔ result.val = items := by
  unfold tryFrom
  split
  · simp [Subtype.ext_iff, eq_comm]
  · rename_i overflow
    constructor
    · intro impossible
      cases impossible
    · intro same
      exact absurd (same ▸ result.property) overflow

theorem tryFrom_of_le {items : List α} (fits : items.length ≤ bound) :
    tryFrom bound items = some ⟨items, fits⟩ := dif_pos fits

end BoundedVec

/-- A finite map with one entry for each key. -/
abbrev StorageMap (K V : Type) := AList (fun _ : K => V)

namespace StorageMap
variable {K V : Type}

/-- The sum of `weigh` over every entry. -/
def sum (entries : StorageMap K V) (weigh : K → V → Nat) : Nat :=
  (entries.entries.map fun entry => weigh entry.1 entry.2).sum

/-- The number of entries. -/
def size (entries : StorageMap K V) : Nat := entries.sum fun _ _ => 1

@[simp] theorem size_empty : size (∅ : StorageMap K V) = 0 := rfl

/-- Weights of at most one add up to at most the number of entries. -/
theorem sum_le_size {entries : StorageMap K V} {weigh : K → V → Nat} (light : ∀ key value, weigh key value ≤ 1) :
    entries.sum weigh ≤ entries.size := by
  unfold size sum
  induction entries.entries with
  | nil => exact Nat.le_refl _
  | cons row rest ih =>
    rw [List.map_cons, List.map_cons, List.sum_cons, List.sum_cons]
    exact Nat.add_le_add (light row.1 row.2) ih

variable [DecidableEq K]

theorem lookup_insert_ite (entries : StorageMap K V) (key probe : K) (value : V) :
    (entries.insert key value).lookup probe = if probe = key then some value else entries.lookup probe := by
  by_cases same : probe = key
  · subst same
    simp
  · simp [same, AList.lookup_insert_ne same]

theorem lookup_erase_ite (entries : StorageMap K V) (key probe : K) :
    (entries.erase key).lookup probe = if probe = key then none else entries.lookup probe := by
  by_cases same : probe = key
  · subst same
    simp
  · simp [same, AList.lookup_erase_ne same]

/-- A write keeps every key and adds its own. -/
theorem isSome_lookup_insert (entries : StorageMap K V) (key probe : K) (value : V) :
    ((entries.insert key value).lookup probe).isSome ↔ probe = key ∨ (entries.lookup probe).isSome := by
  rw [lookup_insert_ite]
  split <;> simp_all

theorem isSome_lookup_erase (entries : StorageMap K V) (key probe : K) :
    ((entries.erase key).lookup probe).isSome ↔ probe ≠ key ∧ (entries.lookup probe).isSome := by
  rw [lookup_erase_ite]
  split <;> simp_all

theorem mem_keys_iff_lookup (entries : StorageMap K V) (key : K) :
    key ∈ entries.keys ↔ ∃ value, entries.lookup key = some value := by
  rw [← AList.mem_keys, ← AList.lookup_isSome, Option.isSome_iff_exists]

/-- Every value replaced in place by what is computed from it. -/
def mapValues (entries : StorageMap K V) (convert : V → V) : StorageMap K V where
  entries := entries.entries.map fun entry => ⟨entry.1, convert entry.2⟩
  nodupKeys := by
    have keys : (entries.entries.map fun entry => (⟨entry.1, convert entry.2⟩ : Σ _ : K, V)).keys =
        entries.entries.keys := by
      simp [List.keys, List.map_map, Function.comp_def]
    rw [List.NodupKeys, keys]
    exact entries.nodupKeys

theorem lookup_mapValues (entries : StorageMap K V) (convert : V → V) (key : K) :
    (entries.mapValues convert).lookup key = (entries.lookup key).map convert :=
  @List.dlookup_map₂ K _ (fun _ => V) (fun _ => V) entries.entries (fun _ => convert) key

omit [DecidableEq K] in
theorem keys_mapValues (entries : StorageMap K V) (convert : V → V) : (entries.mapValues convert).keys = entries.keys := by
  simp [mapValues, AList.keys, List.keys, List.map_map, Function.comp_def]

/-- Only the weights of held entries count. -/
theorem sum_congr {entries : StorageMap K V} {weigh weighed : K → V → Nat}
    (agree : ∀ key value, entries.lookup key = some value → weigh key value = weighed key value) :
    entries.sum weigh = entries.sum weighed := by
  unfold sum
  congr 1
  apply List.map_congr_left
  intro entry member
  exact agree entry.1 entry.2 (AList.mem_lookup_iff.mpr member)

private theorem sum_kerase (weigh : K → V → Nat) (key : K) (rows : List (Σ _ : K, V)) :
    ((rows.kerase key).map fun entry => weigh entry.1 entry.2).sum +
        ((rows.dlookup key).elim 0 (weigh key)) =
      (rows.map fun entry => weigh entry.1 entry.2).sum := by
  induction rows with
  | nil => rfl
  | cons row rest ih =>
    by_cases same : key = row.1
    · obtain ⟨rowKey, value⟩ := row
      subst same
      simp [Nat.add_comm]
    · rw [List.kerase_cons_ne same, List.dlookup_cons_ne _ _ same]
      simp only [List.map_cons, List.sum_cons]
      omega

/-- Removing a key takes away exactly what its entry weighed. -/
theorem sum_erase (entries : StorageMap K V) (weigh : K → V → Nat) (key : K) :
    sum (entries.erase key) weigh + (entries.lookup key).elim 0 (weigh key) = entries.sum weigh :=
  sum_kerase weigh key entries.entries

/-- Writing a key adds the new entry's weight and drops the one it replaces. -/
theorem sum_insert (entries : StorageMap K V) (weigh : K → V → Nat) (key : K) (value : V) :
    sum (entries.insert key value) weigh + (entries.lookup key).elim 0 (weigh key) =
      entries.sum weigh + weigh key value := by
  have erased := sum_kerase weigh key entries.entries
  simp only [sum, AList.entries_insert, List.map_cons, List.sum_cons, AList.lookup] at erased ⊢
  omega

/-- One entry never weighs more than all of them. -/
theorem weight_le_sum {entries : StorageMap K V} (weigh : K → V → Nat) {key : K} {value : V}
    (held : entries.lookup key = some value) : weigh key value ≤ entries.sum weigh := by
  have erased := sum_erase entries weigh key
  rw [held] at erased
  simp only [Option.elim_some] at erased
  omega

theorem size_insert_new {entries : StorageMap K V} {key : K} (absent : entries.lookup key = none)
    (value : V) : size (entries.insert key value) = entries.size + 1 := by
  have written := sum_insert entries (fun _ _ => 1) key value
  rw [absent] at written
  simpa [size] using written

theorem size_insert_held {entries : StorageMap K V} {key : K} {old : V}
    (held : entries.lookup key = some old) (value : V) :
    size (entries.insert key value) = entries.size := by
  have written := sum_insert entries (fun _ _ => 1) key value
  rw [held] at written
  simpa [size] using written

theorem size_le_size_insert (entries : StorageMap K V) (key : K) (value : V) :
    entries.size ≤ size (entries.insert key value) := by
  cases found : entries.lookup key with
  | none => exact (size_insert_new found value).symm ▸ Nat.le_succ _
  | some old => exact (size_insert_held found value).symm ▸ Nat.le_refl _

theorem size_eq_zero_iff (entries : StorageMap K V) :
    entries.size = 0 ↔ ∀ key, entries.lookup key = none := by
  constructor
  · intro empty key
    cases found : entries.lookup key with
    | none => rfl
    | some value =>
      have bound := weight_le_sum (fun _ _ => 1) found
      simp only [size] at empty
      omega
  · intro absent
    have keyless : entries.keys = [] := by
      apply List.eq_nil_iff_forall_not_mem.mpr
      intro key member
      obtain ⟨value, found⟩ := (mem_keys_iff_lookup entries key).mp member
      rw [absent key] at found
      cases found
    have rowless : entries.entries = [] := List.map_eq_nil_iff.mp keyless
    simp [size, sum, rowless]

end StorageMap

/-- A map under two keys; the entries of one first key form a `StorageMap`. -/
def StorageDoubleMap (K₁ K₂ V : Type) := K₁ → StorageMap K₂ V

namespace StorageDoubleMap
variable {K₁ K₂ V : Type}

instance : EmptyCollection (StorageDoubleMap K₁ K₂ V) := ⟨fun _ => ∅⟩

variable [DecidableEq K₂]

def get (rows : StorageDoubleMap K₁ K₂ V) (first : K₁) (second : K₂) : Option V :=
  (rows first).lookup second

@[simp] theorem get_empty (first : K₁) (second : K₂) :
    (∅ : StorageDoubleMap K₁ K₂ V).get first second = none := rfl

variable [DecidableEq K₁]

def insert (rows : StorageDoubleMap K₁ K₂ V) (first : K₁) (second : K₂) (value : V) :
    StorageDoubleMap K₁ K₂ V :=
  fun probe => if probe = first then (rows first).insert second value else rows probe

def remove (rows : StorageDoubleMap K₁ K₂ V) (first : K₁) (second : K₂) : StorageDoubleMap K₁ K₂ V :=
  fun probe => if probe = first then (rows first).erase second else rows probe

theorem insert_apply (rows : StorageDoubleMap K₁ K₂ V) (first probe : K₁) (second : K₂) (value : V) :
    rows.insert first second value probe =
      if probe = first then (rows first).insert second value else rows probe := rfl

theorem remove_apply (rows : StorageDoubleMap K₁ K₂ V) (first probe : K₁) (second : K₂) :
    rows.remove first second probe = if probe = first then (rows first).erase second else rows probe := rfl

theorem get_insert (rows : StorageDoubleMap K₁ K₂ V) (first probe : K₁) (second inner : K₂) (value : V) :
    (rows.insert first second value).get probe inner =
      if probe = first ∧ inner = second then some value else rows.get probe inner := by
  simp only [get, insert_apply]
  by_cases same : probe = first
  · subst same
    simp [StorageMap.lookup_insert_ite]
  · simp [same]

theorem get_remove (rows : StorageDoubleMap K₁ K₂ V) (first probe : K₁) (second inner : K₂) :
    (rows.remove first second).get probe inner =
      if probe = first ∧ inner = second then none else rows.get probe inner := by
  simp only [get, remove_apply]
  by_cases same : probe = first
  · subst same
    simp [StorageMap.lookup_erase_ite]
  · simp [same]

end StorageDoubleMap
end QuipValidator
