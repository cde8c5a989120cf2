import Mathlib.Algebra.Order.Ring.Int
import Mathlib.Data.Option.Basic

/-! Fallible computations as a Rust dispatch runs them. A computation stops
with a returned error or with a panic, and the two are kept apart: a caller can
map or match a returned error, never a panic. The lemmas invert a successful
run one bind at a time, and `Safe` is the postcondition judgment that also rules
panics out. -/
namespace QuipValidator

/-- Why a computation stopped: an `Err` it returned, or a panic. -/
inductive Fault (ε : Type) where
  | error (reason : ε)
  | panic (message : String)
  deriving DecidableEq, Repr

abbrev Fallible (ε α : Type) := Except (Fault ε) α

namespace Fallible
variable {ε δ α β σ : Type}

/-- `return Err(reason)`. -/
def fail (reason : ε) : Fallible ε α := .error (.error reason)

/-- `ensure!(condition, reason)`. -/
def ensure (condition : Prop) [Decidable condition] (reason : ε) : Fallible ε Unit :=
  if condition then .ok () else fail reason

/-- `option.ok_or(reason)?`. -/
def okOr (value : Option α) (reason : ε) : Fallible ε α :=
  match value with
  | some held => .ok held
  | none => fail reason

/-- `option.expect(message)`. -/
def expect (value : Option α) (message : String) : Fallible ε α :=
  match value with
  | some held => .ok held
  | none => .error (.panic message)

/-- `assert!(condition, message)`, also the bounds check of an index or a slice. -/
def asserts (condition : Prop) [Decidable condition] (message : String) : Fallible ε Unit :=
  if condition then .ok () else .error (.panic message)

/-- `result.map_err(convert)?`; a panic is not an error value and passes through. -/
def mapErr (convert : ε → δ) : Fallible ε α → Fallible δ α
  | .ok value => .ok value
  | .error (.error reason) => fail (convert reason)
  | .error (.panic message) => .error (.panic message)

theorem bind_success {action : Fallible ε α} {next : α → Fallible ε β} {result : β} :
    (action >>= next) = .ok result ↔ ∃ value, action = .ok value ∧ next value = .ok result := by
  cases action with
  | error fault =>
    constructor
    · intro ran
      cases ran
    · rintro ⟨_, impossible, _⟩
      cases impossible
  | ok value =>
    constructor
    · intro ran
      exact ⟨value, rfl, ran⟩
    · rintro ⟨_, same, ran⟩
      cases same
      exact ran

theorem ok_bind (value : α) (next : α → Fallible ε β) : ((.ok value : Fallible ε α) >>= next) = next value := rfl

@[simp] theorem ensure_success {condition : Prop} [Decidable condition] {reason : ε} {result : Unit} :
    ensure condition reason = .ok result ↔ condition := by
  by_cases holds : condition <;> simp [ensure, fail, holds]

@[simp] theorem okOr_success {value : Option α} {reason : ε} {result : α} :
    okOr value reason = .ok result ↔ value = some result := by
  cases value <;> simp [okOr, fail]

@[simp] theorem expect_success {value : Option α} {message : String} {result : α} :
    (expect value message : Fallible ε α) = .ok result ↔ value = some result := by
  cases value <;> simp [expect]

@[simp] theorem asserts_success {condition : Prop} [Decidable condition] {message : String} {result : Unit} :
    (asserts condition message : Fallible ε Unit) = .ok result ↔ condition := by
  by_cases holds : condition <;> simp [asserts, holds]

@[simp] theorem mapErr_success {convert : ε → δ} {action : Fallible ε α} {result : α} :
    mapErr convert action = .ok result ↔ action = .ok result := by
  rcases action with (reason | message) | value <;> simp [mapErr, fail]

/-- A loop that ran through: one result for each item, and each from an item. -/
theorem mapM_success {action : α → Fallible ε β} {items : List α} {results : List β}
    (ran : items.mapM action = .ok results) :
    results.length = items.length ∧ (∀ item ∈ items, ∃ result, action item = .ok result) ∧
      ∀ result ∈ results, ∃ item ∈ items, action item = .ok result := by
  induction items generalizing results with
  | nil =>
    cases ran
    exact ⟨rfl, by simp, by simp⟩
  | cons first rest ih =>
    rw [List.mapM_cons] at ran
    simp only [bind_success] at ran
    obtain ⟨head, started, tail, continued, same⟩ := ran
    cases same
    obtain ⟨length, forward, backward⟩ := ih continued
    refine ⟨by rw [List.length_cons, List.length_cons, length], ?_, ?_⟩
    · intro item member
      rcases List.mem_cons.mp member with rfl | later
      · exact ⟨head, started⟩
      · exact forward item later
    · intro result member
      rcases List.mem_cons.mp member with rfl | later
      · exact ⟨first, List.mem_cons_self, started⟩
      · obtain ⟨item, listed, gave⟩ := backward result later
        exact ⟨item, List.mem_cons_of_mem _ listed, gave⟩

/-- A loop of checks passes when each of them does. -/
theorem forM_success {check : α → Fallible ε PUnit} {items : List α} :
    items.forM check = .ok () ↔ ∀ item ∈ items, check item = .ok () := by
  induction items with
  | nil => simp [pure, Except.pure]
  | cons first rest ih =>
    rw [List.forM, bind_success, List.forall_mem_cons]
    constructor
    · rintro ⟨_, passed, later⟩
      exact ⟨passed, ih.mp later⟩
    · rintro ⟨passed, later⟩
      exact ⟨(), passed, ih.mpr later⟩

/-- The action never panics, and what it returns satisfies `post`. An error it
returns is a normal outcome. -/
def Safe (action : Fallible ε α) (post : α → Prop) : Prop :=
  match action with
  | .ok value => post value
  | .error (.error _) => True
  | .error (.panic _) => False

theorem Safe.result {action : Fallible ε α} {post : α → Prop} {value : α} (safe : Safe action post)
    (ran : action = .ok value) : post value := by
  subst ran
  exact safe

theorem Safe.no_panic {action : Fallible ε α} {post : α → Prop} (safe : Safe action post) (message : String) :
    action ≠ .error (.panic message) := by
  intro ran
  subst ran
  exact safe

theorem Safe.of_no_panic {action : Fallible ε α} (calm : ∀ message, action ≠ .error (.panic message)) :
    Safe action fun value => action = .ok value := by
  rcases action with (reason | message) | value
  · trivial
  · exact absurd rfl (calm message)
  · exact rfl

/-- A safe action is safe with its own result as the postcondition. -/
theorem Safe.exact {action : Fallible ε α} {post : α → Prop} (safe : Safe action post) :
    Safe action fun value => action = .ok value := Safe.of_no_panic safe.no_panic

theorem Safe.mono {action : Fallible ε α} {strong weak : α → Prop} (safe : Safe action strong)
    (weaker : ∀ value, strong value → weak value) : Safe action weak := by
  rcases action with (reason | message) | value
  · trivial
  · exact safe
  · exact weaker value safe

theorem safe_pure {post : α → Prop} {value : α} (held : post value) :
    Safe (pure value : Fallible ε α) post := held

/-- Sequencing: the second action may rely on what the first one returned. -/
theorem safe_bind {action : Fallible ε α} {next : α → Fallible ε β} {middle : α → Prop} {post : β → Prop}
    (first : Safe action middle) (second : ∀ value, middle value → Safe (next value) post) :
    Safe (action >>= next) post := by
  rcases action with (reason | message) | value
  · trivial
  · exact first
  · exact second value first

theorem safe_ensure {condition : Prop} [Decidable condition] {reason : ε} :
    Safe (ensure condition reason) fun _ => condition := by
  by_cases holds : condition
  · simpa [ensure, holds] using (show Safe (.ok () : Fallible ε Unit) fun _ => condition from holds)
  · simp [ensure, holds, fail, Safe]

theorem safe_okOr {value : Option α} {reason : ε} : Safe (okOr value reason) fun held => value = some held := by
  cases value <;> simp [okOr, fail, Safe]

theorem safe_expect {value : Option α} {held : α} {message : String} (found : value = some held) :
    Safe (expect value message : Fallible ε α) (· = held) := by
  subst found
  exact rfl

theorem safe_mapErr {convert : ε → δ} {action : Fallible ε α} {post : α → Prop} (safe : Safe action post) :
    Safe (mapErr convert action) post := by
  rcases action with (reason | message) | value
  · trivial
  · exact safe
  · exact safe

theorem safe_mapM {action : α → Fallible ε β} {items : List α} (each : ∀ item ∈ items, Safe (action item) fun _ => True) :
    Safe (items.mapM action) fun _ => True := by
  induction items with
  | nil => trivial
  | cons first rest ih =>
    rw [List.mapM_cons]
    refine safe_bind (each first List.mem_cons_self) fun _ _ => safe_bind (ih fun item member => ?_) fun _ _ => trivial
    exact each item (List.mem_cons_of_mem _ member)

theorem safe_forM {check : α → Fallible ε PUnit} {items : List α} (each : ∀ item ∈ items, Safe (check item) fun _ => True) :
    Safe (items.forM check) fun _ => True := by
  induction items with
  | nil => trivial
  | cons first rest ih =>
    rw [List.forM]
    exact safe_bind (each first List.mem_cons_self) fun _ _ => ih fun item member => each item (List.mem_cons_of_mem _ member)

theorem safe_foldlM {action : β → α → Fallible ε β} {items : List α} {start : β}
    (each : ∀ held, ∀ item ∈ items, Safe (action held item) fun _ => True) :
    Safe (items.foldlM action start) fun _ => True := by
  induction items generalizing start with
  | nil => trivial
  | cons first rest ih =>
    rw [List.foldlM_cons]
    exact safe_bind (each start first List.mem_cons_self) fun held _ =>
      ih fun held item member => each held item (List.mem_cons_of_mem _ member)

/-- The action never returns this error. -/
def Avoids (reason : ε) (action : Fallible ε α) : Prop := action ≠ .error (.error reason)

theorem avoids_pure {reason : ε} (value : α) : Avoids reason (pure value : Fallible ε α) := nofun

theorem avoids_bind {reason : ε} {action : Fallible ε α} {next : α → Fallible ε β} (first : Avoids reason action)
    (second : ∀ value, action = .ok value → Avoids reason (next value)) : Avoids reason (action >>= next) := by
  rcases action with fault | value
  · intro returned
    have same : fault = .error reason := Except.error.inj returned
    exact first (congrArg Except.error same)
  · exact second value rfl

theorem avoids_ensure {reason other : ε} {condition : Prop} [Decidable condition]
    (safe : condition ∨ other ≠ reason) : Avoids reason (ensure condition other) := by
  intro returned
  by_cases holds : condition
  · simp [ensure, holds] at returned
  · simp only [ensure, holds, if_false, fail] at returned
    cases returned
    exact safe.elim holds fun different => different rfl

theorem avoids_okOr {reason other : ε} {value : Option α} (safe : value ≠ none ∨ other ≠ reason) :
    Avoids reason (okOr value other) := by
  intro returned
  cases value with
  | some held => simp [okOr] at returned
  | none =>
    simp only [okOr, fail] at returned
    cases returned
    exact safe.elim (fun present => present rfl) fun different => different rfl

theorem avoids_expect {reason : ε} {value : Option α} {message : String} :
    Avoids reason (expect value message : Fallible ε α) := by
  cases value <;> nofun

theorem avoids_mapErr {convert : ε → δ} {reason : δ} {action : Fallible ε α} (other : ∀ cause, convert cause ≠ reason) :
    Avoids reason (mapErr convert action) := by
  intro returned
  rcases action with (cause | message) | value
  · simp only [mapErr, fail] at returned
    cases returned
    exact other cause rfl
  · cases returned
  · cases returned

theorem avoids_mapM {reason : ε} {action : α → Fallible ε β} (items : List α)
    (each : ∀ item, Avoids reason (action item)) : Avoids reason (items.mapM action) := by
  induction items with
  | nil => exact avoids_pure _
  | cons item rest ih =>
    rw [List.mapM_cons]
    exact avoids_bind (each item) fun _ _ => avoids_bind ih fun _ _ => avoids_pure _

/-- `#[transactional]`: an error takes back every write the body made. -/
def transactional (body : σ → Except ε α × σ) (state : σ) : Except ε α × σ :=
  match body state with
  | (.ok value, after) => (.ok value, after)
  | (.error reason, _) => (.error reason, state)

/-- A call that fails leaves the state as it was. -/
theorem transactional_error {body : σ → Except ε α × σ} {state after : σ} {reason : ε}
    (failed : transactional body state = (.error reason, after)) : after = state := by
  unfold transactional at failed
  split at failed
  · cases failed
  · cases failed
    rfl

end Fallible

/-- `a.saturating_add(b)` for an unsigned type whose largest value is `cap`. -/
def saturatingAdd (cap a b : Nat) : Nat := min (a + b) cap

/-- `a.saturating_mul(b)` for an unsigned type whose largest value is `cap`. -/
def saturatingMul (cap a b : Nat) : Nat := min (a * b) cap

def u32Max : Nat := 2 ^ 32 - 1
def u64Max : Nat := 2 ^ 64 - 1
def u128Max : Nat := 2 ^ 128 - 1

/-- The largest `i64`. -/
def i64Max : Int := 2 ^ 63 - 1
/-- The smallest `i64`. -/
def i64Min : Int := -2 ^ 63

/-- `value as u32` for a length or counter. -/
def asU32 (value : Nat) : Nat := value % 2 ^ 32

theorem saturatingAdd_of_le {cap a b : Nat} (fits : a + b ≤ cap) : saturatingAdd cap a b = a + b :=
  Nat.min_eq_left fits

theorem saturatingMul_of_le {cap a b : Nat} (fits : a * b ≤ cap) : saturatingMul cap a b = a * b :=
  Nat.min_eq_left fits

/-- A total that fits is added up without saturating. -/
theorem foldl_saturatingAdd {cap start : Nat} (amounts : List Nat) (fits : start + amounts.sum ≤ cap) :
    amounts.foldl (saturatingAdd cap) start = start + amounts.sum := by
  induction amounts generalizing start with
  | nil => rfl
  | cons amount rest ih =>
    rw [List.sum_cons] at fits
    have head : start + amount ≤ cap := by omega
    have tail : start + amount + rest.sum ≤ cap := by omega
    rw [List.foldl_cons, saturatingAdd_of_le head, ih tail, List.sum_cons, Nat.add_assoc]

theorem asU32_of_lt {value : Nat} (fits : value < 2 ^ 32) : asU32 value = value :=
  Nat.mod_eq_of_lt fits

end QuipValidator
