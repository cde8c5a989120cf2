import Mathlib.Data.List.Induction

/-! Runs of a deterministic machine that reports what each input made it do.
`run` is the state after a sequence of inputs and `trace` the reports in the
order they were made. The rules prove a relation between the state and the
reports so far, for every sequence of inputs, from one step. -/
namespace QuipValidator

/-- A deterministic step function with the reports of each step. -/
structure Machine (σ ι ω : Type) where
  next : σ → ι → σ
  report : σ → ι → List ω

namespace Machine
variable {σ ι ω : Type} (machine : Machine σ ι ω)

/-- The state after all inputs. -/
def run (start : σ) (inputs : List ι) : σ := inputs.foldl machine.next start

/-- Every report, oldest first. -/
def trace (start : σ) : List ι → List ω
  | [] => []
  | input :: rest => machine.report start input ++ trace (machine.next start input) rest

theorem run_append (start : σ) (earlier later : List ι) :
    machine.run start (earlier ++ later) = machine.run (machine.run start earlier) later := by
  simp [run, List.foldl_append]

theorem run_concat (start : σ) (inputs : List ι) (input : ι) :
    machine.run start (inputs ++ [input]) = machine.next (machine.run start inputs) input := by
  simp [run, List.foldl_append]

theorem trace_append (start : σ) (earlier later : List ι) :
    machine.trace start (earlier ++ later) =
      machine.trace start earlier ++ machine.trace (machine.run start earlier) later := by
  induction earlier generalizing start with
  | nil => rfl
  | cons input rest ih =>
    simp only [List.cons_append, trace, ih, List.append_assoc]
    rfl

theorem trace_concat (start : σ) (inputs : List ι) (input : ι) :
    machine.trace start (inputs ++ [input]) =
      machine.trace start inputs ++ machine.report (machine.run start inputs) input := by
  simp [trace_append, trace]

/-- Every report was made by some input, in the state the earlier ones reached. -/
theorem mem_trace {start : σ} {inputs : List ι} {seen : ω} (member : seen ∈ machine.trace start inputs) :
    ∃ earlier input later, inputs = earlier ++ input :: later ∧
      seen ∈ machine.report (machine.run start earlier) input := by
  induction inputs generalizing start with
  | nil => cases member
  | cons input rest ih =>
    rcases List.mem_append.mp member with here | there
    · exact ⟨[], input, rest, rfl, here⟩
    · obtain ⟨earlier, later, after, split, reported⟩ := ih there
      exact ⟨input :: earlier, later, after, by rw [split]; rfl, reported⟩

/-- A guard that, read backwards, no step can restore: if it holds after a
run it held throughout. -/
theorem guard_backwards {guard : σ → Prop}
    (backwards : ∀ state input, guard (machine.next state input) → guard state)
    {start : σ} {inputs : List ι} (held : guard (machine.run start inputs)) : guard start := by
  induction inputs generalizing start with
  | nil => exact held
  | cons input rest ih => exact backwards start input (ih held)

/-- The run rule. A relation between the state and all earlier reports holds
after every run whose last state satisfies the guard, when it holds at the
start and each step whose result satisfies the guard keeps it. -/
theorem run_relation {guard : σ → Prop} {relates : List ω → σ → Prop} {start : σ}
    (backwards : ∀ state input, guard (machine.next state input) → guard state)
    (initially : relates [] start)
    (step : ∀ state reports input, relates reports state → guard (machine.next state input) →
      relates (reports ++ machine.report state input) (machine.next state input))
    (inputs : List ι) (held : guard (machine.run start inputs)) :
    relates (machine.trace start inputs) (machine.run start inputs) := by
  induction inputs using List.reverseRecOn with
  | nil => exact initially
  | append_singleton inputs input ih =>
    rw [run_concat] at held ⊢
    rw [trace_concat]
    exact step _ _ _ (ih (backwards _ _ held)) held

/-- The run rule without a guard. -/
theorem run_follows (relates : List ω → σ → Prop) {start : σ} (initially : relates [] start)
    (step : ∀ state reports input, relates reports state →
      relates (reports ++ machine.report state input) (machine.next state input))
    (inputs : List ι) : relates (machine.trace start inputs) (machine.run start inputs) :=
  @run_relation σ ι ω machine (fun _ => True) relates start (fun _ _ _ => trivial) initially
    (fun state reports input held _ => step state reports input held) inputs trivial

/-- Where an item stands in a list with a last one: it is the last, or before it. -/
theorem concat_split {α : Type} {items earlier later : List α} {last item : α}
    (split : items ++ [last] = earlier ++ item :: later) :
    (later = [] ∧ item = last ∧ earlier = items) ∨ ∃ rest, later = rest ++ [last] ∧ items = earlier ++ item :: rest := by
  rcases List.eq_nil_or_concat later with rfl | ⟨rest, final, rfl⟩
  · obtain ⟨same, final⟩ := List.append_inj' split rfl
    exact .inl ⟨rfl, (List.cons.inj final).1.symm, same.symm⟩
  · rw [List.concat_eq_append] at split ⊢
    rw [← List.cons_append, ← List.append_assoc] at split
    obtain ⟨before, final⟩ := List.append_inj' split rfl
    exact .inr ⟨rest, by rw [(List.cons.inj final).1], before⟩

/-- Every input of the run was allowed in the state it met. -/
def Allows (allowed : σ → ι → Prop) (start : σ) (inputs : List ι) : Prop :=
  ∀ earlier input later, inputs = earlier ++ input :: later → allowed (machine.run start earlier) input

theorem allows_nil (allowed : σ → ι → Prop) (start : σ) : machine.Allows allowed start [] := by
  intro earlier input later split
  cases earlier <;> cases split

theorem allows_cons {allowed : σ → ι → Prop} {start : σ} {input : ι} {rest : List ι} (first : allowed start input)
    (later : machine.Allows allowed (machine.next start input) rest) :
    machine.Allows allowed start (input :: rest) := by
  intro earlier other after split
  cases earlier with
  | nil =>
    cases split
    exact first
  | cons head tail =>
    cases split
    exact later tail other after rfl

/-- The run rule for runs whose inputs are all allowed where they come. -/
theorem run_allowed {allowed : σ → ι → Prop} (relates : List ω → σ → Prop) {start : σ} (initially : relates [] start)
    (step : ∀ state reports input, relates reports state → allowed state input →
      relates (reports ++ machine.report state input) (machine.next state input))
    (inputs : List ι) (allows : machine.Allows allowed start inputs) :
    relates (machine.trace start inputs) (machine.run start inputs) := by
  induction inputs using List.reverseRecOn with
  | nil => exact initially
  | append_singleton inputs input ih =>
    have before : machine.Allows allowed start inputs := by
      intro earlier other later split
      exact allows earlier other (later ++ [input]) (by rw [split, List.append_assoc, List.cons_append])
    rw [run_concat, trace_concat]
    exact step _ _ _ (ih before) (allows inputs input [] rfl)

private theorem getLastD_filterMap_concat (time : ι → Option Nat) (inputs : List ι) (input : ι) :
    ((inputs ++ [input]).filterMap time).getLastD 0 = (time input).getD ((inputs.filterMap time).getLastD 0) := by
  rw [List.filterMap_append]
  cases ticks : time input <;> simp [ticks]

/-- The run rule for inputs some of which carry a clock value. Where the clock never
goes back, a relation between the state, the earlier reports and the last clock value
holds after every run, when one step at a clock value no earlier than the last keeps it. -/
theorem run_timed (time : ι → Option Nat) (relates : List ω → Nat → σ → Prop) {start : σ}
    (initially : relates [] 0 start)
    (step : ∀ state reports last input, relates reports last state → (∀ now, time input = some now → last ≤ now) →
      relates (reports ++ machine.report state input) ((time input).getD last) (machine.next state input))
    (inputs : List ι) (ordered : (inputs.filterMap time).Pairwise (· ≤ ·)) :
    relates (machine.trace start inputs) ((inputs.filterMap time).getLastD 0) (machine.run start inputs) := by
  induction inputs using List.reverseRecOn with
  | nil => exact initially
  | append_singleton inputs input ih =>
    rw [List.filterMap_append, List.pairwise_append] at ordered
    obtain ⟨before, _, across⟩ := ordered
    rw [run_concat, trace_concat, getLastD_filterMap_concat]
    apply step _ _ _ _ (ih before)
    intro now ticks
    cases listed : (inputs.filterMap time).getLast? with
    | none => simp [List.getLastD_eq_getLast?, listed]
    | some last =>
      rw [List.getLastD_eq_getLast?, listed]
      exact across last (List.mem_of_getLast? listed) now (by simp [ticks])

end Machine
end QuipValidator
