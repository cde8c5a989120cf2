import QuipValidator.Fallible

/-! `CouncilRootCalls`, the filter on the calls the Foundation may dispatch as root.
It walks a call and the calls wrapped in it with a depth and a budget of calls. What
it decides is said on the preorder of the call tree: the first node that is too deep,
beyond the budget or denied, in this order, gives the error. -/
namespace QuipValidator.RootCalls
open Fallible

inductive VestingCall where
  | forceVestedTransfer
  | forceRemoveVestingSchedule
  | other (index : Nat)
  deriving DecidableEq

inductive StakingCall where
  | manualSlash
  | other (index : Nat)
  deriving DecidableEq

inductive SystemCall where
  | setStorage
  | killStorage
  | killPrefix
  | other (index : Nat)
  deriving DecidableEq

inductive ProxyCall where
  | proxy
  | proxyAnnounced
  deriving DecidableEq

inductive MultisigCall where
  | asMulti
  | asMultiThreshold1
  deriving DecidableEq

inductive ReviveCall where
  | ethSubstrateCall
  | dispatchAsFallbackAccount
  deriving DecidableEq

inductive FoundationCall where
  | execute
  | propose
  deriving DecidableEq

inductive BatchCall where
  | batch
  | batchAll
  | forceBatch
  deriving DecidableEq

inductive UtilityCall where
  | asDerivative
  | dispatchAs
  | dispatchAsFallible
  | withWeight
  deriving DecidableEq

/-- `RuntimeCall`, as far as the filter looks at it. `other` is any call it does not name. -/
inductive RuntimeCall where
  | vesting (call : VestingCall)
  | staking (call : StakingCall)
  | system (call : SystemCall)
  | proxy (form : ProxyCall) (call : RuntimeCall)
  | multisig (form : MultisigCall) (call : RuntimeCall)
  | dispatchAsRoot (call : RuntimeCall)
  | revive (form : ReviveCall) (call : RuntimeCall)
  | foundation (form : FoundationCall) (proposal : RuntimeCall)
  | batch (form : BatchCall) (calls : List RuntimeCall)
  | utility (form : UtilityCall) (call : RuntimeCall)
  | ifElse (main fallback : RuntimeCall)
  | utilityOther (index : Nat)
  | other (index : Nat)

/-- `RootCallError`. -/
inductive RootCallError where
  | denied
  | depthLimit
  | callLimit
  deriving DecidableEq

mutual

/-- `allowed`, with what is left of the budget. -/
def allowed : RuntimeCall → Nat → Nat → Except RootCallError Nat
  | call, depth, remaining =>
    if 8 < depth then .error .depthLimit
    else if remaining = 0 then .error .callLimit
    else
      let remaining := remaining - 1
      match call with
      | .vesting .forceVestedTransfer | .vesting .forceRemoveVestingSchedule | .staking .manualSlash
      | .system .setStorage | .system .killStorage | .system .killPrefix => .error .denied
      | .proxy _ call => allowed call (saturatingAdd 255 depth 1) remaining
      | .multisig _ call => allowed call (saturatingAdd 255 depth 1) remaining
      | .dispatchAsRoot call => allowed call (saturatingAdd 255 depth 1) remaining
      | .revive _ call => allowed call (saturatingAdd 255 depth 1) remaining
      | .foundation _ proposal => allowed proposal (saturatingAdd 255 depth 1) remaining
      | .batch _ calls => allowedEach calls (saturatingAdd 255 depth 1) remaining
      | .utility _ call => allowed call (saturatingAdd 255 depth 1) remaining
      | .ifElse main fallback => do
        let remaining ← allowed main (saturatingAdd 255 depth 1) remaining
        allowed fallback (saturatingAdd 255 depth 1) remaining
      | .utilityOther _ => .error .denied
      | .vesting (.other _) | .staking (.other _) | .system (.other _) | .other _ => .ok remaining

/-- The loop over the calls of a batch. -/
def allowedEach : List RuntimeCall → Nat → Nat → Except RootCallError Nat
  | [], _, remaining => .ok remaining
  | inner :: rest, depth, remaining => do
    let remaining ← allowed inner depth remaining
    allowedEach rest depth remaining

end

/-- `CouncilRootCalls::check`. -/
def check (call : RuntimeCall) : Except RootCallError Unit := (allowed call 0 256).map fun _ => ()

/-- The errors of `dispatch_as_root`. -/
inductive AdmissionError where
  | badOrigin
  | rootCallDenied
  | rootCallTooDeep
  | rootCallTooLarge
  deriving DecidableEq

/-- `dispatch_as_root` of the validator admission: the result of the dispatch, if it comes to one. -/
def dispatchAsRoot (foundation : Bool) (dispatchBypassFilter : RuntimeCall → Except Nat Unit) (call : RuntimeCall) :
    Except AdmissionError (Except Nat Unit) :=
  if !foundation then .error .badOrigin
  else
    match check call with
    | .error .denied => .error .rootCallDenied
    | .error .depthLimit => .error .rootCallTooDeep
    | .error .callLimit => .error .rootCallTooLarge
    | .ok () => .ok (dispatchBypassFilter call)

namespace RuntimeCall

/-- A call that no root dispatch may contain. -/
def denied : RuntimeCall → Bool
  | vesting .forceVestedTransfer | vesting .forceRemoveVestingSchedule | staking .manualSlash
  | system .setStorage | system .killStorage | system .killPrefix | utilityOther _ => true
  | _ => false

/-- The calls wrapped in a call. -/
def children : RuntimeCall → List RuntimeCall
  | proxy _ call => [call]
  | multisig _ call => [call]
  | dispatchAsRoot call => [call]
  | revive _ call => [call]
  | foundation _ proposal => [proposal]
  | batch _ calls => calls
  | utility _ call => [call]
  | ifElse main fallback => [main, fallback]
  | _ => []

/-- Induction over call trees. -/
theorem tree_induction {motive : RuntimeCall → Prop}
    (step : ∀ call, (∀ child ∈ call.children, motive child) → motive call) (call : RuntimeCall) : motive call := by
  have leaf : ∀ call : RuntimeCall, call.children = [] → motive call := by
    intro call bare
    apply step
    simp [bare]
  have single : ∀ call child : RuntimeCall, call.children = [child] → motive child → motive call := by
    intro call child wraps held
    apply step
    simpa [wraps] using held
  refine @RuntimeCall.rec motive (fun calls => ∀ call ∈ calls, motive call) ?_ ?_ ?_ ?_ ?_ ?_ ?_ ?_ ?_ ?_ ?_ ?_ ?_ ?_ ?_ call
  · exact fun _ => leaf _ rfl
  · exact fun _ => leaf _ rfl
  · exact fun _ => leaf _ rfl
  · exact fun _ inner => single _ inner rfl
  · exact fun _ inner => single _ inner rfl
  · exact fun inner => single _ inner rfl
  · exact fun _ inner => single _ inner rfl
  · exact fun _ inner => single _ inner rfl
  · exact fun _ calls held => step _ held
  · exact fun _ inner => single _ inner rfl
  · intro main fallback first second
    apply step
    simp [children, first, second]
  · exact fun _ => leaf _ rfl
  · exact fun _ => leaf _ rfl
  · intro call member
    cases member
  · intro head rest held later inner member
    rcases List.mem_cons.mp member with rfl | among
    · exact held
    · exact later inner among

end RuntimeCall

/-- One call: the limits, then the denial, then every wrapped call in order. -/
theorem allowed_eq (call : RuntimeCall) (depth remaining : Nat) :
    allowed call depth remaining =
      if 8 < depth then .error .depthLimit
      else if remaining = 0 then .error .callLimit
      else if call.denied then .error .denied
      else allowedEach call.children (saturatingAdd 255 depth 1) (remaining - 1) := by
  have single : ∀ (inner : RuntimeCall) (depth remaining : Nat),
      allowed inner depth remaining = allowedEach [inner] depth remaining := by
    intro inner depth remaining
    rw [allowedEach]
    cases allowed inner depth remaining <;> rfl
  unfold allowed
  split
  · rfl
  · split
    · rfl
    · cases call with
      | vesting call => cases call <;> simp [RuntimeCall.denied, RuntimeCall.children, allowedEach]
      | staking call => cases call <;> simp [RuntimeCall.denied, RuntimeCall.children, allowedEach]
      | system call => cases call <;> simp [RuntimeCall.denied, RuntimeCall.children, allowedEach]
      | proxy form call => exact single call _ _
      | multisig form call => exact single call _ _
      | dispatchAsRoot call => exact single call _ _
      | revive form call => exact single call _ _
      | foundation form proposal => exact single proposal _ _
      | batch form calls => rfl
      | utility form call => exact single call _ _
      | ifElse main fallback =>
        simp only [RuntimeCall.denied, RuntimeCall.children, allowedEach, Bool.false_eq_true, if_false]
        congr 1
        funext remaining
        exact single fallback _ _
      | utilityOther index => rfl
      | other index => rfl

mutual

/-- The nodes of a call tree with their depths, each before those below it. -/
def preorder : RuntimeCall → Nat → List (Nat × RuntimeCall)
  | call, depth => (depth, call) ::
    match call with
    | .proxy _ call => preorder call (depth + 1)
    | .multisig _ call => preorder call (depth + 1)
    | .dispatchAsRoot call => preorder call (depth + 1)
    | .revive _ call => preorder call (depth + 1)
    | .foundation _ proposal => preorder proposal (depth + 1)
    | .batch _ calls => preorderEach calls (depth + 1)
    | .utility _ call => preorder call (depth + 1)
    | .ifElse main fallback => preorder main (depth + 1) ++ preorder fallback (depth + 1)
    | _ => []

def preorderEach : List RuntimeCall → Nat → List (Nat × RuntimeCall)
  | [], _ => []
  | call :: rest, depth => preorder call depth ++ preorderEach rest depth

end

theorem preorder_eq (call : RuntimeCall) (depth : Nat) :
    preorder call depth = (depth, call) :: preorderEach call.children (depth + 1) := by
  cases call <;> simp [preorder, preorderEach, RuntimeCall.children]

/-- The same walk over the listed nodes. -/
def scan : List (Nat × RuntimeCall) → Nat → Except RootCallError Nat
  | [], remaining => .ok remaining
  | (depth, call) :: rest, remaining =>
    if 8 < depth then .error .depthLimit
    else if remaining = 0 then .error .callLimit
    else if call.denied then .error .denied
    else scan rest (remaining - 1)

private theorem scan_append (first second : List (Nat × RuntimeCall)) (remaining : Nat) :
    scan (first ++ second) remaining = (scan first remaining >>= fun left => scan second left) := by
  induction first generalizing remaining with
  | nil => rfl
  | cons node rest ih =>
    rw [List.cons_append, scan, scan]
    split
    · rfl
    · split
      · rfl
      · split
        · rfl
        · exact ih _

/-- The filter walks the tree in preorder and carries its budget across all branches. -/
theorem allowed_scan (call : RuntimeCall) :
    ∀ depth remaining, allowed call depth remaining = scan (preorder call depth) remaining := by
  induction call using RuntimeCall.tree_induction with
  | step call ih =>
    have each : ∀ (calls : List RuntimeCall), (∀ inner ∈ calls, inner ∈ call.children) → ∀ depth remaining,
        allowedEach calls depth remaining = scan (preorderEach calls depth) remaining := by
      intro calls members
      induction calls with
      | nil => exact fun _ _ => rfl
      | cons inner rest later =>
        intro depth remaining
        rw [allowedEach, preorderEach, scan_append, ih inner (members inner List.mem_cons_self)]
        congr 1
        funext left
        exact later (fun other member => members other (List.mem_cons_of_mem _ member)) depth left
    intro depth remaining
    rw [allowed_eq, preorder_eq, scan]
    split
    · rfl
    · rename_i shallow
      rw [saturatingAdd_of_le (by omega), each call.children (fun _ member => member)]

/-- What is wrong with the node at a position of the preorder. -/
def violation (node : Nat × RuntimeCall) (position : Nat) : Option RootCallError :=
  if 8 < node.1 then some .depthLimit
  else if 256 ≤ position then some .callLimit
  else if node.2.denied then some .denied
  else none

/-- The error of the first node that violates something, from a position on. -/
def firstViolation : List (Nat × RuntimeCall) → Nat → Option RootCallError
  | [], _ => none
  | node :: rest, position => (violation node position).or (firstViolation rest (position + 1))

private theorem scan_firstViolation (nodes : List (Nat × RuntimeCall)) (position : Nat) :
    (scan nodes (256 - position)).map (fun _ => ()) = (firstViolation nodes position).elim (.ok ()) .error := by
  induction nodes generalizing position with
  | nil => rfl
  | cons node rest ih =>
    obtain ⟨depth, call⟩ := node
    rw [scan, firstViolation, violation]
    by_cases deep : 8 < depth
    · rw [if_pos deep, if_pos deep]
      rfl
    · by_cases spent : 256 ≤ position
      · rw [if_neg deep, if_pos (by omega), if_neg deep, if_pos spent]
        rfl
      · rw [if_neg deep, if_neg (by omega), if_neg deep, if_neg spent]
        dsimp only
        split
        · rfl
        · rw [Nat.sub_sub, ih (position + 1)]
          rfl

private theorem violation_none {node : Nat × RuntimeCall} {position : Nat} :
    violation node position = none ↔ node.1 ≤ 8 ∧ position < 256 ∧ node.2.denied = false := by
  unfold violation
  split
  · simp_all
  · split
    · simp_all
    · split <;> simp_all

private theorem firstViolation_none (nodes : List (Nat × RuntimeCall)) (position : Nat) (started : position ≤ 256) :
    firstViolation nodes position = none ↔
      (∀ node ∈ nodes, node.2.denied = false ∧ node.1 ≤ 8) ∧ position + nodes.length ≤ 256 := by
  induction nodes generalizing position with
  | nil => simpa [firstViolation] using started
  | cons node rest ih =>
    rw [firstViolation, Option.or_eq_none_iff, violation_none, List.length_cons, List.forall_mem_cons]
    constructor
    · rintro ⟨⟨shallow, early, fine⟩, later⟩
      obtain ⟨each, few⟩ := (ih (position + 1) (by omega)).mp later
      exact ⟨⟨⟨fine, shallow⟩, each⟩, by omega⟩
    · rintro ⟨⟨⟨fine, shallow⟩, each⟩, few⟩
      exact ⟨⟨shallow, by omega, fine⟩, (ih (position + 1) (by omega)).mpr ⟨each, by omega⟩⟩

/-- A call stands at this depth somewhere in another one. -/
inductive Occurs (inner : RuntimeCall) : Nat → RuntimeCall → Prop where
  | here : Occurs inner 0 inner
  | wrapped {call child : RuntimeCall} {depth : Nat} (member : child ∈ call.children) (inside : Occurs inner depth child) :
      Occurs inner (depth + 1) call

private theorem mem_preorderEach {node : Nat × RuntimeCall} {calls : List RuntimeCall} {depth : Nat} :
    node ∈ preorderEach calls depth ↔ ∃ call ∈ calls, node ∈ preorder call depth := by
  induction calls with
  | nil => simp [preorderEach]
  | cons call rest ih => simp [preorderEach, ih]

private theorem depth_le_of_mem_preorder (call : RuntimeCall) :
    ∀ start (node : Nat × RuntimeCall), node ∈ preorder call start → start ≤ node.1 := by
  induction call using RuntimeCall.tree_induction with
  | step call ih =>
    intro start node listed
    rw [preorder_eq, List.mem_cons, mem_preorderEach] at listed
    rcases listed with rfl | ⟨child, member, below⟩
    · exact le_rfl
    · exact (Nat.le_succ start).trans (ih child member (start + 1) node below)

/-- The preorder lists exactly the calls of the tree, with their depths. -/
theorem mem_preorder (call : RuntimeCall) :
    ∀ start inner depth, (start + depth, inner) ∈ preorder call start ↔ Occurs inner depth call := by
  induction call using RuntimeCall.tree_induction with
  | step call ih =>
    intro start inner depth
    rw [preorder_eq, List.mem_cons, mem_preorderEach]
    cases depth with
    | zero =>
      constructor
      · rintro (same | ⟨child, member, listed⟩)
        · cases same
          exact .here
        · exact absurd (depth_le_of_mem_preorder child (start + 1) _ listed) (by simp)
      · intro occurs
        cases occurs
        exact .inl rfl
    | succ depth =>
      constructor
      · rintro (same | ⟨child, member, listed⟩)
        · simp at same
        · refine .wrapped member ((ih child member (start + 1) inner depth).mp ?_)
          rw [show start + 1 + depth = start + (depth + 1) by omega]
          exact listed
      · intro occurs
        cases occurs with
        | wrapped member inside =>
          refine .inr ⟨_, member, ?_⟩
          rw [show start + (depth + 1) = start + 1 + depth by omega]
          exact (ih _ member (start + 1) inner depth).mpr inside

/-- The filter accepts a call tree exactly when it holds no denied call, no call below
depth 8 and at most 256 calls; otherwise it returns the error of the first node in
preorder that violates something, testing its depth, its position and its denial. No
denied call stands anywhere in a call that is dispatched as root. -/
theorem council_root_calls (call : RuntimeCall) :
    (check call = .ok () ↔
      (∀ inner depth, Occurs inner depth call → inner.denied = false ∧ depth ≤ 8) ∧ (preorder call 0).length ≤ 256) ∧
    check call = (firstViolation (preorder call 0) 0).elim (.ok ()) .error ∧
    ∀ foundation dispatch result, dispatchAsRoot foundation dispatch call = .ok result →
      ∀ inner depth, Occurs inner depth call → inner.denied = false := by
  have decides : check call = (firstViolation (preorder call 0) 0).elim (.ok ()) .error := by
    rw [check, allowed_scan]
    exact scan_firstViolation (preorder call 0) 0
  have accepts : check call = .ok () ↔ firstViolation (preorder call 0) 0 = none := by
    rw [decides]
    cases firstViolation (preorder call 0) 0 <;> simp
  have nodes : (∀ node ∈ preorder call 0, node.2.denied = false ∧ node.1 ≤ 8) ↔
      ∀ inner depth, Occurs inner depth call → inner.denied = false ∧ depth ≤ 8 := by
    constructor
    · intro each inner depth occurs
      have listed := (mem_preorder call 0 inner depth).mpr occurs
      rw [Nat.zero_add] at listed
      exact each _ listed
    · rintro each ⟨depth, inner⟩ listed
      rw [← Nat.zero_add depth] at listed
      exact each inner depth ((mem_preorder call 0 inner depth).mp listed)
  have accepted : check call = .ok () ↔
      (∀ inner depth, Occurs inner depth call → inner.denied = false ∧ depth ≤ 8) ∧
        (preorder call 0).length ≤ 256 := by
    rw [accepts, firstViolation_none _ 0 (Nat.zero_le _), nodes, Nat.zero_add]
  refine ⟨accepted, decides, ?_⟩
  intro foundation dispatch result dispatched inner depth occurs
  have passed : check call = .ok () := by
    unfold dispatchAsRoot at dispatched
    split at dispatched
    · cases dispatched
    · split at dispatched
      · cases dispatched
      · cases dispatched
      · cases dispatched
      · rename_i ran
        exact ran
  exact ((accepted.mp passed).1 inner depth occurs).1

/-- A slash inside a batch inside a proxied call is found. -/
example : check (.proxy .proxy (.batch .batchAll [.other 0, .staking .manualSlash])) = .error .denied := by decide

end QuipValidator.RootCalls
