import Provision.Family.Spec
import Provision.Proofs.Stages

/-!
# The workflow

Provisioning is a walk through seven phases. `Passes` says what lets a run pass
from one phase to the next: an answer of the remote side, which is the last
call of the stage in between. A `Path` is a walk with the calls made on it.

A run that is begun in a phase has an `Outcome`: either it walks as far as it
is to go, or it stops on the way. Where it stops, the calls after the path are
those of the stage that failed, and there are only four reasons for that
(`Trouble`). In either case the progress record is the one of the phase.
-/

namespace Provision

variable {τ α β : Type}

/-- Whether a listed node has the template's hostname and a domain compatible with it. -/
def Node.Fits (node : Node) (template : Template) : Prop :=
  node.hostname = .text template.hostname ∧
    (template.domain = "" ∨ node.domain.truthy = false ∨ node.domain = .text template.domain)

/-- The first node of a listing that fits a template. -/
def FirstFit (template : Template) (nodes : List Node) (node : Node) : Prop :=
  ∃ before after, nodes = before ++ node :: after ∧ node.Fits template ∧
    ∀ other ∈ before, ¬ other.Fits template

/-- The last of these calls was answered with a failure. -/
def Failing (made : List (Exchange τ)) : Prop :=
  ∃ earlier c e, made = earlier ++ [⟨c, .error e⟩]

/-- How far a run has come, with what it has learned on the way. -/
inductive Phase where
  | placing (order : Order)
  | locating (receipt : Option Receipt)
  | starting (node : Node)
  | ending (node : Node)
  | loggingIn (node : Node)
  | confirming (node : Node)
  | ready (node final : Node)

namespace Phase

/-- The number of stages entered before. -/
def position : Phase → Nat
  | placing _ => 0
  | locating _ => 1
  | starting _ => 2
  | ending _ => 3
  | loggingIn _ => 4
  | confirming _ => 5
  | ready _ _ => 6

/-- The node that is followed. -/
def node? : Phase → Option Node
  | placing _ | locating _ => none
  | starting node | ending node | loggingIn node | confirming node | ready node _ => some node

/-- The progress record of a run in the phase. -/
structure Stands (φ : Phase) (p : Progress) : Prop where
  at_position : p.At φ.position
  follows : ∀ node, φ.node? = some node → p.nodeId = some node.id

end Phase

namespace Machine

/-- How the node of an order was found: in the receipt, or in the last listing. In a listing it
counts only if the order is approved by then, where there is an order that needs approval. -/
inductive Located (m : Machine τ) (template : Template) (receipt : Option Receipt) :
    List (Exchange τ) → Node → Prop
  | received {r node more} (known : receipt = some r) (first : r.nodes = node :: more) :
      Located m template receipt [] node
  | listed {earlier nodes node} (fit : FirstFit template nodes node)
      (approved : ∀ r, receipt = some r → r.orderId ≠ .null → m.requiresApproval = true →
        ∃ before, earlier
          = before ++ [⟨.getBillingOrderStatus r.orderId, .ok (.text "APPROVED")⟩]) :
      Located m template receipt (earlier ++ [⟨.listNodes m.kind, .ok nodes⟩]) node

/-- What lets a run pass from one phase to the next. -/
inductive Passes (m : Machine τ) (template : Template) :
    Phase → List (Exchange τ) → Phase → Prop
  | placed (order receipt) :
      Passes m template (.placing order) [⟨.placeOrder order, .ok receipt⟩] (.locating receipt)
  | located {receipt made node} (located : m.Located template receipt made node) :
      Passes m template (.locating receipt) made (.starting node)
  | started (node earlier transaction) :
      Passes m template (.starting node)
        (earlier ++ [⟨.getActiveTransaction m.kind node.id, .ok (some transaction)⟩])
        (.ending node)
  | ended (node earlier) :
      Passes m template (.ending node)
        (earlier ++ [⟨.getActiveTransaction m.kind node.id, .ok none⟩]) (.loggingIn node)
  | loggedIn (node earlier) {found : Node}
      (reachable : found.isReachable template.privateOnly = true) :
      Passes m template (.loggingIn node)
        (earlier ++ [⟨.getNode m.kind node.id, .ok (some found)⟩]) (.confirming node)
  | confirmed (node) {final : Node} (reachable : final.isReachable template.privateOnly = true) :
      Passes m template (.confirming node) [⟨.getNode m.kind node.id, .ok (some final)⟩]
        (.ready node final)

inductive Path (m : Machine τ) (template : Template) : Phase → List (Exchange τ) → Phase → Prop
  | here (φ) : Path m template φ [] φ
  | step {φ ψ χ made rest} (first : m.Passes template φ made ψ) (later : Path m template ψ rest χ) :
      Path m template φ (made ++ rest) χ

variable {m : Machine τ} {template : Template} {φ ψ χ : Phase} {made rest : List (Exchange τ)}

theorem Passes.position (h : m.Passes template φ made ψ) : ψ.position = φ.position + 1 := by
  cases h <;> rfl

/-- From the moment it is known the node stays the same. -/
theorem Passes.follows (h : m.Passes template φ made ψ) {node : Node}
    (hnode : φ.node? = some node) : ψ.node? = some node := by
  cases h with
  | placed | located => cases hnode
  | started | ended | loggedIn | confirmed => exact hnode

theorem Passes.path (h : m.Passes template φ made ψ) : m.Path template φ made ψ := by
  have hpath := Path.step h (.here ψ)
  rwa [List.append_nil] at hpath

theorem Path.append (h : m.Path template φ made ψ) (h' : m.Path template ψ rest χ) :
    m.Path template φ (made ++ rest) χ := by
  induction h with
  | here φ => exact h'
  | step first later ih =>
      rw [List.append_assoc]
      exact .step first (ih h')

theorem Path.follows (h : m.Path template φ made χ) {node : Node}
    (hnode : φ.node? = some node) : χ.node? = some node := by
  induction h with
  | here φ => exact hnode
  | step first later ih => exact ih (first.follows hnode)

/-- A walk that ends further on has a first step. -/
theorem Path.begun (h : m.Path template φ made χ) (hfurther : φ.position < χ.position) :
    ∃ first rest ψ, made = first ++ rest ∧ m.Passes template φ first ψ
      ∧ m.Path template ψ rest χ := by
  cases h with
  | here => exact absurd hfurther (Nat.lt_irrefl _)
  | step first later => exact ⟨_, _, _, rfl, first, later⟩

/-! ## Walks read step by step -/

section Steps

variable {order : Order} {receipt : Option Receipt} {node final : Node}

theorem Path.past_placing (h : m.Path template (.placing order) made χ) (hχ : 0 < χ.position) :
    ∃ receipt rest, made = ⟨.placeOrder order, .ok receipt⟩ :: rest
      ∧ m.Path template (.locating receipt) rest χ := by
  obtain ⟨first, rest, ψ, rfl, hfirst, hrest⟩ := h.begun hχ
  cases hfirst with
  | placed _ receipt => exact ⟨receipt, rest, rfl, hrest⟩

theorem Path.past_locating (h : m.Path template (.locating receipt) made χ)
    (hχ : 1 < χ.position) :
    ∃ located rest node, made = located ++ rest ∧ m.Located template receipt located node
      ∧ m.Path template (.starting node) rest χ := by
  obtain ⟨first, rest, ψ, rfl, hfirst, hrest⟩ := h.begun hχ
  cases hfirst with
  | located located => exact ⟨first, rest, _, rfl, located, hrest⟩

theorem Path.past_starting (h : m.Path template (.starting node) made χ) (hχ : 2 < χ.position) :
    ∃ waiting transaction rest,
      made = waiting ++ ⟨.getActiveTransaction m.kind node.id, .ok (some transaction)⟩ :: rest
        ∧ m.Path template (.ending node) rest χ := by
  obtain ⟨first, rest, ψ, rfl, hfirst, hrest⟩ := h.begun hχ
  cases hfirst with
  | started _ waiting transaction =>
      exact ⟨waiting, transaction, rest, by rw [List.append_assoc]; rfl, hrest⟩

theorem Path.past_ending (h : m.Path template (.ending node) made χ) (hχ : 3 < χ.position) :
    ∃ waiting rest, made = waiting ++ ⟨.getActiveTransaction m.kind node.id, .ok none⟩ :: rest
      ∧ m.Path template (.loggingIn node) rest χ := by
  obtain ⟨first, rest, ψ, rfl, hfirst, hrest⟩ := h.begun hχ
  cases hfirst with
  | ended _ waiting => exact ⟨waiting, rest, by rw [List.append_assoc]; rfl, hrest⟩

theorem Path.past_loggingIn (h : m.Path template (.loggingIn node) made χ)
    (hχ : 4 < χ.position) :
    ∃ waiting found rest, made = waiting ++ ⟨.getNode m.kind node.id, .ok (some found)⟩ :: rest
      ∧ found.isReachable template.privateOnly = true
      ∧ m.Path template (.confirming node) rest χ := by
  obtain ⟨first, rest, ψ, rfl, hfirst, hrest⟩ := h.begun hχ
  cases hfirst with
  | loggedIn _ waiting reachable =>
      exact ⟨waiting, _, rest, by rw [List.append_assoc]; rfl, reachable, hrest⟩

/-- There is nothing behind the last phase. -/
theorem Path.of_ready (h : m.Path template (.ready node final) made χ) :
    made = [] ∧ χ = .ready node final := by
  cases h with
  | here => exact ⟨rfl, rfl⟩
  | step first later => cases first

theorem Path.past_confirming (h : m.Path template (.confirming node) made χ)
    (hχ : 5 < χ.position) :
    ∃ final, made = [⟨.getNode m.kind node.id, .ok (some final)⟩]
      ∧ final.isReachable template.privateOnly = true ∧ χ = .ready node final := by
  obtain ⟨first, rest, ψ, rfl, hfirst, hrest⟩ := h.begun hχ
  cases hfirst with
  | confirmed _ reachable =>
      obtain ⟨rfl, rfl⟩ := hrest.of_ready
      exact ⟨_, rfl, reachable, rfl⟩

end Steps

/-! ## Stopping -/

variable [Duration τ]

/-- The wait of a stage took as long as the policy of the stage allows, and the message says so. -/
def Overdue (m : Machine τ) (s : Stage) (t : StageTimeout τ) : Prop :=
  t.stage = s.name ∧ ∃ policy, m.policies.get? s = some policy ∧ t.timeout = policy.timeout ∧
    ∃ reason, t.message = s.name ++ ": " ++ reason ++ " (" ++ Duration.text policy.timeout ++ "s)"

/-- Why a stage stops, with the calls that it made. -/
inductive Trouble (m : Machine τ) (s : Stage) (made : List (Exchange τ)) : Failure τ → Prop
  | answered {e} (failing : Failing made) : Trouble m s made e
  | overdue {t} (overdue : m.Overdue s t) : Trouble m s made (.timeout t)
  | lost (node) : Trouble m s made (.progress (.loginLost node))
  | unfinished : Trouble m s made .unfinished

/-- What comes of a run that is begun in a phase and is to reach one that is a goal for its result.
The last argument is the progress record afterwards. -/
inductive Outcome (m : Machine τ) (template : Template) (φ : Phase) (goal : α → Phase → Prop) :
    List (Exchange τ) → Except (Failure τ) α → Progress → Prop
  | reached {made χ a p} (path : m.Path template φ made χ) (stands : χ.Stands p)
      (there : goal a χ) : Outcome m template φ goal made (.ok a) p
  | stopped {made rest χ s e p p'} (path : m.Path template φ made χ) (stands : χ.Stands p)
      (here : s.position = χ.position) (trouble : m.Trouble s rest e)
      (record : p' = p.stopped s e) : Outcome m template φ goal (made ++ rest) (.error e) p'

theorem Outcome.after {goal : α → Phase → Prop} {r : Except (Failure τ) α} {p : Progress}
    (h : m.Path template φ made ψ) (h' : m.Outcome template ψ goal rest r p) :
    m.Outcome template φ goal (made ++ rest) r p := by
  cases h' with
  | reached path stands there => exact .reached (h.append path) stands there
  | stopped path stands here trouble record =>
      rw [← List.append_assoc]
      exact .stopped (h.append path) stands here trouble record

/-- Begun in a phase of its start, a run reaches its goal or stops on the way. -/
def Leads (m : Machine τ) (template : Template) (start : Phase → Prop) (goal : α → Phase → Prop) :
    Post τ α :=
  fun w made r w' => ∀ φ, start φ → φ.Stands w.progress →
    m.Outcome template φ goal made r w'.progress

theorem leads_bind {start : Phase → Prop} {goal : α → Phase → Prop} {goal' : β → Phase → Prop}
    {x : Run τ α} {f : α → Run τ β} (hx : x.Satisfies (m.Leads template start goal))
    (hf : ∀ a, (f a).Satisfies (m.Leads template (goal a) goal')) :
    (x >>= f).Satisfies (m.Leads template start goal') := by
  refine (hx.bind hf).mono ?_
  intro w made r w' h φ hstart hstands
  cases h with
  | failed first =>
      cases first φ hstart hstands with
      | stopped path stands here trouble record =>
          exact .stopped path stands here trouble record
  | went first second =>
      cases first φ hstart hstands with
      | reached path stands there => exact (second _ there stands).after path

end Machine

end Provision
