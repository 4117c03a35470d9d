import Provision.Polling
import Provision.Selector

/-!
# The life of a node

`Machine` drives an order through the provider's workflow. Placing the order is
the first of six stages. The next is the node's appearance: it is named in the
receipt, or found by its hostname once the order has been approved. Then its
transactions have to start and to end, its login has to be there, and a last
look has to confirm that. Every wait is bounded by the policy of its stage. A
stage that fails leaves its name and reason in the progress record.

Destroying a node cancels its billing item and waits for the transactions that
this sets off. What the tracker holds about the node is dropped when such a
wait is over, however it ends.
-/

namespace Provision

/-- The timing of every wait. -/
structure StagePolicies (τ : Type) where
  orderApproved : StagePolicy τ
  transactionsStarted : StagePolicy τ
  transactionsEnded : StagePolicy τ
  loginReady : StagePolicy τ
  poweredOff : StagePolicy τ

/-- Ten minutes, checked every five seconds. -/
def StagePolicies.usualPowerOff {τ : Type} [Duration τ] : StagePolicy τ :=
  { timeout := Duration.ofInt 600, interval := Duration.ofInt 5, backoff := StagePolicy.usualBackoff }

structure Machine (τ : Type) where
  defaults : OrderDefaults
  policies : StagePolicies τ
  requiresApproval : Bool := true
  supportsSuspend : Bool := true
  powerOffFirst : Bool := false
  catalog : Option CatalogSource := none

/-- A usable node with its first credentials. -/
structure Provisioned where
  node : Node
  credentials : Credentials
  combination : String
  progress : Progress

namespace Machine

variable {τ α : Type} [Duration τ]

def kind (m : Machine τ) : NodeKind := m.defaults.kind

def familyFields (m : Machine τ) : Log.Fields := [(.family, .int m.defaults.family)]

def inform (message : String) (fields : Log.Fields) : Run τ Unit :=
  Run.log { level := .info, source := .machine, message, fields }

/-- Waits with a wording of its own for the case that time runs out. -/
def await (check : Run τ (Option α)) (stage : String) (policy : StagePolicy τ) (subject : Value)
    (wording : String) : Run τ α :=
  Run.attempt (Run.pollUntil check stage policy subject) fun
    | .error (.timeout t) =>
      Run.fail (.timeout
        { t with
          subject
          wording := t.stage ++ ": " ++ wording ++ " (" ++ Duration.text t.timeout ++ "s)" })
    | r => Run.ofExcept r

/-! ## Stages -/

def failureRecord (m : Machine τ) (p : Progress) (stage : Stage) (reason : String) : Log.Record :=
  { level := .error, source := .machine
    message := s!"Provisioning {p.hostname} failed at {stage.name}: {reason}"
    fields := p.fields ++ m.familyFields }

/-- Runs the action of a stage. Afterwards the run has entered the stage, or it has failed there. -/
def stage (m : Machine τ) (stage : Stage) (action : Run τ α) : Run τ α :=
  Run.attempt action fun
    | .error e => do
      if e.isOwn then
        Run.update fun w => { w with progress := w.progress.fail stage.name e.message }
        let p ← Run.read (·.progress)
        Run.log (m.failureRecord p stage e.message)
      Run.fail e
    | .ok a => do
      match (← Run.read (·.progress)).advance (.reached stage) with
      | .ok progress =>
        Run.update ({ · with progress })
        pure a
      | .error cause => Run.fail (.progress cause)

/-! ## Waiting -/

/-- The first node of a listing that goes by the template's hostname and domain. -/
def findNode (m : Machine τ) (template : Template) : Run τ (Option Node) := do
  let nodes ← Run.call (.listNodes m.kind)
  pure (nodes.find? (·.goesBy template.hostname template.domain))

/-- Looks for the node once its order is approved, where the order is known and needs approval. -/
def locate (m : Machine τ) (template : Template) (orderId : Value) : Run τ (Option Node) := do
  if !orderId.isNull && m.requiresApproval then
    let status ← Run.call (.getBillingOrderStatus orderId)
    if status.same (.text "APPROVED") then m.findNode template else pure none
  else m.findNode template

/-- The node of an order: the first one in the receipt, or the one found by hostname. -/
def awaitOrder (m : Machine τ) (template : Template) (receipt : Option Receipt) : Run τ Node := do
  match receipt.bind (·.nodes.head?) with
  | some node => pure node
  | none =>
    let orderId := match receipt with
      | some r => r.orderId
      | none => .null
    if orderId.isNull then
      Run.log { level := .warning, source := .machine, fields := m.familyFields
                message := s!"No order receipt for {template.hostname}, locating node by hostname" }
    await (m.locate template orderId) Stage.orderApproved.name m.policies.orderApproved
      (.text template.hostname)
      s!"order for host {template.hostname} did not finish within configured delay"

def awaitStarted (m : Machine τ) (node : Int) (hostname : Value) : Run τ Transaction := do
  let transaction ← await (Run.call (.getActiveTransaction m.kind node))
    Stage.transactionsStarted.name m.policies.transactionsStarted hostname
    ("host " ++ hostname.display ++ " did not start its transactions within configured delay")
  let _ ← Run.observe m.kind node hostname (some transaction)
  pure transaction

/-- Looks whether the node is idle. -/
def checkIdle (m : Machine τ) (node : Int) (hostname : Value) : Run τ (Option Unit) := do
  let seen ← Run.call (.getActiveTransaction m.kind node)
  let idle ← Run.observe m.kind node hostname seen
  pure (if idle then some () else none)

def awaitEnded (m : Machine τ) (node : Int) (hostname : Value) : Run τ Unit :=
  Run.ensuring
    (await (m.checkIdle node hostname)
      Stage.transactionsEnded.name m.policies.transactionsEnded hostname
      ("host " ++ hostname.display ++ " did not finish its transactions within configured delay"))
    (Run.forget m.kind node)

/-- The node as it is now, if it can be logged in to. -/
def reachableNode (m : Machine τ) (node : Int) (template : Template) : Run τ (Option Node) := do
  let found ← Run.call (.getNode m.kind node)
  pure (found.filter (·.isReachable template.privateOnly))

def awaitLogin (m : Machine τ) (node : Int) (template : Template) : Run τ Node :=
  await (m.reachableNode node template) Stage.loginReady.name m.policies.loginReady
    (.text template.hostname)
    s!"host {template.hostname} has no login details within configured delay"

/-- A last look at the node. -/
def confirm (m : Machine τ) (node : Int) (template : Template) : Run τ Node := do
  match ← m.reachableNode node template with
  | some found => pure found
  | none => Run.fail (.progress (.loginLost node))

/-! ## Provisioning -/

/-- The order for a combination. The catalog is fetched where extras are given as items. -/
def prepare (m : Machine τ) (template : Template) (combination : String) : Run τ Order := do
  let catalog ← Selector.catalogFor m.defaults m.catalog
  Run.ofFault (template.order m.defaults combination catalog)

/-- Places the order and keeps its id, if there is a receipt. -/
def place (m : Machine τ) (template : Template) (order : Order) : Run τ (Option Receipt) := do
  inform
    (s!"Placing order for {template.hostname} with prices "
      ++ Text.bracketed (order.prices.map toString))
    m.familyFields
  let receipt ← m.stage .orderPlaced (Run.call (.placeOrder order))
  match receipt with
  | some r =>
    Run.update fun w => { w with progress := { w.progress with orderId := r.orderId } }
    pure receipt
  | none => pure receipt

def nodeFields (m : Machine τ) (node : Node) : Log.Fields :=
  m.familyFields ++ [(.node, .int node.id)]

/-- Waits for the node of an order and keeps its id. -/
def approve (m : Machine τ) (template : Template) (receipt : Option Receipt) : Run τ Node := do
  let node ← m.stage .orderApproved (m.awaitOrder template receipt)
  Run.update fun w => { w with progress := { w.progress with nodeId := some node.id } }
  inform s!"Order for {template.hostname} approved, node {node.id}" (m.nodeFields node)
  pure node

/-- Follows a node through the remaining stages. -/
def follow (m : Machine τ) (template : Template) (node : Node) : Run τ Node := do
  let hostname := Value.text template.hostname
  let _ ← m.stage .transactionsStarted (m.awaitStarted node.id hostname)
  m.stage .transactionsEnded (m.awaitEnded node.id hostname)
  let _ ← m.stage .loginReady (m.awaitLogin node.id template)
  m.stage .complete (m.confirm node.id template)

/-- The node as it was seen last, with its first credentials. -/
def handOver (m : Machine τ) (combination : String) (node final : Node) : Run τ Provisioned := do
  let progress ← Run.read (·.progress)
  inform (s!"Node {final.id} (" ++ final.fullName.display ++ ") is ready")
    (progress.fields ++ m.nodeFields node)
  match final.passwords with
  | credentials :: _ => pure { node := final, credentials, combination, progress }
  | [] => Run.fail (.fault (.data .outOfRange))

/-- Places the order and follows it to a usable node. The record of progress is a fresh one unless
one is given. -/
def provision (m : Machine τ) (template : Template) (combination : String)
    (progress : Option Progress := none) : Run τ Provisioned := do
  Run.update fun w => { w with progress := progress.getD (.fresh template.hostname) }
  let order ← m.prepare template combination
  let receipt ← m.place template order
  let node ← m.approve template receipt
  let final ← m.follow template node
  m.handOver combination node final

/-! ## Decommissioning -/

/-- Looks whether the node is halted. -/
def checkHalted (m : Machine τ) (node : Int) : Run τ (Option Unit) := do
  let current ← Run.call (.getNode m.kind node)
  pure (if current.any Node.isHalted then some () else none)

def powerOff (m : Machine τ) (node : Node) : Run τ Unit := do
  let _ ← Run.call (.powerOffNode m.kind node.id)
  await (m.checkHalted node.id) "POWERED_OFF" m.policies.poweredOff node.hostname
    ("host " ++ node.hostname.display ++ " did not power off within configured delay")

/-- Cancels the node's billing item and waits until the node is gone. A node that does not exist, or
is not billed any more, is gone already. -/
def destroy (m : Machine τ) (id : Int) : Run τ Bool := do
  match ← Run.call (.getNode m.kind id) with
  | none =>
    inform s!"Node {id} not found, nothing to destroy" [(.node, .int id)]
    pure true
  | some node =>
    if !node.isBilled then
      inform s!"Node {id} has no billing item, treating as already destroyed" [(.node, .int id)]
      pure true
    else
      if m.powerOffFirst then m.powerOff node
      inform ("Cancelling billing item " ++ node.billingItem.display ++ s!" of node {id}")
        [(.node, .int id)]
      let _ ← Run.call (.cancelBillingItem node.billingItem)
      let _ ← m.awaitStarted node.id node.hostname
      m.awaitEnded node.id node.hostname
      pure true

/-! ## Other operations -/

def reboot (m : Machine τ) (id : Int) : Run τ Bool := Run.call (.rebootNode m.kind id)

def suspend (m : Machine τ) (id : Int) : Run τ Bool :=
  if m.supportsSuspend then Run.call (.pauseNode id) else Run.fail (.unsupported .suspend)

def resume (m : Machine τ) (id : Int) : Run τ Bool :=
  if m.supportsSuspend then Run.call (.resumeNode id) else Run.fail (.unsupported .resume)

end Machine

end Provision
