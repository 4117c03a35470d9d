import Provision.Failure
import Provision.Value.Json

/-!
# Requests and their outcomes

One request to the provider's REST service and what comes of it: a response
with a status and a body, or a failure on the way. `Outcome.result` sorts all
outcomes into results and provider failures, so nothing that the network does
reaches the rest of the program in another form.

A `Peer` answers requests from a state of its own, like a `Remote`. One that
answers from scripts, chosen by the end of the path, is `Peer.routed`.
-/

namespace Provision.Rest

inductive Method where
  | get
  | post
  deriving DecidableEq

def Method.name : Method → String
  | get => "GET"
  | post => "POST"

structure Request where
  method : Method
  /-- The path below the service's endpoint. -/
  path : String
  parameters : List (String × String) := []
  body : Option Value := none

inductive Outcome where
  | response (status : Int) (body : String)
  | broken (text : String)

def provider : String := "softlayer"

def failure (trouble : ProviderTrouble) (text : String) (details : List (String × Value) := []) :
    ProviderFailure :=
  { trouble, provider, text, details }

namespace Outcome

/-- What a refused request says: the remote side's own error text, if there is one. -/
def refusal (status : Int) (body : String) : ProviderFailure :=
  let plain := failure .general s!"API error: HTTP {status}"
  match Json.read? body with
  | some (.object fields) =>
    let error := Value.ofOption (Value.lookup? "error" fields)
    if error.truthy then
      failure .rejection error.display
        [("code", Value.ofOption (Value.lookup? "code" fields)), ("status", .int status)]
    else plain
  | _ => plain

/-- The value in a response, null if it is empty, or what went wrong. -/
def result (path : String) : Outcome → Except ProviderFailure Value
  | broken text => .error (failure .general ("Request failed: " ++ text))
  | response status body =>
    if status == 401 then .error (failure .authorization "Authentication failed")
    else if status == 404 then .error (failure .resource ("Resource not found: " ++ path))
    else if status == 429 then .error (failure .quota "Rate limit exceeded")
    else if status < 200 || 300 ≤ status then .error (refusal status body)
    else if body == "" then .ok .null
    else match Json.read? body with
      | some v => .ok v
      | none => .error (failure .general ("Invalid response from " ++ path))

end Outcome

/-! ## Peers -/

structure Peer where
  State : Type
  state : State
  respond : State → Request → Outcome × State

/-- The outcome of a request, and the peer as it is afterwards. -/
def Peer.answer (p : Peer) (request : Request) : Outcome × Peer :=
  let (outcome, state) := p.respond p.state request
  (outcome, { p with state })

/-- Outcomes in order for the requests whose path ends alike, the last one again and again. -/
structure Route where
  ending : String
  next : Outcome
  later : List Outcome := []

def Route.advance (r : Route) : Route :=
  match r.later with
  | [] => r
  | o :: rest => { r with next := o, later := rest }

/-- The outcome of the first route that fits; where none does, nothing is found. -/
def Route.respond : List Route → Request → Outcome × List Route
  | [], _ => (.response 404 "", [])
  | r :: rest, request =>
    if r.ending.toList.isSuffixOf request.path.toList then (r.next, r.advance :: rest)
    else
      let (outcome, rest) := Route.respond rest request
      (outcome, r :: rest)

def Peer.routed (routes : List Route) : Peer := ⟨List Route, routes, Route.respond⟩

end Provision.Rest
