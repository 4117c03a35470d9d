import Provision.Remote
import Provision.Rest.Http
import Provision.Rest.Reading

/-!
# The REST client

Every call of the program is one request to the REST service, and the answer
to the call is read from the value in the response (`settle`). A node that the
service does not find is no failure; it is the answer that there is none.
`remote` makes a remote side of a peer in this way.
-/

namespace Provision.Rest

/-! ## Requests -/

def itemMask : String :=
  "mask[id,description,capacity,units,categories[categoryCode],"
    ++ "prices[id,categories[categoryCode]]]"

def nodeMask : String :=
  "mask[id,hostname,domain,primaryIpAddress,primaryBackendIpAddress,"
    ++ "privateNetworkOnlyFlag,billingItem[id],datacenter[name],powerState[keyName],"
    ++ "operatingSystem[passwords[username,password]]]"

/-- The service that knows nodes of a kind. -/
def service : NodeKind → String
  | .virtualGuest => "SoftLayer_Virtual_Guest"
  | .hardwareServer => "SoftLayer_Hardware_Server"

def listing : NodeKind → String
  | .virtualGuest => "/SoftLayer_Account/getVirtualGuests.json"
  | .hardwareServer => "/SoftLayer_Account/getHardware.json"

/-- An existing node goes by its id, a new one by its hostname and domain. -/
def targetPayload (t : OrderTarget) : Value :=
  match t.id with
  | some id => .object [("id", .int id)]
  | none => .object [("hostname", .text t.hostname), ("domain", .text t.domain)]

/-- The fields of an order that are left out when they have nothing to say. -/
def optionalPayload (o : Order) : List (String × Value) :=
  (match o.imageTemplate with
    | some id => [("imageTemplateId", Value.int id)]
    | none => [])
  ++ (match o.imageTemplateGlobal with
    | some id => if id == "" then [] else [("imageTemplateGlobalIdentifier", Value.text id)]
    | none => [])
  ++ (if o.scripts.isEmpty then [] else [("provisionScripts", .list (o.scripts.map Value.text))])

/-- The body of a request to verify or place an order. -/
def orderPayload (o : Order) : Value :=
  .object [("parameters", .list [.object
    ([("complexType", .text "SoftLayer_Container_Product_Order"),
      ("packageId", .int o.family),
      ("location", .ofText? o.location),
      ("quantity", .int o.quantity),
      ("useHourlyPricing", .bool o.hourly),
      ("prices", .list (o.prices.map fun price => .object [("id", .int price)])),
      (nodesKey o.kind, .list (o.targets.map targetPayload))]
      ++ optionalPayload o)])]

def get (path : String) (mask : Option String := none) : Request :=
  { method := .get, path, parameters := (mask.map fun m => ("objectMask", m)).toList }

/-- The request that a call is made with. -/
def request : Call → Request
  | .listCatalogItems family => get s!"/SoftLayer_Product_Package/{family}/getItems.json" itemMask
  | .verifyOrder order =>
    { method := .post, path := "/SoftLayer_Product_Order/verifyOrder.json", body := orderPayload order }
  | .placeOrder order =>
    { method := .post, path := "/SoftLayer_Product_Order/placeOrder.json", body := orderPayload order }
  | .listNodes kind => get (listing kind) nodeMask
  | .getNode kind node => get ("/" ++ service kind ++ s!"/{node}.json") nodeMask
  | .getActiveTransaction kind node =>
    get ("/" ++ service kind ++ s!"/{node}/getActiveTransaction.json")
  | .cancelBillingItem item => get ("/SoftLayer_Billing_Item/" ++ item.display ++ "/cancelService.json")
  | .getBillingOrderStatus order => get ("/SoftLayer_Billing_Order/" ++ order.display ++ ".json")
  | .rebootNode kind node => get ("/" ++ service kind ++ s!"/{node}/rebootHard.json")
  | .powerOffNode kind node => get ("/" ++ service kind ++ s!"/{node}/powerOff.json")
  | .pauseNode node => get s!"/SoftLayer_Virtual_Guest/{node}/pause.json"
  | .resumeNode node => get s!"/SoftLayer_Virtual_Guest/{node}/resume.json"

/-! ## Answers -/

/-- What an operation reports. Items come as they are written; what the program works with is made
of them afterwards. -/
@[reducible] def Report : Call → Type
  | .listCatalogItems _ => List ReportedItem
  | call => call.Reply

/-- The report in the value of a response. -/
def report : (call : Call) → Value → Except DataFault (Report call)
  | .listCatalogItems _, v => readItems v
  | .verifyOrder _, _ => .ok ()
  | .placeOrder order, v => readReceipt order.kind v
  | .listNodes _, v => readNodes v
  | .getNode _ _, v => if v.truthy then (readNode v).map some else .ok none
  | .getActiveTransaction _ _, v => if v.truthy then (readTransaction v).map some else .ok none
  | .cancelBillingItem _, v => .ok v.truthy
  | .getBillingOrderStatus _, v => field "status" (orObject v)
  | .rebootNode _ _, v => .ok v.truthy
  | .powerOffNode _ _, v => .ok v.truthy
  | .pauseNode _, v => .ok v.truthy
  | .resumeNode _, v => .ok v.truthy

/-- The report of an operation that the service cannot find anything for, if that is one. -/
def notFound? : (call : Call) → Option (Report call)
  | .getNode _ _ => some none
  | _ => none

/-- What an operation comes to, by the outcome of its request: its report, or a failure. -/
def settle {τ : Type} (call : Call) (outcome : Outcome) : Except (Failure τ) (Report call) :=
  match outcome.result (request call).path with
  | .ok v =>
    match report call v with
    | .ok r => .ok r
    | .error cause => .error (.fault (.data cause))
  | .error f =>
    match f.trouble, notFound? call with
    | .resource, some r => .ok r
    | _, _ => .error (.provider f)

/-- The reply in a report. Only items are not taken as they are reported. -/
def accept : (call : Call) → Report call → Except DataFault call.Reply
  | .listCatalogItems _, items => (items.mapM ReportedItem.item).map some
  | .verifyOrder _, r | .placeOrder _, r | .listNodes _, r | .getNode _ _, r
  | .getActiveTransaction _ _, r | .cancelBillingItem _, r | .getBillingOrderStatus _, r
  | .rebootNode _ _, r | .powerOffNode _ _, r | .pauseNode _, r | .resumeNode _, r => .ok r

/-- The reply to a call, by the outcome of its request. -/
def reply {τ : Type} (call : Call) (outcome : Outcome) : Except (Failure τ) call.Reply := do
  match accept call (← settle call outcome) with
  | .ok r => .ok r
  | .error cause => .error (.fault (.data cause))

/-- The remote side that a peer is. -/
def remote {τ : Type} (peer : Peer) : Remote τ where
  State := peer.State
  state := peer.state
  respond state call :=
    let (outcome, state) := peer.respond state (request call)
    (reply call outcome, state)

/-! ## Where the service is -/

/-- An endpoint in its parts; a scheme's own port is left out. -/
structure Endpoint where
  origin : String
  path : String

namespace Endpoint

def usual : String := "https://api.softlayer.com/rest/v3"

/-- An authority without the port that its scheme implies. -/
def withoutDefaultPort (scheme authority : List Char) : List Char :=
  let port := if scheme == "https".toList then ":443".toList else ":80".toList
  if port.isSuffixOf authority then authority.take (authority.length - port.length) else authority

/-- Splits at the end of the scheme, which a colon and two slashes mark. -/
def splitScheme : List Char → Option (List Char × List Char)
  | [] => none
  | ':' :: '/' :: '/' :: rest => some ([], rest)
  | c :: rest => (splitScheme rest).map fun (scheme, after) => (c :: scheme, after)

/-- An endpoint as configured; slashes at its end do not count. -/
def ofText (text : String) : Endpoint :=
  let cs := (text.toList.reverse.dropWhile (· == '/')).reverse
  match splitScheme cs with
  | none => { origin := "", path := String.ofList cs }
  | some (scheme, rest) =>
    let scheme := scheme.map Char.toLower
    let (authority, path) := rest.span (· != '/')
    let authority := withoutDefaultPort scheme (authority.map Char.toLower)
    { origin := String.ofList (scheme ++ "://".toList ++ authority), path := String.ofList path }

/-- The endpoint as a text: a path ends in a slash. -/
def text (e : Endpoint) : String := if e.path == "" then e.origin else e.origin ++ e.path ++ "/"

/-- Characters that stand for themselves in a path. -/
def isPathChar (c : Char) : Bool :=
  33 ≤ c.toNat && c.toNat < 127
    && !(['"', '#', '<', '>', '?', '`', '\x7b', '\x7d'].contains c)

def upperHexDigit (n : Nat) : Char := if n < 10 then Char.ofNat (48 + n) else Char.ofNat (55 + n)

/-- A path with all other characters written byte by byte. -/
def escapePath (cs : List Char) : List Char :=
  cs.flatMap fun c =>
    if isPathChar c then [c]
    else (String.ofList [c]).toUTF8.toList.flatMap fun b =>
      ['%', upperHexDigit (b.toNat / 16), upperHexDigit (b.toNat % 16)]

/-- The address of a request, up to a question or number sign. -/
def address (e : Endpoint) (request : Request) : String :=
  let path := request.path.toList.takeWhile fun c => c != '?' && c != '#'
  e.origin ++ e.path ++ String.ofList (escapePath path)

end Endpoint

/-! ## Authorization -/

def base64Digit (n : Nat) : Char :=
  if n < 26 then Char.ofNat (65 + n)
  else if n < 52 then Char.ofNat (71 + n)
  else if n < 62 then Char.ofNat (n - 4)
  else if n == 62 then '+' else '/'

/-- Bytes as text, three bytes to four characters. -/
def base64 : List Nat → List Char
  | a :: b :: c :: rest =>
    base64Digit (a / 4) :: base64Digit (a % 4 * 16 + b / 16) :: base64Digit (b % 16 * 4 + c / 64)
      :: base64Digit (c % 64) :: base64 rest
  | [a, b] => [base64Digit (a / 4), base64Digit (a % 4 * 16 + b / 16), base64Digit (b % 16 * 4), '=']
  | [a] => [base64Digit (a / 4), base64Digit (a % 4 * 16), '=', '=']
  | [] => []

/-- A client of the service: who it is, and where the service is. -/
structure Client where
  username : String
  apiKey : String
  endpoint : Endpoint := Endpoint.ofText Endpoint.usual

namespace Client

def authorization (c : Client) : String :=
  let bytes := (c.username ++ ":" ++ c.apiKey).toUTF8.toList.map UInt8.toNat
  "Basic " ++ String.ofList (base64 bytes)

/-- The headers of every request. -/
def headers (c : Client) : List (String × String) :=
  [("authorization", c.authorization), ("accept", "application/json"),
    ("content-type", "application/json")]

def address (c : Client) (r : Request) : String := c.endpoint.address r

/-- How the client names itself. -/
def description : String := "<SoftLayerProvider (softlayer)>"

end Client

end Provision.Rest
