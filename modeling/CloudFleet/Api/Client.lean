import CloudFleet.Api.Form
import CloudFleet.Api.MarkupReader
import CloudFleet.Api.Page
import CloudFleet.Report
import CloudFleet.Text.LowerCase
import CloudFleet.Text.Quoted
import CloudFleet.World.Inert

/-!
# The provider's interface

Calls on the control plane as they go over the line. Each is one form sent to the region's address and one answer to
it, except that instances and their health come page by page: `ApiClient.pages` asks on, with the token of the page
before, for as long as there is one.
-/

set_option autoImplicit false

namespace CloudFleet

/-- What comes back for a form. -/
inductive Received
  /-- Nothing came back. -/
  | lost (message : String)
  | answer (status : Nat) (requestId : Option String) (body : String)
deriving DecidableEq

/-- The line to the provider: the regions that it serves, the answers to come, and the forms sent so far. -/
structure ApiClient where
  regions : List Region
  incoming : List Received := []
  sent : List (Region × Form) := []

namespace Received

/-- The content of an answer, or what is wrong. An empty answer holds nothing. -/
def read : Received → Except String Markup
  | lost message => .error message
  | answer status requestId body =>
    if 200 ≤ status ∧ status < 300 then
      if body.isEmpty then .ok (.element "" [])
      else
        match Markup.read? body with
        | some m => .ok m
        | none => .error "malformed answer"
    else .error s!"Request ID: {Text.quotedOption requestId} Body: {body}"

end Received

namespace ApiClient

/-- The mark of a dry run that would have succeeded. -/
def dryRunMark : String := "DryRunOperation"

/-- The error of a call by what is wrong. -/
def failure (c : CloudCall) (message : String) : CloudError :=
  if Text.contains message dryRunMark then .dryRun else .api c.region c.action message

/-- What comes of asking for all pages from one on: what they hold together, the forms sent, and the answers left. An
answer that is wrong ends it, and nothing of the pages before is kept. -/
def pages {α : Type} (form : Form) (read : Markup → List α) (token : Option String) :
    List Received → Except String (List α) × List Form × List Received
  | [] => (.error "no response", [form.withToken token], [])
  | r :: rest =>
    match r.read with
    | .error message => (.error message, [form.withToken token], rest)
    | .ok page =>
      match Page.nextToken? page with
      | none => (.ok (read page), [form.withToken token], rest)
      | some next =>
        let (more, forms, left) := pages form read (some next) rest
        (more.map (read page ++ ·), form.withToken token :: forms, left)

/-- What comes of sending one form. -/
def single {α : Type} (form : Form) (read : Markup → α) :
    List Received → Except String α × List Form × List Received
  | [] => (.error "no response", [form], [])
  | r :: rest => (r.read.map read, [form], rest)

/-- What comes of a call, with the forms sent and the answers left. -/
def ask (c : CloudCall) (incoming : List Received) : Except String c.Reply × List Form × List Received :=
  match c with
  | .describeInstances region ids =>
    pages (CloudCall.describeInstances region ids).form Page.instances none incoming
  | .describeStatuses region ids => pages (CloudCall.describeStatuses region ids).form Page.statuses none incoming
  | .launch region request dryRun => single (CloudCall.launch region request dryRun).form Page.launched incoming
  | .describeImages region owner pattern =>
    single (CloudCall.describeImages region owner pattern).form Page.images incoming
  | .listGroups region => single (CloudCall.listGroups region).form Page.groups incoming
  | .transition kind region ids dryRun =>
    single (CloudCall.transition kind region ids dryRun).form (fun _ => ()) incoming
  | .deleteGroup region name => single (CloudCall.deleteGroup region name).form (fun _ => ()) incoming
  | .createGroup region name description =>
    single (CloudCall.createGroup region name description).form (fun _ => ()) incoming
  | .openPort region name port => single (CloudCall.openPort region name port).form (fun _ => ()) incoming

/-- The answer to a call, and the line after it. Nothing is sent for a region that is not served. -/
def perform (l : ApiClient) (c : CloudCall) : Except CloudError c.Reply × ApiClient :=
  if !l.regions.contains c.region then (.error (.unknownRegion c.region), l)
  else
    let (result, forms, incoming) := ask c l.incoming
    (result.mapError (failure c), { l with incoming, sent := l.sent ++ forms.map fun f => (c.region, f) })

/-- The world of which only the line to the provider is there. -/
def world : World ApiClient where
  answer
    | .cloud c, l => l.perform c
    | r, l => (r.unanswered, l)

/-! ## Regions -/

/-- The regions that the provider has. -/
def offered : List String :=
  ["af-south-1", "ap-east-1", "ap-northeast-1", "ap-northeast-2", "ap-northeast-3", "ap-south-1", "ap-southeast-1",
   "ap-southeast-2", "ca-central-1", "eu-central-1", "eu-north-1", "eu-south-1", "eu-west-1", "eu-west-2", "eu-west-3",
   "me-south-1", "sa-east-1", "us-east-1", "us-east-2", "us-west-1", "us-west-2", "us-gov-east-1", "us-gov-west-1",
   "cn-north-1", "cn-northwest-1"]

/-- Whether the provider has a region of a name in lower case, written with or without its dashes. -/
def isOffered (name : String) : Bool :=
  offered.any fun r => r == name || String.ofList (r.toList.filter (· != '-')) == name

/-- The line to regions, all of which the provider must have. -/
def connect (regions : List Region) : Except Report ApiClient :=
  match regions.find? fun r => !isOffered (Text.lower r.name) with
  | some r =>
    .error ((Report.ofMessage s!"Not a valid AWS region: {Text.lower r.name}").within s!"unknown aws region {r.name}")
  | none => .ok { regions }

end ApiClient

end CloudFleet
