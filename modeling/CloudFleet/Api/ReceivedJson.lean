import CloudFleet.Api.Client
import CloudFleet.Json.Access

/-!
# Answers of the provider as values

An answer is described by its text, or by what it holds.
-/

set_option autoImplicit false

namespace CloudFleet

open Json

namespace Page

/-- The element around something, if it is there. -/
def wrapped {α : Type} (name : String) (inner : α → List Markup) : Option α → List Markup
  | some a => [.element name (inner a)]
  | none => []

/-- An element that holds the text under a key, if there is one. -/
def leafAt (j : Json) (key name : String) : List Markup := wrapped name (fun s => [.text s]) (textAt? j key)

/-- A list with an item for each value under a key, if there is something under it. -/
def listAt (j : Json) (key name : String) (item : Json → List Markup) : List Markup :=
  wrapped name (fun js => js.map fun j => .element "item" (item j)) (if hasAt j key then some (itemsAt j key) else none)

/-- What the item of an instance holds. -/
def instanceMarkup (j : Json) : List Markup :=
  leafAt j "id" "instanceId"
    ++ wrapped "instanceState" (wrapped "name" fun s => [.text s]) (givenAt j "state")
    ++ leafAt j "dnsname" "dnsName"

/-- What the item of a health check holds. -/
def statusMarkup (j : Json) : List Markup :=
  leafAt j "id" "instanceId" ++ wrapped "instanceStatus" (wrapped "status" fun s => [.text s]) (givenAt j "status")

/-- What the item of a reservation holds. -/
def reservationMarkup (j : Json) : List Markup :=
  if isNull j then [] else [.element "instancesSet" ((items j).map fun i => .element "item" (instanceMarkup i))]

/-- The page that a value describes. -/
def ofJson (j : Json) : Markup :=
  .element "Response" (listAt j "reservations" "reservationSet" reservationMarkup
    ++ listAt j "instances" "instancesSet" instanceMarkup
    ++ listAt j "statuses" "instanceStatusSet" statusMarkup
    ++ listAt j "images" "imagesSet" (fun i => leafAt i "id" "imageId" ++ leafAt i "creation_date" "creationDate")
    ++ listAt j "groups" "securityGroupInfo" (fun g => wrapped "groupName" (fun s => [.text s]) (text? g))
    ++ leafAt j "next_token" "nextToken")

end Page

/-- The answer that a value describes. -/
def Received.ofJson (j : Json) : Received :=
  match textAt? j "dispatch" with
  | some message => lost message
  | none =>
    answer (natAt j "status" 200) (textAt? j "request_id") ((textAt? j "body").getD (Page.ofJson j).write)

/-- The forms sent as a value. -/
def ApiClient.sentJson (l : ApiClient) : Json :=
  .array (l.sent.map fun e =>
    .array [ofText e.1.name, .array (e.2.sorted.map fun p => ofTexts [p.1, p.2])])

end CloudFleet
