import CloudFleet.Json.Access
import CloudFleet.Rehearsal.ControlPlane
import CloudFleet.Rehearsal.Hosts
import CloudFleet.Remote.OutcomeJson

/-!
# Settings of rehearsals as values

How control planes and hosts are described, and how what they are made of is altered on the way.
-/

set_option autoImplicit false

namespace CloudFleet.Rehearsal

open Json

/-- A region with a text. -/
def regionWithText (j : Json) : Region × String := (⟨itemText j 0⟩, itemText j 1)

/-- The machine that a value describes; it is healthy unless it says otherwise. -/
def Machine.ofJson (j : Json) : Machine :=
  ControlPlane.machine (textAt j "id") ⟨textAt j "region"⟩ (textAt j "state") (givenAt j "dnsname")
    ((givenAt j "status").getD (some "ok"))

/-- The planned answer of an operation. -/
def Canned.ofJson (operation : String) (j : Json) : Canned :=
  match givenAt j "error" with
  | some (some message) => failure message
  | some none => dryRun
  | none =>
    match operation with
    | "describe_instances" | "run_instances" => instances ((itemsAt j "ok").map InstanceRecord.ofJson)
    | "describe_instance_status" => statuses ((itemsAt j "ok").map fun r => ⟨textAt r "id", textAt? r "status"⟩)
    | "start_instances" | "stop_instances" | "reboot_instances" | "terminate_instances" => done
    | _ => usual

namespace ControlPlane

/-- A planned answer with its region and its operation. -/
def replyOf (j : Json) : Region × String × Canned := (⟨itemText j 0⟩, itemText j 1, .ofJson (itemText j 1) (item j 2))

/-- An image with its region. -/
def imageOf (j : Json) : Region × ImageRecord := (⟨itemText j 0⟩, ⟨itemText j 1, itemText j 2⟩)

/-- The control plane that a value describes; it knows the given regions if it says nothing of them. -/
def ofJson (known : List Region) (j : Json) : ControlPlane where
  regions := if hasAt j "regions" then (textsAt j "regions").map Region.mk else known
  machines := (itemsAt j "instances").map Machine.ofJson
  images := (itemsAt j "images").map imageOf
  groups := (itemsAt j "groups").map regionWithText
  failing := (itemsAt j "fail").map regionWithText
  replies := (itemsAt j "reply").map replyOf

/-- A change that is made if there is something under its key. -/
def changeAt (j : Json) (key : String) (f : Json → ControlPlane → ControlPlane) (p : ControlPlane) : ControlPlane :=
  if hasAt j key then f (get j key) p else p

/-- The plane after the changes that a value describes. -/
def changed (j : Json) (p : ControlPlane) : ControlPlane :=
  p |> changeAt j "instance" (fun m p => p.add (.ofJson m))
    |> changeAt j "set" (fun s p =>
      p.change (textAt s "id") (edit (textAt? s "state") (givenAt s "dnsname") (givenAt s "status")))
    |> changeAt j "remove" (fun id p => p.remove ((text? id).getD ""))
    |> changeAt j "image" (fun i p => { p with images := p.images ++ [imageOf i] })
    |> changeAt j "group" (fun g p => { p with groups := p.groups ++ [regionWithText g] })
    |> changeAt j "fail" (fun f p => { p with failing := p.failing ++ [regionWithText f] })
    |> changeAt j "unfail" (fun f p => p.repair (regionWithText f).1 (regionWithText f).2)
    |> changeAt j "reply" (fun r p => { p with replies := p.replies ++ [replyOf r] })

/-- The groups and the ports they open as a value. -/
def groupsJson (p : ControlPlane) : Json :=
  Json.record [("groups", .array (p.groups.map fun g => ofTexts [g.1.name, g.2])),
    ("ingress", .array (p.ingress.map fun i => .array [ofText i.1.name, ofText i.2.1, ofWord16 i.2.2]))]

end ControlPlane

/-- The response that a value describes; commands succeed unless it says otherwise. -/
def Response.ofJson (j : Json) : Response where
  host := textAt? j "host"
  pattern := textAt j "pattern"
  answer :=
    if hasAt j "error" then .error (.ofJson (get j "error"))
    else .ok ⟨if has j "code" then int? (get j "code") else some 0, textAt j "stdout", textAt j "stderr"⟩

namespace Hosts

/-- The hosts that a value describes. -/
def ofJson (j : Json) : Hosts where
  responses := (itemsAt j "responses").map Response.ofJson
  unreachable := textsAt j "unreachable"
  noSpawn := textsAt j "no_spawn"
  noCopy := textsAt j "no_copy"
  noClose := textsAt j "no_close"
  hanging := textsAt j "hang"
  delays := (itemsAt j "delay").map fun d => (itemText d 0, .ofMillis (itemNat d 1))

/-- The hosts without what is special about them in some ways. -/
def without (ways : List String) (h : Hosts) : Hosts :=
  let keep {α : Type} (way : String) (xs : List α) : List α := if ways.contains way then [] else xs
  { h with
    responses := keep "responses" h.responses
    unreachable := keep "unreachable" h.unreachable
    noSpawn := keep "no_spawn" h.noSpawn
    noCopy := keep "no_copy" h.noCopy
    noClose := keep "no_close" h.noClose
    hanging := keep "hang" h.hanging
    delays := keep "delay" h.delays }

/-- The hosts after the changes that a value describes. -/
def changed (j : Json) (h : Hosts) : Hosts := (h.without (textsAt j "clear")).merge (.ofJson j)

end Hosts

end CloudFleet.Rehearsal
