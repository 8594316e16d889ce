import CloudFleet.Cloud.Call
import CloudFleet.Text.Base64

/-!
# Forms

A call is sent to the provider as a form: an action with named parameters. Lists are numbered from one, and an empty
list sends nothing.
-/

set_option autoImplicit false

namespace CloudFleet

/-- Parameters by name. -/
abbrev Form := List (String × String)

namespace Form

/-- A list of parameters of one name. -/
def numbered (name : String) (values : List String) : Form :=
  (values.zipIdx 1).map fun e => (s!"{name}.{e.2}", e.1)

/-- A truth value as a parameter. -/
def flag (name : String) (value : Bool) : Form := [(name, toString value)]

/-- A number of instances as the provider takes it, which is signed and has 64 bits. -/
def number (n : Nat) : String := toString ((n : Int).bmod (1 <<< 64))

/-- The form with the token of a page, if there is one. -/
def withToken (token : Option String) (f : Form) : Form := f ++ token.toList.map fun t => ("NextToken", t)

/-- The form ordered by name. -/
def sorted (f : Form) : Form := f.mergeSort fun a b => decide (a.1 ≤ b.1)

end Form

namespace CloudCall

/-- The provider's name for the operation of a call. -/
def action : CloudCall → String
  | describeInstances .. => "DescribeInstances"
  | describeStatuses .. => "DescribeInstanceStatus"
  | transition .start .. => "StartInstances"
  | transition .stop .. => "StopInstances"
  | transition .reboot .. => "RebootInstances"
  | transition .terminate .. => "TerminateInstances"
  | launch .. => "RunInstances"
  | describeImages .. => "DescribeImages"
  | listGroups _ => "DescribeSecurityGroups"
  | deleteGroup .. => "DeleteSecurityGroup"
  | createGroup .. => "CreateSecurityGroup"
  | openPort .. => "AuthorizeSecurityGroupIngress"

/-- The parameters of a call. -/
def parameters : CloudCall → Form
  | describeInstances _ ids | describeStatuses _ ids => Form.numbered "InstanceId" ids
  | transition _ _ ids dryRun => Form.numbered "InstanceId" ids ++ Form.flag "DryRun" dryRun
  | launch _ r dryRun =>
    [("ImageId", r.image), ("InstanceType", r.instanceType), ("KeyName", r.keyName),
     ("MinCount", Form.number r.count), ("MaxCount", Form.number r.count), ("UserData", Base64.encode r.userData),
     ("InstanceInitiatedShutdownBehavior", r.shutdownBehavior)]
      ++ Form.numbered "SecurityGroup" [r.securityGroup] ++ Form.flag "DryRun" dryRun
  | describeImages _ owner pattern =>
    Form.numbered "Owner" [owner] ++ [("Filter.1.Name", "name"), ("Filter.1.Value.1", pattern)]
  | listGroups _ => []
  | deleteGroup _ name => [("GroupName", name)]
  | createGroup _ name description => [("GroupName", name), ("GroupDescription", description)]
  | openPort _ name port =>
    [("GroupName", name), ("IpProtocol", "tcp"), ("FromPort", toString port.toNat), ("ToPort", toString port.toNat),
     ("CidrIp", "0.0.0.0/0")]

/-- The form of a call. -/
def form (c : CloudCall) : Form := ("Action", c.action) :: c.parameters

end CloudCall

end CloudFleet
