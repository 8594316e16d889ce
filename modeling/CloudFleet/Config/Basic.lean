import CloudFleet.Region.Basic
import CloudFleet.Text.Blank
import CloudFleet.Time.Duration
import CloudFleet.World.File

/-!
# Configuration

The three parts of the configuration with their defaults: the fleet, the secure shell and the benchmark.
-/

set_option autoImplicit false

namespace CloudFleet

/-- How the fleet is kept. -/
structure FleetConfig where
  regions : List Region := Region.defaults
  /-- The pause between polls. -/
  refreshIntervalMs : UInt64 := 5000
  /-- The port that must answer before an instance counts as reachable. -/
  probePort : UInt16 := 22
  /-- How long a probe may take; as long as the pause between polls if absent. -/
  probeTimeoutMs : Option UInt64 := none
  /-- How long to wait for instances to converge; for ever if absent. -/
  convergenceTimeoutSecs : Option UInt64 := none
  instanceType : String := "t2.micro"
  keyName : String := "hydrand"
  securityGroup : String := "hydrand"
  securityGroupDescription : String := "hydrand security group (script generated)"
  imageOwner : String := "amazon"
  imageNamePattern : String := "amzn2-ami-hvm-2.0.????????-x86_64-gp2"
  /-- The script that new instances run first; none if absent. -/
  bootstrapScript : Option Path := some "aws/setup-instance.sh"
  shutdownBehavior : String := "terminate"
  /-- The ports that the security group opens. -/
  ingressPorts : List UInt16 := [22, 8333]
  nodeListPath : Path := "aws/nodes.txt"
  nodeListPort : UInt16 := 8333
deriving DecidableEq

namespace FleetConfig

/-- The pause between polls. -/
def refreshInterval (c : FleetConfig) : Duration := .ofMillis c.refreshIntervalMs.toNat

/-- How long a probe may take. -/
def probeTimeout (c : FleetConfig) : Duration := .ofMillis (c.probeTimeoutMs.getD c.refreshIntervalMs).toNat

/-- How long to wait for convergence, if not for ever. -/
def convergenceTimeout (c : FleetConfig) : Option Duration :=
  c.convergenceTimeoutSecs.map fun s => .ofSeconds s.toNat

end FleetConfig

/-- How hosts are reached. -/
structure SshConfig where
  user : String := "ec2-user"
  privateKey : Path := "~/.ssh/hydrand.pem"
  keepaliveSecs : UInt64 := 30
  sshBinary : String := "ssh"
  scpBinary : String := "scp"
  /-- Where shared connections keep their sockets; the directory for temporary files if absent. -/
  controlDir : Option Path := none
deriving DecidableEq

/-- What is deployed, run and collected. -/
structure BenchConfig where
  payloadDir : Path := "aws"
  /-- The program that builds the archives; none if absent. -/
  packScript : Option Path := some "aws/pack.sh"
  archives : List String := ["hydrand-base.zip", "hydrand.zip"]
  remoteHome : String := "/home/ec2-user"
  workloadDir : String := "hydrand.py"
  workloadCommand : String := "python3 -m hydrand --sync-mode"
  monitorCommand : String := "dstat --integer --noupdate -T -n --tcp --cpu --mem --output ~/stats.log 1"
  monitorPattern : String := "dstat"
  statsFile : String := "~/stats.log"
  killCommand : String := "pkill -9 python3"
  stdLog : String := "/home/ec2-user/std.log"
  resultFile : String := "~/hydrand.py/output/result"
  logFiles : List String :=
    ["/home/ec2-user/std.log", "/home/ec2-user/stats.log", "/home/ec2-user/hydrand.py/output/node.log"]
  dataDir : Path := "data"
  resultsCsv : Path := "data/results.csv"
  /-- The wait after processes were closed, and after a forced kill. -/
  shutdownGraceSecs : UInt64 := 5
  /-- The wait after the expected end of a run. -/
  postRunGraceSecs : UInt64 := 10
deriving DecidableEq

namespace BenchConfig

/-- The wait after processes were closed. -/
def shutdownGrace (c : BenchConfig) : Duration := .ofSeconds c.shutdownGraceSecs.toNat

/-- The wait after the expected end of a run. -/
def postRunGrace (c : BenchConfig) : Duration := .ofSeconds c.postRunGraceSecs.toNat

/-- A file in the home directory of the hosts. -/
def remotePath (c : BenchConfig) (file : String) : String := Text.dropTrailing '/' c.remoteHome ++ "/" ++ file

end BenchConfig

/-- The whole configuration. -/
structure ExperimentConfig where
  fleet : FleetConfig := {}
  ssh : SshConfig := {}
  bench : BenchConfig := {}
deriving DecidableEq

end CloudFleet
