import CloudFleet.Config.Basic
import CloudFleet.Json.Fields
import CloudFleet.Json.Reader

/-!
# The configuration as a record

A configuration file is a JSON object with the parts `fleet`, `ssh` and `bench`. What is left out, a field or a whole
part, takes its default. `ExperimentConfig.toJson` writes every field.
-/

set_option autoImplicit false

namespace CloudFleet

open Json

namespace FleetConfig

/-- The names of the fields, in order. -/
def fieldNames : List String :=
  ["regions", "refresh_interval_ms", "probe_port", "probe_timeout_ms", "convergence_timeout_secs", "instance_type",
   "key_name", "security_group", "security_group_description", "image_owner", "image_name_pattern",
   "bootstrap_script", "shutdown_behavior", "ingress_ports", "node_list_path", "node_list_port"]

/-- The configuration that a value holds, with `base` for what it leaves out. -/
def overlay (base : FleetConfig) (j : Json) : Option FleetConfig := do
  let f ← fields? fieldNames j
  pure {
    regions := ← f.orElse 0 base.regions (list? fun r => (text? r).map Region.mk)
    refreshIntervalMs := ← f.orElse 1 base.refreshIntervalMs word64?
    probePort := ← f.orElse 2 base.probePort word16?
    probeTimeoutMs := ← f.orElse 3 base.probeTimeoutMs (nullable word64?)
    convergenceTimeoutSecs := ← f.orElse 4 base.convergenceTimeoutSecs (nullable word64?)
    instanceType := ← f.orElse 5 base.instanceType text?
    keyName := ← f.orElse 6 base.keyName text?
    securityGroup := ← f.orElse 7 base.securityGroup text?
    securityGroupDescription := ← f.orElse 8 base.securityGroupDescription text?
    imageOwner := ← f.orElse 9 base.imageOwner text?
    imageNamePattern := ← f.orElse 10 base.imageNamePattern text?
    bootstrapScript := ← f.orElse 11 base.bootstrapScript (nullable text?)
    shutdownBehavior := ← f.orElse 12 base.shutdownBehavior text?
    ingressPorts := ← f.orElse 13 base.ingressPorts (list? word16?)
    nodeListPath := ← f.orElse 14 base.nodeListPath text?
    nodeListPort := ← f.orElse 15 base.nodeListPort word16? }

/-- The configuration that a value holds, with defaults for what it leaves out. -/
def ofJson? (j : Json) : Option FleetConfig := overlay {} j

/-- The configuration as a value. -/
def toJson (c : FleetConfig) : Json :=
  record (fieldNames.zip [
    .array (c.regions.map fun r => ofText r.name), ofWord64 c.refreshIntervalMs, ofWord16 c.probePort,
    ofOption ofWord64 c.probeTimeoutMs, ofOption ofWord64 c.convergenceTimeoutSecs, ofText c.instanceType,
    ofText c.keyName, ofText c.securityGroup, ofText c.securityGroupDescription, ofText c.imageOwner,
    ofText c.imageNamePattern, ofOption ofText c.bootstrapScript, ofText c.shutdownBehavior,
    .array (c.ingressPorts.map ofWord16), ofText c.nodeListPath, ofWord16 c.nodeListPort])

end FleetConfig

namespace SshConfig

/-- The names of the fields, in order. -/
def fieldNames : List String :=
  ["user", "private_key", "keepalive_secs", "ssh_binary", "scp_binary", "control_dir"]

/-- The configuration that a value holds, with `base` for what it leaves out. -/
def overlay (base : SshConfig) (j : Json) : Option SshConfig := do
  let f ← fields? fieldNames j
  pure {
    user := ← f.orElse 0 base.user text?
    privateKey := ← f.orElse 1 base.privateKey text?
    keepaliveSecs := ← f.orElse 2 base.keepaliveSecs word64?
    sshBinary := ← f.orElse 3 base.sshBinary text?
    scpBinary := ← f.orElse 4 base.scpBinary text?
    controlDir := ← f.orElse 5 base.controlDir (nullable text?) }

/-- The configuration that a value holds, with defaults for what it leaves out. -/
def ofJson? (j : Json) : Option SshConfig := overlay {} j

/-- The configuration as a value. -/
def toJson (c : SshConfig) : Json :=
  record (fieldNames.zip [
    ofText c.user, ofText c.privateKey, ofWord64 c.keepaliveSecs, ofText c.sshBinary, ofText c.scpBinary,
    ofOption ofText c.controlDir])

end SshConfig

namespace BenchConfig

/-- The names of the fields, in order. -/
def fieldNames : List String :=
  ["payload_dir", "pack_script", "archives", "remote_home", "workload_dir", "workload_command", "monitor_command",
   "monitor_pattern", "stats_file", "kill_command", "std_log", "result_file", "log_files", "data_dir", "results_csv",
   "shutdown_grace_secs", "post_run_grace_secs"]

/-- The configuration that a value holds, with `base` for what it leaves out. -/
def overlay (base : BenchConfig) (j : Json) : Option BenchConfig := do
  let f ← fields? fieldNames j
  pure {
    payloadDir := ← f.orElse 0 base.payloadDir text?
    packScript := ← f.orElse 1 base.packScript (nullable text?)
    archives := ← f.orElse 2 base.archives (list? text?)
    remoteHome := ← f.orElse 3 base.remoteHome text?
    workloadDir := ← f.orElse 4 base.workloadDir text?
    workloadCommand := ← f.orElse 5 base.workloadCommand text?
    monitorCommand := ← f.orElse 6 base.monitorCommand text?
    monitorPattern := ← f.orElse 7 base.monitorPattern text?
    statsFile := ← f.orElse 8 base.statsFile text?
    killCommand := ← f.orElse 9 base.killCommand text?
    stdLog := ← f.orElse 10 base.stdLog text?
    resultFile := ← f.orElse 11 base.resultFile text?
    logFiles := ← f.orElse 12 base.logFiles (list? text?)
    dataDir := ← f.orElse 13 base.dataDir text?
    resultsCsv := ← f.orElse 14 base.resultsCsv text?
    shutdownGraceSecs := ← f.orElse 15 base.shutdownGraceSecs word64?
    postRunGraceSecs := ← f.orElse 16 base.postRunGraceSecs word64? }

/-- The configuration that a value holds, with defaults for what it leaves out. -/
def ofJson? (j : Json) : Option BenchConfig := overlay {} j

/-- The configuration as a value. -/
def toJson (c : BenchConfig) : Json :=
  record (fieldNames.zip [
    ofText c.payloadDir, ofOption ofText c.packScript, ofTexts c.archives, ofText c.remoteHome, ofText c.workloadDir,
    ofText c.workloadCommand, ofText c.monitorCommand, ofText c.monitorPattern, ofText c.statsFile,
    ofText c.killCommand, ofText c.stdLog, ofText c.resultFile, ofTexts c.logFiles, ofText c.dataDir,
    ofText c.resultsCsv, ofWord64 c.shutdownGraceSecs, ofWord64 c.postRunGraceSecs])

end BenchConfig

namespace ExperimentConfig

/-- The names of the parts, in order. -/
def fieldNames : List String := ["fleet", "ssh", "bench"]

/-- The configuration that a value holds. -/
def ofJson? (j : Json) : Option ExperimentConfig := do
  let f ← fields? fieldNames j
  pure {
    fleet := ← f.orElse 0 {} FleetConfig.ofJson?
    ssh := ← f.orElse 1 {} SshConfig.ofJson?
    bench := ← f.orElse 2 {} BenchConfig.ofJson? }

/-- The configuration as a value. -/
def toJson (c : ExperimentConfig) : Json :=
  record (fieldNames.zip [c.fleet.toJson, c.ssh.toJson, c.bench.toJson])

/-- The configuration that a text holds. -/
def read? (text : String) : Option ExperimentConfig := (Json.read? text).bind ofJson?

end ExperimentConfig

end CloudFleet
