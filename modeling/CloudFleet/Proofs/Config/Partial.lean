import CloudFleet.Config.Load
import CloudFleet.Fleet.Registry
import CloudFleet.Proofs.Json.Records
import CloudFleet.Proofs.World.ProgramLogic
import CloudFleet.World.Inert

/-!
# Partial configurations

A configuration file may leave out any fields, of the whole configuration and of its three sections, in any order and
among fields that are unknown (`IsPartial`). What is loaded from it has in each field that is left the value that was
written, and in each other one the default (`ExperimentConfig.keeping`); a section that is left out as a whole is the
default of that section. Absent is not null: an optional field that is written as null is read as absent, whatever its
default is.

Main statement: `partial_configurations_load`.
-/

set_option autoImplicit false

namespace CloudFleet

open Json

/-! ## What is kept -/

/-- The fleet's part with the kept fields, and defaults elsewhere. -/
def FleetConfig.keeping (kept : String → Bool) (c : FleetConfig) : FleetConfig :=
  let default : FleetConfig := {}
  { regions := if kept "regions" then c.regions else default.regions
    refreshIntervalMs := if kept "refresh_interval_ms" then c.refreshIntervalMs else default.refreshIntervalMs
    probePort := if kept "probe_port" then c.probePort else default.probePort
    probeTimeoutMs := if kept "probe_timeout_ms" then c.probeTimeoutMs else default.probeTimeoutMs
    convergenceTimeoutSecs :=
      if kept "convergence_timeout_secs" then c.convergenceTimeoutSecs else default.convergenceTimeoutSecs
    instanceType := if kept "instance_type" then c.instanceType else default.instanceType
    keyName := if kept "key_name" then c.keyName else default.keyName
    securityGroup := if kept "security_group" then c.securityGroup else default.securityGroup
    securityGroupDescription :=
      if kept "security_group_description" then c.securityGroupDescription else default.securityGroupDescription
    imageOwner := if kept "image_owner" then c.imageOwner else default.imageOwner
    imageNamePattern := if kept "image_name_pattern" then c.imageNamePattern else default.imageNamePattern
    bootstrapScript := if kept "bootstrap_script" then c.bootstrapScript else default.bootstrapScript
    shutdownBehavior := if kept "shutdown_behavior" then c.shutdownBehavior else default.shutdownBehavior
    ingressPorts := if kept "ingress_ports" then c.ingressPorts else default.ingressPorts
    nodeListPath := if kept "node_list_path" then c.nodeListPath else default.nodeListPath
    nodeListPort := if kept "node_list_port" then c.nodeListPort else default.nodeListPort }

/-- The shell's part with the kept fields, and defaults elsewhere. -/
def SshConfig.keeping (kept : String → Bool) (c : SshConfig) : SshConfig :=
  let default : SshConfig := {}
  { user := if kept "user" then c.user else default.user
    privateKey := if kept "private_key" then c.privateKey else default.privateKey
    keepaliveSecs := if kept "keepalive_secs" then c.keepaliveSecs else default.keepaliveSecs
    sshBinary := if kept "ssh_binary" then c.sshBinary else default.sshBinary
    scpBinary := if kept "scp_binary" then c.scpBinary else default.scpBinary
    controlDir := if kept "control_dir" then c.controlDir else default.controlDir }

/-- The benchmark's part with the kept fields, and defaults elsewhere. -/
def BenchConfig.keeping (kept : String → Bool) (c : BenchConfig) : BenchConfig :=
  let default : BenchConfig := {}
  { payloadDir := if kept "payload_dir" then c.payloadDir else default.payloadDir
    packScript := if kept "pack_script" then c.packScript else default.packScript
    archives := if kept "archives" then c.archives else default.archives
    remoteHome := if kept "remote_home" then c.remoteHome else default.remoteHome
    workloadDir := if kept "workload_dir" then c.workloadDir else default.workloadDir
    workloadCommand := if kept "workload_command" then c.workloadCommand else default.workloadCommand
    monitorCommand := if kept "monitor_command" then c.monitorCommand else default.monitorCommand
    monitorPattern := if kept "monitor_pattern" then c.monitorPattern else default.monitorPattern
    statsFile := if kept "stats_file" then c.statsFile else default.statsFile
    killCommand := if kept "kill_command" then c.killCommand else default.killCommand
    stdLog := if kept "std_log" then c.stdLog else default.stdLog
    resultFile := if kept "result_file" then c.resultFile else default.resultFile
    logFiles := if kept "log_files" then c.logFiles else default.logFiles
    dataDir := if kept "data_dir" then c.dataDir else default.dataDir
    resultsCsv := if kept "results_csv" then c.resultsCsv else default.resultsCsv
    shutdownGraceSecs := if kept "shutdown_grace_secs" then c.shutdownGraceSecs else default.shutdownGraceSecs
    postRunGraceSecs := if kept "post_run_grace_secs" then c.postRunGraceSecs else default.postRunGraceSecs }

namespace ExperimentConfig

/-- The names that are kept, of the sections and of the fields in each of them. -/
structure Kept where
  sections : String → Bool
  fleet : String → Bool
  ssh : String → Bool
  bench : String → Bool

/-- The configuration with the kept fields of the kept sections, and defaults elsewhere. -/
def keeping (kept : Kept) (c : ExperimentConfig) : ExperimentConfig where
  fleet := if kept.sections "fleet" then c.fleet.keeping kept.fleet else {}
  ssh := if kept.sections "ssh" then c.ssh.keeping kept.ssh else {}
  bench := if kept.sections "bench" then c.bench.keeping kept.bench else {}

/-- The object comes from the configuration's by deleting the fields that are not kept, permuting the others and adding
unknown ones, in each section and among the sections. -/
inductive IsPartial (kept : Kept) (c : ExperimentConfig) : Json → Prop
  | sections {fleet ssh bench j : Json} (hfleet : PartOf kept.fleet c.fleet.toJson fleet)
      (hssh : PartOf kept.ssh c.ssh.toJson ssh) (hbench : PartOf kept.bench c.bench.toJson bench)
      (h : PartOf kept.sections (record (fieldNames.zip [fleet, ssh, bench])) j) : IsPartial kept c j

end ExperimentConfig

/-! ## Sections -/

section Sections

variable {kept : String → Bool} {j : Json}

theorem FleetConfig.ofJson?_part {c : FleetConfig} (h : PartOf kept c.toJson j) :
    ofJson? j = some (c.keeping kept) := by
  have hregions : list? (fun r => (text? r).map Region.mk) (.array (c.regions.map fun r => ofText r.name))
      = some c.regions := list?_map fun r _ => by rw [text?_ofText, Option.map_some]
  have hports : list? word16? (.array (c.ingressPorts.map ofWord16)) = some c.ingressPorts :=
    list?_map fun p _ => word16?_ofWord16 p
  have hword : ∀ o : Option UInt64, nullable word64? (ofOption ofWord64 o) = some o := fun o =>
    nullable_ofOption rfl fun n _ => word64?_ofWord64 n
  have hscript : nullable text? (ofOption ofText c.bootstrapScript) = some c.bootstrapScript :=
    nullable_ofOption rfl fun s _ => text?_ofText s
  refine bind_of_eq_some (h.fields? (by decide) rfl) ?_
  refine bind_of_eq_some (orElse_fieldsOf rfl hregions _) ?_
  refine bind_of_eq_some (orElse_fieldsOf rfl (word64?_ofWord64 c.refreshIntervalMs) _) ?_
  refine bind_of_eq_some (orElse_fieldsOf rfl (word16?_ofWord16 c.probePort) _) ?_
  refine bind_of_eq_some (orElse_fieldsOf rfl (hword c.probeTimeoutMs) _) ?_
  refine bind_of_eq_some (orElse_fieldsOf rfl (hword c.convergenceTimeoutSecs) _) ?_
  refine bind_of_eq_some (orElse_fieldsOf rfl (text?_ofText c.instanceType) _) ?_
  refine bind_of_eq_some (orElse_fieldsOf rfl (text?_ofText c.keyName) _) ?_
  refine bind_of_eq_some (orElse_fieldsOf rfl (text?_ofText c.securityGroup) _) ?_
  refine bind_of_eq_some (orElse_fieldsOf rfl (text?_ofText c.securityGroupDescription) _) ?_
  refine bind_of_eq_some (orElse_fieldsOf rfl (text?_ofText c.imageOwner) _) ?_
  refine bind_of_eq_some (orElse_fieldsOf rfl (text?_ofText c.imageNamePattern) _) ?_
  refine bind_of_eq_some (orElse_fieldsOf rfl hscript _) ?_
  refine bind_of_eq_some (orElse_fieldsOf rfl (text?_ofText c.shutdownBehavior) _) ?_
  refine bind_of_eq_some (orElse_fieldsOf rfl hports _) ?_
  refine bind_of_eq_some (orElse_fieldsOf rfl (text?_ofText c.nodeListPath) _) ?_
  exact bind_of_eq_some (orElse_fieldsOf rfl (word16?_ofWord16 c.nodeListPort) _) rfl

theorem SshConfig.ofJson?_part {c : SshConfig} (h : PartOf kept c.toJson j) : ofJson? j = some (c.keeping kept) := by
  have hdir : nullable text? (ofOption ofText c.controlDir) = some c.controlDir :=
    nullable_ofOption rfl fun s _ => text?_ofText s
  refine bind_of_eq_some (h.fields? (by decide) rfl) ?_
  refine bind_of_eq_some (orElse_fieldsOf rfl (text?_ofText c.user) _) ?_
  refine bind_of_eq_some (orElse_fieldsOf rfl (text?_ofText c.privateKey) _) ?_
  refine bind_of_eq_some (orElse_fieldsOf rfl (word64?_ofWord64 c.keepaliveSecs) _) ?_
  refine bind_of_eq_some (orElse_fieldsOf rfl (text?_ofText c.sshBinary) _) ?_
  refine bind_of_eq_some (orElse_fieldsOf rfl (text?_ofText c.scpBinary) _) ?_
  exact bind_of_eq_some (orElse_fieldsOf rfl hdir _) rfl

theorem BenchConfig.ofJson?_part {c : BenchConfig} (h : PartOf kept c.toJson j) :
    ofJson? j = some (c.keeping kept) := by
  have hscript : nullable text? (ofOption ofText c.packScript) = some c.packScript :=
    nullable_ofOption rfl fun s _ => text?_ofText s
  have htexts : ∀ ss : List String, list? text? (ofTexts ss) = some ss := fun ss =>
    list?_map fun s _ => text?_ofText s
  refine bind_of_eq_some (h.fields? (by decide) rfl) ?_
  refine bind_of_eq_some (orElse_fieldsOf rfl (text?_ofText c.payloadDir) _) ?_
  refine bind_of_eq_some (orElse_fieldsOf rfl hscript _) ?_
  refine bind_of_eq_some (orElse_fieldsOf rfl (htexts c.archives) _) ?_
  refine bind_of_eq_some (orElse_fieldsOf rfl (text?_ofText c.remoteHome) _) ?_
  refine bind_of_eq_some (orElse_fieldsOf rfl (text?_ofText c.workloadDir) _) ?_
  refine bind_of_eq_some (orElse_fieldsOf rfl (text?_ofText c.workloadCommand) _) ?_
  refine bind_of_eq_some (orElse_fieldsOf rfl (text?_ofText c.monitorCommand) _) ?_
  refine bind_of_eq_some (orElse_fieldsOf rfl (text?_ofText c.monitorPattern) _) ?_
  refine bind_of_eq_some (orElse_fieldsOf rfl (text?_ofText c.statsFile) _) ?_
  refine bind_of_eq_some (orElse_fieldsOf rfl (text?_ofText c.killCommand) _) ?_
  refine bind_of_eq_some (orElse_fieldsOf rfl (text?_ofText c.stdLog) _) ?_
  refine bind_of_eq_some (orElse_fieldsOf rfl (text?_ofText c.resultFile) _) ?_
  refine bind_of_eq_some (orElse_fieldsOf rfl (htexts c.logFiles) _) ?_
  refine bind_of_eq_some (orElse_fieldsOf rfl (text?_ofText c.dataDir) _) ?_
  refine bind_of_eq_some (orElse_fieldsOf rfl (text?_ofText c.resultsCsv) _) ?_
  refine bind_of_eq_some (orElse_fieldsOf rfl (word64?_ofWord64 c.shutdownGraceSecs) _) ?_
  exact bind_of_eq_some (orElse_fieldsOf rfl (word64?_ofWord64 c.postRunGraceSecs) _) rfl

end Sections

/-! ## Well-formed configurations -/

theorem FleetConfig.wellFormed_toJson (c : FleetConfig) : WellFormed c.toJson := by
  have hword : ∀ o : Option UInt64, WellFormed (ofOption ofWord64 o) := fun o =>
    wellFormed_ofOption fun n _ => wellFormed_ofNat _
  refine wellFormed_record _ _ ?_
  simp only [List.forall_mem_cons]
  exact ⟨wellFormed_map fun r _ => wellFormed_ofText r.name, wellFormed_ofNat _, wellFormed_ofNat _, hword _, hword _,
    wellFormed_ofText _, wellFormed_ofText _, wellFormed_ofText _, wellFormed_ofText _, wellFormed_ofText _,
    wellFormed_ofText _, wellFormed_ofOption fun s _ => wellFormed_ofText s, wellFormed_ofText _,
    wellFormed_map fun p _ => wellFormed_ofNat _, wellFormed_ofText _, wellFormed_ofNat _, List.forall_mem_nil _⟩

theorem SshConfig.wellFormed_toJson (c : SshConfig) : WellFormed c.toJson := by
  refine wellFormed_record _ _ ?_
  simp only [List.forall_mem_cons]
  exact ⟨wellFormed_ofText _, wellFormed_ofText _, wellFormed_ofNat _, wellFormed_ofText _, wellFormed_ofText _,
    wellFormed_ofOption fun s _ => wellFormed_ofText s, List.forall_mem_nil _⟩

theorem BenchConfig.wellFormed_toJson (c : BenchConfig) : WellFormed c.toJson := by
  have htexts : ∀ ss : List String, WellFormed (ofTexts ss) := fun ss => wellFormed_map fun s _ => wellFormed_ofText s
  refine wellFormed_record _ _ ?_
  simp only [List.forall_mem_cons]
  exact ⟨wellFormed_ofText _, wellFormed_ofOption fun s _ => wellFormed_ofText s, htexts _, wellFormed_ofText _,
    wellFormed_ofText _, wellFormed_ofText _, wellFormed_ofText _, wellFormed_ofText _, wellFormed_ofText _,
    wellFormed_ofText _, wellFormed_ofText _, wellFormed_ofText _, htexts _, wellFormed_ofText _, wellFormed_ofText _,
    wellFormed_ofNat _, wellFormed_ofNat _, List.forall_mem_nil _⟩

namespace ExperimentConfig

theorem wellFormed_toJson (c : ExperimentConfig) : WellFormed c.toJson := by
  refine wellFormed_record _ _ ?_
  simp only [List.forall_mem_cons]
  exact ⟨c.fleet.wellFormed_toJson, c.ssh.wellFormed_toJson, c.bench.wellFormed_toJson, List.forall_mem_nil _⟩

/-! ## Files -/

/-- A partial configuration is read as the kept fields with defaults for the others. -/
theorem ofJson?_partial {kept : Kept} {c : ExperimentConfig} {j : Json} (h : IsPartial kept c j) :
    ofJson? j = some (c.keeping kept) := by
  obtain ⟨hfleet, hssh, hbench, h⟩ := h
  refine bind_of_eq_some (h.fields? (by decide) rfl) ?_
  refine bind_of_eq_some (orElse_fieldsOf rfl (FleetConfig.ofJson?_part hfleet) _) ?_
  refine bind_of_eq_some (orElse_fieldsOf rfl (SshConfig.ofJson?_part hssh) _) ?_
  exact bind_of_eq_some (orElse_fieldsOf rfl (BenchConfig.ofJson?_part hbench) _) rfl

/-- Every section and every field is kept. -/
def Kept.all : Kept := ⟨fun _ => true, fun _ => true, fun _ => true, fun _ => true⟩

theorem isPartial_toJson (c : ExperimentConfig) : IsPartial .all c c.toJson :=
  .sections (partOf_record _) (partOf_record _) (partOf_record _) (partOf_record _)

variable {τ σ : Type} [Memory τ]

/-- Loading is reading the file and then its text. -/
theorem run_load {w : World σ} {s : Run τ σ} {path : Path} {text : String} {c : ExperimentConfig}
    (hfile : s.reply w (.file (.readText path)) = .ok text) (hread : read? text = some c) :
    (load (some path)).run w s = (.returned c, s.ask w (.file (.readText path))) := by
  have hreport : (Program.reportFile (.readText path) : Program τ Report String).run w s
      = (.returned text, s.ask w (.file (.readText path))) := by
    rw [Program.reportFile, Program.run_andThen_of_returned (Program.run_request w _ s), hfile]
    rfl
  have hwithin : (Program.within s!"read config file {path}" (Program.reportFile (.readText path)) :
      Program τ Report String).run w s = (.returned text, s.ask w (.file (.readText path))) := by
    rw [Program.within, Program.mapError, Program.run_andThen, Program.run_attempt, hreport]
    rfl
  rw [load, Program.run_andThen_of_returned hwithin, hread]
  rfl

/-- **Partial configurations mean what they say.** From a file with the JSON of a configuration, on one line or on many,
the configuration is loaded; from a file with any text of an object that comes from it by deleting fields and sections,
permuting the others and adding unknown ones, what is kept is loaded, with the defaults for what is deleted. -/
theorem partial_configurations_load (w : World σ) (s : Run τ σ) (path : Path) (text : String)
    (hfile : s.reply w (.file (.readText path)) = .ok text) (c : ExperimentConfig) :
    (text ∈ [c.toJson.compact, c.toJson.pretty] →
      (load (some path)).run w s = (.returned c, s.ask w (.file (.readText path))))
    ∧ ∀ (kept : Kept) (j : Json), IsPartial kept c j → IsText text j →
      (load (some path)).run w s = (.returned (c.keeping kept), s.ask w (.file (.readText path))) := by
  refine ⟨fun htext => run_load hfile ?_, fun kept j hpart htext => run_load hfile ?_⟩
  · rw [read?, c.wellFormed_toJson.read?_print htext]
    exact ofJson?_partial c.isPartial_toJson
  · rw [read?, Json.read?_of_isText htext]
    exact ofJson?_partial hpart

/-- A configuration without a script to pack the archives, which the default has. -/
def unpacked : ExperimentConfig := { bench := { packScript := none, dataDir := "d", payloadDir := "p" } }

/-- What is left of its last section: two fields in the other order, and an unknown one between them. -/
def remnantBench : Json := record [("data_dir", ofText "d"), ("colour", .array [ofNat 1]), ("pack_script", .null)]

/-- What is left of it: the last section, behind an unknown one. -/
def remnant : Json := record [("extra", .null), ("bench", remnantBench)]

/-- The fields that are left. -/
def remnantKept : Kept where
  sections name := name == "bench"
  fleet _ := true
  ssh _ := true
  bench name := name == "pack_script" || name == "data_dir"

theorem isPartial_remnant : IsPartial remnantKept unpacked remnant := by
  have hbench : PartOf remnantKept.bench unpacked.bench.toJson remnantBench := by
    refine partOf_of_perm [("colour", .array [ofNat 1])] ?_ ?_
    · exact @List.perm_append_comm _ [("data_dir", ofText "d"), ("colour", .array [ofNat 1])] [("pack_script", .null)]
    · simp [BenchConfig.fieldNames]
  refine .sections (partOf_record _) (partOf_record _) hbench (partOf_of_perm [("extra", .null)] ?_ ?_)
  · exact @List.perm_append_comm _ [("extra", .null)] [("bench", remnantBench)]
  · simp [fieldNames]

theorem wellFormed_remnant : WellFormed remnant := by
  have hcolour : WellFormed (.array [ofNat 1]) := .array fun j hj => List.mem_singleton.mp hj ▸ wellFormed_ofNat 1
  have hbench : WellFormed remnantBench := by
    refine wellFormed_record ["data_dir", "colour", "pack_script"] [ofText "d", .array [ofNat 1], .null] ?_
    simp only [List.forall_mem_cons]
    exact ⟨wellFormed_ofText "d", hcolour, .null, List.forall_mem_nil _⟩
  refine wellFormed_record ["extra", "bench"] [.null, remnantBench] ?_
  simp only [List.forall_mem_cons]
  exact ⟨.null, hbench, List.forall_mem_nil _⟩

/-- A world with one text in all files. -/
def oneText (text : String) : World Unit where
  answer
    | .file (.readText _), s => (.ok text, s)
    | r, s => (r.unanswered, s)

/-- The null that is left means no script, and the directory that was deleted is the default one. -/
theorem partial_configurations_load_remnant :
    ((load (some "c.json") : Program Fleet Report ExperimentConfig).run (oneText remnant.compact) ⟨{}, (), []⟩).1
      = .returned { bench := { packScript := none, dataDir := "d" } } := by
  have hload := (partial_configurations_load (oneText remnant.compact) (⟨{}, (), []⟩ : Run Fleet Unit) "c.json"
    remnant.compact rfl unpacked).2 remnantKept remnant isPartial_remnant wellFormed_remnant.isText_compact
  have hkeeping : unpacked.keeping remnantKept = { bench := { packScript := none, dataDir := "d" } } := by
    simp [keeping, BenchConfig.keeping, remnantKept, unpacked]
  rw [hload, hkeeping]

end ExperimentConfig
end CloudFleet
