import CloudFleet.Bench.Deploy
import CloudFleet.Proofs.Remote.Session
import CloudFleet.Proofs.Text.Digest

/-!
# Hosts that hold archives

`depot c w` is a world like `w` in which the hosts hold files and the machine has local ones: `w` decides what
succeeds and what fails, and the depot what that means. A copy that succeeds leaves the local file on the host, the
command that unpacks takes over what lies there, and the command that asks for a digest prints that of the file that
lies there (`depot_copyTo`, `depot_unpack`, `depot_check`); nothing else touches the hosts (`disks_ask`).
-/

set_option autoImplicit false

namespace CloudFleet

variable {σ : Type}

/-- What the hosts hold, by host and path: the files that lie there, and as they were when last unpacked. -/
structure Disks where
  stored : String → String → Option ByteArray
  unpacked : String → String → Option ByteArray

namespace Disks

/-- The hosts after one of them received a file. -/
def receive (d : Disks) (host remote : String) (bytes : ByteArray) : Disks :=
  { d with stored := fun h r => if h = host ∧ r = remote then some bytes else d.stored h r }

/-- The hosts after one of them unpacked what lies there. -/
def unpack (d : Disks) (host : String) : Disks :=
  { d with unpacked := fun h => if h = host then d.stored h else d.unpacked h }

/-- The digest of a file on a host. -/
def digest? (d : Disks) (host remote : String) : Option String := (d.stored host remote).map Digest.digest

/-- What a host prints when it is asked for the digest of a file. -/
def line (d : Disks) (host remote : String) : String :=
  match d.stored host remote with
  | some bytes => Digest.digest bytes ++ "  " ++ remote
  | none => ""

/-- What a host has unpacked has the digests of what lies there. -/
def InStep (c : BenchConfig) (d : Disks) (host : String) : Prop :=
  ∀ archive ∈ c.archives, (d.unpacked host (c.remotePath archive)).map Digest.digest
    = d.digest? host (c.remotePath archive)

end Disks

/-- Hosts and a machine with local files, in the surroundings of another world. -/
structure Depot (σ : Type) where
  disks : Disks
  /-- The local files. -/
  contents : Path → ByteArray
  rest : σ

open Session (ExecReply)

/-- Whether a command ended with code 0. -/
def succeeds : ExecReply → Bool
  | .after _ (.ok out) => out.exitCode == some 0
  | _ => false

/-- The answer with another text on standard output. -/
def printing (text : String) : ExecReply → ExecReply
  | .after delay (.ok out) => .after delay (.ok { out with stdout := text })
  | e => e

/-- The archive on the hosts whose digest a command asks for. -/
def checked? (c : BenchConfig) (command : String) : Option String :=
  (c.archives.map c.remotePath).find? fun remote => Bench.digestCommand remote == command

/-- What becomes of the hosts when a request has been answered. -/
def Disks.after (c : BenchConfig) (contents : Path → ByteArray) (d : Disks) : (r : Request) → r.Reply → Disks
  | .shell (.copyTo host localPath remote), .ok () => d.receive host remote (contents localPath)
  | .shell (.exec host command _), reply =>
    if succeeds reply && command == Bench.unpackCommand c then d.unpack host else d
  | _, _ => d

/-- What is seen of an answer: local files as they are, and digests as the hosts print them. -/
def Depot.seen (c : BenchConfig) (d : Depot σ) : (r : Request) → r.Reply → r.Reply
  | .file (.readBytes path), .ok _ => .ok (d.contents path)
  | .shell (.exec host command _), reply =>
    match checked? c command with
    | some remote => if succeeds reply then printing (d.disks.line host remote) reply else reply
    | none => reply
  | _, reply => reply

/-- A world like another one, in which the hosts hold archives. -/
def depot (c : BenchConfig) (w : World σ) : World (Depot σ) where
  answer r d :=
    let (reply, rest) := w.answer r d.rest
    (d.seen c r reply, ⟨d.disks.after c d.contents r reply, d.contents, rest⟩)

/-! ## Commands -/

theorem toList_digestCommand (remote : String) : (Bench.digestCommand remote).toList = "[ -f ".toList
    ++ (remote.toList ++ (" ] && sha256sum ".toList ++ (remote.toList ++ " || echo \"\"".toList))) := by
  have hform : Bench.digestCommand remote
      = "[ -f " ++ remote ++ " ] && sha256sum " ++ remote ++ " || echo \"\"" := rfl
  rw [hform]
  simp only [String.toList_append, List.append_assoc]

/-- Different files are asked for by different commands. -/
theorem digestCommand_injective {a b : String} (h : Bench.digestCommand a = Bench.digestCommand b) : a = b := by
  have hlist := congrArg String.toList h
  rw [toList_digestCommand, toList_digestCommand] at hlist
  -- the path stands twice in the command, so commands of one length have paths of one length
  have hrest := List.append_cancel_left hlist
  have hlength : a.toList.length = b.toList.length := by
    have := congrArg List.length hrest
    simp only [List.length_append] at this
    omega
  exact String.toList_inj.mp (List.append_inj_left hrest hlength)

theorem digestCommand_ne_unpackCommand (c : BenchConfig) (remote : String) :
    Bench.digestCommand remote ≠ Bench.unpackCommand c := by
  intro h
  have hform : Bench.unpackCommand c = "cd " ++ c.remoteHome ++ " && "
      ++ " && ".intercalate (("rm -rf " ++ c.workloadDir) :: c.archives.map fun a => "unzip -o -q " ++ a) :=
    String.intercalate_cons_cons
  have hlist := congrArg String.toList h
  rw [toList_digestCommand, hform] at hlist
  simp only [String.toList_append, List.append_assoc] at hlist
  exact absurd (List.head_eq_of_cons_eq hlist) (by decide)

theorem checked?_unpackCommand (c : BenchConfig) : checked? c (Bench.unpackCommand c) = none := by
  refine List.find?_eq_none.mpr fun remote _ => ?_
  simpa using digestCommand_ne_unpackCommand c remote

theorem checked?_digestCommand {c : BenchConfig} {archive : String} (h : archive ∈ c.archives) :
    checked? c (Bench.digestCommand (c.remotePath archive)) = some (c.remotePath archive) := by
  cases hf : checked? c (Bench.digestCommand (c.remotePath archive)) with
  | none =>
    have hne := List.find?_eq_none.mp hf (c.remotePath archive) (List.mem_map.mpr ⟨archive, h, rfl⟩)
    simp at hne
  | some remote =>
    unfold checked? at hf
    have heq := List.find?_some hf
    rw [digestCommand_injective (beq_iff_eq.mp heq)]

/-- Different archives have different places on the hosts. -/
theorem remotePath_injective {c : BenchConfig} {a b : String} (h : c.remotePath a = c.remotePath b) : a = b := by
  have hlist := congrArg String.toList h
  simp only [BenchConfig.remotePath, String.toList_append] at hlist
  exact String.toList_inj.mp (List.append_cancel_left hlist)

/-! ## Steps of a depot -/

section Steps

variable {c : BenchConfig} {w : World σ} (t : Run Session (Depot σ))

/-- Requests that do not go to a host leave the hosts alone. -/
theorem disks_ask {r : Request} (hr : r.remote = false) : (t.ask (depot c w) r).world.disks = t.world.disks := by
  cases r with
  | shell call => cases hr
  | _ => rfl

/-- A copy that succeeds leaves the local file on the host. -/
theorem disks_copyTo {host : String} {localPath : Path} {remote : String}
    (h : t.reply (depot c w) (.shell (.copyTo host localPath remote)) = .ok ()) :
    (t.ask (depot c w) (.shell (.copyTo host localPath remote))).world.disks
      = t.world.disks.receive host remote (t.world.contents localPath) := by
  have hw : (w.answer (.shell (.copyTo host localPath remote)) t.world.rest).1 = .ok () := h
  show t.world.disks.after c t.world.contents (.shell (.copyTo host localPath remote))
    (w.answer (.shell (.copyTo host localPath remote)) t.world.rest).1 = _
  rw [hw]
  rfl

/-- A copy that fails leaves nothing. -/
theorem disks_copyTo_error {host : String} {localPath : Path} {remote : String} {e : TransportError}
    (h : t.reply (depot c w) (.shell (.copyTo host localPath remote)) = .error e) :
    (t.ask (depot c w) (.shell (.copyTo host localPath remote))).world.disks = t.world.disks := by
  have hw : (w.answer (.shell (.copyTo host localPath remote)) t.world.rest).1 = .error e := h
  show t.world.disks.after c t.world.contents (.shell (.copyTo host localPath remote))
    (w.answer (.shell (.copyTo host localPath remote)) t.world.rest).1 = _
  rw [hw]
  rfl

/-- If what is seen of an answer ended with code 0, then so did the answer, and what is seen is the other text. -/
theorem stdout_of_printing {reply : ExecReply} {text : String} {delay : Duration} {out : Output}
    (h : (if succeeds reply then printing text reply else reply) = .after delay (.ok out))
    (hcode : out.exitCode = some 0) : out.stdout = text := by
  by_cases hs : succeeds reply = true
  · rw [if_pos hs] at h
    cases reply with
    | never => cases h
    | after d answer =>
      cases answer with
      | error e => cases h
      | ok found =>
        cases h
        rfl
  · rw [if_neg hs] at h
    subst h
    exact absurd (by simpa [succeeds] using hcode) hs

/-- The answer to the question for a digest is the digest of what lies there, and the hosts are left alone. -/
theorem depot_check {archive : String} (harchive : archive ∈ c.archives) (host : String) :
    (t.ask (depot c w) (.shell (.exec host (Bench.digestCommand (c.remotePath archive)) false))).world.disks
        = t.world.disks
      ∧ ∀ delay out, t.reply (depot c w) (.shell (.exec host (Bench.digestCommand (c.remotePath archive)) false))
          = .after delay (.ok out) → out.exitCode = some 0 →
        out.stdout = t.world.disks.line host (c.remotePath archive) := by
  let command := Bench.digestCommand (c.remotePath archive)
  let reply : ExecReply := (w.answer (.shell (.exec host command false)) t.world.rest).1
  have hne : (command == Bench.unpackCommand c) = false := by
    simpa using digestCommand_ne_unpackCommand c (c.remotePath archive)
  have hseen : t.reply (depot c w) (.shell (.exec host command false))
      = if succeeds reply then printing (t.world.disks.line host (c.remotePath archive)) reply else reply := by
    show (match checked? c command with
      | some remote => if succeeds reply then printing (t.world.disks.line host remote) reply else reply
      | none => reply) = _
    rw [checked?_digestCommand harchive]
  refine ⟨?_, fun delay out hreply hcode => ?_⟩
  · show (if succeeds reply && command == Bench.unpackCommand c then t.world.disks.unpack host else t.world.disks) = _
    rw [hne, Bool.and_false, if_neg Bool.false_ne_true]
  · rw [hseen] at hreply
    exact stdout_of_printing hreply hcode

/-- The command that unpacks does so where it succeeds. -/
theorem depot_unpack (host : String) :
    (t.ask (depot c w) (.shell (.exec host (Bench.unpackCommand c) false))).world.disks
      = if succeeds (t.reply (depot c w) (.shell (.exec host (Bench.unpackCommand c) false)))
        then t.world.disks.unpack host else t.world.disks := by
  let reply : ExecReply := (w.answer (.shell (.exec host (Bench.unpackCommand c) false)) t.world.rest).1
  have hseen : t.reply (depot c w) (.shell (.exec host (Bench.unpackCommand c) false)) = reply := by
    show (match checked? c (Bench.unpackCommand c) with
      | some remote => if succeeds reply then printing (t.world.disks.line host remote) reply else reply
      | none => reply) = _
    rw [checked?_unpackCommand]
  rw [hseen]
  show (if succeeds reply && Bench.unpackCommand c == Bench.unpackCommand c then t.world.disks.unpack host
    else t.world.disks) = _
  rw [beq_self_eq_true, Bool.and_true]

/-- The first word that a host prints is the digest of what lies there. -/
theorem firstWord?_line (d : Disks) (host remote : String) :
    Text.firstWord? (d.line host remote) = d.digest? host remote := by
  unfold Disks.line Disks.digest?
  cases d.stored host remote with
  | none => rfl
  | some bytes =>
    have hspaces : Digest.digest bytes ++ "  " ++ remote = Digest.digest bytes ++ " " ++ (" " ++ remote) := by
      rw [show ("  " : String) = " " ++ " " by decide]
      simp only [String.append_assoc]
    dsimp only
    rw [hspaces, Digest.firstWord?_digest_append]
    rfl

end Steps

end CloudFleet
