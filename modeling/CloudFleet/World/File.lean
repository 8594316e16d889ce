/-!
# Files and programs of the local machine

Paths, the calls on the local file system and on local programs, and how they fail.
-/

set_option autoImplicit false

namespace CloudFleet

/-- A path, as it is written. -/
abbrev Path := String

namespace Path

/-- `path` seen from `base`: itself if it is absolute. -/
def join (base path : Path) : Path :=
  if path.startsWith "/" then path
  else if base.isEmpty || base.endsWith "/" then base ++ path
  else base ++ "/" ++ path

/-- A reversed path without the separators and dots at its end that name nothing. -/
def trimReversed : List Char → List Char
  | '/' :: rest => if rest.isEmpty then ['/'] else trimReversed rest
  | '.' :: '/' :: rest => if rest.isEmpty then ['/'] else trimReversed rest
  | cs => cs

/-- The directory of a path: empty for a bare name, absent for the root and the empty path. -/
def parent? (path : Path) : Option Path :=
  match trimReversed path.toList.reverse with
  | [] => none
  | ['/'] => none
  | cs => some (.ofList (trimReversed (cs.dropWhile (· != '/'))).reverse)

/-- The last segment of a remote path: what follows its last slash. -/
def lastSegment (path : String) : String :=
  .ofList (path.toList.reverse.takeWhile (· != '/')).reverse

/-- What is left of a path in front of which separators and dots that name nothing are dropped. -/
def trimFront : List Char → List Char
  | '/' :: rest => trimFront rest
  | '.' :: '/' :: rest => trimFront rest
  | cs => if cs = ['.'] then [] else cs

/-- The part of a path below the home directory's mark, if the path begins with the mark as a whole segment. -/
def belowHome? (path : Path) : Option Path :=
  match path.toList with
  | ['~'] => some ""
  | '~' :: '/' :: rest => some (.ofList (trimReversed (trimFront rest).reverse).reverse)
  | _ => none

/-- A path with the mark of the home directory replaced by the directory, if there is one. -/
def expandHome (home : Option Path) (path : Path) : Path :=
  match belowHome? path, home with
  | some rest, some home => join home rest
  | _, _ => path

end Path

/-- Why the operating system refused something. -/
structure SystemError where
  /-- Whether what was asked for does not exist. -/
  missing : Bool
  /-- The system's own wording. -/
  text : String
deriving DecidableEq, Inhabited

/-- How a program ended. -/
inductive ExitStatus
  | exited (code : Int)
  /-- It was killed by a signal. -/
  | killed (signal : Nat)
deriving DecidableEq, Inhabited

namespace ExitStatus

/-- The exit code, absent for a program that was killed. -/
def code? : ExitStatus → Option Int
  | exited code => some code
  | killed _ => none

/-- Whether a program ended with code 0. -/
def isSuccess (s : ExitStatus) : Bool := s.code? == some 0

/-- The names of the signals that end programs. -/
def signalNames : List (Nat × String) :=
  [(1, "SIGHUP"), (2, "SIGINT"), (3, "SIGQUIT"), (4, "SIGILL"), (6, "SIGABRT"), (8, "SIGFPE"), (9, "SIGKILL"),
   (10, "SIGUSR1"), (11, "SIGSEGV"), (12, "SIGUSR2"), (13, "SIGPIPE"), (14, "SIGALRM"), (15, "SIGTERM")]

/-- How a program ended, in words. -/
def text : ExitStatus → String
  | exited code => s!"exit status: {code}"
  | killed signal =>
    match signalNames.lookup signal with
    | some name => s!"signal: {signal} ({name})"
    | none => s!"signal: {signal}"

end ExitStatus

/-- A call on the local machine. -/
inductive FileCall
  /-- The text of a file. -/
  | readText (path : Path)
  /-- The bytes of a file. -/
  | readBytes (path : Path)
  /-- Make a file hold a text and nothing else. -/
  | write (path : Path) (text : String)
  /-- Make a directory and all that it lies in. -/
  | createDirs (path : Path)
  /-- Add a text at the end of a file, which need not exist. -/
  | append (path : Path) (text : String)
  /-- Run a program without input and wait for its end. -/
  | run (program : Path)

/-- What a successful call on the local machine gives back. -/
@[reducible] def FileCall.Reply : FileCall → Type
  | readText _ => String
  | readBytes _ => ByteArray
  | write .. => Unit
  | createDirs _ => Unit
  | append .. => Unit
  | run _ => ExitStatus

end CloudFleet
