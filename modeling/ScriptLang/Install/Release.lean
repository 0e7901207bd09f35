import ScriptLang.Failure
import ScriptLang.Text.Blank
import ScriptLang.Text.Case
import ScriptLang.World

/-!
# Releases

A release has an archive for each system, processor and kind of build. Its tag is given, or read
from a channel.
-/

namespace ScriptLang.Install

structure Target where
  system : String
  processor : String
  /-- The name shown to users. -/
  label : String
  /-- Whether the system keeps downloaded programs from running. -/
  hasQuarantine : Bool
  deriving DecidableEq, Repr

def Target.ofHost (system machine : String) : Except Failure Target := do
  let isArm ← match Text.lower machine with
    | "x86_64" | "amd64" => .ok false
    | "arm64" | "aarch64" => .ok true
    | _ => .error (.unsupportedProcessor machine)
  let processor := if isArm then "arm64" else "amd64"
  match system with
  | "Darwin" =>
    .ok ⟨"macos", processor, if isArm then "macOS Apple Silicon" else "macOS Intel", true⟩
  | "Linux" => .ok ⟨"linux", processor, if isArm then "Linux ARM" else "Linux Intel/AMD", false⟩
  | "Windows" =>
    .ok ⟨"windows", processor, if isArm then "Windows ARM" else "Windows Intel/AMD", false⟩
  | _ => .error (.unsupportedSystem system)

structure Artifact where
  archive : String
  /-- The program inside of the archive. -/
  binary : String
  /-- The name under which the program is installed. -/
  command : String
  deriving DecidableEq, Repr

def Artifact.of (system processor build : String) : Artifact :=
  let base := "YPSH-" ++ system ++ "-" ++ processor ++ (if build == "nuitka" then "-NUI" else "")
  let isWindows := system == "windows"
  ⟨base ++ ".zip", if isWindows then base ++ ".exe" else base,
    if isWindows then "ypsh.exe" else "ypsh"⟩

structure Release where
  target : Target
  artifact : Artifact
  address : String
  deriving DecidableEq, Repr

def releaseAddress : String := "https://github.com/YPSH-DGC/YPSH/releases/download"

def channelAddress : String := "https://ypsh-dgc.github.io/YPSH/channels/"

def Release.of (tag build system machine : String) : Except Failure Release := do
  let target ← Target.ofHost system machine
  let artifact := Artifact.of target.system target.processor build
  .ok ⟨target, artifact, releaseAddress ++ "/" ++ tag ++ "/" ++ artifact.archive⟩

structure Download where
  body : List Nat
  length : Option String
  chunks : Option (List Nat)
  deriving DecidableEq, Repr

/-- The answer of an address; an error status is a failure. -/
def download (w : World) (address : String) : Except Failure Download :=
  match w.reply address with
  | .refused reason => .error (.noConnection reason)
  | .response status body length chunks =>
    if status ≥ 400 then .error (.refusedStatus status address) else .ok ⟨body, length, chunks⟩

def channelTag (w : World) (channel : String) : Except Failure String := do
  let answer ← download w (channelAddress ++ channel ++ ".txt")
  .ok (Text.strip (Text.ofBytes answer.body))

/-- The pieces in which a body arrives: as told, or in blocks of a fixed length. -/
def pieces (body : List Nat) : (sizes : List Nat) → List (List Nat)
  | [] => []
  | n :: sizes => body.take n :: pieces (body.drop n) sizes

def Download.pieces (d : Download) : List (List Nat) :=
  let block := 128 * 1024
  Install.pieces d.body
    (d.chunks.getD (List.replicate ((d.body.length + block - 1) / block) block))

end ScriptLang.Install
