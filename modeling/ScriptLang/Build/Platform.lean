import ScriptLang.Text.Blank
import ScriptLang.Text.Case
import ScriptLang.Text.Search

/-!
# Platform codes

A system and a processor have codes of five letters. Those without a code of their own get the first
four letters of their name, filled up.
-/

namespace ScriptLang.Build

structure Platform where
  system : String
  processor : String
  deriving DecidableEq, Repr

/-- The code of a name that has none of its own. -/
def plainCode (name : String) : String :=
  let cs := name.toList.take 4
  Text.upper (String.ofList (cs ++ List.replicate (5 - cs.length) 'O'))

def systemCodes : List (String × String) :=
  [("linux", "LINUX"), ("windows", "MSWIN"), ("android", "GANDR"), ("java", "OJAVA"),
   ("darwin", "MACOS"), ("ios", "APIOS"), ("ipados", "APIPS")]

def processorCodes : List (List String × String) :=
  [(["x86", "i386", "i486", "i586", "i686"], "IAM32"), (["x86_64", "amd64"], "IAM64"),
   (["ppc", "powerpc"], "PPC32"), (["ppc64", "ppc64le"], "PPC64"),
   (["arm", "armv7l", "armv7", "armhf"], "ARM32"), (["arm64", "aarch64"], "ARM64"),
   (["riscv64"], "RISCV")]

def Platform.ofHost (system machine : String) : Platform :=
  let bare (name : String) : String := Text.lower (Text.strip name)
  let known := systemCodes.find? fun e => Text.startsWith (bare system) e.1
  let fitting := processorCodes.find? fun e => e.1.contains (bare machine)
  ⟨(known.map Prod.snd).getD (plainCode system), (fitting.map Prod.snd).getD (plainCode machine)⟩

/-- The name of a build for a platform; the stamp tells builds apart. -/
def buildName (p : Platform) (stamp : String) : String :=
  "YPSH@" ++ p.system ++ p.processor ++ "#" ++ stamp

end ScriptLang.Build
