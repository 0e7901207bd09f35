import ScriptLang.Build.CommandLine
import ScriptLang.Install.CommandLine
import ScriptLang.Main
import ScriptLang.Proofs.Files.Shallowest
import ScriptLang.Proofs.Install.Failure
import ScriptLang.Proofs.Lint.Outcome
import ScriptLang.Proofs.Lint.Sound
import ScriptLang.Proofs.Lint.Widened
import ScriptLang.Proofs.Parse.Escaped
import ScriptLang.Proofs.Parse.Nesting
import ScriptLang.Proofs.Parse.Opening
import ScriptLang.Proofs.Parse.Progress
import ScriptLang.Proofs.Parse.RoundTrip
import ScriptLang.Proofs.Parse.Sequence
import ScriptLang.Proofs.Run.Alias
import ScriptLang.Proofs.Run.Block
import ScriptLang.Proofs.Run.Callee
import ScriptLang.Proofs.Run.CommandLine
import ScriptLang.Proofs.Run.Compound
import ScriptLang.Proofs.Run.Dotted
import ScriptLang.Proofs.Run.Epoch
import ScriptLang.Proofs.Run.Failure
import ScriptLang.Proofs.Run.Fault
import ScriptLang.Proofs.Run.MemberList
import ScriptLang.Proofs.Run.Members
import ScriptLang.Proofs.Run.Modifier
import ScriptLang.Proofs.Run.Prompt
import ScriptLang.Proofs.Run.ReturnType
import ScriptLang.Proofs.Run.Signals
import ScriptLang.Proofs.Run.Unfinished
import ScriptLang.Proofs.Scope.Forest
import ScriptLang.Proofs.Token.Lexeme
import ScriptLang.Proofs.Token.Newline
import ScriptLang.Proofs.Token.Quoted
