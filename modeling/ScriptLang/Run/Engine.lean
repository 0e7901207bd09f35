import ScriptLang.Machine

/-!
# The engine

Statements, expressions and calls are run by functions that need each other. Each step is written
against an `Engine`, which holds the three for smaller computations; the knot is tied elsewhere by
recursion on a bound.
-/

namespace ScriptLang

structure Engine where
  execute : Node → ScopeId → Exec Value
  evaluate : Node → ScopeId → Exec Value
  /-- Calls a value that can be called like a provided function. -/
  apply : Value → List Value → Table Value → Exec Value
  /-- A bound on the rounds of a loop. -/
  rounds : Nat

namespace Engine

/-- Runs statements one after the other; the result is that of the last one. -/
def executeAll (g : Engine) (e : ScopeId) : List Node → Exec Value
  | [] => pure .none
  | [s] => g.execute s e
  | s :: rest => do
    let _ ← g.execute s e
    g.executeAll e rest

/-- Runs the statements of a program in the outermost scope, whichever that is at each of them. -/
def interpretAll (g : Engine) : List Node → Exec Value
  | [] => pure .none
  | [s] => do
    let root := (← get).root
    g.execute s root
  | s :: rest => do
    let root := (← get).root
    let _ ← g.execute s root
    g.interpretAll rest

def interpret (g : Engine) : Node → Exec Value
  | .block statements => g.interpretAll statements
  | node => do
    let root := (← get).root
    g.execute node root

def interpretText (g : Engine) (code : String) : Exec Value := do
  g.interpretAll (← Exec.parse code)

end Engine

end ScriptLang
