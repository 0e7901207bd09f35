import ScriptLang.Run.Execute

/-!
# The interpreter

Statements, expressions and calls run by recursion on a bound on the depth of the computation. A
computation that reaches the bound ends with `Signal.exhausted`, which no program can catch.

The engine of the language does not follow calls of the interpreter's own operations, which a
program reaches through the attributes of its functions and classes. The engine that runs programs
also makes these calls.
-/

namespace ScriptLang

/-- The engine whose computations are at most `depth` deep and which calls values with `call`. -/
def Engine.tied (call : Engine → Value → List Value → Table Value → Exec Value) :
    (depth : Nat) → Engine
  | 0 => ⟨fun _ _ => throw .exhausted, fun _ _ => throw .exhausted,
      fun _ _ _ => throw .exhausted, 0⟩
  | depth + 1 =>
    { execute := fun node e => Exec.executeStep (Engine.tied call depth) node e
      evaluate := fun node e => Exec.evaluateStep (Engine.tied call depth) node e
      apply := fun f pos named => call (Engine.tied call depth) f pos named
      rounds := depth }

/-- The engine of the language. -/
def Engine.ofDepth (depth : Nat) : Engine := .tied Exec.applyValue depth

namespace Exec

/-- Calls an operation of a part of the interpreter. Other arguments than those that a program can
make of such parts are not followed. -/
def applyInternal (g : Engine) (part : Internal) (name : String) (pos : List Value)
    (named : Table Value) : Exec Value := do
  match part, name, pos, named with
  | .scope e, "push_block", [], [] =>
    modifyScopes fun ss => ss.pushBlock e
    pure .none
  | .scope e, "pop_block", [], [] =>
    modifyScopes fun ss => ss.popBlock e
    pure .none
  | .interpreter, "execute", [.internal (.node _ node), .internal (.scope e)], [] =>
    g.execute node e
  | .interpreter, "evaluate", [.internal (.node _ node), .internal (.scope e)], [] =>
    g.evaluate node e
  | _, _, _, _ => throw .exhausted

/-- Calls a value like a provided function, or as an operation of a part of the interpreter. -/
def applyFull (g : Engine) (f : Value) (pos : List Value) (named : Table Value) : Exec Value :=
  match f with
  | .method (.internal part) name => applyInternal g part name pos named
  | f => applyValue g f pos named

/-- A way to call values that does not follow the calls of some of them. -/
def barring (barred : Value → Bool)
    (call : Engine → Value → List Value → Table Value → Exec Value) (g : Engine) (f : Value)
    (pos : List Value) (named : Table Value) : Exec Value :=
  if barred f then throw .exhausted else call g f pos named

end Exec

/-- The engine of a depth that follows all calls. -/
def Engine.full (depth : Nat) : Engine := .tied Exec.applyFull depth

/-- How deep the computations of programs may be, and how many rounds a loop may have. -/
def Engine.depthBound : Nat := 1000000000

/-- The engine that runs programs. -/
def Engine.standard : Engine := .full Engine.depthBound

namespace Exec

def interpret (node : Node) : Exec Value := Engine.standard.interpret node

def interpretText (code : String) : Exec Value := Engine.standard.interpretText code

end Exec

end ScriptLang
