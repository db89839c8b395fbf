import StreamScript.Builtin.Pure
import StreamScript.Host

/-!
# Calling built-in functions

The number of arguments is checked before anything else. Most functions are then
done by `Builtin.apply`; three put a request to the host, and what the host
refuses is an error of the run.
-/

namespace StreamScript

/-- **Calls a built-in function** on a target. -/
def Builtin.call {σ : Type} (host : Host σ) (b : Builtin) (target : Value)
    (arguments : List Value) : Act σ Value := do
  checkArity b.name b.spec.least b.spec.most arguments.length
  match b with
  | .sideOutput =>
    let label ← textArgument arguments 0
    Act.request (host.sideOutput label target)
    return target
  | .getFiles =>
    let names ← Act.request host.listFiles
    return .array (names.map .text)
  | .loadFile =>
    let name ← textArgument arguments 0
    let contents ← Act.request (host.loadFile name)
    return .text contents
  | b => b.apply target arguments

end StreamScript
