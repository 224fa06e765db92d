import TypedMarkup.Host.Scope

/-!
Contract: the nodes that the value of a code block stands for.

Owns: `Pending`, the nodes of a block that are still to come, and `splice`, all of them up to the
first failure. A node stands for itself, a text for a text node, and any other iterable value for
its items, which are taken one at a time. Lazy values run here, so a failure of theirs is reported
at the block.
-/

namespace TypedMarkup

def nodeOf? (value : Value) : Option Document.Node :=
  match value with
  | .node node => some node
  | other => other.content?.map .text

/-- The failure of an iteration at a block. A compile error stays as it is. -/
def iterationFailure (span : Span) : Failure → Failure
  | .compile error => .compile error
  | other => other.toldAt span

/-- The nodes of a block that are still to come: none, one, or those of an iteration. -/
inductive Pending where
  | done
  | single (node : Document.Node)
  | items (reference : Nat) (memory : Host.Memory)

namespace Pending

def ofValue (evaluated : Evaluated) (span : Span) : Except Failure Pending :=
  match nodeOf? evaluated.value with
  | some node => .ok (.single node)
  | none =>
    if evaluated.value.isIterable then
      match (Host.iterate evaluated.value).run evaluated.memory with
      | .ok (reference, memory) => .ok (.items reference memory)
      | .error failure => .error (failure.toldAt span)
    else .error (.compile (.construction (.notSpliceable evaluated.value.typeName) span))

def next (span : Span) : Pending → Except Failure (Option (Document.Node × Pending))
  | done => .ok none
  | single node => .ok (some (node, done))
  | items reference memory =>
    match (Host.pull reference).run memory with
    | .error failure => .error (iterationFailure span failure)
    | .ok (none, _) => .ok none
    | .ok (some item, left) =>
      match nodeOf? item with
      | some node => .ok (some (node, items reference left))
      | none => .error (.compile (.construction (.notNode item.typeName) span))

end Pending

/-- The nodes of a block, and the failure that ends them, if one does. -/
structure Spliced where
  nodes : List Document.Node
  finish : Option Failure

/-- Takes nodes up to the end or the first failure, behind those taken before; those come last one
first. -/
def Pending.all (span : Span) : (fuel : Nat) → List Document.Node → Pending → Spliced
  | 0, taken, _ => ⟨taken.reverse, some (iterationFailure span .tooDeep)⟩
  | fuel + 1, taken, pending =>
    match pending.next span with
    | .error failure => ⟨taken.reverse, some failure⟩
    | .ok none => ⟨taken.reverse, none⟩
    | .ok (some (node, rest)) => rest.all span fuel (node :: taken)

def splice (evaluated : Evaluated) (span : Span) : Spliced :=
  match Pending.ofValue evaluated span with
  | .ok pending => pending.all span Host.steps []
  | .error failure => ⟨[], some failure⟩

end TypedMarkup
