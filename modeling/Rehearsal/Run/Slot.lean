import Rehearsal.Run.Work

/-!
# Entering and leaving nodes

When a node is entered, the hooks before its own tags are called, in their order, and then
those before the node, until a slot fails. When it is left, the hooks after the node are
called if those before it were, and then those after the tags whose hooks were called, in
reverse order. The hooks on leaving are all called, whatever fails.
-/

namespace Rehearsal

/-- The call of a slot: its failure, and what was captured. -/
structure SlotCall where
  error? : Option HookError
  captured : Captured
  deriving DecidableEq, Repr, Inhabited

def SlotCall.isOk (c : SlotCall) : Bool := c.error?.isNone

/-- What the hooks of a node have come to: what was captured, the messages of the slots that
failed, and whether one of them failed without asking the run to stop. -/
structure HookReport where
  captured : Captured
  messages : List String
  failed : Bool
  deriving DecidableEq, Repr, Inhabited

namespace HookReport

def empty : HookReport := ⟨.empty, [], false⟩

def add (r : HookReport) (c : SlotCall) : HookReport :=
  match c.error? with
  | none => { r with captured := r.captured ++ c.captured }
  | some e => ⟨r.captured ++ c.captured, r.messages ++ [e.message], r.failed || !e.stop⟩

def message? (r : HookReport) : Option String :=
  if r.messages.isEmpty then none else some ("\n".intercalate r.messages)

/-- The status of a node, given the status of what lies in it. -/
def weigh (r : HookReport) (s : Status) : Status := if r.failed then s.max .error else s

@[simp] theorem weigh_empty (s : Status) : empty.weigh s = s := rfl

end HookReport

/-- How far the entry into a node has got. -/
structure NodeEntry where
  report : HookReport
  /-- The tags for which hooks were called, the latest first. -/
  tags : List String
  /-- Were the hooks before the node itself called? -/
  reached : Bool
  /-- Has every slot succeeded so far? -/
  proceeds : Bool
  deriving DecidableEq, Repr, Inhabited

def NodeEntry.start : NodeEntry := ⟨.empty, [], false, true⟩

namespace RunOptions

/-- Calls a slot of hooks, unless the run is a dry one. A slot that asks for it stops the
run. -/
def slot (o : RunOptions) (point : HookPoint) (scope : HookScope) (status : Option Status) :
    Work SlotCall :=
  if o.dryRun then return ⟨none, .empty⟩
  else do
    let reply ← Work.hooks ⟨point, scope, status⟩
    let call : SlotCall := ⟨Hooks.error? point reply.outcomes, reply.captured⟩
    match call.error? with
    | some e =>
      if e.stop then
        Work.stop
        return call
      else return call
    | none => return call

/-- Calls the hooks before tags until a slot fails. -/
def enterTags (o : RunOptions) (e : NodeEntry) : List Tag → Work NodeEntry
  | [] => return e
  | tag :: rest => do
    let call ← o.slot .beforeTag (.tag tag.name) none
    let e : NodeEntry := ⟨e.report.add call, tag.name :: e.tags, false, call.isOk⟩
    if call.isOk then enterTags o e rest else return e

def enterNode (o : RunOptions) (tags : TagSet) (point : HookPoint) (scope : HookScope) :
    Work NodeEntry := do
  let e ← o.enterTags .start tags.tags
  if e.proceeds then
    let call ← o.slot point scope none
    return ⟨e.report.add call, e.tags, true, call.isOk⟩
  else return e

def exitTags (o : RunOptions) (status : Status) (report : HookReport) :
    List String → Work HookReport
  | [] => return report
  | tag :: rest => do
    let call ← o.slot .afterTag (.tag tag) (some status)
    exitTags o status (report.add call) rest

def exitNode (o : RunOptions) (e : NodeEntry) (point : HookPoint) (scope : HookScope)
    (status : Status) : Work HookReport :=
  if e.reached then do
    let call ← o.slot point scope (some status)
    o.exitTags status (e.report.add call) e.tags
  else o.exitTags status e.report e.tags

end RunOptions

end Rehearsal
