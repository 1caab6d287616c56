import Tabular.Job.Directive

/-!
# Reading jobs

The directives of the tokens are carried out one after the other; a later one on the same matter
takes the place of an earlier one, except that edits of a column and formulas add up.
-/

namespace Tabular.Job

def apply (job : Job) : Directive → Job
  | .joinLines joiner => { job with lineJoiner := some joiner }
  | .join joining => { job with joining }
  | .split splitting => { job with splitting }
  | .wrap around => { job with wrap := some around }
  | .rows rows => { job with rows }
  | .columns columns => { job with selection := { job.selection with columns } }
  | .edit column edit => { job with selection := job.selection.addEdit column edit }
  | .group grouping => { job with grouping := some grouping }
  | .sort sorting => { job with sorting := some sorting }
  | .output form levels => { job with form, levels := levels.getD job.levels }
  | .labels labels => { job with labels := some labels }
  | .formula formula => { job with formulas := job.formulas ++ [formula] }
  | .keys keys => { job with keys := some keys }
  | .condition condition => { job with condition := some condition }
  | .headless => { job with headless := true }
  | .hideLabels => { job with hidesLabels := true }
  | .nothing => job

def applyToken (job : Job) (index : Nat) (token : String) : Except Fault Job :=
  match Directive.read token with
  | .ok directive => .ok (job.apply directive)
  | .error cause => .error (.atToken index cause)

def applyTokens (job : Job) : Nat → List String → Except Fault Job
  | _, [] => .ok job
  | index, token :: tokens => do (← job.applyToken index token).applyTokens (index + 1) tokens

/-- Where no labels are read and none are given, none are shown. -/
def settleLabels (job : Job) : Job :=
  if job.headless && job.labels.isNone then { job with hidesLabels := true } else job

def ofTokens (mode : Mode) (tokens : List String) : Except Fault Job := do
  return (← (ofMode mode).applyTokens 0 tokens).settleLabels

end Tabular.Job
