import ImagePipeline.Runner.Basic

/-! A runner that follows rules. The first rule whose text occurs in the line of a
command applies; a command without a rule succeeds and writes nothing. -/
namespace ImagePipeline

inductive ScriptedFailure where
  | exit (code : Int)
  | signal
  | timeout
  | denied
  | io
  | missing
  deriving DecidableEq, Repr

structure ScriptedRule where
  fragment : String
  /-- Files that the command leaves behind, also where it fails. -/
  leaves : List (Path × Entry) := []
  failure : Option ScriptedFailure := none
  output : String := ""

def ScriptedFailure.error (c : Command) : ScriptedFailure → CommandError
  | exit code => .nonZeroExit c.line code
  | signal => .terminated c.line
  | timeout => .timedOut c.line (c.timeLimit.getD ⟨0⟩)
  | denied => .permissionDenied c.program
  | io => .io c.line "boom"
  | missing => .notFound c.program

namespace ScriptedRule

def applies (r : ScriptedRule) (c : Command) : Bool :=
  Text.contains r.fragment.toList c.lineChars

end ScriptedRule

/-- Puts an entry at a path, with the directories on the way. -/
def FileTree.place (t : FileTree) (p : Path) (e : Entry) : FileTree :=
  match e with
  | .directory => (t.createDirs p).2
  | .file content executable =>
    let t := match p.parent? with
      | some parent => (t.createDirs parent).2
      | none => t
    match t.write p content with
    | .ok written =>
      match written.locate p with
      | .ok l => written.put l (.file content executable)
      | .error _ => written
    | .error _ => t

def scriptedRunner (executes : Bool) (rules : List ScriptedRule) : Runner where
  executes
  reply _ _ c files :=
    match rules.find? fun r => r.applies c with
    | none => { outcome := .finished "", files }
    | some r =>
      let files := r.leaves.foldl (fun t e => t.place e.1 e.2) files
      match r.failure with
      | some f => { outcome := .failed (f.error c), files }
      | none => { outcome := .finished r.output, files }

end ImagePipeline
