import ImagePipeline.Shell.Builtin

/-! Running scripts on a file tree. -/
namespace ImagePipeline.Shell

/-- Runs a body in a shell of its own, in the same place. -/
def inNewShell (scope : Scope) (body : Run Unit) : Run Ending := do
  let outer ← get
  set { outer with scope }
  let result ← ExceptT.mk do
    match ← body.run with
    | .ok _ => return .ok (Ending.exited (← get).scope.status)
    | .error (.exited code) => return .ok (Ending.exited code)
    | .error .killed => return .ok Ending.killed
    | .error .expired => return .error Stop.expired
  modify fun s => { s with scope := outer.scope, here := outer.here }
  return result

/-- Runs a body in which a command may fail. -/
def tolerating (body : Run Unit) : Run Unit := do
  let stops := (← get).scope.stopsOnFailure
  inScope fun scope => { scope with stopsOnFailure := false }
  body
  inScope fun scope => { scope with stopsOnFailure := stops }

/-- Ends the shell if a command has failed and the shell stops at that. -/
def checkStatus : Run Unit := do
  let scope := (← get).scope
  if scope.stopsOnFailure && scope.status != 0 then throw (.exited scope.status)

/-- Sets the exit code by a condition. -/
def runCondition (streams : Streams) (line : Nat) (name : String) (args : List String) :
    Run Unit := do
  let s ← get
  match condition s.files s.here args with
  | .ok holds => setStatus (if holds then 0 else 1)
  | .error problem =>
    complain streams line (name ++ ": " ++ problem)
    setStatus 2

/-- Applies the options of `set`; what follows them takes the place of the arguments. -/
def applyOptions (scope : Scope) : List String → Scope
  | [] => scope
  | "--" :: args => { scope with args }
  | word :: rest =>
    match word.toList with
    | '-' :: letters =>
      applyOptions { scope with
        stopsOnFailure := scope.stopsOnFailure || letters.contains 'e' } rest
    | '+' :: letters =>
      applyOptions { scope with
        stopsOnFailure := scope.stopsOnFailure && !letters.contains 'e' } rest
    | _ => { scope with args := word :: rest }

/-- Makes a name known to programs, with a value if the word gives one. -/
def exportNamed (scope : Scope) (word : String) : Scope :=
  let cs := word.toList
  let name := String.ofList (cs.takeWhile (· != '='))
  match cs.dropWhile (· != '=') with
  | [] => scope.share name
  | _ :: value => (scope.assign name (String.ofList value)).share name

mutual

def runScript : Nat → Streams → Script → Run Unit
  | 0, _, _ => throw .expired
  | fuel + 1, streams, script =>
    match script with
    | .done => setStatus 0
    | .command c => do
      runCommand fuel streams c
      checkStatus
    | .both a b => do
      runScript fuel streams a
      runScript fuel streams b
    | .andThen a b => do
      tolerating (runScript fuel streams a)
      if (← status) == 0 then runScript fuel streams b
    | .orElse a b => do
      tolerating (runScript fuel streams a)
      if (← status) != 0 then runScript fuel streams b
    | .negated a => do
      tolerating (runScript fuel streams a)
      setStatus (if (← status) == 0 then 1 else 0)
    | .branch condition chosen otherwise => do
      tolerating (runScript fuel streams condition)
      runScript fuel streams (if (← status) == 0 then chosen else otherwise)
    | .forEach name items body => do
      let scope := (← get).scope
      let fields := match items with
        | some words => words.flatMap scope.fields
        | none => scope.args
      setStatus 0
      runEach fuel streams name body fields
    | .loop wanted condition body => runLoop fuel streams wanted condition body 0
    | .subshell s => do
      match ← inNewShell (← get).scope (runScript fuel streams s) with
      | .exited code => setStatus code
      | .killed => throw .killed
      checkStatus
    | .redirected line redirects s => do
      match ← redirectAll line streams redirects with
      | some streams => runScript fuel streams s
      | none => setStatus 2

/-- Runs a body for each field. -/
def runEach : Nat → Streams → String → Script → List String → Run Unit
  | 0, _, _, _, _ => throw .expired
  | _, _, _, _, [] => return ()
  | fuel + 1, streams, name, body, field :: rest => do
    modify fun s => { s with scope := s.scope.assign name field }
    runScript fuel streams body
    runEach fuel streams name body rest

/-- Repeats a body; `last` is its exit code so far. -/
def runLoop : Nat → Streams → Bool → Script → Script → Nat → Run Unit
  | 0, _, _, _, _, _ => throw .expired
  | fuel + 1, streams, wanted, condition, body, last => do
    tolerating (runScript fuel streams condition)
    if ((← status) == 0) == wanted then
      runScript fuel streams body
      runLoop fuel streams wanted condition body (← status)
    else setStatus last

def runCommand : Nat → Streams → SimpleCommand → Run Unit
  | 0, _, _ => throw .expired
  | fuel + 1, streams, c => do
    let scope := (← get).scope
    let assigned := c.assignments.map fun (name, w) => (name, scope.text w)
    match ← redirectAll c.line streams c.redirects, c.words.flatMap scope.fields with
    | none, _ => setStatus 2
    | some _, [] =>
      inScope fun scope => assigned.foldl (fun scope (name, value) => scope.assign name value) scope
      setStatus 0
    | some streams, name :: args => runNamed fuel streams c.line assigned name args

/-- Runs a command of the shell, or a program. -/
def runNamed : Nat → Streams → Nat → List (String × String) → String → List String → Run Unit
  | 0, _, _, _, _, _ => throw .expired
  | fuel + 1, streams, line, assigned, name, args =>
    match name, args with
    | ":", _ | "true", _ => setStatus 0
    | "false", _ => setStatus 1
    | "echo", args => do
      emit streams.output (echo args)
      setStatus 0
    | "exit", args | "return", args => do
      match exitCode? args (← status) with
      | some code => throw (.exited code)
      | none =>
        complain streams line (name ++ ": Illegal number: " ++ args.headD "")
        throw (.exited 2)
    | "printf", [] => do
      complain streams line "printf: usage: printf format [arg ...]"
      setStatus 2
    | "printf", text :: args => do
      let f := format text args
      emit streams.output f.text
      f.problems.forM fun problem => complain streams line ("printf: " ++ problem)
      setStatus f.status
    | "shift", args => do
      let n := (exitCode? args 1).getD 1
      inScope fun scope => { scope with args := scope.args.drop n }
      setStatus 0
    | "set", args => do
      inScope fun scope => applyOptions scope args
      setStatus 0
    | "export", args => do
      inScope fun scope => args.foldl exportNamed scope
      setStatus 0
    | "unset", args => do
      inScope fun scope => args.foldl Scope.unset scope
      setStatus 0
    | "pwd", _ => do
      emit streams.output ((← get).hereText ++ "\n")
      setStatus 0
    | "cd", [] => setStatus 0
    | "cd", dir :: _ => do
      let s ← get
      let path := s.here.join ⟨dir⟩
      if s.files.isDirectory path then
        set { s with here := path }
        bindHere
        setStatus 0
      else
        complain streams line ("cd: can't cd to " ++ dir)
        setStatus 2
    | "kill", args => do
      if args.getLast? == some (toString (← get).scope.process) then throw .killed
      setStatus 1
    | "[", args =>
      if args.getLast? == some "]" then runCondition streams line "[" args.dropLast
      else do
        complain streams line "[: missing ]"
        setStatus 2
    | "test", args => runCondition streams line "test" args
    | "exec", [] => setStatus 0
    | "exec", name :: args => do
      match ← runProgram fuel streams line "exec: " assigned name args with
      | .exited code => throw (.exited code)
      | .killed => throw .killed
    | name, args => do
      let ending ← runProgram fuel streams line "" assigned name args
      setStatus ending.code

/-- Runs a program that is not a command of the shell. -/
def runProgram : Nat → Streams → Nat → String → List (String × String) → String →
    List String → Run Ending
  | 0, _, _, _, _, _, _ => throw .expired
  | fuel + 1, streams, line, context, assigned, name, args => do
    match standardProgram? name args with
    | some program => program
    | none =>
      let s ← get
      let scope := Scope.ofEnvironment (assigned ++ s.scope.environment) (s.scope.process + 1)
      if shellPaths.contains name then runShell fuel streams scope name args
      else
        match locate (executable? s.files) (searchPathOf (s.scope.get "PATH")) s.here name with
        | .ok (path, content) =>
          inNewShell { scope with name := path.text, args } (runText fuel streams content)
        | .error .permissionDenied =>
          complain streams line (context ++ name ++ ": Permission denied")
          let searched := context.isEmpty && !name.toList.contains '/'
          return .exited (if searched then 127 else 126)
        | .error _ =>
          complain streams line (context ++ name ++ ": not found")
          return .exited 127

/-- Runs the shell itself on its arguments. -/
def runShell : Nat → Streams → Scope → String → List String → Run Ending
  | 0, _, _, _, _ => throw .expired
  | fuel + 1, streams, scope, name, args =>
    match args with
    | [] => return .exited 0
    | "-c" :: text :: rest =>
      inNewShell { scope with name := rest.headD name, args := rest.tail }
        (runText fuel streams text)
    | file :: rest => do
      let s ← get
      match s.files.read (s.here.join ⟨file⟩) with
      | .ok content =>
        inNewShell { scope with name := file, args := rest }
          (runText fuel streams (Text.decodeLenient content))
      | .error e =>
        emit streams.complaints
          (name ++ ": 0: cannot open " ++ file ++ ": " ++ openProblem false e ++ "\n")
        return .exited 2

/-- Runs a text; one that is no script is refused as a whole. -/
def runText : Nat → Streams → String → Run Unit
  | 0, _, _ => throw .expired
  | fuel + 1, streams, text =>
    match Script.ofText? text with
    | some script => do
      bindHere
      runScript fuel streams script
    | none => do
      complain streams 1 "Syntax error"
      throw (.exited 2)

end

/-- The number of steps after which a script counts as endless. -/
def stepLimit : Nat := 10000

end ImagePipeline.Shell
