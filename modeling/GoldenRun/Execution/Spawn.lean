import GoldenRun.Execution.Lifetime
import GoldenRun.Execution.Runner
import GoldenRun.Shell.Evaluation

/-!
# Running commands on a machine

`spawn` is a runner that carries out commands on the disk of the workspace.  It asks the machine to
start the program, and the notices that come of it make the answer.  A program that is missing or
may not be run is such a notice too; every other reason for not starting one is a failure.
-/

namespace GoldenRun

open GoldenRun.Shell GoldenRun.Text

namespace Execution

/-- How deep the commands of a script may stand in each other. -/
def depth : Nat := 30000

/-- The descriptors of a new program: it reads nothing, and both its outputs are one. -/
def descriptors : List (Nat × Channel) := [(0, .nowhere), (1, .output), (2, .output)]

/-- The octets of an environment. -/
def octetEnvironment (env : Environment) : Environment :=
  env.map fun (name, value) => (octets name, octets value)

/-- The program of a request and its directory. -/
def launch? (disk : Disk) (cwd : Location) (request : Request) (env : Environment) :
    Except LaunchFault (Launch × Location) :=
  match disk.find cwd request.cwd with
  | .error fault => .error (.file fault)
  | .ok (_, .file _ _) => .error (.file .notDirectory)
  | .ok (directory, .directory) =>
    let searchPath := ((env.get? "PATH").map octets).getD Launch.defaultSearchPath
    (Launch.find disk directory searchPath (octets request.command) (request.args.map octets)).map
      fun launch => (launch, directory)

/-- How a program ended, if it did: the last notice of its machine. -/
def lastNotice (machine : Machine) (stop : Except Stop Unit) (status : Nat) : Notice :=
  let overdue : Notice :=
    if machine.deadline.isSome then .expired else .closed none (some Signal.kill.name)
  let inTime (notice : Notice) : Notice :=
    match machine.outputEnds, machine.deadline with
    | none, _ => overdue
    | some t, some d => if d ≤ t then .expired else notice
    | some _, none => notice
  match stop with
  | .error .expired => overdue
  | .error (.killed _ signal) => inTime (.closed none (some signal.name))
  | .error .failed => inTime (.closed (some (Task.failedStatus : Int)) none)
  | .error (.exit n) => inTime (.closed (some (n : Int)) none)
  | _ => inTime (.closed (some (status : Int)) none)

/-- Carries out a program: its notices, and the disk that it leaves. -/
def carryOut (machine : Machine) (launch : Launch) (directory : Location) (env : Environment) :
    List Notice × Disk :=
  let shell : State :=
    { name := "", cwd := directory, descriptors, number := machine.nextNumber
      mainNumber := machine.nextNumber }
  let started := { machine with
    nextNumber := machine.nextNumber + 1, running := [machine.nextNumber] }
  let (stop, s) := (perform depth launch (octetEnvironment env)) { machine := started, shell }
  (s.machine.outputPieces.map .wrote ++ [lastNotice s.machine stop s.shell.status], s.machine.disk)

/-- The notices of a request, or why nothing can be started. -/
def notices (disk : Disk) (cwd : Location) (request : Request) (env : Environment) :
    Except RequestFault (List Notice × Disk) :=
  match request.fault? env with
  | some fault => .error fault
  | none =>
    match launch? disk cwd request env with
    | .ok (launch, directory) =>
      let deadline := (killDelay? request.timeout).map (· * 1000)
      .ok (carryOut { disk, deadline } launch directory env)
    | .error fault =>
      if fault.code = "ENOENT" ∨ fault.code = "EACCES" then
        .ok ([.failed ("spawn " ++ request.command ++ " " ++ fault.code)], disk)
      else .error (.machine fault.code)

end Execution

/-- The runner that carries out commands on the disk of the workspace. -/
def spawn : Runner Unit := fun request w _ =>
  let env := request.env.getD w.env
  match Execution.notices w.disk w.cwd request env with
  | .error fault => (.error (.request fault), w.disk, ())
  | .ok (notices, disk) => (.ok ((settle request notices).getD {}), disk, ())

end GoldenRun
