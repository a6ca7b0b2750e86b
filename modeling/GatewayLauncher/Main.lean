import GatewayLauncher.Command.BumpVersion
import GatewayLauncher.Command.Gateway

namespace GatewayLauncher.Main

def withFile (t : FileTree) (p : Path) : IO FileTree := do
  try
    let bytes ← IO.FS.readBinFile p.toString
    return t.putFile p { bytes } false
  catch _ => return t

def store (t : FileTree) (p : Path) : IO Unit :=
  match t.openFile p with
  | .ok content => IO.FS.writeBinFile p.toString content.toBytes
  | .error _ => return ()

def status : Ending → UInt32
  | .exit n => UInt32.ofNat n.toNat
  | .returned => 0
  | .fault _ => 1

def report (o : Outcome) : IO UInt32 := do
  IO.print o.stdout
  IO.eprint o.stderr
  if let .fault f := o.ending then
    IO.eprintln (f.message?.getD "The run has broken down.")
  return status o.ending

def bump (args : List String) : IO UInt32 := do
  let files := BumpVersion.records.map Prod.fst
  let before ← files.foldlM withFile FileTree.empty
  let (after, outcome) := BumpVersion.run before args
  files.forM (store after)
  report outcome

def selectionText : Except VersionError Selection → String
  | .ok s => s.shown
  | .error e => e.message?.getD "A number has too many digits."

def select (version platform machine : String) : IO UInt32 := do
  let selection := do
    let runtime ← Version.parse .full version
    Selection.select Selection.defaultMinimum {
      runtime
      system := .ofReported platform
      architecture := .ofReported machine
      reportedSystem := platform
      reportedMachine := machine }
  IO.println (selectionText selection)
  return if selection.toOption.isSome then 0 else 1

end GatewayLauncher.Main

def main (args : List String) : IO UInt32 :=
  match args with
  | "bump" :: rest => GatewayLauncher.Main.bump rest
  | ["select", version, platform, machine] =>
    GatewayLauncher.Main.select version platform machine
  | _ => do
    IO.eprintln "usage: bump PART | select VERSION PLATFORM MACHINE"
    return 2
