import NotebookKernel.ConnectionFile
import NotebookKernel.Listeners
import NotebookKernel.Script
import NotebookKernel.Session
import NotebookKernel.Uuid

namespace NotebookKernel.Command

structure Options where
  connectionFile : Option String
  ip : String

def usage : String := "usage: notebook-kernel [-f FILE | --connection-file FILE] [--ip ADDRESS]"

def parse : List String → Options → Option Options
  | [], o => some o
  | "-f" :: path :: rest, o => parse rest { o with connectionFile := some path }
  | "--connection-file" :: path :: rest, o => parse rest { o with connectionFile := some path }
  | "--ip" :: ip :: rest, o => parse rest { o with ip }
  | _, _ => none

def script : Script := ⟨[], [], .emptyObject, none⟩

def kernel (username session : String) : Kernel Unit Nat Memory where
  outlet := ⟨⟨username, session⟩, fun n => ⟨session ++ "-" ++ toString n, ""⟩, Memory.sink⟩
  interpreter := script.interpreter
  debugger := none

def initial (k : Kernel Unit Nat Memory) : Session Unit Nat :=
  .start k ⟨⟨.initial, .empty, 0⟩, (), 0, 0, .empty⟩

/-- The lines that answer a line; one that is no message is passed over. -/
def respond (k : Kernel Unit Nat Memory) (signer : Signer) (line : List Char)
    (s : Session Unit Nat) : List (List Char) × Session Unit Nat :=
  match Wire.decode signer line with
  | .error _ => ([], s)
  | .ok m => match s.request k ⟨.shell, 0, m⟩ [] with
    | .error _ => ([], s)
    | .ok (sent, s) => (sent.map fun d => Wire.encode signer d.message, s)

def randomText : IO String := do
  let bytes ← IO.getRandomBytes 16
  return Uuid.text (Vector.ofFn fun i => (bytes.toList[i.val]?).getD 0)

def readConfig (home path : String) : IO (Except Failure Config) := do
  let path := Path.expandHome (.ofText home) (.ofText path)
  try
    let bytes ← IO.FS.readBinFile path.shown
    match Utf8.decode? bytes.toList with
    | some text => return Config.ofText text
    | none => return .error (Config.unreadableFile path .notUtf8)
  catch e => return .error (.config ("cannot read " ++ path.shown ++ ": " ++ toString e))

def configure (o : Options) : IO (Except Failure Config) := do
  match o.connectionFile with
  | some path =>
    let config ← readConfig ((← IO.getEnv "HOME").getD "") path
    return config.bind fun c => (c.bind ⟨[]⟩).map Prod.fst
  | none =>
    let key ← randomText
    return (Config.bindFresh o.ip key ⟨[]⟩).map Prod.fst

/-- Signed lines come in on standard input, and the answers go to standard output in the same form. -/
partial def serve (k : Kernel Unit Nat Memory) (signer : Signer) (s : Session Unit Nat) :
    IO UInt32 := do
  match s with
  | .stopped status => return .ofNat status
  | .serving _ =>
    let line ← (← IO.getStdin).getLine
    if line.isEmpty then return 0
    let (answers, s) := respond k signer line.toList s
    let out ← IO.getStdout
    for answer in answers do out.putStrLn (String.ofList answer)
    out.flush
    serve k signer s

def run (o : Options) : IO UInt32 := do
  match (← configure o).bind fun c => c.signer.map (c, ·) with
  | .error failure =>
    IO.eprintln failure.message
    return 1
  | .ok (c, signer) =>
    let out ← IO.getStdout
    out.putStr (String.ofList c.directives)
    out.flush
    let username := (← IO.getEnv "USER").getD "unspecified"
    let k := kernel username (← randomText)
    serve k signer (initial k)

end NotebookKernel.Command

def main (arguments : List String) : IO UInt32 := do
  match NotebookKernel.Command.parse arguments ⟨none, "0.0.0.0"⟩ with
  | some o => NotebookKernel.Command.run o
  | none =>
    IO.eprintln NotebookKernel.Command.usage
    return 2
