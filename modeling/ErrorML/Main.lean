import ErrorML.CommandLine.Run

namespace ErrorML

/-- The bound on nested calls, which no run comes near. -/
def callBound : Nat := 1000000000000000000

def reason (failure : IO.Error) : String :=
  match failure with
  | .noFileOrDirectory _ code _ => "No such file or directory (os error " ++ toString code ++ ")"
  | .inappropriateType _ 21 _ => "Is a directory (os error 21)"
  | .permissionDenied _ 13 _ => "Permission denied (os error 13)"
  | failure => toString failure

def attempt {α : Type} (action : IO α) : IO (Except String α) := do
  try
    return .ok (← action)
  catch failure =>
    return .error (reason failure)

partial def readUpTo (handle : IO.FS.Stream) (budget : Nat) (bytes : ByteArray) : IO ByteArray := do
  if budget ≤ bytes.size then return bytes
  let chunk ← handle.read (min 65536 (budget - bytes.size)).toUSize
  if chunk.isEmpty then return bytes
  readUpTo handle budget (bytes ++ chunk)

def readLimited (handle : IO.FS.Stream) : IO ByteArray :=
  readUpTo handle (maxInputBytes + 1) .empty

def surroundings (arguments : List String) : IO Surroundings := do
  let absent : Except String ByteArray := .error "not read"
  let idle : Surroundings := { stdin := absent, file := fun _ => absent, stdout := .ok () }
  match Invocation.read arguments.tail with
  | .ok (.command ⟨_, .stdin⟩) =>
    let bytes ← attempt (do readLimited (← IO.getStdin))
    return { idle with stdin := bytes }
  | .ok (.command ⟨_, .file path⟩) =>
    let bytes ← attempt do
      let handle ← IO.FS.Handle.mk path .read
      readLimited (.ofHandle handle)
    return { idle with file := fun _ => bytes }
  | _ => return idle

end ErrorML

open ErrorML in
def main (arguments : List String) : IO UInt32 := do
  let arguments := "evalto" :: arguments
  let report := run callBound (← surroundings arguments) arguments
  let fail (error : RunError) : IO UInt32 := do
    (← IO.getStderr).putStrLn error.message
    return error.exitCode.toUInt32
  match report.result with
  | .ok _ =>
    match ← attempt ((← IO.getStdout).putStr report.written) with
    | .ok _ => return 0
    | .error reason => fail (.io "stdout" reason)
  | .error error => fail error
  | .exhausted =>
    (← IO.getStderr).putStrLn "the program nests calls too deeply"
    return 1
