import TreePack.FileSystem.Edit
import TreePack.Shell.Program

/-!
# The command line

The outer layer: it takes a picture of the working directory, runs the program on it and carries
out what the program leaves behind.  Directories that are never entered are pictured without their
contents, and a link is pictured as a link to the place it leads to.
-/

namespace TreePack.CommandLine

/-- Adds the file at a place of the real tree to the picture.  A file that cannot be read is
pictured as one that may not be. -/
def pictureFile (fs : FileSystem) (place : String) : IO FileSystem := do
  let path := Path.ofText place
  try
    return fs.putFile path (← IO.FS.readBinFile place).data.toList
  catch _ =>
    return (fs.putFile path []).changeMode path ⟨0o200⟩

/-- Adds what a link leads to, and the link.  One that leads nowhere is pictured as a link to a
missing entry, and any other that cannot be followed as a link to itself. -/
def pictureLink (fs : FileSystem) (entry : IO.FS.DirEntry) : IO FileSystem := do
  let path := Path.ofText entry.path.toString
  try
    let kind := (← entry.path.metadata).type
    let target := (← IO.FS.realPath entry.path).toString
    let fs ← match kind with
      | .dir => pure (fs.makeDirs (Path.ofText target))
      | .file => pictureFile fs target
      | _ => pure fs
    return fs.putLink path (Path.ofText target)
  catch
    | .noFileOrDirectory _ _ _ =>
        return fs.putLink path (Path.ofText ("/missing/" ++ entry.fileName))
    | _ => return fs.putLink path (Path.ofText entry.fileName)

partial def pictureDir (fs : FileSystem) (entry : IO.FS.DirEntry) : IO FileSystem := do
  let path := Path.ofText entry.path.toString
  let fs := fs.makeDirs path
  try
    (← entry.path.readDir).foldlM (fun fs entry => do
      match (← entry.path.symlinkMetadata).type with
      | .dir =>
          if Rules.standard.prunes entry.fileName then
            return fs.makeDirs (Path.ofText entry.path.toString)
          else pictureDir fs entry
      | .file => pictureFile fs entry.path.toString
      | .symlink => pictureLink fs entry
      | .other => return fs.putFifo (Path.ofText entry.path.toString)) fs
  catch _ =>
    return fs.changeMode path ⟨0o300⟩

end TreePack.CommandLine

open TreePack in
def main (arguments : List String) : IO UInt32 := do
  let started ← IO.monoMsNow
  let here ← IO.currentDir
  let invocation := Invocation.ofArguments (arguments.map Bytes.ofText)
  let fs ← if invocation = .pack then CommandLine.pictureDir .bare ⟨here, "."⟩ else pure .bare
  let path := Path.ofText here.toString
  let fs := match fs.locate .use path with
    | .ok location => fs.enter location
    | .error _ => fs
  let stamp := toString ((← IO.monoMsNow) - started) ++ "ms"
  let setting := (← IO.getEnv "RUST_LOG").map Bytes.ofText
  let exit := Program.run (arguments.map Bytes.ofText) setting stamp fs
  if invocation = .pack then
    match exit.files.read (path.join (Path.ofText artifactName)) with
    | .ok bytes => IO.FS.writeBinFile (here / artifactName) ⟨bytes.toArray⟩
    | .error _ => pure ()
  IO.print exit.output
  IO.eprint exit.errors
  return exit.status.toUInt32
