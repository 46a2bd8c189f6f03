import TraitCheck.Command.Run

/-!
The command line program.
-/

namespace TraitCheck.Command

/-- Reads a file, or a directory with all that is in it. -/
partial def readTree (e : IO.FS.DirEntry) : IO FileTree := do
  if ← e.path.isDir then
    let entries ← e.path.readDir
    let sorted := entries.toList.mergeSort fun a b => a.fileName ≤ b.fileName
    return .dir (← sorted.mapM fun e => return (e.fileName, ← readTree e))
  else return .file (← IO.FS.readFile e.path)

def lookAt (path : String) : IO FileTree.Found := do
  let e : IO.FS.DirEntry := ⟨"/", path⟩
  if ← e.path.pathExists then return .tree (← readTree e) else return .missing

end TraitCheck.Command

open TraitCheck in
def main (args : List String) : IO UInt32 := do
  let cwd := (← IO.currentDir).toString
  let level ← IO.getEnv Manifest.levelVariable
  let sections ← IO.getEnv Manifest.sectionsVariable
  let process? (name : String) : Option String :=
    if name = Manifest.levelVariable then level else if name = Manifest.sectionsVariable then sections else none
  let outcome ← Command.run cwd Command.lookAt process? args
  IO.print outcome.output
  return if outcome.error.isSome then 1 else 0
