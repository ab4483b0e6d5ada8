import Gallery.Command.Run
import Gallery.Tree.Manifest

/-!
# The program

The command line at work. The standard input begins with a manifest of the tree, and what
follows its empty line is the input of the command.
-/

namespace Gallery

/-- All that a stream still gives, after what was read before. -/
partial def readAll (stream : IO.FS.Stream) (before : ByteArray) : IO ByteArray := do
  let chunk ← stream.read 65536
  if chunk.isEmpty then pure before else readAll stream (before ++ chunk)

/-- Write bytes to a stream. -/
def writeBytes (stream : IO.FS.Stream) (bytes : Bytes) : IO Unit := do
  stream.write ⟨bytes.toArray⟩
  stream.flush

end Gallery

open Gallery

/-- Run the command line on the given arguments. -/
def main (arguments : List String) : IO UInt32 := do
  let input ← readAll (← IO.getStdin) ByteArray.empty
  let (tree, rest) := Manifest.read input.toList
  let outcome := Command.run tree (arguments.map fun text => text.toUTF8.toList) rest
  writeBytes (← IO.getStdout) outcome.output
  writeBytes (← IO.getStderr) outcome.ending.report
  pure (UInt32.ofNat outcome.ending.code)
