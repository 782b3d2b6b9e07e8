import MailOutline.Outline

/-!
# The program

Prints the outline of the body structure that is its first argument or, without arguments, its
standard input.
-/

namespace MailOutline

/-- All bytes of a stream. -/
partial def readAll (stream : IO.FS.Stream) (read : ByteArray) : IO ByteArray := do
  let chunk ← stream.read 65536
  if chunk.isEmpty then return read else readAll stream (read ++ chunk)

/-- Prints a report. -/
def printReport (report : Outline.Report) : IO UInt32 := do
  (← IO.getStdout).putStr report.output
  (← IO.getStderr).putStr report.errors
  return report.exitCode

end MailOutline

/-- Prints the outline of its first argument or of its standard input. -/
def main (arguments : List String) : IO UInt32 := do
  match arguments with
  | text :: _ => MailOutline.printReport (MailOutline.Outline.ofText text)
  | [] =>
    let bytes ← MailOutline.readAll (← IO.getStdin) ByteArray.empty
    MailOutline.printReport (MailOutline.Outline.ofBytes bytes.data.toList)
