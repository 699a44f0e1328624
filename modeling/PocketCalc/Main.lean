import PocketCalc.Transcript
import Std.Time.Format

/-!
# The command

Prints a session with the symbols given as arguments.
-/

/-- The present moment. -/
def PocketCalc.Timestamp.present : IO PocketCalc.Timestamp := do
  let now := Std.Time.DateTime.ofTimestampWithZone (← Std.Time.Timestamp.now) .UTC
  let moment := PocketCalc.Timestamp.ofFields? now.year now.month.toNat now.day.toNat
    now.hour.toNat now.minute.toNat ⟨now.second.toNat, now.nanosecond.toNat⟩
  return moment.getD ⟨1970, 1, 1, 0, 0, 0, by decide⟩

def main (args : List String) : IO UInt32 := do
  let session := PocketCalc.Transcript.ofSymbols (← PocketCalc.Timestamp.present) args
  session.lines.forM IO.println
  match session.failure with
  | none => return 0
  | some error =>
    IO.eprintln (PocketCalc.Transcript.failureLine error)
    return 1
