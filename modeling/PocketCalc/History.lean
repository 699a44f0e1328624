import PocketCalc.Number.Format
import PocketCalc.Number.Literal
import PocketCalc.Text.Blank
import PocketCalc.Timestamp

/-!
# History

The log of completed computations, oldest first.  A log with a capacity forgets its
oldest entries.
-/

namespace PocketCalc

/-- A completed computation. -/
structure HistoryEntry where
  /-- The expression as it was shown. -/
  expression : String
  /-- The rounded result. -/
  result : Float
  recordedAt : Timestamp
deriving DecidableEq

namespace HistoryEntry

/-- An entry as a line of text. -/
def line (e : HistoryEntry) : String := e.expression ++ " = " ++ Number.format e.result

/-- Reads the result out of a line of text: what follows the first equals sign, without
blanks around it, if it is a finite number. -/
def parseResult (line : String) : Option Float :=
  match line.toList.dropWhile (· ≠ '=') with
  | [] => none
  | _ :: after => (Literal.read? (Blank.trim after)).filter Float.isFinite

end HistoryEntry

/-- The log, oldest entry first, with the number of entries it keeps, if limited. -/
structure History where
  entries : List HistoryEntry := []
  capacity : Option UInt64 := none
deriving DecidableEq

namespace History

/-- The log with an entry added and the oldest ones beyond the capacity dropped. -/
def record (h : History) (e : HistoryEntry) : History :=
  let entries := h.entries ++ [e]
  match h.capacity with
  | none => { h with entries }
  | some n => { h with entries := entries.drop (entries.length - n.toNat) }

def length (h : History) : Nat := h.entries.length

def isEmpty (h : History) : Bool := h.entries.isEmpty

/-- The entry at an index, counted from the oldest. -/
def get? (h : History) (index : UInt64) : Option HistoryEntry := h.entries[index.toNat]?

def last? (h : History) : Option HistoryEntry := h.entries.getLast?

/-- The entries as lines of text. -/
def lines (h : History) : List String := h.entries.map HistoryEntry.line

theorem capacity_record (h : History) (e : HistoryEntry) : (h.record e).capacity = h.capacity := by
  unfold record
  split <;> simp_all

/-- A log never grows beyond its capacity. -/
theorem length_record_le (h : History) (e : HistoryEntry) {n : UInt64} (hn : h.capacity = some n) :
    (h.record e).length ≤ n.toNat := by
  simp only [record, hn, length, List.length_drop]
  omega

end History
end PocketCalc
