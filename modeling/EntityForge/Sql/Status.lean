import EntityForge.Text.Digit

/-!
# Command status and channels

A database answers a command with a status such as `DELETE 3`, whose last word counts the rows
concerned, and notifies the listeners of a table over a channel of its own.
-/

namespace EntityForge.Sql

/-- The part of a text behind its last space. -/
def behindLastSpace (cs : List Char) : List Char := (cs.reverse.takeWhile (· ≠ ' ')).reverse

/-- The number of rows that a status reports, zero when it reports none. -/
def affectedRows (status : String) : Int :=
  (Text.readInt? (behindLastSpace status.toList)).getD 0

/-- The channel on which changes of a table are notified. -/
def channelName (table : String) : String := "entity_" ++ table

end EntityForge.Sql
