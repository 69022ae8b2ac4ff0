import Deskhub.Lib.OrdMap
import Mathlib.Data.List.Basic

/-!
# Deadlines of handshakes

`AuthDeadlines`: by when the connections that are not let in yet have to be, of which there may be
only so many at a time.
-/

namespace Deskhub

def kMaxPendingAuth : Nat := 8

structure AuthDeadlines where
  deadlines : OrdMap.Map UInt64 UInt64 := .empty

namespace AuthDeadlines

/-- `Admit`, with the capacity that the transport gives it. -/
def admitKey (s : AuthDeadlines) (key deadlineUs : UInt64) : Option AuthDeadlines :=
  if s.deadlines.contains key then some s
  else if kMaxPendingAuth ≤ s.deadlines.size then none
  else some { deadlines := s.deadlines.insert key deadlineUs }

def hasten (s : AuthDeadlines) (key deadlineUs : UInt64) : AuthDeadlines :=
  match s.deadlines.find? key with
  | none => { deadlines := s.deadlines.insert key deadlineUs }
  | some found => { deadlines := s.deadlines.insert key (min found deadlineUs) }

def forget (s : AuthDeadlines) (key : UInt64) : AuthDeadlines := { deadlines := s.deadlines.erase key }

def due (s : AuthDeadlines) (key nowUs : UInt64) : Bool :=
  match s.deadlines.find? key with
  | none => false
  | some found => found ≤ nowUs

def takeDue (s : AuthDeadlines) (nowUs : UInt64) : AuthDeadlines × List UInt64 :=
  ({ deadlines := s.deadlines.filter fun _ deadlineUs => nowUs < deadlineUs },
    (s.deadlines.entries.filter fun entry => entry.2 ≤ nowUs).map Prod.fst)

def clear (_ : AuthDeadlines) : AuthDeadlines := {}

end AuthDeadlines

end Deskhub
