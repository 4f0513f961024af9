import Chip8.Session

/-!
# Histories of a session

What a host did with a session, call by call, with the time of each call, and what came of it.
-/

namespace Chip8.Session

abbrev History := List (Time × Call)

def replies (session : Session) : History → List Reply
  | [] => []
  | (now, call) :: rest =>
      let reply := session.call now call
      reply :: reply.session.replies rest

def after (session : Session) : History → Session
  | [] => session
  | (now, call) :: rest => (session.call now call).session.after rest

def linesOf (session : Session) (history : History) : List Log.Line :=
  (session.replies history).flatMap (·.lines)

def printedBy (session : Session) (history : History) : List String :=
  (session.replies history).flatMap (·.printed)

def resultsOf (session : Session) (history : History) : List (Option Nat) :=
  (session.replies history).map (·.result)

def faultsOf (session : Session) (history : History) : List (Option Fault) :=
  (session.replies history).map (·.fault)

end Chip8.Session
